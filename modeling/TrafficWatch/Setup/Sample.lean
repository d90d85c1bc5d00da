import TrafficWatch.Setup.Basic
import TrafficWatch.Toml.Printer

/-!
# Setup — Sample

A configuration file to start from: the usual values with both detectors at work and a place to keep
the model, between notes for those who edit it.
-/

namespace TrafficWatch.Setup

/-- The configuration that the sample describes, on a machine with so many processors. -/
def sample (processors : Nat) : Setup where
  detection :=
    { Settings.usual processors with mode := .hybrid, paths := some (.inDirectory "data") }

/-- The notes before the values. -/
def sampleOpening : List String := [
  "# Aegis Gateway Configuration File",
  "#",
  "# このファイルは aegis.toml として保存してください",
  "# 環境変数での上書きも可能です (例: AEGIS_DETECTION__MODE=ml, AEGIS_LOG__LEVEL=debug)",
  ""]

/-- The notes after the values. -/
def sampleClosing : List String := [
  "",
  "# 設定説明:",
  "#",
  "# [detection]",
  "# mode = rules | ml | hybrid",
  "# rps_threshold / four_xx_threshold / five_xx_threshold / waf_threshold = " ++
    "ウィンドウ内のしきい値（超過で検知）",
  "# ua_entropy_threshold = User-Agent エントロピーの下限（bit）",
  "# algorithm = pca（isolation_forest は未対応で起動時エラー）",
  "# baseline_sample_size = 学習開始に必要なクリーンサンプル数",
  "# score_quantile = しきい値に使う学習スコアの分位点",
  "# min_variance_guard = これ未満の分散ではRPSによるフォールバック判定を使う",
  "#",
  "# [detection.persistence]",
  "# model_path / threshold_path / fallback_marker_path = 学習結果の保存先（省略時はメモリのみ）"]

/-- The lines of the sample. -/
def sampleLines (processors : Nat) : List String :=
  sampleOpening ++ (Toml.documentLines (sample processors).toNode.members).map String.ofList ++
    sampleClosing

/-- The text of the sample. -/
def sampleText (processors : Nat) : String :=
  String.join ((sampleLines processors).map (· ++ "\n"))

end TrafficWatch.Setup
