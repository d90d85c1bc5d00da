import TrafficWatch.CommandLine

/-!
# Command line — Help

What is said about the program and its options to those who ask, and to those whose arguments are
refused.
-/

namespace TrafficWatch.CommandLine

/-- The name of the program. -/
def programName : String := "aegis-gateway"

/-- The line about the version. -/
def versionLine : String := programName ++ " 0.4.0"

/-- What the program is. -/
def about : String := "Aegis API gateway anomaly detection engine"

/-- How the program is called. -/
def usageLine : String := s!"Usage: {programName} [OPTIONS]"

/-- All options, with what each of them does. -/
def optionLines : List String := [
  "  -c, --config <CONFIG>                  設定ファイル（TOML）",
  "      --replay <REPLAY>                  起動時に投入する特徴イベント（JSON Lines）",
  "      --log-level <LOG_LEVEL>            ログレベル（設定ファイルより優先）",
  "      --drain-interval <DRAIN_INTERVAL>  検知済み異常を回収する間隔（秒） [default: 5]",
  "      --print-sample-config              サンプル設定を出力して終了",
  "  -h, --help                             Print help",
  "  -V, --version                          Print version"]

/-- The lines for those who ask for help. -/
def helpLines : List String :=
  [about, "", usageLine, "", "Options:"] ++ optionLines

namespace Refusal

/-- Why the arguments are refused. -/
def reason : Refusal → String
  | unknownArgument => "unexpected argument found"
  | invalidValue => "a value is required for an option but none was supplied"
  | valueValidation => "invalid value for an option"
  | tooManyValues => "unexpected value for an option that takes none"
  | argumentConflict => "an option cannot be used multiple times"
  | displayHelp => "help"
  | displayVersion => "version"

/-- Whether those who gave the arguments have asked for what is said. -/
def isAnswer : Refusal → Bool
  | displayHelp | displayVersion => true
  | _ => false

/-- What is said. -/
def lines : Refusal → List String
  | displayHelp => helpLines
  | displayVersion => [versionLine]
  | r => ["error: " ++ r.reason, "", usageLine, "", "For more information, try '--help'."]

end Refusal

end TrafficWatch.CommandLine
