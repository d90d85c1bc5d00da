import TrafficWatch.Baseline.Buffer
import TrafficWatch.Baseline.Features
import TrafficWatch.Baseline.Quantile
import TrafficWatch.Baseline.Statistics
import TrafficWatch.CommandLine
import TrafficWatch.CommandLine.Help
import TrafficWatch.Decimal.Binary
import TrafficWatch.Decimal.Layout
import TrafficWatch.Decimal.Nearest
import TrafficWatch.Decimal.Shortest
import TrafficWatch.Detector
import TrafficWatch.Engine
import TrafficWatch.Event.Basic
import TrafficWatch.Event.Entropy
import TrafficWatch.Event.Queue
import TrafficWatch.Event.Route
import TrafficWatch.Event.Text
import TrafficWatch.Failure
import TrafficWatch.Files.ModelStore
import TrafficWatch.Files.Path
import TrafficWatch.Files.Tree
import TrafficWatch.Json.Document
import TrafficWatch.Json.Reader
import TrafficWatch.Json.Value
import TrafficWatch.Learner.Active
import TrafficWatch.Learner.Archive
import TrafficWatch.Learner.Basic
import TrafficWatch.Learner.Calibration
import TrafficWatch.Learner.Notice
import TrafficWatch.Learner.Outcome
import TrafficWatch.Learner.Text
import TrafficWatch.Ledger.Basic
import TrafficWatch.Ledger.Text
import TrafficWatch.Log.Line
import TrafficWatch.Log.Settings
import TrafficWatch.Main
import TrafficWatch.Metrics.Basic
import TrafficWatch.Metrics.Exposition
import TrafficWatch.Pca.Fit
import TrafficWatch.Pca.Model
import TrafficWatch.Pca.Rotation
import TrafficWatch.Pca.ScorerPool
import TrafficWatch.Pca.Text
import TrafficWatch.Pipeline
import TrafficWatch.Power
import TrafficWatch.Proofs.Files.ModelStore
import TrafficWatch.Proofs.Learner.Phases
import TrafficWatch.Proofs.Learner.Restart
import TrafficWatch.Proofs.Rules.Verdict
import TrafficWatch.Replay
import TrafficWatch.Rules.Detector
import TrafficWatch.Rules.Window
import TrafficWatch.Rules.WindowHandles
import TrafficWatch.Rules.WindowStore
import TrafficWatch.Scalar
import TrafficWatch.Settings.Basic
import TrafficWatch.Settings.Tree
import TrafficWatch.Settings.Validity
import TrafficWatch.Setup.Basic
import TrafficWatch.Setup.Environment
import TrafficWatch.Setup.Node
import TrafficWatch.Setup.Reading
import TrafficWatch.Setup.Sample
import TrafficWatch.Setup.Sources
import TrafficWatch.Setup.Way
import TrafficWatch.Tally
import TrafficWatch.Text.Blank
import TrafficWatch.Text.Bytes
import TrafficWatch.Text.Lines
import TrafficWatch.Text.Quoted
import TrafficWatch.Text.Visible
import TrafficWatch.Time.Calendar
import TrafficWatch.Time.Instant
import TrafficWatch.Toml.Draft
import TrafficWatch.Toml.Moment
import TrafficWatch.Toml.Printer
import TrafficWatch.Toml.Reader
import TrafficWatch.Toml.Token
import TrafficWatch.TotalOrder
import TrafficWatch.Verdict
import TrafficWatch.Proofs.Learner.Cases
import TrafficWatch.Proofs.Settings.Validity
import TrafficWatch.Proofs.Learner.Remembered
import TrafficWatch.Proofs.Learner.WarmUp
import TrafficWatch.Proofs.Learner.Reachable
import TrafficWatch.Proofs.Learner.Unchanged
import TrafficWatch.Proofs.Pca.Sound
import TrafficWatch.Proofs.Pca.ScorerPool
import TrafficWatch.Proofs.Setup.Precedence
import TrafficWatch.Proofs.Pca.Score
import TrafficWatch.Proofs.Learner.Sound
import TrafficWatch.Proofs.Double.Order
import TrafficWatch.Proofs.Double.Value
import TrafficWatch.Proofs.Event.Queue
import TrafficWatch.Proofs.Rules.Isolation
import TrafficWatch.Proofs.Baseline.Quantile
import TrafficWatch.Proofs.Learner.FalsePositives
import TrafficWatch.Proofs.Learner.OnTime
import TrafficWatch.Proofs.Ledger
import TrafficWatch.Proofs.Detector
import TrafficWatch.Proofs.Transcript
import TrafficWatch.Proofs.Detector.Hybrid
import TrafficWatch.Proofs.Pipeline
import TrafficWatch.Proofs.Engine
import TrafficWatch.Proofs.Learner.Detached
import TrafficWatch.Proofs.Files.Load
import TrafficWatch.Proofs.Rules.WindowHandles
import TrafficWatch.Proofs.Rules.Recording
import TrafficWatch.Proofs.Rules.Staleness
import TrafficWatch.Proofs.Rules.Expiry
import TrafficWatch.Proofs.Learner.CallBack
import TrafficWatch.Proofs.Replay
import TrafficWatch.Proofs.Double.Compare
import TrafficWatch.Proofs.Settings.Exactness
import TrafficWatch.Proofs.Baseline.OrderStatistic
import TrafficWatch.Proofs.Pca.Rotation
import TrafficWatch.Proofs.Scalar
import TrafficWatch.Proofs.Pca.Plane
import TrafficWatch.Proofs.Pca.Jacobi
import TrafficWatch.Proofs.Pca.Fit
import TrafficWatch.Proofs.Event.Route
import TrafficWatch.Proofs.Baseline.Stays
