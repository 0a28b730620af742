import ConfigUpkeep.Text
import ConfigUpkeep.Document.Table
import ConfigUpkeep.Document.Line
import ConfigUpkeep.OrderedMap
import ConfigUpkeep.Document.Entry
import ConfigUpkeep.Document.Alias
import ConfigUpkeep.Document.Values
import ConfigUpkeep.Document.Layout
import ConfigUpkeep.Document.Repair
import ConfigUpkeep.Document.Migration
import ConfigUpkeep.Decimal
import ConfigUpkeep.Decimal.Shortest
import ConfigUpkeep.Json
import ConfigUpkeep.Json.Reader
import ConfigUpkeep.Text.Utf8
import ConfigUpkeep.Path
import ConfigUpkeep.Calendar
import ConfigUpkeep.Settings
import ConfigUpkeep.Settings.Environment
import ConfigUpkeep.Failure
import ConfigUpkeep.Journal
import ConfigUpkeep.Journal.Display
import ConfigUpkeep.Disk
import ConfigUpkeep.Backup
import ConfigUpkeep.Command
import ConfigUpkeep.Document.Revision
import ConfigUpkeep.Template
import ConfigUpkeep.Invocation
import ConfigUpkeep.Run
import ConfigUpkeep.Main
import ConfigUpkeep.Proofs.Reading
import ConfigUpkeep.Proofs.Walk
import ConfigUpkeep.Proofs.BundledTemplate
import ConfigUpkeep.Proofs.Normalization
import ConfigUpkeep.Proofs.Agreement
import ConfigUpkeep.Proofs.Confluence
import ConfigUpkeep.Proofs.PathNames
import ConfigUpkeep.Proofs.BackupPath
import ConfigUpkeep.Proofs.AllOrBackup
import ConfigUpkeep.Proofs.History
import ConfigUpkeep.Proofs.Mending
import ConfigUpkeep.Proofs.Fidelity
import ConfigUpkeep.Proofs.Segments
import ConfigUpkeep.Proofs.Version
import ConfigUpkeep.Proofs.Outline
import ConfigUpkeep.Proofs.Room
import ConfigUpkeep.Proofs.Resolution
import ConfigUpkeep.Proofs.JsonRoundTrip
import ConfigUpkeep.Proofs.Account
import ConfigUpkeep.Proofs.DryRun
import ConfigUpkeep.Proofs.Appearance
import ConfigUpkeep.Proofs.Recheck
import ConfigUpkeep.Proofs.Edits
import ConfigUpkeep.Proofs.Steering
import ConfigUpkeep.Proofs.Recognition
import ConfigUpkeep.Proofs.JsonLines
import ConfigUpkeep.Proofs.Streams
import ConfigUpkeep.Proofs.Transcription
import ConfigUpkeep.Proofs.Conflicts
import ConfigUpkeep.Proofs.Rearrangement
import ConfigUpkeep.Proofs.Chains
import ConfigUpkeep.Proofs.Insertion
import ConfigUpkeep.Proofs.Diagnosis
import ConfigUpkeep.Proofs.Conversion
import ConfigUpkeep.Proofs.CanonicalPaths
import ConfigUpkeep.Proofs.Hoisting
import ConfigUpkeep.Proofs.Progress
