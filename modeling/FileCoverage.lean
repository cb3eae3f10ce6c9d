import FileCoverage.Analysis
import FileCoverage.Build.Artifact
import FileCoverage.Build.Command
import FileCoverage.Build.Duration
import FileCoverage.Build.Failure
import FileCoverage.Build.History
import FileCoverage.Build.Interruption
import FileCoverage.Build.Process
import FileCoverage.Build.Runner
import FileCoverage.Build.Waiting
import FileCoverage.CommandLine.Command
import FileCoverage.CommandLine.Execution
import FileCoverage.CommandLine.LogLevel
import FileCoverage.CommandLine.RunOptions
import FileCoverage.CommandLine.Toolkit
import FileCoverage.Coverage.Merge
import FileCoverage.Coverage.Percentage
import FileCoverage.Environment.Loading
import FileCoverage.Environment.Settings
import FileCoverage.Environment.ShellWords
import FileCoverage.Environment.Variables
import FileCoverage.Event
import FileCoverage.Exemption.Dataset
import FileCoverage.Exemption.Registry
import FileCoverage.Exemption.TextForm
import FileCoverage.FileTree.Directory
import FileCoverage.FileTree.Listing
import FileCoverage.FileTree.Workspace
import FileCoverage.Json.Display
import FileCoverage.Json.Fault
import FileCoverage.Json.Printer
import FileCoverage.Json.Quoted
import FileCoverage.Json.Reader
import FileCoverage.Json.Scan
import FileCoverage.Json.Symbol
import FileCoverage.Json.Value
import FileCoverage.KeyedList
import FileCoverage.Layout.Convention
import FileCoverage.Layout.Target
import FileCoverage.Lcov.Hits
import FileCoverage.Lcov.Lookup
import FileCoverage.Lcov.Printer
import FileCoverage.Lcov.Tracefile
import FileCoverage.LineState
import FileCoverage.Main
import FileCoverage.Number.Binary64
import FileCoverage.Number.Layout
import FileCoverage.Number.Numeral
import FileCoverage.Path.Basic
import FileCoverage.Path.Repository
import FileCoverage.PresenceCheck
import FileCoverage.Report.Format
import FileCoverage.Report.Html
import FileCoverage.Report.Location
import FileCoverage.Report.Markdown
import FileCoverage.Report.Render
import FileCoverage.Resolution
import FileCoverage.Source
import FileCoverage.Standard.ControlSequence
import FileCoverage.Standard.EnvFile
import FileCoverage.Standard.EnvLoader
import FileCoverage.Standard.Interpolation
import FileCoverage.Standard.Request
import FileCoverage.Standard.Scan
import FileCoverage.Standard.Similarity
import FileCoverage.Standard.Toolkit
import FileCoverage.Standard.Usage
import FileCoverage.Text.Basic
import FileCoverage.Text.Blank
import FileCoverage.Text.Digit
import FileCoverage.Text.Lines
import FileCoverage.Text.Quoted
import FileCoverage.Text.Rest
import FileCoverage.Text.Unprintable
import FileCoverage.Text.Utf8
import FileCoverage.Proofs.InterruptSafety
import FileCoverage.Proofs.Except
import FileCoverage.Proofs.KeyedList
import FileCoverage.Proofs.Tracefile
import FileCoverage.Build.Pool
import FileCoverage.Proofs.RunOrder
import FileCoverage.Proofs.WorkerOrder
import FileCoverage.Proofs.LineEvidence
import FileCoverage.Proofs.LineUnion
import FileCoverage.Proofs.Pieces
import FileCoverage.Proofs.RecordSum
import FileCoverage.Proofs.AnalysisExit
import FileCoverage.Proofs.FileFrame
import FileCoverage.Proofs.ReportFrame
import FileCoverage.Proofs.Utf8RoundTrip
import FileCoverage.Proofs.JsonPrint
import FileCoverage.Proofs.JsonRoundTrip
import FileCoverage.Proofs.DatasetRoundTrip
import FileCoverage.Proofs.AnalysisEscape
import FileCoverage.Proofs.RunContract
import FileCoverage.Proofs.RespelledPath
import FileCoverage.Proofs.PathTreatment
import FileCoverage.Proofs.Attribution
import FileCoverage.Proofs.InFlight
import FileCoverage.Proofs.WaitingTime
import FileCoverage.Proofs.CallHistory
import FileCoverage.Proofs.LongNumeral
import FileCoverage.Proofs.DatasetLoading
import FileCoverage.Proofs.MergedCoverage
import FileCoverage.Proofs.CanonicalPath
import FileCoverage.Proofs.TracefileSections
import FileCoverage.Proofs.TestName
import FileCoverage.Proofs.NearestFolder
import FileCoverage.Proofs.LayoutInverse
import FileCoverage.Proofs.DecimalText
import FileCoverage.Proofs.TracefileRoundTrip
import FileCoverage.Proofs.ExactPercentage
import FileCoverage.Proofs.TestCandidates
import FileCoverage.Proofs.PathEnding
import FileCoverage.Proofs.PresenceByName
import FileCoverage.Proofs.StablePath
import FileCoverage.Proofs.ListingOrder
import FileCoverage.Proofs.SearchedFiles
import FileCoverage.Proofs.PresenceChanges
import FileCoverage.Proofs.PresenceOfResolved
import FileCoverage.Proofs.SourceLines
import FileCoverage.Proofs.RegistryText
import FileCoverage.Proofs.HtmlReading
import FileCoverage.Proofs.ReportPath
import FileCoverage.Proofs.NamedTracefile
import FileCoverage.Proofs.RunOptionOrder
import FileCoverage.Proofs.Replacement
import FileCoverage.Proofs.Placeholders
import FileCoverage.Proofs.ProperWriting
import FileCoverage.Proofs.ReportsApart
import FileCoverage.Proofs.ListedEntries
import FileCoverage.Proofs.TargetsApart
