import MasCheck.Text.Bytes
import MasCheck.Text.Cells
import MasCheck.Text.Identifier
import MasCheck.Text.Number
import MasCheck.Text.Path
import MasCheck.Text.Quoted
import MasCheck.Source.Span
import MasCheck.Source.Map
import MasCheck.Source.Lines
import MasCheck.Json.Reader
import MasCheck.Json.Printer
import MasCheck.Token.Layout
import MasCheck.Token.Repair
import MasCheck.Token.Scanner
import MasCheck.Diagnostic.Collector
import MasCheck.Diagnostic.Relay
import MasCheck.Diagnostic.Excerpt
import MasCheck.Grammar.Unit
import MasCheck.Grammar.Delivery
import MasCheck.Tree.Encoding
import MasCheck.Symbol.Graph
import MasCheck.Resource.Memory
import MasCheck.Resource.Disk
import MasCheck.Analysis.Options
import MasCheck.Analysis.Mas
import MasCheck.Analysis.Script
import MasCheck.Report
import MasCheck.TokenDump
import MasCheck.Main
import MasCheck.Proofs.Lists.Basic
import MasCheck.Proofs.Lists.Chosen
import MasCheck.Proofs.Grammar.Production
import MasCheck.Proofs.Grammar.StrictMas
import MasCheck.Proofs.Grammar.StrictScript
import MasCheck.Proofs.Grammar.CleanRun
import MasCheck.Proofs.Grammar.RecoveryFree
import MasCheck.Proofs.Grammar.MasRealization
import MasCheck.Proofs.Grammar.Term
import MasCheck.Proofs.Grammar.ScriptRealization
import MasCheck.Proofs.Grammar.Acceptance
import MasCheck.Proofs.Analysis.Validity
import MasCheck.Proofs.Grammar.TargetTokens
import MasCheck.Proofs.Token.Order
import MasCheck.Proofs.Analysis.Findings
import MasCheck.Proofs.Analysis.UndeclaredTargets
import MasCheck.Proofs.Grammar.Confined
import MasCheck.Proofs.Grammar.ConfinedRules
import MasCheck.Proofs.Grammar.Mending
import MasCheck.Proofs.Grammar.MendedUnit
import MasCheck.Proofs.Diagnostic.Collected
import MasCheck.Proofs.Grammar.Loose
import MasCheck.Proofs.Grammar.Scattered
import MasCheck.Proofs.Tree.Spans
import MasCheck.Proofs.Grammar.Provenance
import MasCheck.Proofs.Diagnostic.Scanned
import MasCheck.Proofs.Grammar.EarlyFailure
import MasCheck.Proofs.Text.Slices
import MasCheck.Proofs.Token.Padding
import MasCheck.Proofs.Token.Lossless
import MasCheck.Proofs.Token.Runs
import MasCheck.Proofs.Token.Scanning
import MasCheck.Proofs.Symbol.DirectResolution
import MasCheck.Proofs.Analysis.Sites
import MasCheck.Proofs.Diagnostic.Relayed
import MasCheck.Proofs.Report.Gate
import MasCheck.Proofs.Source.Columns
import MasCheck.Proofs.Diagnostic.Sorting
import MasCheck.Proofs.Report.Listing
import MasCheck.Proofs.Analysis.TestedAgents
import MasCheck.Proofs.Analysis.UnusedFiles
import MasCheck.Proofs.Token.Rereading
import MasCheck.Proofs.Token.Joining
import MasCheck.Proofs.Token.Lines
import MasCheck.Proofs.Token.Comments
import MasCheck.Proofs.Token.ClosedQuotes
import MasCheck.Proofs.Tree.Erasure
import MasCheck.Proofs.Grammar.Parallel
import MasCheck.Proofs.Grammar.ParallelRules
import MasCheck.Proofs.Diagnostic.SameTokens
import MasCheck.Proofs.Grammar.Telling
import MasCheck.Proofs.Grammar.Vocabulary
import MasCheck.Proofs.Diagnostic.Wording
import MasCheck.Proofs.Diagnostic.Placeholders
import MasCheck.Proofs.Diagnostic.Templates
import MasCheck.Proofs.Diagnostic.Rendering
import MasCheck.Proofs.Report.Messages
import MasCheck.Proofs.Source.ScreenLines
import MasCheck.Proofs.Report.Headings
import MasCheck.Proofs.Analysis.FindingKinds
import MasCheck.Proofs.Analysis.Counts
import MasCheck.Proofs.Analysis.Probing
import MasCheck.Proofs.Report.Choices
import MasCheck.Proofs.Tree.RoundTrip
import MasCheck.Proofs.Json.Written
import MasCheck.Proofs.Json.RoundTrip
import MasCheck.Proofs.Analysis.Placeless
import MasCheck.Proofs.Report.SectionOrder
import MasCheck.Proofs.Diagnostic.ReportedOnce
import MasCheck.Proofs.Diagnostic.MarkAlone
import MasCheck.Proofs.Analysis.RepeatedNames
import MasCheck.Proofs.Grammar.Progress
import MasCheck.Proofs.Grammar.Recursion
import MasCheck.Proofs.Grammar.Plan
import MasCheck.Proofs.Grammar.Termination
