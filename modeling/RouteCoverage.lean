import RouteCoverage.Main
import RouteCoverage.Proofs.Coverage.Greedy
import RouteCoverage.Proofs.Dsl.Order
import RouteCoverage.Proofs.Dsl.Spelling
import RouteCoverage.Proofs.Trace.Merge
import RouteCoverage.Proofs.Dump.Reading
import RouteCoverage.Proofs.Dump.Count
import RouteCoverage.Proofs.Dump.Faults
import RouteCoverage.Proofs.Coverage.Runs
import RouteCoverage.Proofs.Run.Protocol
import RouteCoverage.Proofs.Run.Accounts
import RouteCoverage.Proofs.Run.Composition
import RouteCoverage.Proofs.Trace.Agreement
import RouteCoverage.Proofs.Files.Lookup
import RouteCoverage.Proofs.Dump.Directory
import RouteCoverage.Proofs.Dsl.Starts
import RouteCoverage.Proofs.Dump.RouteIds
import RouteCoverage.Proofs.Coverage.Optimal
import RouteCoverage.Proofs.Coverage.Levels
import RouteCoverage.Proofs.Dsl.Comments
import RouteCoverage.Proofs.Command.Closing
import RouteCoverage.Proofs.Command.Exit
import RouteCoverage.Proofs.Filter.Lists
import RouteCoverage.Proofs.Report.Reading
import RouteCoverage.Proofs.Pattern.Locality
import RouteCoverage.Proofs.Pattern.Places
import RouteCoverage.Proofs.Pattern.Reading
import RouteCoverage.Proofs.Pattern.Anchoring
import RouteCoverage.Proofs.Pattern.Wildcards
import RouteCoverage.Proofs.Settings.History
import RouteCoverage.Proofs.Text.ByteOrder
import RouteCoverage.Proofs.Files.Names
import RouteCoverage.Proofs.Files.Relisting
import RouteCoverage.Proofs.Discovery.Roots
import RouteCoverage.Proofs.Files.Remainder
import RouteCoverage.Proofs.Filter.Roots
import RouteCoverage.Proofs.Dsl.Outwards
import RouteCoverage.Proofs.Dump.Inspection
import RouteCoverage.Proofs.Dsl.Drafts
import RouteCoverage.Proofs.Files.Writing
import RouteCoverage.Proofs.Log.ReadBack
import RouteCoverage.Proofs.Command.Independence
