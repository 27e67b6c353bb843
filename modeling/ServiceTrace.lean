import ServiceTrace.Analysis
import ServiceTrace.Ast.Basic
import ServiceTrace.Ast.Calls
import ServiceTrace.Ast.Declarations
import ServiceTrace.Ast.Export
import ServiceTrace.CommandLine.Args
import ServiceTrace.CommandLine.Run
import ServiceTrace.Error
import ServiceTrace.FileTree.Basic
import ServiceTrace.FileTree.Ignore
import ServiceTrace.FileTree.Modules
import ServiceTrace.FileTree.Scan
import ServiceTrace.FileTree.Snapshot
import ServiceTrace.Flow.Basic
import ServiceTrace.Flow.Discovery
import ServiceTrace.Flow.Marker
import ServiceTrace.Glob.Basic
import ServiceTrace.Glob.Match
import ServiceTrace.Graph.Basic
import ServiceTrace.Graph.Build
import ServiceTrace.Graph.Walk
import ServiceTrace.Import.Table
import ServiceTrace.Json.Basic
import ServiceTrace.Json.Numeral
import ServiceTrace.Json.Printer
import ServiceTrace.Json.Reader
import ServiceTrace.Main
import ServiceTrace.ModuleName
import ServiceTrace.NameSet
import ServiceTrace.ParseTree.Basic
import ServiceTrace.ParseTree.Literal
import ServiceTrace.ParseTree.Lowering
import ServiceTrace.Path
import ServiceTrace.Proofs.Ast.Declared
import ServiceTrace.Proofs.Ast.HasCall
import ServiceTrace.Proofs.Ast.Listing
import ServiceTrace.Proofs.Ast.Traversal
import ServiceTrace.Proofs.Ast.Visit
import ServiceTrace.Proofs.FileTree.Entry
import ServiceTrace.Proofs.FileTree.Locate
import ServiceTrace.Proofs.FileTree.Lookup
import ServiceTrace.Proofs.Flow.Pairing
import ServiceTrace.Proofs.Flow.Stability
import ServiceTrace.Proofs.Flow.Start
import ServiceTrace.Proofs.Graph.Allotment
import ServiceTrace.Proofs.Graph.CallLog
import ServiceTrace.Proofs.Graph.Coherence
import ServiceTrace.Proofs.Graph.Coverage
import ServiceTrace.Proofs.Graph.DepthFirst
import ServiceTrace.Proofs.Graph.Draft
import ServiceTrace.Proofs.Graph.External
import ServiceTrace.Proofs.Graph.Ownership
import ServiceTrace.Proofs.Graph.Recorded
import ServiceTrace.Proofs.Graph.Renaming
import ServiceTrace.Proofs.Graph.RouteChain
import ServiceTrace.Proofs.Graph.ShownRoute
import ServiceTrace.Proofs.Graph.Termination
import ServiceTrace.Proofs.Graph.Unread
import ServiceTrace.Proofs.Graph.WellFormed
import ServiceTrace.Proofs.Graph.Written
import ServiceTrace.Proofs.Import.Bindings
import ServiceTrace.Proofs.Import.Longest
import ServiceTrace.Proofs.Import.Marks
import ServiceTrace.Proofs.Import.Selection
import ServiceTrace.Proofs.Import.Shadowing
import ServiceTrace.Proofs.Json.Numeral
import ServiceTrace.Proofs.Json.RoundTrip
import ServiceTrace.Proofs.Json.Scanner
import ServiceTrace.Proofs.Module.Names
import ServiceTrace.Proofs.ParseTree.Grammar
import ServiceTrace.Proofs.ParseTree.Kept
import ServiceTrace.Proofs.ParseTree.Layout
import ServiceTrace.Proofs.ParseTree.Reachable
import ServiceTrace.Proofs.ParseTree.Role
import ServiceTrace.Proofs.Path.Joined
import ServiceTrace.Proofs.Prune.Composition
import ServiceTrace.Proofs.Prune.Rebuild
import ServiceTrace.Proofs.Prune.Reduced
import ServiceTrace.Proofs.Prune.Survival
import ServiceTrace.Proofs.Route.Annotate
import ServiceTrace.Proofs.Route.Display
import ServiceTrace.Proofs.Route.Host
import ServiceTrace.Proofs.Route.Leaves
import ServiceTrace.Proofs.Route.Lookup
import ServiceTrace.Proofs.Route.Normal
import ServiceTrace.Proofs.Route.Pieces
import ServiceTrace.Proofs.Route.Query
import ServiceTrace.Proofs.Route.Regex
import ServiceTrace.Proofs.Route.Reload
import ServiceTrace.Proofs.Route.Template
import ServiceTrace.Proofs.Text.Split
import ServiceTrace.Proofs.Trace.Closure
import ServiceTrace.Proofs.Trace.Exploration
import ServiceTrace.Proofs.Trace.Failures
import ServiceTrace.Proofs.Trace.Notes
import ServiceTrace.Proofs.Trace.Settled
import ServiceTrace.Proofs.Trace.Source
import ServiceTrace.Proofs.Trace.Termination
import ServiceTrace.Proofs.Trace.Usage
import ServiceTrace.Prune
import ServiceTrace.Route.Basic
import ServiceTrace.Route.Catalog
import ServiceTrace.Route.Client
import ServiceTrace.Route.Discovery
import ServiceTrace.Route.Endpoint
import ServiceTrace.Route.Template
import ServiceTrace.Settings
import ServiceTrace.Text.Blank
import ServiceTrace.Text.Digits
import ServiceTrace.Text.Printable
import ServiceTrace.Text.Quoted
import ServiceTrace.Text.Split
import ServiceTrace.Trace.Basic
import ServiceTrace.Trace.Explore
import ServiceTrace.Trace.Program
