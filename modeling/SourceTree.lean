import SourceTree.Bytecode
import SourceTree.Comments
import SourceTree.Compilation
import SourceTree.Constraint
import SourceTree.ContentCache
import SourceTree.Contract
import SourceTree.Decimal.Shortest
import SourceTree.Decimal.Written
import SourceTree.Detection
import SourceTree.Engine
import SourceTree.Engine.Drain
import SourceTree.Failure
import SourceTree.Fault
import SourceTree.FetchError
import SourceTree.ImportLookup
import SourceTree.ImportPath
import SourceTree.ImportStatement
import SourceTree.Interface
import SourceTree.Interface.Parameter
import SourceTree.Library
import SourceTree.Library.Catalog
import SourceTree.Library.Shape
import SourceTree.Listing
import SourceTree.LocalFiles
import SourceTree.Network
import SourceTree.Network.Fetch
import SourceTree.Pattern
import SourceTree.Pattern.Reader
import SourceTree.Pragma
import SourceTree.Preference
import SourceTree.Proofs.Comments
import SourceTree.Proofs.Compilation.Admission
import SourceTree.Proofs.Compilation.Answers
import SourceTree.Proofs.Compilation.Completeness
import SourceTree.Proofs.Compilation.Namesakes
import SourceTree.Proofs.Compilation.Output
import SourceTree.Proofs.Compilation.Requests
import SourceTree.Proofs.Compilation.Stages
import SourceTree.Proofs.Compilation.Timeouts
import SourceTree.Proofs.Detection.LastMatch
import SourceTree.Proofs.Detection.Markers
import SourceTree.Proofs.Engine.Asking
import SourceTree.Proofs.Engine.Books
import SourceTree.Proofs.Engine.Budget
import SourceTree.Proofs.Engine.Calls
import SourceTree.Proofs.Engine.Commuting
import SourceTree.Proofs.Engine.Comparison
import SourceTree.Proofs.Engine.Confinement
import SourceTree.Proofs.Engine.Coverage
import SourceTree.Proofs.Engine.Draining
import SourceTree.Proofs.Engine.Fallback
import SourceTree.Proofs.Engine.Fetching
import SourceTree.Proofs.Engine.Integrity
import SourceTree.Proofs.Engine.Lockstep
import SourceTree.Proofs.Engine.Moves
import SourceTree.Proofs.Engine.Outcomes
import SourceTree.Proofs.Engine.Permanence
import SourceTree.Proofs.Engine.Punctuality
import SourceTree.Proofs.Engine.Recall
import SourceTree.Proofs.Engine.Requests
import SourceTree.Proofs.Engine.SharedCache
import SourceTree.Proofs.Engine.Switching
import SourceTree.Proofs.Engine.Turns
import SourceTree.Proofs.Engine.Twins
import SourceTree.Proofs.Engine.Versions
import SourceTree.Proofs.ImportPath
import SourceTree.Proofs.ImportPath.Walking
import SourceTree.Proofs.ImportStatement.CommentedLayouts
import SourceTree.Proofs.ImportStatement.Layouts
import SourceTree.Proofs.ImportStatement.Statements
import SourceTree.Proofs.LocalFiles
import SourceTree.Proofs.LocalFiles.History
import SourceTree.Proofs.Network
import SourceTree.Proofs.Network.Retries
import SourceTree.Proofs.Pattern.Pieces
import SourceTree.Proofs.Pattern.Places
import SourceTree.Proofs.Pattern.Spelled
import SourceTree.Proofs.Pragma
import SourceTree.Proofs.Registration
import SourceTree.Proofs.Registration.LongestRoot
import SourceTree.Proofs.Release.BuildMark
import SourceTree.Proofs.Release.Order
import SourceTree.Proofs.Release.Reader
import SourceTree.Proofs.Resolution.Accounts
import SourceTree.Proofs.Resolution.Admission
import SourceTree.Proofs.Resolution.Again
import SourceTree.Proofs.Resolution.BreadthFirst
import SourceTree.Proofs.Resolution.Ceiling
import SourceTree.Proofs.Resolution.Closure
import SourceTree.Proofs.Resolution.Deadlines
import SourceTree.Proofs.Resolution.Discovery
import SourceTree.Proofs.Resolution.History
import SourceTree.Proofs.Resolution.Layers
import SourceTree.Proofs.Resolution.Lockstep
import SourceTree.Proofs.Resolution.Registration
import SourceTree.Proofs.Resolution.Schedules
import SourceTree.Proofs.Resolution.Seeds
import SourceTree.Proofs.Resolution.SharedCache
import SourceTree.Proofs.Resolution.Versions
import SourceTree.Proofs.Resolution.Workers
import SourceTree.Proofs.SourceClosure.Agreement
import SourceTree.Proofs.SourceClosure.Depth
import SourceTree.Proofs.SourceClosure.Ending
import SourceTree.Proofs.SourceClosure.FirstImports
import SourceTree.Proofs.SourceClosure.Progress
import SourceTree.Proofs.Toolchain
import SourceTree.Proofs.Value
import SourceTree.Registry
import SourceTree.Release
import SourceTree.Release.Reader
import SourceTree.Resolution
import SourceTree.ResolutionState
import SourceTree.Response
import SourceTree.Settings
import SourceTree.Settings.Shape
import SourceTree.SourceClosure
import SourceTree.SourceRequest
import SourceTree.Text.Character
import SourceTree.Text.Occurrence
import SourceTree.Text.Printable
import SourceTree.Text.Quoted
import SourceTree.Text.Word
import SourceTree.Timescale
import SourceTree.Toolchain
import SourceTree.Unexpected
import SourceTree.Value
import SourceTree.Value.Numeral
import SourceTree.Value.Part
import SourceTree.Value.Printer
import SourceTree.Value.Reader
import SourceTree.Value.Shape
import SourceTree.Value.Shown
