import ScriptConsole.Session
import ScriptConsole.Expr.Outline
import ScriptConsole.Trace.Reader
import ScriptConsole.Host.Demo
import ScriptConsole.Host.Scripted
import ScriptConsole.Value.Constant
import ScriptConsole.Main
import ScriptConsole.Proofs.Syntax.Soundness
import ScriptConsole.Proofs.Syntax.Nesting
import ScriptConsole.Proofs.Syntax.Completeness
import ScriptConsole.Proofs.Evaluation.History
import ScriptConsole.Proofs.Evaluation.Simple
import ScriptConsole.Proofs.Evaluation.Quiet
import ScriptConsole.Proofs.Evaluation.Steps
import ScriptConsole.Proofs.Evaluation.Exits
import ScriptConsole.Proofs.Evaluation.Unwinding
import ScriptConsole.Proofs.Frames.Growth
import ScriptConsole.Proofs.Frames.Evaluation
import ScriptConsole.Proofs.Frames.Orderly
import ScriptConsole.Proofs.Frames.Globals
import ScriptConsole.Proofs.Frames.Isolation
import ScriptConsole.Proofs.Evaluation.Depth
import ScriptConsole.Proofs.Session.CallDepth
import ScriptConsole.Proofs.Tracing.Arrivals
import ScriptConsole.Proofs.Tracing.Ledger
import ScriptConsole.Proofs.Tracing.Records
import ScriptConsole.Proofs.Host.Callables
import ScriptConsole.Proofs.Tracing.Sessions
import ScriptConsole.Proofs.Tracing.Transparent
import ScriptConsole.Proofs.Tracing.Faithful
import ScriptConsole.Proofs.Tracing.LifeCycle
import ScriptConsole.Proofs.Syntax.Sources
import ScriptConsole.Proofs.Session.Lines
import ScriptConsole.Proofs.Evaluation.Budget
import ScriptConsole.Proofs.Evaluation.Shapes
import ScriptConsole.Proofs.Host.Blind
import ScriptConsole.Proofs.Evaluation.Alike
import ScriptConsole.Proofs.Session.Sequence
import ScriptConsole.Proofs.Evaluation.Accepted
import ScriptConsole.Proofs.Evaluation.Exact
import ScriptConsole.Proofs.Session.Safety
import ScriptConsole.Proofs.Syntax.TreeDepth
import ScriptConsole.Proofs.Session.Limits
import ScriptConsole.Proofs.Session.Ending
import ScriptConsole.Proofs.Session.Scopes
import ScriptConsole.Proofs.Host.Selection
import ScriptConsole.Proofs.Lexing.Longest
import ScriptConsole.Proofs.Lexing.Tiling
import ScriptConsole.Proofs.Syntax.Nodes
import ScriptConsole.Proofs.Syntax.Spans
import ScriptConsole.Proofs.Syntax.Prefixes
import ScriptConsole.Proofs.Host.Accessors
import ScriptConsole.Proofs.Host.CalledPaths
import ScriptConsole.Proofs.Values.Integers
import ScriptConsole.Proofs.Values.Comparisons
import ScriptConsole.Proofs.Values.Equality
import ScriptConsole.Proofs.Session.SourceForms
import ScriptConsole.Proofs.Evaluation.Sequences
import ScriptConsole.Proofs.Evaluation.Printing
import ScriptConsole.Proofs.Session.Input
import ScriptConsole.Proofs.Tracing.Losses
import ScriptConsole.Proofs.Tracing.Legible
import ScriptConsole.Proofs.Tracing.HashedTexts
import ScriptConsole.Proofs.Lexing.Flaws
import ScriptConsole.Proofs.Session.Sizes
import ScriptConsole.Proofs.Host.Players
import ScriptConsole.Proofs.Syntax.Progress
import ScriptConsole.Proofs.Session.Identities
