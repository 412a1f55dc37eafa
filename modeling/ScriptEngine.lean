import ScriptEngine.Json.Reader
import ScriptEngine.Main
import ScriptEngine.Proofs.Command.Table
import ScriptEngine.Proofs.Direct.Lowering
import ScriptEngine.Proofs.Loops.Stack
import ScriptEngine.Proofs.Machine.Effects
import ScriptEngine.Proofs.Machine.Failures
import ScriptEngine.Proofs.Machine.Independence
import ScriptEngine.Proofs.Machine.Results
import ScriptEngine.Proofs.Machine.Spans
import ScriptEngine.Proofs.Machine.Surroundings
import ScriptEngine.Proofs.NumberFormat.Literals
import ScriptEngine.Proofs.NumberFormat.Passes
import ScriptEngine.Proofs.NumberFormat.Words
import ScriptEngine.Proofs.Script.Acceptance
import ScriptEngine.Proofs.Script.Signature
import ScriptEngine.Proofs.Timers.Background
import ScriptEngine.Proofs.Timers.Ticks
import ScriptEngine.Proofs.Trial.Repetition
import ScriptEngine.Proofs.Value.Json
import ScriptEngine.Script.Json
import ScriptEngine.Trial.Run
import ScriptEngine.Proofs.Command.Acceptance
import ScriptEngine.Proofs.Loops.Order
import ScriptEngine.Proofs.NumberFormat.Acceptance
import ScriptEngine.Proofs.NumberFormat.Grouping
import ScriptEngine.Proofs.Command.Bounds
import ScriptEngine.Proofs.Script.Locals
import ScriptEngine.Proofs.Markup.Stretches
import ScriptEngine.Proofs.Trial.Clock
import ScriptEngine.Proofs.Markup.Text
import ScriptEngine.Proofs.Script.Expressions
import ScriptEngine.Proofs.Command.Browser
import ScriptEngine.Proofs.Text.Bytes
import ScriptEngine.Proofs.Text.Html
import ScriptEngine.Proofs.Script.Loading
import ScriptEngine.Proofs.Trial.Comparison
import ScriptEngine.Proofs.Script.Layout
