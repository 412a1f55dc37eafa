import ScriptEngine.Dictionary
import ScriptEngine.Expression.Function
import ScriptEngine.Expression.Operation
import ScriptEngine.Expression.Reader

/-!
# Evaluating expressions

`evaluate` reads the text of an expression and computes its value over the locals of a frame. Every
local that the text names must exist, also in a part that is never evaluated.
-/

namespace ScriptEngine

/-- Fails without a detail where nothing is computed. -/
def EvaluationDetail.require {α : Type} : Option α → Except EvaluationDetail α
  | some a => .ok a
  | none => .error .unspecified

/-- The truth value that a datum is. -/
def Datum.asTruth : Datum → Except EvaluationDetail Bool
  | .truth b => .ok b
  | _ => .error .unspecified

/-- The value of an operator between evaluated operands. -/
def BinaryOperator.result? (operator : BinaryOperator) (a b : Datum) : Option Datum :=
  match operator with
  | .either | .both => none
  | .bits operator => operator.result? a b
  | .comparison operator => (operator.result? a b).map .truth
  | .within => (a.occursIn? b).map .truth
  | .arithmetic operator => operator.result? a b
  | .shift operator => operator.result? a b

/-- What a link of a chain with evaluated arguments makes of its subject. -/
inductive Request
  | property (name : String)
  | method (name : String) (arguments : List Datum)

/-- The datum that answers a request. -/
def Request.answer (subject : Datum) : Request → Except EvaluationDetail Datum
  | .property name => EvaluationDetail.require (subject.property? name)
  | .method name arguments => Datum.call name (subject :: arguments)

namespace Expression

mutual

/-- The datum that an expression denotes over the given locals. Operands are evaluated from the left
to the right, but for `in` the text that is searched comes first, and in a chain the arguments of
all its methods come before its subject. -/
def value (locals : Dictionary Value) : Expression → Except EvaluationDetail Datum
  | .literal datum => .ok datum
  | .named name => EvaluationDetail.require ((locals.get? name).map Datum.ofValue)
  | .unary operator operand => do
    let datum ← operand.value locals
    EvaluationDetail.require (operator.result? datum)
  | .binary .either left right => do
    if ← (← left.value locals).asTruth then
      return .truth true
    else
      return .truth (← (← right.value locals).asTruth)
  | .binary .both left right => do
    if ← (← left.value locals).asTruth then
      return .truth (← (← right.value locals).asTruth)
    else
      return .truth false
  | .binary .within part whole => do
    let b ← whole.value locals
    let a ← part.value locals
    EvaluationDetail.require (BinaryOperator.within.result? a b)
  | .binary operator left right => do
    let a ← left.value locals
    let b ← right.value locals
    EvaluationDetail.require (operator.result? a b)
  | .call function arguments => do
    Datum.call function (← valuesOfAll locals arguments)
  | .chain subject links => do
    let requests ← requestsOfAll locals links
    let datum ← subject.value locals
    requests.foldlM Request.answer datum
  | .array items => do
    let _ ← valuesOfAll locals items
    return .array
  | .record _ items => do
    let _ ← valuesOfAll locals items
    return .record

/-- The data that expressions denote. -/
def valuesOfAll (locals : Dictionary Value) :
    List Expression → Except EvaluationDetail (List Datum)
  | [] => .ok []
  | expression :: rest => do
    let datum ← expression.value locals
    let data ← valuesOfAll locals rest
    return datum :: data

/-- The links of a chain with their arguments evaluated. -/
def requestsOfAll (locals : Dictionary Value) :
    List Link → Except EvaluationDetail (List Request)
  | [] => .ok []
  | .property name :: rest => do
    let requests ← requestsOfAll locals rest
    return .property name :: requests
  | .method name arguments :: rest => do
    let data ← valuesOfAll locals arguments
    let requests ← requestsOfAll locals rest
    return .method name data :: requests

end

/-- The script value of an expression all of whose locals exist. -/
def result (locals : Dictionary Value) (text : String) : Except EvaluationDetail Value := do
  let expression ← EvaluationDetail.require (Expression.parse? text)
  if expression.names.all locals.contains then
    (← expression.value locals).toValue
  else
    .error .unspecified

end Expression

/-- The value of the text of an expression over the given locals. -/
def evaluate (text : String) (locals : Dictionary Value) : Except Cause Value :=
  (Expression.result locals text).mapError (Cause.evaluation text)

end ScriptEngine
