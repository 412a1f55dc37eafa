import ScriptEngine.Engine.Entry
import ScriptEngine.Proofs.Machine.Events

/-!
# Scripts interpreted as they are written

What the elements of a script mean, without instructions, frames or a stack of loops: a loop runs its
children again and again, a choice runs some of its children, and a call runs the children of another
script. `Program.exec` interprets an element, `Program.run` a whole run. The fuel bounds how deep
loops, choices and calls follow each other; with too little of it there is no result.

How an element ends is a `Flow`. A break or a continuation goes up to the innermost loop around the
command, a result up to the call of the script, a fault to the very end.
-/

namespace ScriptEngine.Direct

open Markup (Element)

/-- What an element of a script says. -/
inductive Shape
  | assign (target expression : String)
  | command (use : CommandUse)
  /-- Runs the elements as long as the condition holds. -/
  | loop (condition : String) (body : List Element)
  /-- Runs the first elements if the condition holds, and else the others. -/
  | choice (condition : String) (body otherwise : List Element)
  | nothing

/-- An attribute without outer blanks. -/
def trimmed (e : Element) (key : String) : String :=
  Text.trim ((e.get? key).getD "")

/-- A command as an element uses it. -/
def useOf (e : Element) : CommandUse where
  name := trimmed e "name"
  arguments := e.elements.map (·.text)
  result := (e.get? "into").map Text.trim
  expect := (e.get? "as").bind DataType.parse?

/-- Whether an element holds the other branch of a choice. -/
def isElse (e : Element) : Bool :=
  e.name == "else"

/-- What an element says, by its name. -/
def shape (e : Element) : Shape :=
  match e.name with
  | "set" => .assign (trimmed e "name") e.text
  | "command" => .command (useOf e)
  | "while" => .loop (trimmed e "when") e.elements
  | "if" =>
    .choice (trimmed e "when") (e.elements.filter (!isElse ·))
      ((e.elements.find? isElse).elim [] (·.elements))
  | _ => .nothing

/-- A script as it is written. -/
structure Document where
  name : String
  parameters : List ScriptParameter
  returnType : DataType
  body : List Element

namespace Document

/-- Whether an element declares a parameter. -/
def isParameter (e : Element) : Bool :=
  e.name == "param"

/-- The script that the root of a markup tree holds. -/
def ofElement (root : Element) : Document where
  name := trimmed root "name"
  parameters :=
    (root.elements.filter isParameter).filterMap fun e => (ScriptParameter.ofElement e).toOption
  returnType := ((root.get? "return").bind DataType.parse?).getD .multi
  body := root.elements.filter (!isParameter ·)

/-- The arity of a call. -/
def arity (document : Document) : Arity :=
  .standard (document.parameters.map (·.toParameter))

/-- The locals that a script starts with. -/
def bind (document : Document) (bindings : Bindings) : Dictionary Value :=
  .ofList ((document.parameters.map (·.name)).zip bindings.values)

end Document

/-- The scripts among files, given as paths with their contents. -/
def documents (files : Dictionary String) : List Document :=
  (files.entries.filter (isScriptPath ·.1)).filterMap fun file =>
    (Markup.parse file.2).toOption.map .ofElement

/-- What scripts are interpreted with. -/
structure Program where
  documents : List Document
  commands : CommandTable
  /-- The largest number of scripts that wait for each other. -/
  depthLimit : Nat
  evaluate : Evaluator

/-- The program of some files. A limit of zero counts as one. -/
def Program.ofSources (files : Dictionary String) (options : EngineOptions) : Program where
  documents := Direct.documents files
  commands := options.commands
  depthLimit := max 1 options.depth
  evaluate := options.evaluate

/-! ## States and results -/

/-- The locals of the running script, and what all scripts share. -/
structure Store where
  locals : Dictionary Value
  timers : Dictionary Timer
  world : World
  log : Log

namespace Store

/-- Notes events. -/
def see (store : Store) (events : List Event) : Store :=
  { store with log := store.log.add events none }

/-- Notes a result that was replaced by a zero value. -/
def degrade (store : Store) (fault : Option Fault) : Store :=
  { store with log := store.log.add [] fault }

/-- Gives a local a value, if one is named. -/
def give (store : Store) (slot : Option String) (value : Value) : Store :=
  { store with locals := (slot.map (store.locals.insert · value)).getD store.locals }

end Store

/-- How an element ended. -/
inductive Flow
  /-- The next element follows. -/
  | next
  /-- The innermost loop is to end. -/
  | broken
  /-- The innermost loop is to test its condition again. -/
  | continued
  /-- The script ends with a result. The place is that of the command that ended it. -/
  | returned (value : Value) (place : Option Span)
  | failed (fault : Fault)

/-- How an element ended and the state afterwards, if there was enough fuel. -/
abbrev Result := Option (Flow × Store)

/-- Where an element stands. -/
structure Scope where
  /-- The name of the script that was started. -/
  identity : String
  /-- The name of the script that the element belongs to. -/
  script : String
  /-- The number of scripts under way. -/
  depth : Nat
  /-- Whether there is a loop around the element in its script. -/
  inLoop : Bool

/-- Interprets elements in order, until one does not lead to the next. -/
def sequence (exec : Element → Store → Result) : List Element → Store → Result
  | [], store => some (.next, store)
  | e :: rest, store =>
    match exec e store with
    | some (.next, after) => sequence exec rest after
    | ended => ended

namespace Program

variable (program : Program)

/-- Evaluates an expression and goes on with its value. -/
def withValue (expression : String) (span : Span) (store : Store)
    (use : Value → Store → Result) : Result :=
  let seen := store.see [.evaluated expression store.locals]
  match program.evaluate expression store.locals with
  | .error cause => some (.failed ⟨cause, some span⟩, seen)
  | .ok value => use value seen

/-- Evaluates the arguments of a command in order and goes on with their values. -/
def withValues (span : Span) : List String → Store → (List Value → Store → Result) → Result
  | [], store, use => use [] store
  | expression :: rest, store, use =>
    program.withValue expression span store fun value store =>
      withValues span rest store fun values store => use (value :: values) store

/-- The script of a name. -/
def find? (name : String) : Option Document :=
  program.documents.find? (·.name == name)

/-- Whether and with what a call can start: the script, its locals, and the type that is expected of
its result, or else the value and the fault of a degraded call. -/
def startOf (site : CallSite) (target : String) (arguments : List Value) (depth : Nat) :
    (Value × CallFault) ⊕ (Document × Dictionary Value × DataType) :=
  match program.find? target with
  | none => .inl (.zero (site.expect.getD .numeric), .missingTarget target)
  | some document =>
    let expected := site.expect.getD document.returnType
    if program.depthLimit ≤ depth then .inl (.zero expected, .tooDeep target program.depthLimit)
    else
      match document.arity.bind arguments with
      | .error fault => .inl (.zero expected, .rejected target document.name fault)
      | .ok bindings => .inr (document, document.bind bindings, expected)

/-- The state of a caller after the result of a call was delivered to it. -/
def deliver (caller after : Store) (callee : Document) (slot : Option String) (expected : DataType)
    (value : Value) (place : Option Span) : Store :=
  ({ after with locals := caller.locals }.give slot (value.coerce expected)).degrade
    ((Context.discardedType expected value).map fun type =>
      ⟨.call (.discarded callee.name type expected), place⟩)

/-- Does what a command asks for. Another script is interpreted by `run`. -/
def perform (run : Scope → List Element → Store → Result) (scope : Scope) (use : CommandUse)
    (span : Span) (now : Nat) (action : Action) (store : Store) : Result :=
  match action with
  | .value value => some (.next, store.give use.result value)
  | .print message =>
    let printed := { store with world := store.world.print message }.see [.printed message]
    some (.next, printed.give use.result .invalid)
  | .secondsPassed =>
    let (elapsed, timer) := tickOf store.timers scope.script now
    let ticked := { store with timers := store.timers.insert scope.script timer }.see
      [.ticked scope.script timer]
    some (.next, ticked.give use.result (.numeric (secondsOf elapsed)))
  | .breakLoop =>
    some (if scope.inLoop then .broken else .failed ⟨.outsideLoop .breakOut, some span⟩, store)
  | .continueLoop =>
    some (if scope.inLoop then .continued else .failed ⟨.outsideLoop .resume, some span⟩, store)
  | .finish value => some (.returned value (some span), store)
  | .call target arguments =>
    match program.startOf ⟨use.result, use.expect⟩ target arguments scope.depth with
    | .inl (value, fault) =>
      some (.next, (store.give use.result value).degrade (some ⟨.call fault, some span⟩))
    | .inr (document, locals, expected) =>
      match run ⟨scope.identity, document.name, scope.depth + 1, false⟩ document.body
          { store with locals } with
      | none => none
      | some (.failed fault, after) => some (.failed fault, after)
      | some (.returned value place, after) =>
        some (.next, deliver store after document use.result expected value place)
      | some (_, after) =>
        some (.next, deliver store after document use.result expected .invalid none)

/-- Carries out a command. -/
def command (run : Scope → List Element → Store → Result) (scope : Scope) (use : CommandUse)
    (span : Span) (store : Store) : Result :=
  program.withValues span use.arguments store fun arguments store =>
    let seen := store.see [.dispatched use.name arguments]
    match program.commands.request scope.identity use.name arguments store.world with
    | (.error cause, world) => some (.failed ⟨cause, some span⟩, { seen with world })
    | (.ok action, world) =>
      program.perform run scope use span store.world.readClock.1 action { seen with world }

/-- Interprets an element. -/
def exec : Nat → Scope → Element → Store → Result
  | 0, _, _, _ => none
  | fuel + 1, scope, e, store =>
    match shape e with
    | .assign target expression =>
      program.withValue expression e.span store fun value store =>
        some (.next, store.give (some target) value)
    | .command use =>
      program.command (fun scope => sequence (exec fuel scope)) scope use e.span store
    | .loop condition body =>
      program.withValue condition e.span store fun value store =>
        if value.isTruthy then
          match sequence (exec fuel { scope with inLoop := true }) body store with
          | some (.next, store) | some (.continued, store) => exec fuel scope e store
          | some (.broken, store) => some (.next, store)
          | ended => ended
        else
          some (.next, store)
    | .choice condition body otherwise =>
      program.withValue condition e.span store fun value store =>
        sequence (exec fuel scope) (if value.isTruthy then body else otherwise) store
    | .nothing => some (.next, store)

/-- How a run ended. -/
structure Ending where
  /-- The result and the results that were replaced by zero values, or a fault. -/
  result : Except Fault (Value × List Fault)
  world : World
  events : List Event

/-- How a run ended whose script ended in a certain way. -/
def Ending.of : Flow × Store → Ending
  | (.failed fault, store) => ⟨.error fault, store.world, store.log.events⟩
  | (.returned value _, store) => ⟨.ok (value, store.log.degraded), store.world, store.log.events⟩
  | (_, store) => ⟨.ok (.invalid, store.log.degraded), store.world, store.log.events⟩

/-- Interprets a script once. -/
def run (fuel : Nat) (name : String) (arguments : List Value) (world : World) : Option Ending :=
  match program.find? name with
  | none => some ⟨.error ⟨.notLoaded name, none⟩, world, []⟩
  | some document =>
    match matchArguments document.name document.arity arguments with
    | .error cause => some ⟨.error ⟨cause, none⟩, world, []⟩
    | .ok bindings =>
      (sequence (program.exec fuel ⟨document.name, document.name, 1, false⟩) document.body
        ⟨document.bind bindings, Dictionary.empty.insert document.name {}, world, {}⟩).map .of

end Program

end ScriptEngine.Direct
