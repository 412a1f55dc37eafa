import ScriptEngine.NumberFormat.Basic
import ScriptEngine.Span
import ScriptEngine.Value.Basic

/-!
# Faults

A `Fault` is a cause and, where known, the place in a source text that it belongs to. A cause says
what went wrong as data; `Cause.kind` sorts it and `Cause.message` puts it into words.
-/

namespace ScriptEngine

/-- The kinds of faults. -/
inductive FaultKind
  | duplicateCommand
  | invalidSignature
  | unknownCommand
  | arityMismatch
  | typeMismatch
  | formatError
  | contextError
  | callFailure
  | evaluation
  | parse
  | runtime
  deriving DecidableEq, Repr

namespace FaultKind

/-- All kinds. -/
def all : List FaultKind :=
  [.duplicateCommand, .invalidSignature, .unknownCommand, .arityMismatch, .typeMismatch,
    .formatError, .contextError, .callFailure, .evaluation, .parse, .runtime]

/-- The code under which a kind is reported. -/
def code : FaultKind → String
  | .duplicateCommand => "DUPLICATE_COMMAND"
  | .invalidSignature => "INVALID_SIGNATURE"
  | .unknownCommand => "UNKNOWN_COMMAND"
  | .arityMismatch => "ARITY_MISMATCH"
  | .typeMismatch => "TYPE_MISMATCH"
  | .formatError => "FORMAT_ERROR"
  | .contextError => "CONTEXT_ERROR"
  | .callFailure => "CALL_FAILURE"
  | .evaluation => "EVALUATION"
  | .parse => "PARSE"
  | .runtime => "RUNTIME"

/-- The kind of a code. -/
def ofCode? (code : String) : Option FaultKind :=
  all.find? (·.code == code)

/-- Whether faults of a kind come from registering a command. -/
def isRegistration : FaultKind → Bool
  | .duplicateCommand | .invalidSignature => true
  | _ => false

end FaultKind

/-- What is wrong with the declaration of a command. -/
inductive SignatureFault
  | invalidName
  | invalidAlias (nickname : String)
  | noSets
  | unnamedSet
  | repeatedSet (set : String)
  | setBounds (set : String) (least most parameters : Nat)
  | setRequired (set : String) (least : Nat)
  | requiredAfterOptional
  | defaultType (parameter : String) (found slot : DataType)
  | aliasRepeatsName
  deriving DecidableEq, Repr

/-- Why arguments do not fit a command or script. -/
inductive MatchFault
  /-- Exactly this many are taken. -/
  | exactly (count supplied : Nat)
  /-- None of the parameter sets, given with their bounds, takes this many. -/
  | noSet (sets : List (String × Nat × Nat)) (supplied : Nat)
  /-- At least this many are taken. -/
  | atLeast (required supplied : Nat)
  /-- As many as there are parameters are taken, or fewer down to the required ones. -/
  | between (required most supplied : Nat)
  /-- The argument at an index is of a wrong type. -/
  | wrongType (index : Nat) (parameter : String) (expected found : DataType)
  deriving DecidableEq, Repr

/-- Why the result of a call is a zero value. -/
inductive CallFault
  | missingTarget (target : String)
  | tooDeep (target : String) (limit : Nat)
  | rejected (target callee : String) (fault : MatchFault)
  | discarded (callee : String) (found expected : DataType)
  deriving DecidableEq, Repr

/-- What is asked of a loop. -/
inductive LoopRequest
  | leave
  | breakOut
  | resume
  deriving DecidableEq, Repr

/-- What is known about the failure of an expression. -/
inductive EvaluationDetail
  | unspecified
  | notPassable (type : String)
  | referenceRange (id : String)
  deriving DecidableEq, Repr

/-- Why a source text is no script. -/
inductive ScriptFault
  /-- The text is not well-formed markup with a root element. -/
  | malformed
  | unexpectedRoot (found : String)
  | missingAttribute (element key : String)
  | notIdentifier (key value : String)
  | unknownType (text : String)
  | lateParameter
  | nestedParameter
  | requiredAfterOptional (parameter : String)
  | invalidDefault (text : String) (type : DataType)
  | emptyAssignment
  | emptyArgument
  | notArgument (found : String)
  | strayElse
  | secondElse
  | unsupported (element : String)
  | declaredTwice (name first second : String)
  deriving DecidableEq, Repr

/-- What went wrong. -/
inductive Cause
  | signature (command : String) (fault : SignatureFault)
  | identifierTaken (key command owner : String)
  | unknownCommand (name : String)
  | unknownInScript (script path command : String)
  | mismatch (command : String) (fault : MatchFault)
  | unbound (index : Nat)
  | boundType (index : Nat) (found expected : DataType)
  | severalResults (count : Nat)
  | format (fault : NumberFormat.FormatFault)
  | outsideLoop (request : LoopRequest)
  | call (fault : CallFault)
  | evaluation (expression : String) (detail : EvaluationDetail)
  | script (fault : ScriptFault)
  | noFrame
  | noResumePoint (script : String)
  | notLoaded (script : String)
  | entryNotLoaded (script : String)
  | noMain
  | stepLimit (script : String) (limit : Nat)
  /-- Raised by a command of the host. -/
  | host (kind : FaultKind) (message : String)
  deriving DecidableEq, Repr

/-- The wording of what is wrong with a declaration, to stand behind the name of the command. -/
def SignatureFault.detail (command : String) : SignatureFault → String
  | .invalidName => s!"\"{command}\" is not a valid command name"
  | .invalidAlias nickname => s!"\"{nickname}\" is not a valid alias"
  | .noSets => "declares no parameter sets"
  | .unnamedSet => "has an unnamed parameter set"
  | .repeatedSet set => s!"declares parameter set \"{set}\" twice"
  | .setBounds set least most parameters =>
    s!"parameter set \"{set}\" declares {least}..{most} arguments over {parameters} parameters"
  | .setRequired set least =>
    s!"parameter set \"{set}\" must make exactly its first {least} parameters required"
  | .requiredAfterOptional => "declares a required parameter after an optional one"
  | .defaultType parameter found slot =>
    let found := found.name
    let slot := slot.name
    s!"parameter \"{parameter}\" has a {found} default for a {slot} slot"
  | .aliasRepeatsName => "repeats its name as alias"

/-- The wording of a mismatch between a command or script and its arguments. -/
def MatchFault.message (command : String) : MatchFault → String
  | .exactly count supplied => s!"\"{command}\" takes exactly {count} argument(s), got {supplied}."
  | .noSet sets supplied =>
    let accepted := ", ".intercalate
      (sets.map fun (name, least, most) => s!"{name} ({least}..{most})")
    s!"\"{command}\" has no parameter set taking {supplied} argument(s); accepted: {accepted}."
  | .atLeast required supplied =>
    s!"\"{command}\" takes at least {required} argument(s), got {supplied}."
  | .between required most supplied =>
    let expected := if required = most then s!"{required}" else s!"{required} to {most}"
    s!"\"{command}\" takes {expected} argument(s), got {supplied}."
  | .wrongType index parameter expected found =>
    let position := index + 1
    let expected := expected.name
    let found := found.name
    s!"Argument {position} ({parameter}) of \"{command}\" expects {expected}, got {found}."

/-- The kind of a mismatch. -/
def MatchFault.kind : MatchFault → FaultKind
  | .wrongType .. => .typeMismatch
  | _ => .arityMismatch

/-- The wording of a failed call. -/
def CallFault.message : CallFault → String
  | .missingTarget target => s!"Call target \"{target}\" does not exist."
  | .tooDeep target limit => s!"Call to \"{target}\" exceeds the nesting limit of {limit} frames."
  | .rejected target callee fault =>
    let reason := fault.message callee
    s!"Call to \"{target}\" rejected its arguments: {reason}"
  | .discarded callee found expected =>
    let found := found.name
    let expected := expected.name
    s!"\"{callee}\" returned {found} where {expected} was expected; substituted its zero value."

/-- The verb for what is asked of a loop. -/
def LoopRequest.verb : LoopRequest → String
  | .leave => "leave"
  | .breakOut => "break out of"
  | .resume => "continue"

/-- The wording of what is known about a failed expression, to stand behind the expression. -/
def EvaluationDetail.suffix : EvaluationDetail → String
  | .unspecified => ""
  | .notPassable type => s!": values of type {type} cannot be passed to commands"
  | .referenceRange id => s!": reference({id}) is out of range."

/-- The wording of a fault in a script. -/
def ScriptFault.message : ScriptFault → String
  | .malformed => "<xml>"
  | .unexpectedRoot found => s!"Expected <script> root element, found <{found}>."
  | .missingAttribute element key => s!"<{element}> requires attribute \"{key}\"."
  | .notIdentifier key value =>
    s!"Attribute \"{key}\" must be an identifier, got \"{value}\"."
  | .unknownType text => s!"Unknown data type \"{text}\"."
  | .lateParameter => "<param> must precede every instruction of the script."
  | .nestedParameter => "<param> is only allowed directly under <script>."
  | .requiredAfterOptional parameter =>
    s!"Parameter \"{parameter}\" must declare a default because an earlier parameter is optional."
  | .invalidDefault text type =>
    let type := type.name
    s!"Default \"{text}\" is not a valid {type} literal."
  | .emptyAssignment => "<set> requires an expression body."
  | .emptyArgument => "<arg> requires an expression body."
  | .notArgument found => s!"<command> only accepts <arg> children, found <{found}>."
  | .strayElse => "<else> must be a child of <if>."
  | .secondElse => "<if> accepts at most one <else>."
  | .unsupported element => s!"Unsupported element <{element}>."
  | .declaredTwice name first second =>
    s!"Script \"{name}\" is declared in both \"{first}\" and \"{second}\"."

namespace Cause

/-- The kind of a cause. -/
def kind : Cause → FaultKind
  | .signature .. => .invalidSignature
  | .identifierTaken .. => .duplicateCommand
  | .unknownCommand _ | .unknownInScript .. => .unknownCommand
  | .mismatch _ fault => fault.kind
  | .unbound _ | .severalResults _ => .arityMismatch
  | .boundType .. => .typeMismatch
  | .format _ => .formatError
  | .outsideLoop _ => .contextError
  | .call _ => .callFailure
  | .evaluation .. => .evaluation
  | .script _ => .parse
  | .noFrame | .noResumePoint _ | .notLoaded _ | .entryNotLoaded _ | .noMain | .stepLimit .. =>
    .runtime
  | .host kind _ => kind

/-- The wording of a cause. -/
def message : Cause → String
  | .signature command fault =>
    let detail := fault.detail command
    s!"Command \"{command}\" {detail}."
  | .identifierTaken key command owner =>
    s!"Command identifier \"{key}\" of \"{command}\" is already taken by \"{owner}\"."
  | .unknownCommand name => s!"Unknown command \"{name}\"."
  | .unknownInScript user path command =>
    s!"Script \"{user}\" ({path}) uses unknown command \"{command}\"."
  | .mismatch command fault => fault.message command
  | .unbound index =>
    let position := index + 1
    s!"No argument bound at position {position}."
  | .boundType index found expected =>
    let position := index + 1
    let found := found.name
    let expected := expected.name
    s!"Argument {position} is {found}, expected {expected}."
  | .severalResults count => s!"\"Return\" takes at most one value, got {count}."
  | .format fault => fault.message
  | .outsideLoop request =>
    let verb := request.verb
    s!"Cannot {verb} a loop outside of a loop body."
  | .call fault => fault.message
  | .evaluation expression detail =>
    let suffix := detail.suffix
    s!"Expression \"{expression}\" failed{suffix}"
  | .script fault => fault.message
  | .noFrame => "No active execution frame."
  | .noResumePoint name => s!"Frame of \"{name}\" has no resume point."
  | .notLoaded name => s!"Script \"{name}\" is not loaded."
  | .entryNotLoaded name => s!"Entry script \"{name}\" is not loaded."
  | .noMain => "Expected a script with name=\"main\" as default entry."
  | .stepLimit name limit => s!"Script \"{name}\" exceeded {limit} steps."
  | .host _ message => message

end Cause

/-- A cause with the place it belongs to. -/
structure Fault where
  cause : Cause
  span : Option Span := none
  deriving DecidableEq, Repr

namespace Fault

/-- The kind of a fault. -/
def kind (f : Fault) : FaultKind :=
  f.cause.kind

/-- The code of a fault. -/
def code (f : Fault) : String :=
  f.kind.code

/-- The wording of a fault. -/
def message (f : Fault) : String :=
  f.cause.message

/-- Code and wording in one line. -/
def display (f : Fault) : String :=
  f.code ++ ": " ++ f.message

/-- The wording of a fault with the line it starts in. -/
def messageWithLine (f : Fault) : String :=
  match f.span with
  | some span =>
    let message := f.message
    let line := span.start.line
    s!"{message} (line {line})"
  | none => f.message

/-- Puts a fault at a place, unless it has one. -/
def locate (f : Fault) (span : Span) : Fault :=
  { f with span := some (f.span.getD span) }

end Fault

end ScriptEngine
