import ScriptEngine.Decimal.Literal
import ScriptEngine.Markup.Reader
import ScriptEngine.Script.Statement
import ScriptEngine.Text.Identifier

/-!
# Reading scripts

A script is the element `<script>`: parameters first, then statements. `Declaration.ofElement` reads
one from a markup tree, `Script.parse` from a source text, and `Script.parseAll` a set of files.
Of several faults the one that comes first in the document is reported, save that the two branches
of a choice are read one after the other.
-/

namespace ScriptEngine

open Markup (Element Node)

/-- The value of an attribute that must be an identifier. -/
def identifierOf (e : Element) (key : String) : Except Fault String := do
  let value ← e.require key
  if Text.isIdentifier value then
    return value
  else
    throw (e.fault (.notIdentifier key value))

/-- The type that an attribute of an element names. -/
def typeOf (e : Element) (text : String) : Except Fault DataType :=
  match DataType.parse? text with
  | some type => .ok type
  | none => .error (e.fault (.unknownType (DataType.spelling text)))

/-- The type that an optional attribute names. -/
def typeOf? (e : Element) (key : String) : Except Fault (Option DataType) :=
  match e.get? key with
  | some text => (typeOf e text).map some
  | none => .ok none

/-! ## Parameters -/

/-- A number below `2 ^ 32` in a base, with an optional plus sign. -/
def unsigned? (base : Nat) (cs : List Char) : Option UInt32 :=
  let digits := match cs with
    | '+' :: rest => rest
    | _ => cs
  (Markup.codePoint? base digits).map UInt32.ofNat

/-- The reference that a text denotes, in decimal or behind `0x` in hexadecimal. -/
def reference? (text : String) : Option UInt32 :=
  match (Text.trim text).toList with
  | '0' :: 'x' :: digits | '0' :: 'X' :: digits => unsigned? 16 digits
  | digits => unsigned? 10 digits

/-- The value of a type that a text denotes. Blanks around a text belong to it. -/
def literal? (type : DataType) (text : String) : Option Value :=
  match type with
  | .numeric => (parseFloat? (Text.trim text)).map .numeric
  | .string => some (.string text)
  | .reference => (reference? text).map .reference
  | .multi => some (((parseFloat? (Text.trim text)).map .numeric).getD (.string text))
  | .invalid => none

/-- Reads a parameter. -/
def ScriptParameter.ofElement (e : Element) : Except Fault ScriptParameter := do
  let name ← identifierOf e "name"
  let type ← typeOf e (← e.require "type")
  match e.get? "default" with
  | none => return ⟨name, type, none, e.span⟩
  | some text =>
    match literal? type text with
    | some value => return ⟨name, type, some value, e.span⟩
    | none => throw (e.fault (.invalidDefault text type))

/-- The first parameter without default behind one with default. -/
def misplaced? (parameters : List ScriptParameter) : Option ScriptParameter :=
  (parameters.dropWhile (·.default.isNone)).find? (·.default.isNone)

/-! ## Statements -/

/-- Reads the argument of a command. -/
def argumentOf (e : Element) : Except Fault String :=
  if e.name != "arg" then .error (e.fault (.notArgument e.name))
  else if e.text.isEmpty then .error (e.fault .emptyArgument)
  else .ok e.text

/-- Reads a command. -/
def CommandUse.ofElement (e : Element) : Except Fault CommandUse := do
  let name ← identifierOf e "name"
  let result ← if (e.get? "into").isSome then some <$> identifierOf e "into" else pure none
  let expect ← typeOf? e "as"
  return ⟨name, ← e.elements.mapM argumentOf, result, expect⟩

namespace Statement

/-- Reads an assignment. -/
def assignmentOf (e : Element) : Except Fault Statement := do
  let target ← identifierOf e "name"
  if e.text.isEmpty then throw (e.fault .emptyAssignment) else return .assign target e.text e.span

/-- The choice between the body of an element and the blocks of its `<else>` children, of which
there is at most one. -/
def choiceOf (condition : String) (body : List Statement) (span : Span)
    (elses : List (Element × Except Fault (List Statement))) : Except Fault Statement :=
  match elses with
  | [] => .ok (.guarded condition body span)
  | [(e, block)] => block.map fun otherwise => .choice condition body e.span otherwise span
  | _ :: (second, _) :: _ => .error (second.fault .secondElse)

mutual

/-- Reads a statement. -/
def ofElement : Element → Except Fault Statement
  | .mk name attributes children span =>
    let e : Element := .mk name attributes children span
    match name with
    | "set" => assignmentOf e
    | "command" => do return .command (← CommandUse.ofElement e) span
    | "while" => do
      let condition ← e.require "when"
      return .loop condition (← ofNodes false children) span
    | "if" => do
      let condition ← e.require "when"
      let body ← ofNodes true children
      choiceOf condition body span (elseBlocks children)
    | "param" => .error (e.fault .nestedParameter)
    | "else" => .error (e.fault .strayElse)
    | _ => .error (e.fault (.unsupported name))

/-- Reads the statements among the children of an element, without `<else>` if so asked. -/
def ofNodes (skipElse : Bool) : List Node → Except Fault (List Statement)
  | [] => .ok []
  | .text .. :: rest => ofNodes skipElse rest
  | .element e :: rest =>
    if skipElse && e.name == "else" then
      ofNodes skipElse rest
    else do
      let statement ← ofElement e
      return statement :: (← ofNodes skipElse rest)

/-- The `<else>` children of an element with what their blocks are read as. -/
def elseBlocks : List Node → List (Element × Except Fault (List Statement))
  | [] => []
  | .text .. :: rest => elseBlocks rest
  | .element (.mk name attributes children span) :: rest =>
    if name == "else" then
      (.mk name attributes children span, ofNodes false children) :: elseBlocks rest
    else
      elseBlocks rest

end

end Statement

/-! ## Scripts -/

/-- The parameters and statements of a script. -/
structure ScriptBody where
  parameters : List ScriptParameter := []
  statements : List Statement := []

/-- Reads one child of a script. No parameter stands behind a statement. -/
def ScriptBody.add (body : ScriptBody) (e : Element) : Except Fault ScriptBody :=
  if e.name == "param" then
    if body.statements.isEmpty then do
      return { body with parameters := body.parameters ++ [← ScriptParameter.ofElement e] }
    else
      .error (e.fault .lateParameter)
  else do
    return { body with statements := body.statements ++ [← Statement.ofElement e] }

/-- Reads a script from the root of a markup tree. -/
def Declaration.ofElement (path : String) (root : Element) : Except Fault Declaration := do
  if root.name != "script" then
    throw (root.fault (.unexpectedRoot root.name))
  let name ← identifierOf root "name"
  let returnType := (← typeOf? root "return").getD .multi
  let body ← root.elements.foldlM ScriptBody.add {}
  match misplaced? body.parameters with
  | some p => throw ⟨.script (.requiredAfterOptional p.name), some p.span⟩
  | none => return ⟨name, path, body.parameters, returnType, body.statements⟩

/-- Reads a script from a source text. -/
def Declaration.parse (path source : String) : Except Fault Declaration := do
  Declaration.ofElement path (← Markup.parse source)

/-- Reads a script from a source text, ready to run. -/
def Script.parse (path source : String) : Except Fault Script :=
  (Declaration.parse path source).map (·.toScript)

/-- How the paths of script files end. -/
def scriptSuffix : String := ".script.xml"

/-- Whether a path is that of a script file. -/
def isScriptPath (path : String) : Bool :=
  scriptSuffix.toList.isSuffixOf path.toList

/-- Reads one more script, which must have a name of its own. -/
def addDeclaration (known : Dictionary Declaration) (path source : String) :
    Except Fault (Dictionary Declaration) := do
  let declaration ← Declaration.parse path source
  match known.get? declaration.name with
  | some first => throw ⟨.script (.declaredTwice declaration.name first.path path), none⟩
  | none => return known.insert declaration.name declaration

/-- Reads the script files among some files in the order of their paths. -/
def Declaration.parseAll (files : Dictionary String) : Except Fault (Dictionary Declaration) :=
  (files.entries.filter (isScriptPath ·.1)).foldlM
    (fun known file => addDeclaration known file.1 file.2) .empty

/-- Reads the script files among some files, ready to run, by the names of the scripts. -/
def Script.parseAll (files : Dictionary String) : Except Fault (Dictionary Script) :=
  (Declaration.parseAll files).map fun known => known.map (·.toScript)

end ScriptEngine
