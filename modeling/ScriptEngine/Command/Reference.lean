import ScriptEngine.Command.Table
import ScriptEngine.Json.Basic
import ScriptEngine.Text.Html
import ScriptEngine.Value.Json

/-!
# The command reference

What the reference says about a command: how it is called, with how many arguments, and its help;
as data, as JSON, and as an HTML page.
-/

namespace ScriptEngine

/-- A parameter as the reference shows it. Optional ones stand in brackets. -/
def Parameter.shape (p : Parameter) : String :=
  let shape := p.dataType.name ++ " " ++ p.description
  if p.isOptional then "[" ++ shape ++ "]" else shape

/-- Parameters as the reference shows them. -/
def parameterShapes (parameters : List Parameter) : String :=
  ", ".intercalate (parameters.map (·.shape))

/-- What stands between the brackets of a call, one text for each way to call. -/
def Arity.shapes : Arity → List String
  | .simple count =>
    [", ".intercalate ((List.range count).map fun i => "arg" ++ toString (i + 1))]
  | .standard parameters => [parameterShapes parameters]
  | .parametric sets => sets.map fun s => s.name ++ ": " ++ parameterShapes s.parameters
  | .variadic leading rest =>
    let tail := rest.name ++ "..."
    [if leading.isEmpty then tail else parameterShapes leading ++ ", " ++ tail]

/-- How a command is called, one line for each way. -/
def Command.usage (c : Command) : List String :=
  let suffix := if c.returnType = .invalid then "" else " -> " ++ c.returnType.name
  c.arity.shapes.map fun shape => c.name ++ "(" ++ shape ++ ")" ++ suffix

/-- One way to call a command. -/
structure SignatureEntry where
  name : Option String
  parameters : List Parameter
  rest : Option DataType
  deriving DecidableEq, Repr

/-- The entry of a command in the reference. -/
structure ReferenceEntry where
  name : String
  nickname : Option String
  description : String
  help : String
  arity : String
  leastArguments : Nat
  mostArguments : Option Nat
  signatures : List SignatureEntry
  returnType : DataType
  usage : List String
  deriving DecidableEq, Repr

/-- The ways to call a command. -/
def Arity.signatures : Arity → List SignatureEntry
  | .simple _ => []
  | .standard parameters => [⟨none, parameters, none⟩]
  | .parametric sets => sets.map fun s => ⟨some s.name, s.parameters, none⟩
  | .variadic leading rest => [⟨none, leading, some rest⟩]

/-- What the reference says about a command. -/
def Command.entry (c : Command) : ReferenceEntry where
  name := c.name
  nickname := c.nickname
  description := c.description
  help := c.help
  arity := c.arity.className
  leastArguments := c.arity.leastArguments
  mostArguments := c.arity.mostArguments
  signatures := c.arity.signatures
  returnType := c.returnType
  usage := c.usage

/-- The entries of all commands. -/
def CommandTable.entries (t : CommandTable) : List ReferenceEntry :=
  t.commands.map (·.entry)

/-! ## JSON -/

/-- A member of an object that is left out without a value. -/
def optionalMember (name : String) (value : Option Json) : List (String × Json) :=
  (value.map fun v => (name, v)).toList

/-- A parameter as JSON, given how a value is written. -/
def Parameter.toJson (write : Value → Json) (p : Parameter) : Json :=
  .object ([("description", .string p.description), ("dataType", .string p.dataType.name)] ++
    optionalMember "default" (p.default.map write))

/-- A way to call a command as JSON. -/
def SignatureEntry.toJson (write : Value → Json) (s : SignatureEntry) : Json :=
  .object (optionalMember "name" (s.name.map .string) ++
    [("parameters", .array (s.parameters.map (·.toJson write)))] ++
    optionalMember "rest" (s.rest.map fun type => .string type.name))

/-- An entry as JSON. -/
def ReferenceEntry.toJson (write : Value → Json) (e : ReferenceEntry) : Json :=
  .object ([("name", .string e.name)] ++
    optionalMember "alias" (e.nickname.map .string) ++
    [("description", .string e.description), ("helpHtml", .string e.help),
      ("arity", .string e.arity), ("minArgs", .ofNat e.leastArguments),
      ("maxArgs", (e.mostArguments.map .ofNat).getD .null),
      ("parameterSets", .array (e.signatures.map (·.toJson write))),
      ("returnType", .string e.returnType.name), ("usage", .array (e.usage.map .string))])

/-- The reference as JSON. -/
def CommandTable.toJson (t : CommandTable) : Json :=
  .array (t.entries.map (·.toJson Value.toJson))

/-! ## HTML -/

/-- The part of the page about a command. -/
def Command.html (c : Command) : String :=
  let name := Text.escapeHtml c.name
  let nickname := match c.nickname with
    | some nickname => " <small>(" ++ Text.escapeHtml nickname ++ ")</small>"
    | none => ""
  let description :=
    if c.description.isEmpty then "" else "<p>" ++ Text.escapeHtml c.description ++ "</p>\n"
  let usage := String.join
    (c.usage.map fun line => "<p><code>" ++ Text.escapeHtml line ++ "</code></p>\n")
  let help := if c.help.isEmpty then "" else "<div class=\"help\">" ++ c.help ++ "</div>\n"
  "<h2 id=\"cmd-" ++ name ++ "\">" ++ name ++ nickname ++ "</h2>\n" ++ description ++ usage ++ help

/-- The reference as an HTML page. -/
def CommandTable.html (t : CommandTable) : String :=
  "<!DOCTYPE html>\n<html>\n" ++
    "<head><meta charset=\"utf-8\"><title>Command Reference</title></head>\n" ++
    "<body>\n" ++ String.join (t.commands.map (·.html)) ++ "</body>\n</html>\n"

end ScriptEngine
