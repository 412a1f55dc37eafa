import ScriptEngine.Json.Fields
import ScriptEngine.Script.Basic
import ScriptEngine.Value.Json

/-!
# Scripts as JSON

The JSON form of a compiled script: its parameters, and its instructions tagged by their kind.
-/

namespace ScriptEngine

/-- The type with a name. -/
def DataType.named? (text : String) : Option DataType :=
  DataType.all.find? (·.name == text)

/-- Reads a type by its name. -/
def DataType.ofJson? (j : Json) : Option DataType := do
  DataType.named? (← j.caseName? Json.isNull)

/-- Reads a place in a source text. -/
def Position.ofJson? (json : Json) : Option Position := do
  let j := json.named ["line", "column"]
  return ⟨← (← j.required? "line").nat?, ← (← j.required? "column").nat?⟩

/-- Reads a stretch of a source text. -/
def Span.ofJson? (json : Json) : Option Span := do
  let j := json.named ["start", "end"]
  return ⟨← Position.ofJson? (← j.required? "start"), ← Position.ofJson? (← j.required? "end")⟩

/-- Reads a parameter of a script. -/
def ScriptParameter.ofJson? (json : Json) : Option ScriptParameter := do
  let j := json.named ["name", "dataType", "default", "location"]
  let name ← (← j.required? "name").string?
  let type ← DataType.ofJson? (← j.required? "dataType")
  let default ← Json.nullable? Value.ofJson? (← j.optional? "default")
  return ⟨name, type, default, ← Span.ofJson? (← j.required? "location")⟩

/-- The fields of an instruction of a kind in order. -/
def Instruction.fields (kind : String) : List String :=
  match kind with
  | "assign" => ["target", "expr", "location"]
  | "command" => ["name", "args", "result", "expect", "location"]
  | "branch" => ["condition", "else_index", "location"]
  | "jump" => ["target", "location"]
  | "loopStart" => ["condition", "exit_index", "location"]
  | "loopEnd" => ["start_index", "location"]
  | _ => []

/-- An object for an array that lists the kind of an instruction and its fields in order. Anything
else stays as it is. -/
def Instruction.named (j : Json) : Json :=
  match j with
  | .array (.string kind :: items) =>
    match (Json.array items).named (Instruction.fields kind) with
    | .object members => .object (("kind", .string kind) :: members)
    | _ => j
  | _ => j

/-- Reads the type that is expected of a result. Its name may have an empty object as value. -/
def DataType.ofExpectation? (j : Json) : Option DataType := do
  DataType.named? (← j.caseName? Json.isVoid)

/-- Reads what an instruction does. -/
def Operation.ofJson? (j : Json) : Option Operation := do
  let text (name : String) : Option String := do (← j.required? name).string?
  let index (name : String) : Option Nat := do (← j.required? name).nat?
  match ← text "kind" with
  | "assign" => return .assign (← text "target") (← text "expr")
  | "command" =>
    let arguments ← (← (← j.required? "args").items?).mapM Json.string?
    let result ← Json.nullable? Json.string? (← j.optional? "result")
    let expect ← Json.nullable? DataType.ofExpectation? (← j.optional? "expect")
    return .command ⟨← text "name", arguments, result, expect⟩
  | "branch" => return .branch (← text "condition") (← index "else_index")
  | "jump" => return .jump (← index "target")
  | "loopStart" => return .loopStart (← text "condition") (← index "exit_index")
  | "loopEnd" => return .loopEnd (← index "start_index")
  | _ => none

/-- Reads an instruction. -/
def Instruction.ofJson? (json : Json) : Option Instruction := do
  let j := Instruction.named json
  return ⟨← Operation.ofJson? j, ← Span.ofJson? (← j.required? "location")⟩

/-- Reads a script. -/
def Script.ofJson? (json : Json) : Option Script := do
  let j := json.named ["name", "sourcePath", "params", "returnType", "instructions"]
  let name ← (← j.required? "name").string?
  let path ← (← j.required? "sourcePath").string?
  let parameters ← (← (← j.required? "params").items?).mapM ScriptParameter.ofJson?
  let returnType ← DataType.ofJson? (← j.required? "returnType")
  let instructions ← (← (← j.required? "instructions").items?).mapM Instruction.ofJson?
  return ⟨name, path, parameters, returnType, instructions⟩

end ScriptEngine
