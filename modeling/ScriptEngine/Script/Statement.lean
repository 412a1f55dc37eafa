import ScriptEngine.Script.Basic

/-!
# Statements

The body of a script as it is written: assignments, commands, loops and choices, one inside the
other. `Statement.lowerAll` lists the instructions of a body that starts at a given index.
-/

namespace ScriptEngine

/-- A statement of a script. -/
inductive Statement
  | assign (target expression : String) (span : Span)
  | command (use : CommandUse) (span : Span)
  /-- Repeats its body as long as the condition holds. -/
  | loop (condition : String) (body : List Statement) (span : Span)
  /-- Runs its body if the condition holds. -/
  | guarded (condition : String) (body : List Statement) (span : Span)
  /-- Runs its body if the condition holds, and else the other one. -/
  | choice (condition : String) (body : List Statement) (elseSpan : Span)
      (otherwise : List Statement) (span : Span)
  deriving Repr

namespace Statement

mutual

/-- The instructions of a statement that starts at an index. -/
def lower (start : Nat) : Statement → List Instruction
  | .assign target expression span => [⟨.assign target expression, span⟩]
  | .command use span => [⟨.command use, span⟩]
  | .loop condition body span =>
    let code := lowerAll (start + 1) body
    ⟨.loopStart condition (start + code.length + 2), span⟩ :: code ++ [⟨.loopEnd start, span⟩]
  | .guarded condition body span =>
    let code := lowerAll (start + 1) body
    ⟨.branch condition (start + code.length + 1), span⟩ :: code
  | .choice condition body elseSpan otherwise span =>
    let code := lowerAll (start + 1) body
    let elseStart := start + code.length + 2
    let elseCode := lowerAll elseStart otherwise
    ⟨.branch condition elseStart, span⟩ :: code ++
      ⟨.jump (elseStart + elseCode.length), elseSpan⟩ :: elseCode

/-- The instructions of statements of which the first starts at an index. -/
def lowerAll (start : Nat) : List Statement → List Instruction
  | [] => []
  | statement :: rest =>
    let code := lower start statement
    code ++ lowerAll (start + code.length) rest

end

end Statement

/-- A script as it is written. -/
structure Declaration where
  name : String
  path : String
  parameters : List ScriptParameter
  returnType : DataType
  body : List Statement
  deriving Repr

/-- The script that a declaration stands for. -/
def Declaration.toScript (d : Declaration) : Script :=
  ⟨d.name, d.path, d.parameters, d.returnType, Statement.lowerAll 0 d.body⟩

end ScriptEngine
