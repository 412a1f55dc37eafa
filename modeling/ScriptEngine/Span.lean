/-!
# Places in a source text

Lines and columns count from 1, and a column counts characters.
-/

namespace ScriptEngine

/-- A place in a source text. -/
structure Position where
  line : Nat
  column : Nat
  deriving DecidableEq, Repr

/-- A stretch of a source text, up to just behind its last character. -/
structure Span where
  start : Position
  stop : Position
  deriving DecidableEq, Repr

/-- The place before the first character. -/
def Position.first : Position :=
  ⟨1, 1⟩

/-- The place behind a character. Only a line feed ends a line. -/
def Position.next (p : Position) (c : Char) : Position :=
  if c = '\n' then ⟨p.line + 1, 1⟩ else { p with column := p.column + 1 }

/-- The beginning of a line. -/
def Span.atLine (line : Nat) : Span :=
  ⟨⟨line, 1⟩, ⟨line, 1⟩⟩

end ScriptEngine
