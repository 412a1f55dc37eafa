/-!
# Custom number patterns

A pattern is one to three sections divided by `;`. `Pattern.parse` reads the characters one by one
into pieces: placeholders, marks, and literal text, which is quoted, escaped, or any character
without a meaning of its own.
-/

namespace ScriptEngine.NumberFormat

/-- The sign written between the mark and the digits of an exponent. -/
inductive ExponentSign
  | absent
  | plus
  | minus
  deriving DecidableEq, Repr

/-- One element of a section. -/
inductive Piece
  /-- A placeholder for a digit: `0` if required, `#` if not. -/
  | place (required : Bool)
  /-- The decimal point. -/
  | point
  /-- A comma: it groups digits, or divides by a thousand behind the last integer place. -/
  | comma
  | percent
  | perMille
  /-- A mark `E` or `e` with at least one `0`. -/
  | exponent (mark : Char) (sign : ExponentSign) (zeros : Nat)
  | literal (text : List Char)
  deriving DecidableEq, Repr

/-- A section of a pattern. -/
abbrev Section := List Piece

/-- Why a text is not a pattern. -/
inductive PatternFault
  | unterminatedLiteral (quote : Char)
  | danglingEscape
  | tooManySections
  deriving DecidableEq, Repr

namespace Pattern

/-- What the characters read so far have left open. -/
inductive Mode
  | plain
  /-- Inside a quoted literal. -/
  | quoted (quote : Char) (text : List Char)
  /-- Behind a backslash. -/
  | escaped
  /-- Behind a mark `E` or `e`. -/
  | marked (mark : Char)
  /-- Behind such a mark and a sign. -/
  | signed (mark sign : Char)
  /-- Among the zeros of an exponent. -/
  | zeros (mark : Char) (sign : ExponentSign) (count : Nat)
  deriving DecidableEq, Repr

/-- The state of reading a pattern. -/
structure Scanner where
  mode : Mode := .plain
  /-- The finished pieces of the section being read. -/
  pieces : Section := []
  /-- The sections read to their end. -/
  sections : List Section := []
  deriving DecidableEq, Repr

namespace Scanner

/-- Adds a piece to the section being read. -/
def push (s : Scanner) (piece : Piece) : Scanner :=
  { s with mode := .plain, pieces := s.pieces ++ [piece] }

/-- The sign of an exponent that a character stands for. -/
def signOf (c : Char) : ExponentSign :=
  if c = '+' then .plus else .minus

/-- Ends an exponent, or a mark that turned out to be none. -/
def settle (s : Scanner) : Scanner :=
  match s.mode with
  | .marked mark => s.push (.literal [mark])
  | .signed mark sign => (s.push (.literal [mark])).push (.literal [sign])
  | .zeros mark sign count => s.push (.exponent mark sign count)
  | _ => s

/-- Reads a character outside of literals and exponents. -/
def readPlain (s : Scanner) (c : Char) : Except PatternFault Scanner :=
  match c with
  | '0' => .ok (s.push (.place true))
  | '#' => .ok (s.push (.place false))
  | '.' => .ok (s.push .point)
  | ',' => .ok (s.push .comma)
  | '%' => .ok (s.push .percent)
  | '‰' => .ok (s.push .perMille)
  | '\'' | '"' => .ok { s with mode := .quoted c [] }
  | '\\' => .ok { s with mode := .escaped }
  | 'E' | 'e' => .ok { s with mode := .marked c }
  | ';' =>
    if 2 ≤ s.sections.length then .error .tooManySections
    else .ok { s with pieces := [], sections := s.sections ++ [s.pieces] }
  | _ => .ok (s.push (.literal [c]))

/-- Reads one character. -/
def read (s : Scanner) (c : Char) : Except PatternFault Scanner :=
  match s.mode with
  | .plain => s.readPlain c
  | .quoted quote text =>
    if c = quote then .ok (s.push (.literal text))
    else .ok { s with mode := .quoted quote (text ++ [c]) }
  | .escaped => .ok (s.push (.literal [c]))
  | .marked mark =>
    if c = '0' then .ok { s with mode := .zeros mark .absent 1 }
    else if c = '+' ∨ c = '-' then .ok { s with mode := .signed mark c }
    else s.settle.readPlain c
  | .signed mark sign =>
    if c = '0' then .ok { s with mode := .zeros mark (signOf sign) 1 } else s.settle.readPlain c
  | .zeros mark sign count =>
    if c = '0' then .ok { s with mode := .zeros mark sign (count + 1) } else s.settle.readPlain c

/-- The sections once the text is read. -/
def finish (s : Scanner) : Except PatternFault (List Section) :=
  match s.mode with
  | .quoted quote _ => .error (.unterminatedLiteral quote)
  | .escaped => .error .danglingEscape
  | _ => .ok (s.sections ++ [s.settle.pieces])

end Scanner

/-- The sections of a pattern. -/
def parse (text : List Char) : Except PatternFault (List Section) := do
  (← text.foldlM Scanner.read {}).finish

end Pattern

end ScriptEngine.NumberFormat
