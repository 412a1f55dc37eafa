import ScriptEngine.Text.Digit

/-!
# Characters of markup

Which characters a document can hold, which of them separate, and which make up names; and the
character that a reference such as `&lt;` or `&#65;` stands for.
-/

namespace ScriptEngine.Markup

/-- The blanks of markup. -/
def isSpace (c : Char) : Bool :=
  c == ' ' || c == '\t' || c == '\n' || c == '\r'

/-- Whether a document can hold a character. -/
def isAllowed (c : Char) : Bool :=
  if c.toNat < 0x20 then isSpace c else c.toNat != 0xFFFE && c.toNat != 0xFFFF

/-- The code points beyond ASCII with which a name can start, as ranges. -/
def nameStartRanges : List (Nat × Nat) :=
  [(0xC0, 0xD6), (0xD8, 0xF6), (0xF8, 0x2FF), (0x370, 0x37D), (0x37F, 0x1FFF), (0x200C, 0x200D),
    (0x2070, 0x218F), (0x2C00, 0x2FEF), (0x3001, 0xD7FF), (0xF900, 0xFDCF), (0xFDF0, 0xFFFD),
    (0x10000, 0xEFFFF)]

/-- The further code points beyond ASCII inside a name, as ranges. -/
def nameRestRanges : List (Nat × Nat) :=
  [(0xB7, 0xB7), (0x300, 0x36F), (0x203F, 0x2040)]

/-- Whether a code point lies in one of the ranges. -/
def inRanges (ranges : List (Nat × Nat)) (n : Nat) : Bool :=
  ranges.any fun (low, high) => low ≤ n && n ≤ high

/-- Whether a name without colon can start with a character. -/
def isNameStart (c : Char) : Bool :=
  c.isAlpha || c == '_' || inRanges nameStartRanges c.toNat

/-- Whether a character can stand inside a name without colon. -/
def isNameRest (c : Char) : Bool :=
  isNameStart c || c.isDigit || c == '-' || c == '.' || inRanges nameRestRanges c.toNat

/-- The number written in a base, which has at least one digit and fits 32 bits. -/
def codePoint? (base : Nat) (digits : List Char) : Option Nat := do
  let values ← digits.mapM (Text.digitValue? base)
  let n := values.foldl (fun n d => base * n + d) 0
  if digits.isEmpty || UInt32.size ≤ n then none else some n

/-- The character with a code point that a document can hold. Numbers that are no code points give
the replacement character. -/
def character? (n : Nat) : Option Char :=
  let c := if n.isValidChar then Char.ofNat n else Char.ofNat 0xFFFD
  if isAllowed c then some c else none

/-- The character that a reference stands for, given what is between `&` and `;`. -/
def reference? (body : List Char) : Option Char :=
  match body with
  | '#' :: 'x' :: digits => (codePoint? 16 digits).bind character?
  | '#' :: digits => (codePoint? 10 digits).bind character?
  | _ =>
    match String.ofList body with
    | "quot" => some '"'
    | "amp" => some '&'
    | "apos" => some '\''
    | "lt" => some '<'
    | "gt" => some '>'
    | _ => none

/-- A character of text: written as itself, or by a reference. -/
inductive Letter
  | plain (c : Char)
  | reference (c : Char)
  deriving DecidableEq, Repr

/-- The letters of a text. What stands behind an `&` is gathered up to the next semicolon. -/
def letters? : Option (List Char) → List Char → Option (List Letter)
  | none, [] => some []
  | some _, [] => none
  | none, c :: cs =>
    if c = '&' then letters? (some []) cs else (letters? none cs).map (.plain c :: ·)
  | some body, c :: cs =>
    if c = ';' then do
      let character ← reference? body.reverse
      let rest ← letters? none cs
      return .reference character :: rest
    else
      letters? (some (c :: body)) cs

/-- The characters of a text between tags. A carriage return, with the line feed behind it if there
is one, becomes a line feed, except next to a reference where the two could not be told apart. -/
def lineEnds : Bool → List Letter → List Char
  | _, [] => []
  | _, .reference c :: rest => c :: lineEnds true rest
  | afterReference, [.plain c] => [if c = '\r' && !afterReference then '\n' else c]
  | _, .plain c :: .reference d :: rest => c :: lineEnds false (.reference d :: rest)
  | _, .plain c :: .plain d :: rest =>
    if c ≠ '\r' then c :: lineEnds false (.plain d :: rest)
    else if d = '\n' then '\n' :: lineEnds false rest
    else '\n' :: lineEnds false (.plain d :: rest)

/-- The characters of an attribute. Blanks become spaces, a line end of two characters one space. -/
def attributeBlanks : List Letter → List Char
  | [] => []
  | .reference c :: rest => c :: attributeBlanks rest
  | .plain c :: rest =>
    if c = '\r' ∧ rest.head? = some (.plain '\n') then attributeBlanks rest
    else (if isSpace c then ' ' else c) :: attributeBlanks rest

end ScriptEngine.Markup
