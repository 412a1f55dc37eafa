import ScriptEngine.Json.Basic

/-!
# JSON text

`Json.write` writes a value without blanks, `Json.pretty` with an indentation of two blanks. Inside
a string only quotes, backslashes and control characters are escaped. The replacement character
stands for what no text can.
-/

namespace ScriptEngine

/-- The lower case hexadecimal digit of a number below sixteen. -/
def hexDigit (n : Nat) : Char :=
  if n < 10 then Char.ofNat ('0'.toNat + n) else Char.ofNat ('a'.toNat + (n - 10))

/-- A character inside a JSON string. -/
def Json.escapeChar (c : Char) : List Char :=
  match c with
  | '"' => ['\\', '"']
  | '\\' => ['\\', '\\']
  | '\n' => ['\\', 'n']
  | '\r' => ['\\', 'r']
  | '\t' => ['\\', 't']
  | '\x08' => ['\\', 'b']
  | '\x0c' => ['\\', 'f']
  | _ =>
    if c.toNat < 0x20 then ['\\', 'u', '0', '0', hexDigit (c.toNat / 16), hexDigit (c.toNat % 16)]
    else [c]

/-- A text as JSON string. -/
def Json.quote (s : String) : List Char :=
  '"' :: s.toList.flatMap Json.escapeChar ++ ['"']

/-- The text of a numeral. An exponent always has a sign. -/
def Numeral.write (n : Numeral) : List Char :=
  let sign := if n.negative then ['-'] else []
  let fraction := if n.fraction.isEmpty then [] else '.' :: n.fraction.map Digit.toChar
  let exponent := match n.exponent with
    | none => []
    | some e =>
      let digits := if e = 0 then [0] else Decimal.digitsOf e.natAbs
      'e' :: (if e < 0 then '-' else '+') :: digits.map Digit.toChar
  sign ++ n.integer.map Digit.toChar ++ fraction ++ exponent

namespace Json

/-- The texts of a list with commas between them. -/
def commaSeparated : List (List Char) → List Char
  | [] => []
  | [item] => item
  | item :: rest => item ++ ',' :: commaSeparated rest

mutual

/-- The text of a value without blanks. -/
def writeChars : Json → List Char
  | .null => ['n', 'u', 'l', 'l']
  | .bool true => ['t', 'r', 'u', 'e']
  | .bool false => ['f', 'a', 'l', 's', 'e']
  | .number n => n.write
  | .string s => quote s
  | .unpaired => quote "\ufffd"
  | .array items => '[' :: commaSeparated (writeItems items) ++ [']']
  | .object members => '\x7b' :: commaSeparated (writeMembers members) ++ ['\x7d']

/-- The texts of the items of an array. -/
def writeItems : List Json → List (List Char)
  | [] => []
  | item :: rest => writeChars item :: writeItems rest

/-- The texts of the members of an object. -/
def writeMembers : List (String × Json) → List (List Char)
  | [] => []
  | (name, value) :: rest => (quote name ++ ':' :: writeChars value) :: writeMembers rest

end

/-- The text of a value without blanks. -/
def write (j : Json) : String :=
  String.ofList j.writeChars

/-- A new line and two blanks for every level. -/
def newLine (level : Nat) : List Char :=
  '\n' :: List.replicate (2 * level) ' '

/-- The lines between two brackets, one level deeper than `level`. -/
def block (level : Nat) (opening closing : Char) (lines : List (List Char)) : List Char :=
  let indented := lines.map (newLine (level + 1) ++ ·)
  if lines.isEmpty then [opening, closing]
  else opening :: commaSeparated indented ++ newLine level ++ [closing]

mutual

/-- The text of a value that stands at a level of indentation. -/
def prettyChars (level : Nat) : Json → List Char
  | .array items => block level '[' ']' (prettyItems (level + 1) items)
  | .object members => block level '\x7b' '\x7d' (prettyMembers (level + 1) members)
  | .null => writeChars .null
  | .bool b => writeChars (.bool b)
  | .number n => writeChars (.number n)
  | .string s => writeChars (.string s)
  | .unpaired => writeChars .unpaired

/-- The lines of the items of an array. -/
def prettyItems (level : Nat) : List Json → List (List Char)
  | [] => []
  | item :: rest => prettyChars level item :: prettyItems level rest

/-- The lines of the members of an object. -/
def prettyMembers (level : Nat) : List (String × Json) → List (List Char)
  | [] => []
  | (name, value) :: rest =>
    (quote name ++ ':' :: ' ' :: prettyChars level value) :: prettyMembers level rest

end

/-- The text of a value with one item or member in a line. -/
def pretty (j : Json) : String :=
  String.ofList (prettyChars 0 j)

end Json

end ScriptEngine
