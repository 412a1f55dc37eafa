import ScriptEngine.Json.Basic
import ScriptEngine.Text.Digit

/-!
# Reading JSON

`Json.parse?` reads a text that is one JSON value with blanks around it. The readers take the
characters ahead and return what they read with the rest.
-/

namespace ScriptEngine.Json

open Text (hexValue?)

/-- Blanks between the tokens of a JSON text. -/
def isSpace (c : Char) : Bool :=
  c == ' ' || c == '\n' || c == '\r' || c == '\t'

/-- The characters from the first one that is no blank. -/
def skipSpace (cs : List Char) : List Char :=
  cs.dropWhile isSpace

/-- The value of four hexadecimal digits. -/
def hexUnit? (a b c d : Char) : Option Nat := do
  return 4096 * (← hexValue? a) + 256 * (← hexValue? b) + 16 * (← hexValue? c) + (← hexValue? d)

/-- The character of a short escape. -/
def shortEscape? (c : Char) : Option Char :=
  match c with
  | '"' => some '"'
  | '\\' => some '\\'
  | '/' => some '/'
  | 'b' => some '\x08'
  | 'f' => some '\x0c'
  | 'n' => some '\n'
  | 'r' => some '\r'
  | 't' => some '\t'
  | _ => none

/-- The first half of a surrogate pair. -/
def isHighSurrogate (unit : Nat) : Bool :=
  0xD800 ≤ unit && unit ≤ 0xDBFF

/-- The second half of a surrogate pair. -/
def isLowSurrogate (unit : Nat) : Bool :=
  0xDC00 ≤ unit && unit ≤ 0xDFFF

/-- The character of a surrogate pair. -/
def pairedChar (high low : Nat) : Char :=
  Char.ofNat (0x10000 + (high - 0xD800) * 0x400 + (low - 0xDC00))

/-- What is read of a string after a character in front of it. -/
def consBody? (c : Char) (body : Option (Option (List Char) × List Char)) :
    Option (Option (List Char) × List Char) :=
  body.map fun (text, left) => (text.map (c :: ·), left)

/-- What is read of a string after half of a surrogate pair: no text. -/
def halfBody? (body : Option (Option (List Char) × List Char)) :
    Option (Option (List Char) × List Char) :=
  body.map fun (_, left) => (none, left)

/-- The text of a string up to its closing quote, and the rest. A string with half of a surrogate
pair in it has no text. -/
def stringBody? : List Char → Option (Option (List Char) × List Char)
  | [] => none
  | '"' :: rest => some (some [], rest)
  | '\\' :: 'u' :: a :: b :: c :: d :: rest => do
    let unit ← hexUnit? a b c d
    if isHighSurrogate unit then
      match rest with
      | '\\' :: 'u' :: e :: f :: g :: h :: others =>
        match (hexUnit? e f g h).filter isLowSurrogate with
        | some low => consBody? (pairedChar unit low) (stringBody? others)
        | none => halfBody? (stringBody? ('\\' :: 'u' :: e :: f :: g :: h :: others))
      | others => halfBody? (stringBody? others)
    else if isLowSurrogate unit then
      halfBody? (stringBody? rest)
    else
      consBody? (Char.ofNat unit) (stringBody? rest)
  | '\\' :: c :: rest => do
    let escaped ← shortEscape? c
    consBody? escaped (stringBody? rest)
  | c :: rest =>
    if c.toNat < 0x20 || c == '\\' then none else consBody? c (stringBody? rest)

/-- The string with a text, if it has one. -/
def ofText : Option (List Char) → Json
  | some text => .string (String.ofList text)
  | none => .unpaired

/-- The object with the given members, if all names have texts. -/
def ofMembers (members : List (Option (List Char) × Json)) : Json :=
  match members.mapM fun (name, value) => name.map fun text => (String.ofList text, value) with
  | some named => .object named
  | none => .unpaired

/-- The integer part of a number: zero, or digits that do not start with zero. -/
def integerPart? (cs : List Char) : Option (List Digit × List Char) :=
  match Digit.run cs with
  | ([], _) => none
  | (0 :: _ :: _, _) => none
  | run => some run

/-- The fraction of a number: none, or a point and at least one digit. -/
def fractionPart? (cs : List Char) : Option (List Digit × List Char) :=
  match cs with
  | '.' :: rest =>
    match Digit.run rest with
    | ([], _) => none
    | run => some run
  | _ => some ([], cs)

/-- The exponent of a number, if it has one. -/
def exponentPart? (cs : List Char) : Option (Option Int × List Char) :=
  match cs with
  | mark :: rest =>
    if mark = 'e' ∨ mark = 'E' then
      let (negative, body) := match rest with
        | '-' :: body => (true, body)
        | '+' :: body => (false, body)
        | body => (false, body)
      match Digit.run body with
      | ([], _) => none
      | (digits, left) =>
        let value : Int := Digit.value digits
        some (some (if negative then -value else value), left)
    else
      some (none, cs)
  | [] => some (none, cs)

/-- A number. -/
def numeral? (cs : List Char) : Option (Numeral × List Char) := do
  let (negative, body) := match cs with
    | '-' :: body => (true, body)
    | body => (false, body)
  let (integer, afterInteger) ← integerPart? body
  let (fraction, afterFraction) ← fractionPart? afterInteger
  let (exponent, left) ← exponentPart? afterFraction
  return (⟨negative, integer, fraction, exponent⟩, left)

mutual

/-- A value, behind blanks. Every call of the three readers takes one from the fuel. -/
def readValue? : Nat → List Char → Option (Json × List Char)
  | 0, _ => none
  | fuel + 1, cs =>
    match skipSpace cs with
    | 'n' :: 'u' :: 'l' :: 'l' :: rest => some (.null, rest)
    | 't' :: 'r' :: 'u' :: 'e' :: rest => some (.bool true, rest)
    | 'f' :: 'a' :: 'l' :: 's' :: 'e' :: rest => some (.bool false, rest)
    | '"' :: rest => (stringBody? rest).map fun (text, left) => (ofText text, left)
    | '[' :: rest =>
      match skipSpace rest with
      | ']' :: left => some (.array [], left)
      | _ => (readItems? fuel rest).map fun (items, left) => (.array items, left)
    | '\x7b' :: rest =>
      match skipSpace rest with
      | '\x7d' :: left => some (.object [], left)
      | _ => (readMembers? fuel rest).map fun (members, left) => (ofMembers members, left)
    | other => (numeral? other).map fun (n, left) => (.number n, left)

/-- The items of an array up to its closing bracket, at least one. -/
def readItems? : Nat → List Char → Option (List Json × List Char)
  | 0, _ => none
  | fuel + 1, cs => do
    let (item, afterItem) ← readValue? fuel cs
    match skipSpace afterItem with
    | ']' :: left => return ([item], left)
    | ',' :: rest =>
      let (items, left) ← readItems? fuel rest
      return (item :: items, left)
    | _ => none

/-- The members of an object up to its closing bracket, at least one. -/
def readMembers? : Nat → List Char → Option (List (Option (List Char) × Json) × List Char)
  | 0, _ => none
  | fuel + 1, cs => do
    match skipSpace cs with
    | '"' :: rest =>
      let (name, afterName) ← stringBody? rest
      match skipSpace afterName with
      | ':' :: body =>
        let (value, afterValue) ← readValue? fuel body
        match skipSpace afterValue with
        | '\x7d' :: left => return ([(name, value)], left)
        | ',' :: more =>
          let (members, left) ← readMembers? fuel more
          return ((name, value) :: members, left)
        | _ => none
      | _ => none
    | _ => none

end

/-- Reads a text that is one JSON value. -/
def parse? (text : String) : Option Json :=
  let cs := text.toList
  match readValue? (2 * (cs.length + 1)) cs with
  | some (j, left) => if (skipSpace left).isEmpty then some j else none
  | none => none

end ScriptEngine.Json
