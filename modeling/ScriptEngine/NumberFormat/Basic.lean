import ScriptEngine.NumberFormat.Custom
import ScriptEngine.NumberFormat.Standard
import ScriptEngine.Text.DecimalDigit

/-!
# Number formats

A format is standard if it is a letter with at most two digits, or empty, and custom otherwise.
`NumberFormat.write` reads locale and format before it looks at the number, so what it accepts
depends on these two alone.
-/

namespace ScriptEngine

/-- How a number is written. -/
inductive NumberFormat
  | standard (kind : NumberFormat.Standard) (lowerCase : Bool) (precision : Option Nat)
  | custom (sections : List NumberFormat.Section)
  deriving DecidableEq, Repr

namespace NumberFormat

/-- Why a number cannot be written. -/
inductive FormatFault
  | unknownLocale (name : String)
  | unsupported (format : String)
  | malformed (format : String) (fault : PatternFault)
  deriving DecidableEq, Repr

/-- The wording of a fault. -/
def FormatFault.message : FormatFault → String
  | .unknownLocale name => s!"Unknown locale \"{name}\"."
  | .unsupported format => s!"\"{format}\" is not a supported standard format specifier."
  | .malformed format (.unterminatedLiteral quote) =>
    s!"Format \"{format}\" has an unterminated {quote} literal."
  | .malformed format .danglingEscape => s!"Format \"{format}\" ends with a dangling escape."
  | .malformed format .tooManySections => s!"Format \"{format}\" has more than three sections."

/-- The letter and the digits of a text of the shape of a standard format. -/
def standardShape? (text : List Char) : Option (Char × List Char) :=
  match text with
  | [] => none
  | letter :: digits =>
    if letter.isAlpha && digits.length ≤ 2 && digits.all Text.isDecimalDigit then
      some (letter, digits)
    else
      none

/-- The precision that the digits of a standard format give. Only ASCII digits count. -/
def precisionOf (digits : List Char) : Option Nat :=
  if digits.isEmpty || !digits.all Char.isDigit then none
  else some (digits.foldl (fun n c => 10 * n + (c.toNat - '0'.toNat)) 0)

/-- Reads a format. The empty one is general. -/
def parse (format : String) : Except FormatFault NumberFormat :=
  if format.isEmpty then
    .ok (.standard .general false none)
  else
    match standardShape? format.toList with
    | some (letter, digits) =>
      match Standard.ofLetter? letter with
      | some kind => .ok (.standard kind letter.isLower (precisionOf digits))
      | none => .error (.unsupported format)
    | none =>
      match Pattern.parse format.toList with
      | .ok sections => .ok (.custom sections)
      | .error fault => .error (.malformed format fault)

/-- Writes a double in a format that has been read. -/
def apply (format : NumberFormat) (locale : Locale) (x : Float) : String :=
  if x.isNaN then locale.nan
  else if x.isInf then (if 0 < x then locale.positiveInfinity else locale.negativeInfinity)
  else
    match format with
    | .standard kind lowerCase precision =>
      String.ofList (kind.format lowerCase precision locale x)
    | .custom sections => String.ofList (formatCustom locale sections x)

/-- Writes a double in the named format and locale. -/
def write (x : Float) (format locale : String) : Except FormatFault String :=
  match Locale.find? locale with
  | none => .error (.unknownLocale locale)
  | some found => (parse format).map fun parsed => parsed.apply found x

end NumberFormat

end ScriptEngine
