import ScriptEngine.Decimal.Literal
import ScriptEngine.Expression.Basic
import ScriptEngine.Text.Digit
import ScriptEngine.Text.Identifier

/-!
# Tokens of expressions

`Token.scan?` cuts the text of an expression into literals, words, operators and punctuation.
Blanks and comments separate tokens. A minus sign right in front of a digit belongs to the number
unless an operand stands before it.
-/

namespace ScriptEngine.Expression

/-- A piece of the text of an expression. -/
inductive Token
  | literal (datum : Datum)
  | word (name : String)
  | operator (operator : BinaryOperator)
  | bang
  | leftParenthesis
  | rightParenthesis
  | leftBracket
  | rightBracket
  /-- The `#` and brace that open a record. -/
  | recordStart
  | rightBrace
  | comma
  | colon
  | point
  deriving DecidableEq, Repr

/-- Whether an operand can end with a token. -/
def Token.endsOperand : Token → Bool
  | .literal _ | .word _ | .rightParenthesis | .rightBracket | .rightBrace => true
  | _ => false

/-! ## Blanks and comments -/

/-- The blanks between tokens. -/
def isSpace (c : Char) : Bool :=
  c == ' ' || c == '\t' || c == '\n' || c == '\x0c' || c == '\r'

/-- Where text that is skipped lies. -/
inductive Gap
  | blanks
  | lineComment
  /-- Inside a comment in which this many more comments are open. -/
  | blockComment (outer : Nat)
  deriving DecidableEq, Repr

/-- The characters from the next token on. A comment that is not closed reaches to the end. -/
def skip : Gap → List Char → List Char
  | _, [] => []
  | .blanks, '/' :: '/' :: rest => skip .lineComment rest
  | .blanks, '/' :: '*' :: rest => skip (.blockComment 0) rest
  | .blanks, c :: rest => if isSpace c then skip .blanks rest else c :: rest
  | .lineComment, c :: rest =>
    if c = '\n' ∨ c = '\r' then skip .blanks rest else skip .lineComment rest
  | .blockComment outer, '/' :: '*' :: rest => skip (.blockComment (outer + 1)) rest
  | .blockComment 0, '*' :: '/' :: rest => skip .blanks rest
  | .blockComment (outer + 1), '*' :: '/' :: rest => skip (.blockComment outer) rest
  | .blockComment outer, _ :: rest => skip (.blockComment outer) rest

/-! ## Numbers -/

/-- Whether a character can stand in a run of digits: an underscore separates groups. -/
def isDigitOrGap (c : Char) : Bool :=
  c.isDigit || c == '_'

/-- The digits in front, without the underscores between them, and the rest. -/
def digitGroups (cs : List Char) : List Digit × List Char :=
  (((cs.takeWhile isDigitOrGap).filter Char.isDigit).map Digit.ofChar, cs.dropWhile isDigitOrGap)

/-- Whether a point in front of a character belongs to another token than the number before it: to
the name of a property, or to a symbol of several points. -/
def claimsPoint (c : Char) : Bool :=
  c.isAlpha || c == '_' || c == '.'

/-- The fraction in front and the rest. A point belongs to the number if a digit follows or anything
that claims no point for itself. -/
def fractionPart (cs : List Char) : Option (List Digit) × List Char :=
  match cs with
  | '.' :: c :: rest =>
    if claimsPoint c then
      (none, cs)
    else if c.isDigit then
      let (digits, left) := digitGroups (c :: rest)
      (some digits, left)
    else
      (some [], c :: rest)
  | _ => (none, cs)

/-- The exponent in front and the rest; nothing if a sign is not followed by digits. -/
def exponentPart (cs : List Char) : Option (Option Int × List Char) :=
  match cs with
  | mark :: c :: rest =>
    if mark ≠ 'e' ∧ mark ≠ 'E' then some (none, cs)
    else if c.isDigit then
      let (digits, left) := digitGroups (c :: rest)
      some (some (Digit.value digits), left)
    else if c = '+' ∨ c = '-' then
      match digitGroups rest with
      | ([], _) => none
      | (digits, left) =>
        let value : Int := Digit.value digits
        some (some (if c = '-' then -value else value), left)
    else some (none, cs)
  | _ => some (none, cs)

/-- The integer with the given magnitude and sign, or the double nearest to it if it is too
large. -/
def integerDatum (negative : Bool) (digits : List Digit) : Datum :=
  let magnitude := Digit.value digits
  if magnitude < Nat.pow 2 63 ∨ negative ∧ magnitude = Nat.pow 2 63 then
    .integer (Int64.ofInt (if negative then -magnitude else magnitude))
  else
    .float (Decimal.ofParts negative digits [] 0).toFloat

/-- A number in decimal notation. -/
def decimalNumber? (negative : Bool) (cs : List Char) : Option (Datum × List Char) := do
  let (integer, afterInteger) := digitGroups cs
  let (fraction, afterFraction) := fractionPart afterInteger
  let (exponent, rest) ← exponentPart afterFraction
  if fraction.isNone && exponent.isNone then
    return (integerDatum negative integer, rest)
  else
    let number := Decimal.ofParts negative integer (fraction.getD []) (exponent.getD 0)
    return (.float number.toFloat, rest)

/-- The number that digits denote in a base. -/
def valueInBase? (base : Nat) (digits : List Char) : Option Nat :=
  digits.foldlM (fun n c => do
    let d ← Text.digitValue? base c
    return base * n + d) 0

/-- An integer in a base other than ten: at least one digit, sixty-four bits at most, and no sign of
its own. -/
def basedNumber? (base : Nat) (cs : List Char) : Option (Datum × List Char) := do
  let inRun := fun (c : Char) =>
    c == '_' || if base == 16 then (Text.hexValue? c).isSome else c.isDigit
  let digits := (cs.takeWhile inRun).filter (· != '_')
  let value ← valueInBase? base digits
  if digits.isEmpty || Nat.pow 2 64 ≤ value then
    none
  else
    return (.integer (Int64.ofNat value), cs.dropWhile inRun)

/-- The base that a letter after a zero stands for. -/
def baseOf? (c : Char) : Option Nat :=
  match c.toLower with
  | 'x' => some 16
  | 'o' => some 8
  | 'b' => some 2
  | _ => none

/-- The base that a zero in front stands for with the letter behind it, and the rest. Underscores
may separate the two. -/
def basePart? (cs : List Char) : Option (Nat × List Char) :=
  match cs with
  | '0' :: rest =>
    match rest.dropWhile (· == '_') with
    | mark :: digits => (baseOf? mark).map fun base => (base, digits)
    | [] => none
  | _ => none

/-- A number, which starts with a digit. -/
def number? (negative : Bool) (cs : List Char) : Option (Datum × List Char) :=
  match basePart? cs with
  | some (base, rest) => if negative then none else basedNumber? base rest
  | none => decimalNumber? negative cs

/-! ## Texts -/

/-- The character whose code point is written with the first `count` hexadecimal digits. -/
def codePoint? (count : Nat) (cs : List Char) : Option Char := do
  let digits := cs.take count
  let value ← valueInBase? 16 digits
  if h : value.isValidChar ∧ digits.length = count then some (Char.ofNatAux value h.1) else none

/-- How many hexadecimal digits follow the letter of an escape. -/
def escapeLength? : Char → Option Nat
  | 'x' => some 2
  | 'u' => some 4
  | 'U' => some 8
  | _ => none

/-- The character that a letter after a backslash stands for by itself. -/
def escaped? (quote : Char) (c : Char) : Option Char :=
  match c with
  | 't' => some '\t'
  | 'n' => some '\n'
  | 'r' => some '\r'
  | '\\' => some '\\'
  | _ => if c = quote then some quote else none

/-- The characters up to the closing quote, and the rest behind it. The first argument counts
characters of an escape that are yet to be passed over. A quote may be written twice, and a line
must not end. -/
def quoted? (quote : Char) : Nat → List Char → Option (List Char × List Char)
  | _, [] => none
  | pending + 1, _ :: rest => quoted? quote pending rest
  | 0, '\\' :: c :: rest =>
    match escapeLength? c with
    | some count => do
      let decoded ← codePoint? count rest
      let (text, left) ← quoted? quote count rest
      return (decoded :: text, left)
    | none => do
      let decoded ← escaped? quote c
      let (text, left) ← quoted? quote 0 rest
      return (decoded :: text, left)
  | 0, c :: rest =>
    if c = quote then
      match rest with
      | d :: left =>
        if d = quote then do
          let (text, left) ← quoted? quote 0 left
          return (quote :: text, left)
        else some ([], rest)
      | [] => some ([], [])
    else if c = '\n' ∨ c = '\\' then none
    else do
      let (text, left) ← quoted? quote 0 rest
      return (c :: text, left)

/-! ## Words and symbols -/

/-- Whether a word has a letter before its first digit. -/
def isWord (cs : List Char) : Bool :=
  match cs.dropWhile (· == '_') with
  | [] => false
  | c :: _ => c.isAlpha

/-- The token of a word. -/
def wordToken? (cs : List Char) : Option Token :=
  if isWord cs then
    match String.ofList cs with
    | "true" => some (.literal (.truth true))
    | "false" => some (.literal (.truth false))
    | "in" => some (.operator .within)
    | name => some (.word name)
  else
    none

/-- Pairs and triples of characters that are symbols without a meaning in expressions. -/
def foreignSymbols : List String :=
  ["++", "--", "+=", "-=", "->", "*)", "*=", "**=", "/=", "===", "=>", "<-", "<|", "<<=", ">>=",
    "!==", "!.", "||=", "|=", "|>", "&=", "^=", "%=", "..", "(*"]

/-- The symbols with a meaning, each longer one before its beginnings. -/
def symbols : List (String × Token) :=
  [("**", .operator (.arithmetic .power)),
    ("==", .operator (.comparison .equal)),
    ("!=", .operator (.comparison .unequal)),
    ("<=", .operator (.comparison .lessOrEqual)),
    (">=", .operator (.comparison .greaterOrEqual)),
    ("<<", .operator (.shift .left)),
    (">>", .operator (.shift .right)),
    ("||", .operator .either),
    ("&&", .operator .both),
    ("#\x7b", .recordStart),
    ("+", .operator (.arithmetic .add)),
    ("-", .operator (.arithmetic .subtract)),
    ("*", .operator (.arithmetic .multiply)),
    ("/", .operator (.arithmetic .divide)),
    ("%", .operator (.arithmetic .modulo)),
    ("<", .operator (.comparison .less)),
    (">", .operator (.comparison .greater)),
    ("|", .operator (.bits .disjunction)),
    ("^", .operator (.bits .exclusive)),
    ("&", .operator (.bits .conjunction)),
    ("!", .bang),
    ("(", .leftParenthesis),
    (")", .rightParenthesis),
    ("[", .leftBracket),
    ("]", .rightBracket),
    ("\x7d", .rightBrace),
    (",", .comma),
    (":", .colon),
    (".", .point)]

/-- A symbol in front and the rest. -/
def symbol? (cs : List Char) : Option (Token × List Char) :=
  if foreignSymbols.any fun symbol => symbol.toList.isPrefixOf cs then
    none
  else
    (symbols.find? fun (symbol, _) => symbol.toList.isPrefixOf cs).map fun (symbol, token) =>
      (token, cs.drop symbol.length)

/-! ## Scanning -/

/-- The token in front and the rest. -/
def token? (afterOperand : Bool) (cs : List Char) : Option (Token × List Char) :=
  match cs with
  | [] => none
  | '"' :: rest => do
    let (text, left) ← quoted? '"' 0 rest
    return (.literal (.text (String.ofList text)), left)
  | '\'' :: '\'' :: _ => none
  | '\'' :: rest =>
    match quoted? '\'' 0 rest with
    | some ([c], left) => some (.literal (.character c), left)
    | _ => none
  | '-' :: d :: rest =>
    if d.isDigit && !afterOperand then
      (number? true (d :: rest)).map fun (datum, left) => (.literal datum, left)
    else
      symbol? cs
  | c :: _ =>
    if c.isDigit then
      (number? false cs).map fun (datum, left) => (.literal datum, left)
    else if Text.isIdentifierStart c then
      (wordToken? (cs.takeWhile Text.isIdentifierRest)).map fun token =>
        (token, cs.dropWhile Text.isIdentifierRest)
    else
      symbol? cs

/-- The tokens of a text, at most `fuel` of them. -/
def tokensWithin : Nat → Bool → List Char → Option (List Token)
  | fuel, afterOperand, cs =>
    match skip .blanks cs with
    | [] => some []
    | start =>
      match fuel with
      | 0 => none
      | fuel + 1 => do
        let (token, rest) ← token? afterOperand start
        let tokens ← tokensWithin fuel token.endsOperand rest
        return token :: tokens

/-- The tokens of the text of an expression. No token is empty, so there are no more of them than
characters. -/
def Token.scan? (text : String) : Option (List Token) :=
  tokensWithin text.length false text.toList

end ScriptEngine.Expression
