import ScriptEngine.Decimal.Binary64
import ScriptEngine.NumberFormat.Layout
import ScriptEngine.NumberFormat.Pattern

/-!
# Custom number formats

A section of a pattern fixes how far a number is rounded and where its digits go. Every
placeholder has a position, 1 for the last one before the point and 0 for the first one behind it,
and shows the digit at that position. Digits in front of the first placeholder are written with it.
-/

namespace ScriptEngine.NumberFormat

namespace Piece

/-- Whether a piece is a placeholder for a digit. -/
def isPlace : Piece → Bool
  | .place _ => true
  | _ => false

/-- Whether a piece is an exponent. -/
def isExponent : Piece → Bool
  | .exponent .. => true
  | _ => false

end Piece

namespace Section

/-- The pieces before the first point. -/
def integerPart (s : Section) : Section :=
  s.takeWhile (· != .point)

/-- The pieces from the first point on. -/
def fractionPart (s : Section) : Section :=
  s.dropWhile (· != .point)

/-- Number of placeholders. -/
def places (s : Section) : Nat :=
  s.countP Piece.isPlace

/-- Number of placeholders before the point. -/
def integerPlaces (s : Section) : Nat :=
  places (integerPart s)

/-- Number of placeholders behind the point. -/
def fractionPlaces (s : Section) : Nat :=
  places (fractionPart s)

/-- Fewest integer digits written: the placeholders from the first `0` to the point. -/
def leastInteger (s : Section) : Nat :=
  places ((integerPart s).dropWhile (· != .place true))

/-- Fewest fraction digits written: the placeholders from the point to the last `0`. -/
def leastFraction (s : Section) : Nat :=
  places ((fractionPart s).reverse.dropWhile (· != .place true))

/-- Whether the number is written with an exponent. -/
def isScientific (s : Section) : Bool :=
  s.any Piece.isExponent

/-- Commas behind the last integer placeholder. -/
def thousands (s : Section) : Nat :=
  if integerPlaces s = 0 then 0
  else ((integerPart s).reverse.takeWhile (!·.isPlace)).count .comma

/-- Whether a comma stands between two integer placeholders. -/
def isGrouped (s : Section) : Bool :=
  let inner := ((integerPart s).dropWhile (!·.isPlace)).reverse.dropWhile (!·.isPlace)
  inner.contains .comma

/-- The power of ten by which percent, per mille and thousands marks multiply. -/
def scaling (s : Section) : Int :=
  2 * s.count .percent + 3 * s.count .perMille - 3 * thousands s

/-- A number scaled and rounded as far as the section shows it. -/
def prepare (s : Section) (x : Decimal) : Decimal :=
  let scaled := x.shift (scaling s)
  scaled.round (if isScientific s then places s else scaled.scale + fractionPlaces s)

end Section

/-- What the placeholders of a section show. -/
structure Display where
  /-- The digits, with the point where the section has it. -/
  number : Decimal
  leastInteger : Nat
  leastFraction : Nat
  integerPlaces : Nat
  /-- Whether the section has a point with placeholders behind it. -/
  hasFraction : Bool
  /-- What is written behind the digit at a position that ends a group. -/
  separator : List Char
  /-- The exponent. -/
  power : Int

namespace Display

/-- The display of a prepared number. With an exponent the digits start at the first placeholder. -/
def ofSection (locale : Locale) (s : Section) (x : Decimal) : Display where
  number := if Section.isScientific s then { x with scale := Section.integerPlaces s } else x
  leastInteger := Section.leastInteger s
  leastFraction := Section.leastFraction s
  integerPlaces := Section.integerPlaces s
  hasFraction := 0 < Section.fractionPlaces s
  separator := if Section.isGrouped s then locale.groupSeparator.toList else []
  power := if x.isZero then 0 else x.scale - Section.integerPlaces s

/-- The digit shown at a position, if any. -/
def digit? (d : Display) (position : Int) : Option Digit :=
  if d.number.scale < position then
    if position ≤ d.leastInteger then some 0 else none
  else if d.number.scale - position < d.number.digits.length then
    some (d.number.digit position)
  else if -(d.leastFraction : Int) < position then
    some 0
  else
    none

/-- The text at a position: its digit and a separator behind it if it ends a group. -/
def place (d : Display) (position : Int) : List Char :=
  match d.digit? position with
  | none => []
  | some digit =>
    digit.toChar :: if 1 < position ∧ (position - 1) % groupSize = 0 then d.separator else []

/-- The digits in front of the first placeholder. -/
def overflow (d : Display) : List Char :=
  (List.range (d.number.scale - d.integerPlaces).toNat).flatMap fun (i : Nat) =>
    d.place (d.number.scale - i)

/-- Whether the point is written. -/
def showsPoint (d : Display) : Bool :=
  0 < d.leastFraction || (d.hasFraction && d.number.scale < d.number.digits.length)

end Display

/-- How far the writing of a section has come. -/
structure Progress where
  /-- The position of the next placeholder. -/
  position : Int
  /-- Whether a placeholder or point has been met. -/
  started : Bool := false
  pointMet : Bool := false
  exponentMet : Bool := false

/-- The text of an exponent that is written as it stands. -/
def ExponentSign.text : ExponentSign → List Char
  | .absent => []
  | .plus => ['+']
  | .minus => ['-']

/-- Widest padding of an exponent. -/
def widestExponent : Nat := 10

/-- Writes the pieces of a section. -/
def writePieces (locale : Locale) (d : Display) : Progress → Section → List Char
  | _, [] => []
  | p, .place _ :: rest =>
    let lead := if p.started then [] else d.overflow
    lead ++ d.place p.position ++
      writePieces locale d { p with position := p.position - 1, started := true } rest
  | p, .point :: rest =>
    let lead := if p.started then [] else d.overflow
    let point := if !p.pointMet && d.showsPoint then locale.decimalSeparator.toList else []
    lead ++ point ++ writePieces locale d { p with started := true, pointMet := true } rest
  | p, .comma :: rest => writePieces locale d p rest
  | p, .percent :: rest => locale.percentSymbol.toList ++ writePieces locale d p rest
  | p, .perMille :: rest => locale.perMilleSymbol.toList ++ writePieces locale d p rest
  | p, .literal text :: rest => text ++ writePieces locale d p rest
  | p, .exponent mark sign zeros :: rest =>
    let text :=
      if p.exponentMet then mark :: sign.text ++ List.replicate zeros '0'
      else exponentText locale mark (sign == .plus) (min zeros widestExponent) d.power
    text ++ writePieces locale d { p with exponentMet := true } rest

/-- Writes a prepared number as a section shows it, without its sign. -/
def writeSection (locale : Locale) (s : Section) (x : Decimal) : List Char :=
  let d := Display.ofSection locale s x
  writePieces locale d { position := d.integerPlaces } s

/-- The section at an index, or the first one if that is absent or empty; the flag says that it
is the first one. -/
def sectionAt (sections : List Section) (index : Nat) : Bool × Section :=
  match sections[index]? with
  | some (piece :: rest) => (index == 0, piece :: rest)
  | _ => (true, sections.headD [])

/-- Writes a number in a custom format. The second section is for negative numbers, which then
lose their sign, and the third for zero and what rounds to zero. -/
def formatSections (locale : Locale) (sections : List Section) (x : Decimal) : List Char :=
  let (isFirst, chosen) := sectionAt sections (if x.negative then 1 else 0)
  let prepared := Section.prepare chosen x
  if x.isZero || prepared.isZero then
    writeSection locale (sectionAt sections 2).2 .zero
  else
    let sign := if prepared.negative && isFirst then locale.negativeSign.toList else []
    sign ++ writeSection locale chosen prepared

/-- Writes a finite double in a custom format. -/
def formatCustom (locale : Locale) (sections : List Section) (x : Float) : List Char :=
  formatSections locale sections (Decimal.significant 15 x)

end ScriptEngine.NumberFormat
