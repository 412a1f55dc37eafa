import ScriptEngine.Text.Blank

/-!
# Locales

What differs between locales when a number is written: separators, symbols, default numbers of
decimals, and the shapes that put a sign and a symbol around the digits.
-/

namespace ScriptEngine

/-- One element of the shape of a written number. -/
inductive Slot
  /-- The digits. -/
  | digits
  /-- The negative sign. -/
  | minus
  /-- The currency symbol. -/
  | currency
  /-- The percent symbol. -/
  | percent
  /-- A character that stands for itself. -/
  | char (c : Char)
  deriving DecidableEq, Repr

/-- How a locale writes numbers. -/
structure Locale where
  decimalSeparator : String
  groupSeparator : String
  negativeSign : String
  positiveSign : String
  nan : String
  positiveInfinity : String
  negativeInfinity : String
  numberDecimals : Nat
  numberNegative : List Slot
  currencySymbol : String
  currencyDecimals : Nat
  currencyPositive : List Slot
  currencyNegative : List Slot
  percentSymbol : String
  perMilleSymbol : String
  percentDecimals : Nat
  percentPositive : List Slot
  percentNegative : List Slot
  deriving DecidableEq, Repr

namespace Locale

/-- The locale that belongs to no country. -/
def invariant : Locale where
  decimalSeparator := "."
  groupSeparator := ","
  negativeSign := "-"
  positiveSign := "+"
  nan := "NaN"
  positiveInfinity := "Infinity"
  negativeInfinity := "-Infinity"
  numberDecimals := 2
  numberNegative := [.minus, .digits]
  currencySymbol := "¤"
  currencyDecimals := 2
  currencyPositive := [.currency, .digits]
  currencyNegative := [.char '(', .currency, .digits, .char ')']
  percentSymbol := "%"
  perMilleSymbol := "‰"
  percentDecimals := 2
  percentPositive := [.digits, .char ' ', .percent]
  percentNegative := [.minus, .digits, .char ' ', .percent]

/-- English as written in the United States. -/
def enUS : Locale :=
  { invariant with currencySymbol := "$" }

/-- English as written in the United Kingdom. -/
def enGB : Locale :=
  { invariant with
    currencySymbol := "£"
    currencyNegative := [.minus, .currency, .digits]
    percentPositive := [.digits, .percent]
    percentNegative := [.minus, .digits, .percent] }

/-- German as written in Germany. -/
def deDE : Locale :=
  { invariant with
    decimalSeparator := ","
    groupSeparator := "."
    nan := "n. def."
    positiveInfinity := "+unendlich"
    negativeInfinity := "-unendlich"
    currencySymbol := "€"
    currencyPositive := [.digits, .char ' ', .currency]
    currencyNegative := [.minus, .digits, .char ' ', .currency] }

/-- French as written in France. -/
def frFR : Locale :=
  { invariant with
    decimalSeparator := ","
    groupSeparator := " "
    nan := "Non Numérique"
    positiveInfinity := "+Infini"
    negativeInfinity := "-Infini"
    currencySymbol := "€"
    currencyPositive := [.digits, .char ' ', .currency]
    currencyNegative := [.minus, .digits, .char ' ', .currency] }

/-- The locale of a name. Case and outer blanks do not matter, and no name is the invariant one. -/
def find? (name : String) : Option Locale :=
  match Text.lower (Text.trim name) with
  | "" | "invariant" => some invariant
  | "en-us" => some enUS
  | "en-gb" => some enGB
  | "de-de" => some deDE
  | "fr-fr" => some frFR
  | _ => none

end Locale

end ScriptEngine
