import ScriptEngine.Proofs.Decimal.Binary64
import ScriptEngine.Proofs.Decimal.Rounding
import ScriptEngine.Proofs.NumberFormat.Agreement

/-!
# Formats with fixed decimals

The currency, fixed, grouped and percent formats write the number that a double is rounded to, with no
digit lost or repeated (`fixed_formats_print_the_rounded_number`).

* `grouped_groupInteger`: separators stand after every three digits counted from the right;
* `showsFixed_fixedText`: what is written for the digits shows the rounded number;
* `format_style`: a standard format fills the shape that the sign of the rounded number asks for.
-/

namespace ScriptEngine

namespace NumberFormat

/-- A text in groups of three characters counted from the right, with a separator between any two. -/
inductive Grouped (separator : List Char) : List Char → List Char → Prop
  | first {digits : List Char} (nonempty : digits ≠ []) (short : digits.length ≤ 3) :
      Grouped separator digits digits
  | next {digits text group : List Char} (before : Grouped separator digits text)
      (full : group.length = 3) : Grouped separator (digits ++ group) (text ++ separator ++ group)

theorem groupInteger_short {separator digits : List Char} (h : digits.length ≤ 3) :
    groupInteger separator digits = digits := by
  induction digits with
  | nil => rfl
  | cons d ds ih =>
    rw [List.length_cons] at h
    have hno : ¬ (decide (ds.length % groupSize = 0) && !ds.isEmpty) = true := by
      intro hyes
      rw [Bool.and_eq_true, decide_eq_true_eq, groupSize, Bool.not_eq_true',
        List.isEmpty_eq_false_iff, ← List.length_pos_iff] at hyes
      omega
    rw [groupInteger, if_neg hno, ih (by omega)]

/-- A group of three more digits at the end has a separator in front. -/
theorem groupInteger_append {separator digits group : List Char} (hd : digits ≠ [])
    (hg : group.length = 3) :
    groupInteger separator (digits ++ group) = groupInteger separator digits ++ separator ++ group := by
  have hshort := @groupInteger_short separator group (Nat.le_of_eq hg)
  induction digits with
  | nil => exact absurd rfl hd
  | cons d ds ih =>
    cases ds with
    | nil =>
      have hyes : group ≠ [] := List.ne_nil_of_length_pos (by omega)
      simp [groupInteger, hshort, hg, hyes, groupSize]
    | cons e es =>
      have hsame : (e :: es ++ group).length % groupSize = (e :: es).length % groupSize := by
        rw [List.length_append, hg]
        exact Nat.add_mod_right ..
      rw [List.cons_append, groupInteger, groupInteger, hsame, ih (List.cons_ne_nil _ _)]
      simp only [List.cons_append, List.isEmpty_cons]
      split <;> simp

/-- Separators stand after every three digits counted from the right and nowhere else. -/
theorem grouped_groupInteger {separator digits : List Char} (h : digits ≠ []) :
    Grouped separator digits (groupInteger separator digits) := by
  by_cases hshort : digits.length ≤ 3
  · rw [groupInteger_short hshort]
    exact .first h hshort
  · have hsplit := List.take_append_drop (digits.length - 3) digits
    have hfront : digits.take (digits.length - 3) ≠ [] :=
      List.ne_nil_of_length_pos (by rw [List.length_take]; omega)
    have hgroup : (digits.drop (digits.length - 3)).length = 3 := by
      rw [List.length_drop]
      omega
    have hgrouped := (@grouped_groupInteger separator _ hfront).next hgroup
    rwa [← groupInteger_append hfront hgroup, hsplit] at hgrouped
termination_by digits.length
decreasing_by rw [List.length_take]; omega

/-- A text shows a number with a fixed count of decimals: the integer in groups or not and, if there are
decimals, a separator with as many digits behind it. -/
def ShowsFixed (locale : Locale) (grouped : Bool) (decimals : Nat) (number : ℚ) (text : List Char) :
    Prop :=
  ∃ integer fraction whole, Positional decimals number integer fraction ∧
    (if grouped then Grouped locale.groupSeparator.toList (integer.map Digit.toChar) whole
      else whole = integer.map Digit.toChar) ∧
    text = whole ++
      if decimals = 0 then [] else locale.decimalSeparator.toList ++ fraction.map Digit.toChar

theorem showsFixed_fixedText {x : Decimal} {decimals : Nat} (h : x.Normalized)
    (hlength : (x.digits.length : Int) ≤ x.scale + decimals) (locale : Locale) (grouped : Bool) :
    ShowsFixed locale grouped decimals x.magnitude (fixedText locale grouped decimals x) := by
  have hinteger : x.integerText ≠ [] := by
    refine List.ne_nil_of_length_pos ?_
    rw [Decimal.integerText_eq, Decimal.length_digitRun]
    omega
  refine ⟨_, _, if grouped then groupInteger locale.groupSeparator.toList x.integerText
    else x.integerText, x.positional h hlength, ?_, ?_⟩
  · rw [← Decimal.digitRun_eq_map, ← Decimal.integerText_eq]
    split
    · exact grouped_groupInteger hinteger
    · rfl
  · rw [← Decimal.digitRun_eq_map, fixedText]
    split <;> simp [Decimal.fractionText, *]

/-! ## Shapes -/

/-- What a slot stands for besides the digits. -/
def symbol (locale : Locale) : Slot → List Char
  | .digits => []
  | .minus => locale.negativeSign.toList
  | .currency => locale.currencySymbol.toList
  | .percent => locale.percentSymbol.toList
  | .char c => [c]

/-- A text has a number in the one place for digits of a shape, and symbols around it. -/
def Fills (locale : Locale) (shape : List Slot) (number text : List Char) : Prop :=
  ∃ before after, shape = before ++ .digits :: after ∧ Slot.digits ∉ before ++ after ∧
    text = before.flatMap (symbol locale) ++ number ++ after.flatMap (symbol locale)

theorem fill_symbols {shape : List Slot} (h : Slot.digits ∉ shape) (locale : Locale)
    (number : List Char) : fill locale number shape = shape.flatMap (symbol locale) := by
  refine List.flatMap_congr fun slot hslot => ?_
  cases slot with
  | digits => exact absurd hslot h
  | minus => rfl
  | currency => rfl
  | percent => rfl
  | char c => rfl

theorem fills_fill {shape : List Slot} (h : shape.count .digits = 1) (locale : Locale)
    (number : List Char) : Fills locale shape number (fill locale number shape) := by
  have hmem : Slot.digits ∈ shape := List.count_pos_iff.mp (by omega)
  obtain ⟨before, after, rfl, hbefore⟩ := List.eq_append_cons_of_mem hmem
  rw [List.count_append, List.count_cons_self, List.count_eq_zero.mpr hbefore] at h
  have hafter : Slot.digits ∉ after := List.count_eq_zero.mp (by omega)
  refine ⟨before, after, rfl, by simp [hbefore, hafter], ?_⟩
  rw [← fill_symbols hbefore locale number, ← fill_symbols hafter locale number]
  simp [fill]

/-- What the formats with a fixed count of decimals differ in. -/
structure FixedStyle where
  /-- The shape of numbers that are not negative. -/
  positive : List Slot
  /-- The shape of negative numbers. -/
  negative : List Slot
  /-- How many decimals there are if the format does not say so. -/
  decimals : Nat
  /-- Whether the integer is written in groups. -/
  grouped : Bool
  /-- The number is multiplied by this power of ten. -/
  power : Nat

/-- The style of a letter in either case: currency, fixed, grouped number, or percent. -/
def style? (locale : Locale) : Char → Option FixedStyle
  | 'C' | 'c' =>
    some ⟨locale.currencyPositive, locale.currencyNegative, locale.currencyDecimals, true, 0⟩
  | 'F' | 'f' => some ⟨[.digits], [.char '-', .digits], locale.numberDecimals, false, 0⟩
  | 'N' | 'n' => some ⟨[.digits], locale.numberNegative, locale.numberDecimals, true, 0⟩
  | 'P' | 'p' =>
    some ⟨locale.percentPositive, locale.percentNegative, locale.percentDecimals, true, 2⟩
  | _ => none

section

variable {name : String} {locale : Locale} {letter : Char} {style : FixedStyle}

/-- The shapes of every locale have one place for digits. -/
theorem count_digits (hl : Locale.find? name = some locale) (hs : style? locale letter = some style) :
    style.positive.count .digits = 1 ∧ style.negative.count .digits = 1 := by
  unfold Locale.find? at hl
  unfold style? at hs
  split at hs <;> cases hs <;> split at hl <;> cases hl <;> decide

theorem negativeSign_eq (hl : Locale.find? name = some locale) : locale.negativeSign = "-" := by
  unfold Locale.find? at hl
  split at hl <;> cases hl <;> rfl

theorem signed_eq_fill (hl : Locale.find? name = some locale) (x : Decimal) (text : List Char) :
    signed locale x text =
      fill locale text (if x.negative then [.char '-', .digits] else [.digits]) := by
  rw [signed, negativeSign_eq hl]
  split <;> simp [fill]

/-- A letter with a style is that of a standard format, which writes the rounded number in the shape that
its sign asks for. -/
theorem format_style (hl : Locale.find? name = some locale) (hs : style? locale letter = some style) :
    letter.isAlpha = true ∧ ∃ kind, Standard.ofLetter? letter = some kind ∧
      ∀ (lowerCase : Bool) (precision : Option Nat) (x : Float),
        let decimals := precision.getD style.decimals
        let number := (Decimal.significant usualDigits x).shift style.power
        let rounded := number.round (number.scale + decimals)
        kind.format lowerCase precision locale x =
          fill locale (fixedText locale style.grouped decimals rounded)
            (if rounded.negative then style.negative else style.positive) := by
  have hzero : ∀ x : Decimal, x.shift ((0 : Nat) : Int) = x := Decimal.shift_zero
  unfold style? at hs
  split at hs <;> cases hs <;> refine ⟨rfl, _, rfl, fun lowerCase precision x => ?_⟩ <;>
    simp only [hzero, Standard.format, Standard.digits, shaped, signed_eq_fill hl] <;> rfl

end

/-- The formats with a fixed count of decimals print exactly the rounded number. For every finite double,
every locale, and the letters of the currency, fixed, grouped and percent formats with at most two digits
of precision behind them: the text is a shape of the locale, the negative one exactly if the double is
below zero and not rounded to zero. In place of the digits stands the number rounded to the nearest
multiple of a unit in the last decimal, the larger one of two that are equally near. -/
theorem fixed_formats_print_the_rounded_number {name : String} {locale : Locale} {letter : Char}
    {style : FixedStyle} (hl : Locale.find? name = some locale)
    (hs : style? locale letter = some style) (precision : List Digit)
    (hp : precision.length ≤ 2) {x : Float} (hx : x.isFinite = true) :
    let decimals := if precision = [] then style.decimals else Digit.value precision
    ∃ rounded digits text,
      NearestMultiple (10 ^ (-decimals : ℤ))
        ((Decimal.significant usualDigits x).magnitude * 10 ^ style.power) rounded ∧
      ShowsFixed locale style.grouped decimals rounded digits ∧
      Fills locale (if x < 0 ∧ rounded ≠ 0 then style.negative else style.positive) digits text ∧
      write x (String.ofList (letter :: precision.map Digit.toChar)) name =
        .ok (String.ofList text) := by
  intro decimals
  obtain ⟨hpositive, hnegative⟩ := count_digits hl hs
  obtain ⟨ha, kind, hk, hformat⟩ := format_style hl hs
  have hnormal : (Decimal.significant usualDigits x).Normalized := Decimal.ofCoefficient_normalized ..
  obtain ⟨number, hnumber⟩ :
    ∃ number, (Decimal.significant usualDigits x).shift style.power = number := ⟨_, rfl⟩
  have hhead : number.digits.head? ≠ some 0 := hnumber ▸ hnormal.1
  have hrounds := Decimal.roundsTo_round number (number.scale + decimals)
  have hsign := Decimal.round_negative_iff hx usualDigits style.power (number.scale + decimals)
  have hunit := hrounds.nearest
  have hmagnitude := Decimal.magnitude_shift (Decimal.significant usualDigits x) style.power
  have htext := hformat letter.isLower
    (if precision = [] then none else some (Digit.value precision)) x
  have hdecimals : (if precision = [] then none else some (Digit.value precision)).getD style.decimals =
      decimals :=
    apply_ite (Option.getD · style.decimals) ..
  rw [hnumber] at hsign hmagnitude htext
  rw [hmagnitude, zpow_natCast, sub_add_cancel_left] at hunit
  rw [hdecimals] at htext
  dsimp only at htext
  rw [if_congr hsign rfl rfl] at htext
  refine ⟨_, _, _, hunit, showsFixed_fixedText (hrounds.normalized hhead) hrounds.length_le_scale ..,
    fills_fill ?_ .., ?_⟩
  · split
    · exact hnegative
    · exact hpositive
  · obtain ⟨hnan, hinf⟩ := isFinite_iff.mp hx
    rw [write, hl, parse_digits ha hk hp String.toList_ofList]
    simp only [Except.map, apply, hnan, hinf, Bool.false_eq_true, if_false, htext]

/-- A debt in euros that is rounded up by half a cent. -/
theorem debt_prints_the_rounded_number :
    let style : FixedStyle :=
      ⟨[.digits, .char ' ', .currency], [.minus, .digits, .char ' ', .currency], 2, true, 0⟩
    Locale.find? "de-DE" = some .deDE ∧ style? .deDE 'c' = some style ∧ (-1234.995 : Float).isFinite ∧
      (∃ rounded digits text,
        NearestMultiple (10 ^ (-2 : ℤ))
          ((Decimal.significant usualDigits (-1234.995)).magnitude * 10 ^ 0) rounded ∧
        ShowsFixed .deDE true 2 rounded digits ∧
        Fills .deDE (if (-1234.995 : Float) < 0 ∧ rounded ≠ 0 then style.negative else style.positive)
          digits text ∧
        write (-1234.995) "c" "de-DE" = .ok (String.ofList text)) ∧
      (write (-1234.995) "c" "de-DE").toOption = some "-1.235,00 €" := by
  intro style
  have hl : Locale.find? "de-DE" = some .deDE := rfl
  have hs : style? .deDE 'c' = some style := rfl
  have hx : (-1234.995 : Float).isFinite = true := by decide +kernel
  exact ⟨hl, hs, hx, fixed_formats_print_the_rounded_number hl hs [] (Nat.zero_le 2) hx,
    by decide +kernel⟩

end NumberFormat

end ScriptEngine
