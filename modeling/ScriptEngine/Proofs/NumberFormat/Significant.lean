import ScriptEngine.Proofs.NumberFormat.Figures

/-!
# Formats with significant digits

The scientific, general and round trip formats write the number that a double is rounded to
(`significant_formats_print_the_rounded_number`). Here the place of the last digit depends on the number,
so a carry through all digits moves it, and with it the choice between the two ways of writing.

* `scientificText_eq`, `generalText_eq`: the texts are those of `scientificFigures` and `generalFigures`;
* `magnitude_scientificFigures`, `magnitude_generalFigures`: no digit is lost in them.
-/

namespace ScriptEngine

namespace NumberFormat

/-- The digits of a natural number, with zeros in front up to a width. -/
def paddedDigits (width n : Nat) : List Digit :=
  let digits := if n = 0 then [0] else Decimal.digitsOf n
  List.replicate (width - digits.length) 0 ++ digits

theorem padded_eq (width n : Nat) : padded width n = (paddedDigits width n).map Digit.toChar := by
  have hdigits : (if n = 0 then ['0'] else (Decimal.digitsOf n).map Digit.toChar) =
      (if n = 0 then [0] else Decimal.digitsOf n).map Digit.toChar := by
    split <;> rfl
  rw [padded, paddedDigits, List.map_append, List.map_replicate, hdigits]
  simp only [List.length_map]
  rfl

theorem value_paddedDigits (width n : Nat) : Digit.value (paddedDigits width n) = n := by
  have hdigits : Digit.value (if n = 0 then [0] else Decimal.digitsOf n) = n := by
    split
    · rename_i hn
      exact hn.symm
    · exact Decimal.value_digitsOf n
  rw [paddedDigits, Digit.value_append, Digit.value_zeros, hdigits, Nat.zero_mul, Nat.zero_add]

theorem le_length_paddedDigits (width n : Nat) : width ≤ (paddedDigits width n).length := by
  rw [paddedDigits, List.length_append, List.length_replicate]
  omega

/-- The exponent of a power of ten, in at least `width` digits. -/
def Exponent.ofInt (lowerCase : Bool) (width : Nat) (e : Int) : Exponent :=
  ⟨lowerCase, e < 0, paddedDigits width e.natAbs⟩

theorem Exponent.power_ofInt (lowerCase : Bool) (width : Nat) (e : Int) :
    (ofInt lowerCase width e).power = e := by
  rw [power, ofInt, value_paddedDigits]
  simp only [decide_eq_true_eq]
  omega

section

variable {name : String} {locale : Locale} (hl : Locale.find? name = some locale)
include hl

theorem positiveSign_eq : locale.positiveSign = "+" := by
  unfold Locale.find? at hl
  split at hl <;> cases hl <;> rfl

theorem exponentText_eq (lowerCase : Bool) (width : Nat) (e : Int) :
    exponentText locale (if lowerCase then 'e' else 'E') true width e =
      (Exponent.ofInt lowerCase width e).text := by
  rw [exponentText, negativeSign_eq hl, positiveSign_eq hl, padded_eq, Exponent.text, Exponent.ofInt]
  by_cases he : e < 0 <;> simp [he]

end

/-! ## Figures of a number -/

section

variable {x : Decimal}

/-- One digit before the point, `count` in all, and an exponent. -/
def scientificFigures (lowerCase : Bool) (count : Nat) (x : Decimal) : Figures where
  negative := x.negative
  integer := x.digitsAt x.scale 1
  fraction := x.digitsAt (x.scale - 1) (count - 1)
  exponent := some (.ofInt lowerCase 3 (if x.isZero then 0 else x.scale - 1))

/-- All digits that matter, and an exponent or none. -/
def positionalFigures (exponent : Option Exponent) (x : Decimal) : Figures where
  negative := x.negative
  integer := x.digitsAt (max x.scale 1) (max x.scale 1).toNat
  fraction := x.digitsAt 0 x.fractionLength
  exponent := exponent

/-- Digits with an exponent if there were too many of them without. -/
def generalFigures (lowerCase : Bool) (count : Nat) (x : Decimal) : Figures :=
  if (count : Int) < x.scale ∨ x.scale < -3 then
    positionalFigures (some (.ofInt lowerCase 2 (x.scale - 1))) { x with scale := 1 }
  else
    positionalFigures none x

theorem magnitude_scientificFigures (lowerCase : Bool) {count : Nat} (hc : 0 < count)
    (hlength : x.digits.length ≤ count) :
    (scientificFigures lowerCase count x).magnitude = x.magnitude := by
  have hall : (Digit.value (x.digitsAt x.scale 1 ++ x.digitsAt (x.scale - 1) (count - 1)) : ℚ) =
      x.magnitude * 10 ^ (count - x.scale) := by
    have hdigits := x.digitsAt_add x.scale 1 (count - 1)
    rw [Nat.add_sub_cancel' hc] at hdigits
    rw [Nat.cast_one] at hdigits
    rw [← hdigits]
    exact Decimal.value_digitsAt le_rfl (by omega)
  simp only [Figures.magnitude, Figures.power, scientificFigures, Option.map_some, Option.getD_some,
    Exponent.power_ofInt, hall, Decimal.length_digitsAt]
  by_cases hzero : x.digits = []
  · simp [Decimal.magnitude, hzero]
  · have hsome : x.isZero = false := List.isEmpty_eq_false_iff.mpr hzero
    rw [hsome, if_neg Bool.false_ne_true, mul_assoc, ← zpow_add₀ (by norm_num)]
    have hpower : (count - x.scale + (x.scale - 1 - (count - 1 : Nat)) : ℤ) = 0 := by omega
    rw [hpower, zpow_zero, mul_one]

theorem magnitude_positionalFigures (h : x.Normalized) (exponent : Option Exponent) :
    (positionalFigures exponent x).magnitude =
      x.magnitude * 10 ^ (positionalFigures exponent x).power := by
  have hlength : (x.digits.length : Int) ≤ x.scale + x.fractionLength := by
    rw [Decimal.fractionLength]
    omega
  have hvalue := (x.positional h hlength).value
  simp only [Figures.magnitude, positionalFigures, hvalue, Decimal.length_digitsAt]
  rw [zpow_sub₀ (by norm_num), zpow_natCast]
  field_simp

theorem magnitude_generalFigures (h : x.Normalized) (lowerCase : Bool) (count : Nat) :
    (generalFigures lowerCase count x).magnitude = x.magnitude := by
  unfold generalFigures
  split
  · rename_i hscale
    have hsome : x.digits ≠ [] := fun hnil => by
      have := h.2.2 hnil
      omega
    have hnormal : Decimal.Normalized { x with scale := 1 } :=
      ⟨h.1, h.2.1, fun hnil => absurd hnil hsome⟩
    rw [magnitude_positionalFigures hnormal]
    simp only [Figures.power, positionalFigures, Option.map_some, Option.getD_some,
      Exponent.power_ofInt, Decimal.magnitude]
    rw [mul_assoc, ← zpow_add₀ (by norm_num), add_sub_cancel]
  · rw [magnitude_positionalFigures h]
    simp [Figures.power, positionalFigures]

end

section

variable {name : String} {locale : Locale} {separator : Char} (hl : Locale.find? name = some locale)
include hl

theorem signed_eq (x : Decimal) (text : List Char) :
    signed locale x text = (if x.negative then ['-'] else []) ++ text := by
  rw [signed, negativeSign_eq hl]
  split <;> rfl

variable (hs : locale.decimalSeparator.toList = [separator])
include hs

theorem scientificText_eq (lowerCase : Bool) {count : Nat} (hc : 0 < count) (x : Decimal) :
    signed locale x (scientificText locale (if lowerCase then 'e' else 'E') count x) =
      (scientificFigures lowerCase count x).text separator := by
  have hfraction : (scientificFigures lowerCase count x).fractionChars separator =
      (if count = 1 then [] else [separator]) ++ x.digitRun (x.scale - 1) (count - 1) := by
    rw [Figures.fractionChars_digitsAt separator rfl]
    by_cases hone : count = 1
    · simp [hone, Decimal.digitRun]
    · rw [if_neg hone, if_neg (by omega)]
      rfl
  have hexponent : (scientificFigures lowerCase count x).exponentChars =
      exponentText locale (if lowerCase then 'e' else 'E') true 3
        (if x.isZero then 0 else x.scale - 1) :=
    (exponentText_eq hl ..).symm
  rw [signed_eq hl, scientificText, hs, Figures.text, hfraction, hexponent, Decimal.digitRun_eq_map]
  simp only [List.append_assoc]
  rfl

/-- The digits of a number without superfluous zeros, and the text of an exponent behind them. -/
theorem positionalText_eq (x : Decimal) {exponent : Option Exponent} {ending : List Char}
    (he : (positionalFigures exponent x).exponentChars = ending) :
    signed locale x ((if x.fractionLength = 0 then x.integerText
        else x.integerText ++ locale.decimalSeparator.toList ++ x.fractionText x.fractionLength) ++
          ending) =
      (positionalFigures exponent x).text separator := by
  rw [signed_eq hl, Figures.text, Figures.fractionChars_digitsAt separator rfl, he, hs,
    Decimal.integerText_eq, Decimal.digitRun_eq_map]
  by_cases hnone : x.fractionLength = 0
  · rw [if_pos hnone, if_pos hnone]
    rfl
  · rw [if_neg hnone, if_neg hnone, List.append_assoc, List.append_assoc]
    rfl

theorem generalText_eq (lowerCase : Bool) (count : Nat) (x : Decimal) :
    signed locale x (generalText locale (if lowerCase then 'e' else 'E') count x) =
      (generalFigures lowerCase count x).text separator := by
  have hnone : (positionalFigures none x).exponentChars = [] := rfl
  unfold generalText generalFigures
  dsimp only
  split
  · exact positionalText_eq hl hs { x with scale := 1 } (exponentText_eq hl ..).symm
  · have htext := positionalText_eq hl hs x hnone
    rwa [List.append_nil] at htext

end

/-- A digit before the separator, `count` in all, and an exponent of at least three digits. -/
structure IsScientific (count : Nat) (n : Figures) : Prop where
  integer : n.integer.length = 1
  digits : n.integer.length + n.fraction.length = count
  exponent : ∃ e, n.exponent = some e ∧ 3 ≤ e.digits.length

/-- No zero at the end of the fraction, and an exponent of at least two digits exactly if a number other
than zero has its first digit too far before or behind the point. Zero is a single digit. -/
structure IsGeneral (count : Nat) (number : ℚ) (n : Figures) : Prop where
  fraction : n.fraction.getLast? ≠ some 0
  exponent_iff : n.exponent.isSome = true ↔
    number ≠ 0 ∧ ((count : ℤ) ≤ Int.log 10 number ∨ Int.log 10 number ≤ -5)
  exponent : ∀ e ∈ n.exponent, 2 ≤ e.digits.length
  zero : number = 0 → n = ⟨false, [0], [], none⟩

theorem isScientific_scientificFigures (lowerCase : Bool) {count : Nat} (hc : 0 < count) (x : Decimal) :
    IsScientific count (scientificFigures lowerCase count x) where
  integer := x.length_digitsAt x.scale 1
  digits := by
    simp only [scientificFigures, Decimal.length_digitsAt]
    omega
  exponent := ⟨_, rfl, le_length_paddedDigits 3 _⟩

theorem isGeneral_generalFigures {x : Decimal} (h : x.Normalized) (hzero : x.digits = [] → x = .zero)
    (lowerCase : Bool) (count : Nat) :
    IsGeneral count x.magnitude (generalFigures lowerCase count x) := by
  by_cases hnil : x.digits = []
  · obtain rfl := hzero hnil
    have hfigures : generalFigures lowerCase count .zero = ⟨false, [0], [], none⟩ := by
      rw [generalFigures, if_neg (by simp [Decimal.zero])]
      rfl
    have hnone : Decimal.zero.magnitude = 0 := (Decimal.magnitude_eq_zero_iff h.1).mpr rfl
    rw [hfigures]
    exact ⟨by simp, by simp [hnone], by simp, fun _ => rfl⟩
  · have hsome : x.magnitude ≠ 0 := (Decimal.magnitude_eq_zero_iff h.1).not.mpr hnil
    have hlog := Decimal.log_magnitude h hnil
    have hnormal : Decimal.Normalized { x with scale := 1 } :=
      ⟨h.1, h.2.1, fun hnone => absurd hnone hnil⟩
    unfold generalFigures
    split
    · refine ⟨Decimal.getLast?_fraction hnormal, iff_of_true rfl ⟨hsome, by omega⟩, fun e he => ?_,
        fun hnone => absurd hnone hsome⟩
      obtain rfl := Option.mem_some_iff.mp he
      exact le_length_paddedDigits 2 _
    · refine ⟨Decimal.getLast?_fraction h, iff_of_false Bool.false_ne_true fun hiff => ?_, by
        simp [positionalFigures], fun hnone => absurd hnone hsome⟩
      have := hiff.2
      omega

/-! ## Formats -/

/-- What the formats with significant digits differ in. -/
structure Significance where
  /-- How many digits are taken from the double. -/
  taken : Nat
  /-- How many of these are kept. -/
  kept : Nat
  /-- Whether there is an exponent in any case. -/
  scientific : Bool

/-- The digits that a general format asks for. -/
def generalDigits (precision : Option Nat) : Nat :=
  if 1 ≤ precision.getD 0 then precision.getD 0 else 15

/-- The digits that a letter in either case asks for: scientific, general, or round trip. -/
def significance? (precision : Option Nat) (x : Float) : Char → Option Significance
  | 'E' | 'e' => some ⟨if 14 < precision.getD 6 then 17 else 15, precision.getD 6 + 1, true⟩
  | 'G' | 'g' => some ⟨if 15 < generalDigits precision then 17 else 15, generalDigits precision, false⟩
  | 'R' | 'r' =>
    let count := if (Decimal.significant 15 x).toFloat == x then 15 else 17
    some ⟨count, count, false⟩
  | _ => none

section

variable {letter : Char} {precision : Option Nat} {x : Float} {significance : Significance}

theorem kept_pos (hs : significance? precision x letter = some significance) : 0 < significance.kept := by
  have hgeneral : 0 < generalDigits precision := by
    unfold generalDigits
    split <;> omega
  unfold significance? at hs
  split at hs <;> cases hs
  · exact Nat.succ_pos _
  · exact Nat.succ_pos _
  · exact hgeneral
  · exact hgeneral
  · dsimp only
    split <;> decide
  · dsimp only
    split <;> decide

/-- A letter with a significance is that of a standard format, which rounds the number to as many digits as
it asks for and writes these in one of two ways. -/
theorem format_significance (hs : significance? precision x letter = some significance) :
    letter.isAlpha = true ∧ ∃ kind, Standard.ofLetter? letter = some kind ∧
      ∀ locale : Locale,
        let rounded := (Decimal.significant significance.taken x).round significance.kept
        let mark := if letter.isLower then 'e' else 'E'
        kind.format letter.isLower precision locale x =
          signed locale rounded
            (if significance.scientific then scientificText locale mark significance.kept rounded
              else generalText locale mark significance.kept rounded) := by
  unfold significance? at hs
  split at hs <;> cases hs <;> refine ⟨rfl, _, rfl, fun locale => ?_⟩
  -- A precision of zero is none for the general format.
  · cases precision <;> rfl
  · cases precision <;> rfl
  · rcases precision with _ | _ | p <;> rfl
  · rcases precision with _ | _ | p <;> rfl
  · rfl
  · rfl

/-- The figures of a number that has been rounded. -/
def Significance.figures (significance : Significance) (lowerCase : Bool) (y : Decimal) : Figures :=
  if significance.scientific then scientificFigures lowerCase significance.kept y
  else generalFigures lowerCase significance.kept y

variable {y : Decimal}

theorem Significance.negative_figures (significance : Significance) (lowerCase : Bool) (y : Decimal) :
    (significance.figures lowerCase y).negative = y.negative := by
  unfold figures
  split
  · rfl
  · unfold generalFigures
    split <;> rfl

theorem Significance.magnitude_figures (hk : 0 < significance.kept) (hy : y.Normalized)
    (hlength : y.digits.length ≤ significance.kept) (lowerCase : Bool) :
    (significance.figures lowerCase y).magnitude = y.magnitude := by
  unfold figures
  split
  · exact magnitude_scientificFigures lowerCase hk hlength
  · exact magnitude_generalFigures hy lowerCase significance.kept

theorem Significance.form_figures (hk : 0 < significance.kept) (hy : y.Normalized)
    (hzero : y.digits = [] → y = .zero) (lowerCase : Bool) :
    if significance.scientific then IsScientific significance.kept (significance.figures lowerCase y)
    else IsGeneral significance.kept y.magnitude (significance.figures lowerCase y) := by
  unfold figures
  split
  · exact isScientific_scientificFigures lowerCase hk y
  · exact isGeneral_generalFigures hy hzero lowerCase significance.kept

end

/-- The formats with significant digits print exactly the rounded number. For every finite double, every
locale, and the letters of the scientific, general and round trip formats with at most two digits of
precision behind them: the text can be read as figures in one way only, and these denote the number with as
many digits as the format asks for that is nearest to the digits taken from the double, the one further
from zero of two that are equally near. Scientific figures have exactly so many digits; general ones have
no more than matter, and an exponent exactly if the first digit of the rounded number is too far from the
point. -/
theorem significant_formats_print_the_rounded_number {name : String} {locale : Locale} {letter : Char}
    {precision : List Digit} {x : Float} {significance : Significance}
    (hl : Locale.find? name = some locale) (hp : precision.length ≤ 2) (hx : x.isFinite = true)
    (hs : significance? (if precision = [] then none else some (Digit.value precision)) x letter =
      some significance) :
    ∃ (separator : Char) (figures : Figures) (rounded : ℚ),
      let number := (Decimal.significant significance.taken x).magnitude
      locale.decimalSeparator.toList = [separator] ∧
      write x (String.ofList (letter :: precision.map Digit.toChar)) name =
        .ok (String.ofList (figures.text separator)) ∧
      (∀ other : Figures, other.text separator = figures.text separator → other = figures) ∧
      NearestMultiple (10 ^ (Int.log 10 number + 1 - significance.kept)) number rounded ∧
      figures.value = (if x < 0 then -rounded else rounded) ∧
      (figures.negative = true ↔ x < 0 ∧ rounded ≠ 0) ∧
      if significance.scientific then IsScientific significance.kept figures
      else IsGeneral significance.kept rounded figures := by
  obtain ⟨separator, hseparator, hlist⟩ := separator_eq hl
  obtain ⟨ha, kind, hk, hformat⟩ := format_significance hs
  obtain ⟨hnan, hinf⟩ := isFinite_iff.mp hx
  have hpos := kept_pos hs
  have hnumber : (Decimal.significant significance.taken x).Normalized :=
    Decimal.ofCoefficient_normalized ..
  have hrounds := Decimal.roundsTo_round (Decimal.significant significance.taken x) significance.kept
  have hsign := Decimal.round_negative_iff hx significance.taken 0 significance.kept
  have hnearest := Decimal.nearest_significant hnumber significance.kept
  have htext := hformat locale
  rw [Decimal.shift_zero] at hsign
  dsimp only at htext
  generalize (Decimal.significant significance.taken x).round significance.kept = rounded at *
  have hnormal := hrounds.normalized hnumber.1
  have hlength := hrounds.length_le
  have hnegative := significance.negative_figures letter.isLower rounded
  have hmagnitude := Significance.magnitude_figures hpos hnormal (by omega) letter.isLower
  refine ⟨separator, significance.figures letter.isLower rounded, rounded.magnitude, hlist, ?_,
    fun other => Figures.text_injective hseparator, hnearest, Figures.value_eq hsign hnegative hmagnitude,
    hnegative ▸ hsign, Significance.form_figures hpos hnormal hrounds.eq_zero letter.isLower⟩
  rw [write, hl, parse_digits ha hk hp String.toList_ofList]
  simp only [Except.map, apply, hnan, hinf, Bool.false_eq_true, if_false, htext]
  rw [Significance.figures]
  split
  · rw [scientificText_eq hl hlist letter.isLower hpos]
  · rw [generalText_eq hl hlist]

/-- A carry through all digits takes a number to a scale that needs an exponent. -/
theorem carry_asks_for_exponent :
    Locale.find? "de-DE" = some .deDE ∧ (-999999.7 : Float).isFinite ∧
      significance? (some 6) (-999999.7) 'g' = some ⟨15, 6, false⟩ ∧
      (∃ (figures : Figures) (rounded : ℚ),
        let number := (Decimal.significant 15 (-999999.7)).magnitude
        write (-999999.7) "g6" "de-DE" = .ok (String.ofList (figures.text ',')) ∧
        NearestMultiple (10 ^ (Int.log 10 number + 1 - 6)) number rounded ∧
        figures.value = (if (-999999.7 : Float) < 0 then -rounded else rounded) ∧
        IsGeneral 6 rounded figures) ∧
      (write (-999999.7) "g6" "de-DE").toOption = some "-1e+06" := by
  have hl : Locale.find? "de-DE" = some .deDE := rfl
  have hx : (-999999.7 : Float).isFinite = true := by decide +kernel
  have hs : significance? (some 6) (-999999.7) 'g' = some ⟨15, 6, false⟩ := rfl
  have hp : [(6 : Digit)].length ≤ 2 := by decide
  obtain ⟨separator, figures, rounded, hseparator, hwrite, -, hnearest, hvalue, -, hform⟩ :=
    significant_formats_print_the_rounded_number hl hp hx hs
  obtain rfl : ',' = separator := (List.cons.inj hseparator).1
  exact ⟨hl, hx, hs, ⟨figures, rounded, hwrite, hnearest, hvalue, hform⟩, by decide +kernel⟩

end NumberFormat

end ScriptEngine
