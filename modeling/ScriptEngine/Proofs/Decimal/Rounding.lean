import Mathlib.Algebra.Order.Field.Power
import Mathlib.Algebra.Order.Field.Rat
import Mathlib.Tactic.FieldSimp
import Mathlib.Tactic.Positivity
import ScriptEngine.Proofs.Decimal.Digits

/-!
# Rounding decimals

`Decimal.round` takes a number to the nearest multiple of a power of ten, and a half away from zero
(`round_is_nearest_multiple`). `RoundsTo` lists the ways in which this comes about: nothing is kept,
digits are cut off, one is added in the last place that is kept, or a carry runs through all of them.
Each law of rounding is then shown for the four.

`Decimal.roundInPlace` does the same on the digits in place, counting how many of them are kept, and
fails if it ever asks for a digit that is not there. It never does (`roundInPlace_eq`).
-/

namespace ScriptEngine

/-- The multiple of a unit that is nearest to a value, the larger one where two are equally near. -/
structure NearestMultiple (unit value nearest : ℚ) : Prop where
  multiple : ∃ count : ℤ, nearest = count * unit
  le : ∀ count : ℤ, |value - nearest| ≤ |value - count * unit|
  tie : ∀ count : ℤ, |value - count * unit| = |value - nearest| → count * unit ≤ nearest

namespace NearestMultiple

variable {unit value : ℚ}

/-- It is the one multiple from which the value differs by less than half a unit upwards and by at most
that much downwards. -/
theorem of_half {count : ℤ} (hu : 0 < unit) (hl : (count - 1 / 2) * unit ≤ value)
    (hr : value < (count + 1 / 2) * unit) : NearestMultiple unit value (count * unit) := by
  have hnear : |value - count * unit| ≤ unit / 2 := abs_le.mpr ⟨by linarith, by linarith⟩
  -- Another multiple is at least one unit away from this one.
  have hbelow : ∀ other : ℤ, other < count → unit / 2 ≤ value - other * unit := by
    intro other ho
    have hstep : (other : ℚ) + 1 ≤ count := by exact_mod_cast ho
    have hscaled := mul_le_mul_of_nonneg_right hstep hu.le
    linarith
  have habove : ∀ other : ℤ, count < other → unit / 2 < other * unit - value := by
    intro other ho
    have hstep : (count : ℚ) + 1 ≤ other := by exact_mod_cast ho
    have hscaled := mul_le_mul_of_nonneg_right hstep hu.le
    linarith
  refine ⟨⟨count, rfl⟩, fun other => ?_, fun other htie => ?_⟩
  · rcases lt_trichotomy other count with ho | rfl | ho
    · exact hnear.trans ((hbelow other ho).trans (le_abs_self _))
    · exact le_rfl
    · rw [abs_sub_comm value (other * unit)]
      exact hnear.trans ((habove other ho).le.trans (le_abs_self _))
  · rcases lt_or_ge count other with ho | ho
    · have hfar := (habove other ho).trans_le (le_abs_self _)
      rw [abs_sub_comm, htie] at hfar
      exact absurd hnear hfar.not_ge
    · have hle : (other : ℚ) ≤ count := by exact_mod_cast ho
      exact mul_le_mul_of_nonneg_right hle hu.le

end NearestMultiple

/-- The number `0.d₁d₂d₃…`. -/
def Digit.fraction (digits : List Digit) : ℚ :=
  value digits / 10 ^ digits.length

/-- The number `0.d₁d₂d₃… × 10 ^ scale`. -/
def Decimal.magnitude (x : Decimal) : ℚ :=
  Digit.fraction x.digits * 10 ^ x.scale

namespace Digit

theorem fraction_append (ds es : List Digit) :
    fraction (ds ++ es) = (value ds + fraction es) / 10 ^ ds.length := by
  simp only [fraction, value_append, List.length_append, pow_add]
  push_cast
  field_simp

theorem fraction_nonneg (ds : List Digit) : 0 ≤ fraction ds := by
  unfold fraction
  positivity

theorem fraction_lt_one (ds : List Digit) : fraction ds < 1 := by
  rw [fraction, div_lt_one (by positivity)]
  exact_mod_cast value_lt ds

theorem fraction_cons (d : Digit) (ds : List Digit) :
    fraction (d :: ds) = (d.val + fraction ds) / 10 := by
  have h := fraction_append [d] ds
  rwa [List.singleton_append, value_singleton, List.length_singleton, pow_one] at h

@[simp] theorem fraction_nil : fraction [] = 0 := by
  simp [fraction, value]

theorem fraction_append_zeros (ds : List Digit) (n : Nat) :
    fraction (ds ++ List.replicate n 0) = fraction ds := by
  rw [fraction_append, fraction, value_zeros, Nat.cast_zero, zero_div, add_zero, fraction]

theorem fraction_dropTrailingZeros (ds : List Digit) :
    fraction (Decimal.dropTrailingZeros ds) = fraction ds := by
  obtain ⟨n, hn⟩ := Decimal.eq_dropTrailingZeros_append ds
  conv_rhs => rw [hn]
  rw [fraction_append_zeros]

end Digit

namespace Decimal

open Digit (value fraction)

variable {x y : Decimal} {places : Int}

/-- Only numbers without digits are zero, as long as the first digit is none. -/
theorem magnitude_eq_zero_iff (h : x.digits.head? ≠ some 0) : x.magnitude = 0 ↔ x.digits = [] := by
  rw [← Digit.value_eq_zero_iff h, magnitude, fraction, mul_eq_zero, div_eq_zero_iff]
  have hscale : (10 : ℚ) ^ x.scale ≠ 0 := by positivity
  have hlength : (10 : ℚ) ^ x.digits.length ≠ 0 := by positivity
  simp [hscale, hlength]

theorem magnitude_withDigits (x : Decimal) (digits : List Digit) :
    (x.withDigits digits).magnitude = fraction digits * 10 ^ x.scale := by
  unfold withDigits
  split
  · rename_i h
    simp [magnitude, zero, List.isEmpty_iff.mp h]
  · rfl

/-! ## The ways of rounding -/

/-- What a number is rounded to, with the digits that are kept and the rest. -/
inductive RoundsTo (x : Decimal) (places : Int) : Decimal → Prop
  | nothing (below : places < 0) : RoundsTo x places zero
  | down {kept rest : List Digit} (split : x.digits = kept ++ rest) (least : (kept.length : Int) ≤ places)
      (full : rest ≠ [] → (kept.length : Int) = places) (small : fraction rest < 1 / 2) :
      RoundsTo x places (x.withDigits (dropTrailingZeros kept))
  | up {kept rest digits : List Digit} (split : x.digits = kept ++ rest)
      (full : (kept.length : Int) = places) (large : 1 / 2 ≤ fraction rest)
      (incremented : increment kept = some digits) : RoundsTo x places { x with digits }
  | carried {kept rest : List Digit} (split : x.digits = kept ++ rest)
      (full : (kept.length : Int) = places) (large : 1 / 2 ≤ fraction rest)
      (incremented : increment kept = none) :
      RoundsTo x places { x with digits := [1], scale := x.scale + 1 }

/-- The digits that are cut off make up half a unit exactly if the first of them is at least five. -/
theorem half_le_fraction_iff (d : Digit) (ds : List Digit) :
    1 / 2 ≤ fraction (d :: ds) ↔ 5 ≤ d := by
  have hnonneg := Digit.fraction_nonneg ds
  have hlt := Digit.fraction_lt_one ds
  rw [Digit.fraction_cons, Fin.le_iff_val_le_val]
  show 1 / 2 ≤ ((d.val : ℚ) + fraction ds) / 10 ↔ 5 ≤ d.val
  constructor
  · intro h
    by_contra hd
    have hd' : (d.val : ℚ) ≤ 4 := by exact_mod_cast (show d.val ≤ 4 by omega)
    linarith
  · intro h
    have hd' : (5 : ℚ) ≤ d.val := by exact_mod_cast h
    linarith

theorem roundsTo_round (x : Decimal) (places : Int) : RoundsTo x places (x.round places) := by
  unfold round
  split
  · exact .nothing ‹_›
  · rename_i hp
    have hsplit : x.digits = x.digits.take places.toNat ++ x.digits.drop places.toNat :=
      (List.take_append_drop ..).symm
    dsimp only
    split
    · rename_i next hnext
      obtain ⟨hlt, hget⟩ := List.getElem?_eq_some_iff.mp hnext
      have hfull : ((x.digits.take places.toNat).length : Int) = places := by
        rw [List.length_take]
        omega
      have hrest : x.digits.drop places.toNat = next :: x.digits.drop (places.toNat + 1) := by
        rw [List.drop_eq_getElem_cons hlt, hget]
      rw [hrest] at hsplit
      split
      · rename_i hlarge
        have hhalf := (half_le_fraction_iff next (x.digits.drop (places.toNat + 1))).mpr hlarge
        split
        · exact .up hsplit hfull hhalf ‹_›
        · exact .carried hsplit hfull hhalf ‹_›
      · rename_i hsmall
        refine .down hsplit hfull.le (fun _ => hfull) (not_le.mp fun hhalf => hsmall ?_)
        exact (half_le_fraction_iff next (x.digits.drop (places.toNat + 1))).mp hhalf
    · rename_i hnone
      have hle : x.digits.length ≤ places.toNat := List.getElem?_eq_none_iff.mp hnone
      have hrest : x.digits.drop places.toNat = [] := List.drop_eq_nil_of_le hle
      rw [hrest] at hsplit
      refine .down hsplit ?_ (fun hn => absurd rfl hn) (by norm_num)
      rw [List.length_take]
      omega

theorem RoundsTo.normalized (h : RoundsTo x places y) (hx : x.digits.head? ≠ some 0) :
    y.Normalized := by
  have hkept : ∀ {kept rest : List Digit}, x.digits = kept ++ rest → kept.head? ≠ some 0 := by
    intro kept rest hsplit
    cases kept with
    | nil => simp
    | cons d kept =>
      rw [hsplit] at hx
      exact hx
  cases h with
  | nothing => exact ⟨by simp [zero], by simp [zero], fun _ => rfl⟩
  | down split =>
    unfold withDigits
    split
    · exact ⟨by simp [zero], by simp [zero], fun _ => rfl⟩
    · rename_i hne
      exact ⟨head?_dropTrailingZeros (hkept split), getLast?_dropTrailingZeros _,
        fun hnone => absurd (List.isEmpty_iff.mpr hnone) hne⟩
  | up split _ _ incremented =>
    have hi := incremented_of_some incremented
    exact ⟨hi.head (hkept split), hi.getLast, fun hnone => absurd hnone hi.ne_nil⟩
  | carried => exact ⟨by simp, by simp, fun hnone => absurd hnone (List.cons_ne_nil _ _)⟩

/-- A number in units of the last place that is kept. -/
theorem magnitude_eq_units (x : Decimal) (places : Int) :
    x.magnitude = fraction x.digits * 10 ^ places * 10 ^ (x.scale - places) := by
  rw [magnitude, mul_assoc, ← zpow_add₀ (by norm_num), add_sub_cancel]

theorem fraction_units {kept rest : List Digit} (full : (kept.length : Int) = places) :
    fraction (kept ++ rest) * 10 ^ places = value kept + fraction rest := by
  rw [Digit.fraction_append, ← full, zpow_natCast]
  field_simp

/-- Where nothing is kept, the number is less than half a unit. -/
theorem fraction_units_lt_half (digits : List Digit) (below : places < 0) :
    fraction digits * 10 ^ places < 1 / 2 := by
  have hpower : (10 : ℚ) ^ places ≤ 10 ^ (-1 : ℤ) := zpow_le_zpow_right₀ (by norm_num) (by omega)
  have hpos : (0 : ℚ) < 10 ^ places := by positivity
  calc fraction digits * 10 ^ places
      < 1 * 10 ^ places := mul_lt_mul_of_pos_right (Digit.fraction_lt_one digits) hpos
    _ ≤ 1 * 10 ^ (-1 : ℤ) := mul_le_mul_of_nonneg_left hpower zero_le_one
    _ < 1 / 2 := by norm_num

/-- The digits that are kept are so many units, with as many zeros behind them as it takes, and what is
cut off is less than one. -/
theorem exists_units {kept rest : List Digit} (least : (kept.length : Int) ≤ places)
    (full : rest ≠ [] → (kept.length : Int) = places) :
    ∃ count : ℕ, fraction kept * 10 ^ places = count ∧
      fraction (kept ++ rest) * 10 ^ places = count + fraction rest := by
  obtain ⟨more, hmore⟩ : ∃ more : Nat, places = kept.length + more :=
    ⟨(places - kept.length).toNat, by omega⟩
  have hkept : fraction kept * 10 ^ places = (value kept * 10 ^ more : ℕ) := by
    rw [hmore, zpow_add₀ (by norm_num), zpow_natCast, zpow_natCast, fraction]
    push_cast
    field_simp
  refine ⟨value kept * 10 ^ more, hkept, ?_⟩
  by_cases hrest : rest = []
  · rw [hrest, List.append_nil, hkept, Digit.fraction_nil, add_zero]
  · obtain rfl : more = 0 := by
      have := full hrest
      omega
    rw [fraction_units (full hrest), pow_zero, mul_one]

/-- What a carry leaves is greater by one in the last place that is kept. -/
theorem Incremented.fraction_eq {kept digits : List Digit} (h : Incremented kept digits) :
    fraction digits = (value kept + 1) / 10 ^ kept.length := by
  have hvalue : (value digits : ℚ) * 10 ^ (kept.length - digits.length) = value kept + 1 := by
    exact_mod_cast h.value_eq
  have hlength : (10 : ℚ) ^ kept.length =
      10 ^ digits.length * 10 ^ (kept.length - digits.length) := by
    rw [← pow_add, Nat.add_sub_cancel' h.length_le]
  rw [← hvalue, hlength, fraction]
  field_simp

/-- The result is a multiple of the unit, and the number lies within half a unit around it. -/
theorem RoundsTo.within_half (h : RoundsTo x places y) :
    ∃ count : ℤ, y.magnitude = count * 10 ^ (x.scale - places) ∧
      (count - 1 / 2) * 10 ^ (x.scale - places) ≤ x.magnitude ∧
      x.magnitude < (count + 1 / 2) * 10 ^ (x.scale - places) := by
  have hunit : (0 : ℚ) < 10 ^ (x.scale - places) := by positivity
  -- It is enough to compare the number of units, which is `count` in the result.
  suffices hunits : ∃ count : ℤ, y.magnitude = count * 10 ^ (x.scale - places) ∧
      count - 1 / 2 ≤ fraction x.digits * 10 ^ places ∧
      fraction x.digits * 10 ^ places < count + 1 / 2 by
    obtain ⟨count, hy, hl, hr⟩ := hunits
    rw [magnitude_eq_units x places]
    exact ⟨count, hy, mul_le_mul_of_nonneg_right hl hunit.le, mul_lt_mul_of_pos_right hr hunit⟩
  cases h with
  | nothing below =>
    have hnonneg : 0 ≤ fraction x.digits * 10 ^ places :=
      mul_nonneg (Digit.fraction_nonneg _) (by positivity)
    have hless := fraction_units_lt_half x.digits below
    exact ⟨0, by simp [magnitude, zero], by push_cast; linarith, by push_cast; linarith⟩
  | @down kept rest split least full small =>
    have hrest := Digit.fraction_nonneg rest
    obtain ⟨count, hkept, hall⟩ := exists_units least full
    rw [split, hall]
    refine ⟨count, ?_, by push_cast; linarith, by push_cast; linarith⟩
    rw [magnitude_withDigits, Digit.fraction_dropTrailingZeros, Int.cast_natCast, ← hkept, mul_assoc,
      ← zpow_add₀ (by norm_num), add_sub_cancel]
  | @up kept rest digits split full large incremented =>
    have hlt := Digit.fraction_lt_one rest
    rw [split, fraction_units full]
    refine ⟨value kept + 1, ?_, by push_cast; linarith, by push_cast; linarith⟩
    show fraction digits * 10 ^ x.scale = _
    rw [(incremented_of_some incremented).fraction_eq, ← full, zpow_sub₀ (by norm_num), zpow_natCast]
    push_cast
    ring
  | @carried kept rest split full large incremented =>
    have hlt := Digit.fraction_lt_one rest
    rw [split, fraction_units full]
    refine ⟨value kept + 1, ?_, by push_cast; linarith, by push_cast; linarith⟩
    have hvalue : ((value kept : ℕ) : ℚ) + 1 = 10 ^ kept.length := by
      exact_mod_cast value_of_increment_none incremented
    show fraction [1] * 10 ^ (x.scale + 1) = _
    rw [← full, zpow_sub₀ (by norm_num), zpow_natCast, zpow_add₀ (by norm_num)]
    push_cast
    rw [hvalue, fraction, Digit.value_singleton]
    field_simp
    norm_num

theorem RoundsTo.nearest (h : RoundsTo x places y) :
    NearestMultiple (10 ^ (x.scale - places)) x.magnitude y.magnitude := by
  obtain ⟨count, hy, hl, hr⟩ := h.within_half
  rw [hy]
  exact .of_half (by positivity) hl hr

theorem RoundsTo.length_le (h : RoundsTo x places y) : (y.digits.length : Int) ≤ max places 1 := by
  cases h with
  | nothing => exact (Int.zero_le_ofNat 1).trans (le_max_right ..)
  | @down kept _ _ least =>
    have hlength := length_dropTrailingZeros kept
    unfold withDigits
    split
    · exact (Int.zero_le_ofNat 1).trans (le_max_right ..)
    · show ((dropTrailingZeros kept).length : Int) ≤ max places 1
      omega
  | up _ full _ incremented =>
    have hlength := (incremented_of_some incremented).length_le
    dsimp only
    omega
  | carried => exact le_max_right ..

theorem RoundsTo.negative_eq (h : RoundsTo x places y) (hy : y.digits ≠ []) :
    y.negative = x.negative := by
  cases h with
  | nothing => exact absurd rfl hy
  | down =>
    unfold withDigits at hy ⊢
    split
    · rename_i hempty
      rw [if_pos hempty] at hy
      exact absurd rfl hy
    · rfl
  | up => rfl
  | carried => rfl

theorem RoundsTo.eq_zero (h : RoundsTo x places y) (hy : y.digits = []) : y = zero := by
  cases h with
  | nothing => rfl
  | down =>
    unfold withDigits at hy ⊢
    split
    · rfl
    · rename_i hne
      rw [if_neg hne] at hy
      exact absurd (List.isEmpty_iff.mpr hy) hne
  | up _ _ _ incremented => exact absurd hy (incremented_of_some incremented).ne_nil
  | carried => exact absurd hy (List.cons_ne_nil _ _)

/-- What is left after rounding has no more digits behind the point than were asked for. -/
theorem RoundsTo.length_le_scale {decimals : Nat} (h : RoundsTo x (x.scale + decimals) y) :
    (y.digits.length : Int) ≤ y.scale + decimals := by
  cases h with
  | nothing => simp [zero]
  | @down kept _ _ least =>
    have hlength := length_dropTrailingZeros kept
    unfold withDigits
    split
    · simp [zero]
    · show ((dropTrailingZeros kept).length : Int) ≤ x.scale + decimals
      omega
  | up _ full _ incremented =>
    have hlength := (incremented_of_some incremented).length_le
    dsimp only
    omega
  | carried _ full =>
    simp only [List.length_singleton]
    omega

theorem round_of_isZero {x : Decimal} {places : Int} (h : x.isZero = true) :
    x.round places = zero := by
  have hd : x.digits = [] := List.isEmpty_iff.mp h
  unfold round
  split
  · rfl
  · simp [hd, withDigits, dropTrailingZeros]

/-! ## Rounding in place -/

/-- How many of the first `count` digits are left when all that are equal to `d` are taken from the end.
Nothing if a digit is asked for that is not there. -/
def stripEnd (d : Digit) (digits : List Digit) : Nat → Option Nat
  | 0 => some 0
  | count + 1 =>
    match digits[count]? with
    | none => none
    | some last => if last = d then stripEnd d digits count else some (count + 1)

/-- The digits with another one in a place, if there is such a place. -/
def setDigit? (digits : List Digit) (index : Nat) (d : Digit) : Option (List Digit) :=
  if index < digits.length then some (digits.set index d) else none

/-- Rounds by counting how many digits are kept. Nothing if a digit is read or written that is not
there, or if one is added to a nine. -/
def roundInPlace (x : Decimal) (places : Int) : Option Decimal :=
  let kept := min places.toNat x.digits.length
  if 0 ≤ places ∧ kept = places.toNat ∧ x.digits[kept]?.any (5 ≤ ·) = true then
    match stripEnd 9 x.digits kept with
    | none => none
    | some 0 => (setDigit? x.digits 0 1).map fun digits =>
      { x with digits := digits.take 1, scale := x.scale + 1 }
    | some (last + 1) =>
      match x.digits[last]? with
      | none => none
      | some d =>
        if d = 9 then none
        else (setDigit? x.digits last (d + 1)).map fun digits =>
          { x with digits := digits.take (last + 1) }
  else
    (stripEnd 0 x.digits kept).map fun left => x.withDigits (x.digits.take left)

theorem dropTrailingZeros_concat (ds : List Digit) (d : Digit) :
    dropTrailingZeros (ds ++ [d]) = if d = 0 then dropTrailingZeros ds else ds ++ [d] := by
  induction ds with
  | nil => rfl
  | cons e es ih =>
    rw [List.cons_append, dropTrailingZeros, ih]
    by_cases hd : d = 0
    · rw [if_pos hd, if_pos hd, dropTrailingZeros]
    · rw [if_neg hd, if_neg hd]
      cases es <;> rfl

theorem increment_concat (ds : List Digit) (d : Digit) :
    increment (ds ++ [d]) = if d = 9 then increment ds else some (ds ++ [d + 1]) := by
  induction ds with
  | nil => rfl
  | cons e es ih =>
    rw [List.cons_append, increment, ih]
    by_cases hd : d = 9
    · rw [if_pos hd, if_pos hd, increment]
    · rw [if_neg hd, if_neg hd]
      rfl

/-- Zeros are taken from the end of the digits that are kept. -/
theorem stripEnd_zero {digits : List Digit} {count : Nat} (h : count ≤ digits.length) :
    ∃ left, stripEnd 0 digits count = some left ∧
      digits.take left = dropTrailingZeros (digits.take count) := by
  induction count with
  | zero => exact ⟨0, rfl, rfl⟩
  | succ count ih =>
    rw [stripEnd, List.getElem?_eq_getElem h, List.take_succ_eq_append_getElem h,
      dropTrailingZeros_concat]
    by_cases hd : digits[count] = 0
    · simp only [hd, if_true]
      exact ih (Nat.le_of_lt h)
    · simp only [hd, if_false]
      exact ⟨count + 1, rfl, List.take_succ_eq_append_getElem h⟩

/-- Where nines are taken from the end of the digits that are kept, a carry runs through them. -/
theorem stripEnd_nine {digits : List Digit} {count : Nat} (h : count ≤ digits.length) :
    (stripEnd 9 digits count = some 0 ∧ increment (digits.take count) = none) ∨
      ∃ last d, stripEnd 9 digits count = some (last + 1) ∧ digits[last]? = some d ∧ d ≠ 9 ∧
        increment (digits.take count) = some (digits.take last ++ [d + 1]) := by
  induction count with
  | zero => exact .inl ⟨rfl, rfl⟩
  | succ count ih =>
    rw [stripEnd, List.getElem?_eq_getElem h, List.take_succ_eq_append_getElem h, increment_concat]
    by_cases hd : digits[count] = 9
    · simp only [hd, if_true]
      exact ih (Nat.le_of_lt h)
    · simp only [hd, if_false]
      exact .inr ⟨count, digits[count], rfl, List.getElem?_eq_getElem h, hd, rfl⟩

theorem take_set_succ {digits : List Digit} {last : Nat} (h : last < digits.length) (d : Digit) :
    (digits.set last d).take (last + 1) = digits.take last ++ [d] := by
  have hl : last < (digits.set last d).length := by rwa [List.length_set]
  rw [List.take_succ_eq_append_getElem hl, List.getElem_set_self, List.take_set_of_le (Nat.le_refl _)]

/-- No digit is asked for that is not there, and the result is the same. -/
theorem roundInPlace_eq (x : Decimal) (places : Int) :
    x.roundInPlace places = some (x.round places) := by
  have hkept : min places.toNat x.digits.length ≤ x.digits.length := Nat.min_le_right ..
  unfold roundInPlace
  dsimp only
  split
  · rename_i hup
    obtain ⟨hnonneg, hfull, hnext⟩ := hup
    rw [hfull] at hkept hnext ⊢
    obtain ⟨next, hget, hfive⟩ := (Option.any_eq_true _ _).mp hnext
    have hlt : places.toNat < x.digits.length := (List.getElem?_eq_some_iff.mp hget).1
    have hfive' : 5 ≤ next := of_decide_eq_true hfive
    rcases stripEnd_nine hkept with ⟨hstrip, hinc⟩ | ⟨last, d, hstrip, hlast, hd, hinc⟩
    · have hpos : 0 < x.digits.length := Nat.zero_lt_of_lt hlt
      simp only [hstrip, setDigit?, hpos, if_true, Option.map_some, take_set_succ hpos, List.take_zero,
        List.nil_append, round, not_lt.mpr hnonneg, hget, hfive', hinc, if_false]
    · have hpos : last < x.digits.length := (List.getElem?_eq_some_iff.mp hlast).1
      simp only [hstrip, hlast, hd, setDigit?, hpos, if_true, if_false, Option.map_some,
        take_set_succ hpos, round, not_lt.mpr hnonneg, hget, hfive', hinc]
  · rename_i hdown
    obtain ⟨left, hstrip, htake⟩ := stripEnd_zero hkept
    rw [hstrip, Option.map_some, htake, Option.some.injEq]
    have htaken : x.digits.take (min places.toNat x.digits.length) = x.digits.take places.toNat := by
      rw [← List.take_take, List.take_length]
    rw [htaken, round]
    split
    · rename_i hneg
      rw [Int.toNat_of_nonpos hneg.le]
      rfl
    · rename_i hnonneg
      dsimp only
      split
      · rename_i next hget
        have hlt : places.toNat < x.digits.length := (List.getElem?_eq_some_iff.mp hget).1
        have hsmall : ¬ 5 ≤ next := by
          intro hfive
          refine hdown ⟨not_lt.mp hnonneg, Nat.min_eq_left hlt.le, ?_⟩
          rw [Nat.min_eq_left hlt.le, hget]
          exact decide_eq_true hfive
        rw [if_neg hsmall]
      · rfl

/-- Rounding takes a number to the nearest multiple of a power of ten, and a half away from zero. For every
number whose first digit is not zero and every number of places, be it negative or beyond the digits: the
result is normalized, its magnitude is the nearest multiple of the unit of the last place, the larger one
of two that are equally near, and it has at most that many digits, or one if a carry ran through. Its sign
is that of the number unless it is zero, and zero has no digits, no scale and no sign. Done on the digits
in place, no digit is ever asked for that is not there. -/
theorem round_is_nearest_multiple {x : Decimal} (hx : x.digits.head? ≠ some 0) (places : Int) :
    (x.round places).Normalized ∧
    NearestMultiple (10 ^ (x.scale - places)) x.magnitude (x.round places).magnitude ∧
    ((x.round places).digits.length : Int) ≤ max places 1 ∧
    ((x.round places).magnitude ≠ 0 → (x.round places).negative = x.negative) ∧
    ((x.round places).magnitude = 0 → x.round places = ⟨false, [], 0⟩) ∧
    x.roundInPlace places = some (x.round places) := by
  have h := roundsTo_round x places
  have hnormal := h.normalized hx
  have hzero := magnitude_eq_zero_iff hnormal.1
  refine ⟨hnormal, h.nearest, h.length_le, fun hne => ?_, fun heq => ?_, roundInPlace_eq x places⟩
  · exact h.negative_eq fun hnone => hne (hzero.mpr hnone)
  · exact h.eq_zero (hzero.mp heq)

/-- A carry through all nines, and a half that goes up to a digit in front of all others. -/
theorem nines_round_up :
    let nines : Decimal := ⟨true, [9, 9, 5], 0⟩
    nines.digits.head? ≠ some 0 ∧ nines.round 2 = ⟨true, [1], 1⟩ ∧ nines.round 0 = ⟨true, [1], 1⟩ ∧
      NearestMultiple (10 ^ (0 - 2 : Int)) nines.magnitude (nines.round 2).magnitude ∧
      nines.roundInPlace 0 = some ⟨true, [1], 1⟩ := by
  intro nines
  have hx : nines.digits.head? ≠ some 0 := by decide
  obtain ⟨-, hnearest, -⟩ := round_is_nearest_multiple hx 2
  obtain ⟨-, -, -, -, -, hplace⟩ := round_is_nearest_multiple hx 0
  exact ⟨hx, rfl, rfl, hnearest, hplace⟩

end Decimal

end ScriptEngine
