import ScriptEngine.Proofs.Decimal.Magnitude

/-!
# Digits at positions

The digits of a number at successive positions (`Decimal.digitsAt`), zeros in front of the first one and
behind the last one included.

* `Decimal.value_digitsAt`: positions that reach from above the first digit of a number to below the last
  one hold the whole number;
* `Decimal.positional`: so the digits before and behind the point denote it together;
* `Decimal.digitRun_rescale`: digits counted from the first one do not depend on where the point is.
-/

namespace ScriptEngine

/-- The digits before and behind the point of a number with a fixed count of decimals. The integer is a
single zero below one, and starts with another digit from one on. -/
structure Positional (decimals : Nat) (number : ℚ) (integer fraction : List Digit) : Prop where
  belowOne : number < 1 → integer = [0]
  fromOne : 1 ≤ number → ∃ first rest, integer = first :: rest ∧ first ≠ 0
  length : fraction.length = decimals
  value : (Digit.value (integer ++ fraction) : ℚ) = number * 10 ^ decimals

namespace Decimal

open Digit (value fraction)

/-- In front of the first digit there are zeros. -/
theorem digit_of_scale_lt {x : Decimal} {position : Int} (h : x.scale < position) :
    x.digit position = 0 := if_pos h

/-- Behind the last digit there are zeros. -/
theorem digit_of_length_le {x : Decimal} {position : Int} (h : x.digits.length ≤ x.scale - position) :
    x.digit position = 0 := by
  unfold digit
  split
  · rfl
  · rw [List.getD_eq_getElem?_getD, List.getElem?_eq_none (by omega)]
    rfl

theorem digitRun_succ (x : Decimal) (position : Int) (count : Nat) :
    x.digitRun position (count + 1) =
      (x.digit position).toChar :: x.digitRun (position - 1) count := by
  simp only [digitRun, List.range_succ_eq_map, List.map_cons, List.map_map, Int.natCast_zero,
    Int.sub_zero]
  congr 1
  refine List.map_congr_left fun i _ => ?_
  simp only [Function.comp_apply, Nat.succ_eq_add_one]
  congr 2
  omega

@[simp] theorem length_digitRun (x : Decimal) (position : Int) (count : Nat) :
    (x.digitRun position count).length = count := by
  simp [digitRun]

theorem integerText_eq (x : Decimal) :
    x.integerText = x.digitRun (max x.scale 1) (max x.scale 1).toNat := by
  unfold integerText
  split
  · rw [Int.max_eq_left (by omega)]
  · have hd : x.digit 1 = 0 := digit_of_scale_lt (by omega)
    rw [Int.max_eq_right (by omega)]
    show _ = x.digitRun 1 1
    rw [digitRun_succ, hd]
    rfl

/-- The digits counted from the first one do not depend on where the point is. -/
theorem digitRun_rescale (x : Decimal) (scale : Int) (start count : Nat) :
    Decimal.digitRun { x with scale } (scale - start) count = x.digitRun (x.scale - start) count := by
  refine List.map_congr_left fun i _ => congrArg Digit.toChar ?_
  simp only [digit]
  rw [if_neg (by omega), if_neg (by omega)]
  congr 1
  omega

section

variable (x : Decimal)

/-- The digits at `count` positions from `position` downwards. -/
def digitsAt (position : Int) (count : Nat) : List Digit :=
  (List.range count).map fun (i : Nat) => x.digit (position - i)

theorem digitRun_eq_map (position : Int) (count : Nat) :
    x.digitRun position count = (x.digitsAt position count).map Digit.toChar := by
  rw [digitRun, digitsAt, List.map_map]
  rfl

@[simp] theorem length_digitsAt (position : Int) (count : Nat) :
    (x.digitsAt position count).length = count := by
  rw [digitsAt, List.length_map, List.length_range]

theorem digitsAt_add (position : Int) (count more : Nat) :
    x.digitsAt position (count + more) =
      x.digitsAt position count ++ x.digitsAt (position - count) more := by
  rw [digitsAt, List.range_add, List.map_append, List.map_map]
  refine congrArg _ (List.map_congr_left fun i _ => congrArg x.digit ?_)
  push_cast
  omega

theorem digitsAt_succ (position : Int) (count : Nat) :
    x.digitsAt position (count + 1) = x.digit position :: x.digitsAt (position - 1) count := by
  rw [Nat.add_comm, digitsAt_add]
  simp [digitsAt]

theorem digitsAt_eq_zeros {position : Int} {count : Nat}
    (h : ∀ i < count, x.digit (position - i) = 0) :
    x.digitsAt position count = List.replicate count 0 := by
  refine List.eq_replicate_iff.mpr ⟨x.length_digitsAt position count, fun d hd => ?_⟩
  obtain ⟨i, hi, rfl⟩ := List.mem_map.mp hd
  exact h i (List.mem_range.mp hi)

theorem digitsAt_scale : x.digitsAt x.scale x.digits.length = x.digits := by
  refine List.ext_getElem (by simp) fun i hi hi' => ?_
  simp [digitsAt, digit, hi']

variable {x}

/-- Positions that reach from above the first digit to below the last one hold the whole number. -/
theorem value_digitsAt {position : Int} {count : Nat} (habove : x.scale ≤ position)
    (hbelow : x.digits.length + (position - x.scale) ≤ count) :
    (value (x.digitsAt position count) : ℚ) = x.magnitude * 10 ^ (count - position) := by
  obtain ⟨above, ha⟩ : ∃ above : Nat, position = x.scale + above :=
    ⟨(position - x.scale).toNat, by omega⟩
  obtain ⟨below, hb⟩ : ∃ below : Nat, count = above + (x.digits.length + below) :=
    ⟨count - above - x.digits.length, by omega⟩
  subst ha hb
  have hzeros : x.digitsAt (x.scale + above) above = List.replicate above 0 :=
    x.digitsAt_eq_zeros fun i hi => digit_of_scale_lt (by omega)
  have hrest : x.digitsAt (x.scale - x.digits.length) below = List.replicate below 0 :=
    x.digitsAt_eq_zeros fun i hi => digit_of_length_le (by omega)
  have hpower : (10 : ℚ) ^ x.scale *
      10 ^ (((above + (x.digits.length + below) : Nat) : Int) - (x.scale + above)) =
      10 ^ x.digits.length * 10 ^ below := by
    rw [← zpow_add₀ (by norm_num), ← pow_add, ← zpow_natCast]
    congr 1
    push_cast
    ring
  rw [digitsAt_add, hzeros, add_sub_cancel_right, digitsAt_add, digitsAt_scale, hrest,
    Digit.value_append, Digit.value_append, Digit.value_zeros, Digit.value_zeros, magnitude, mul_assoc,
    hpower, fraction]
  simp only [List.length_replicate]
  push_cast
  field_simp
  ring

/-- The digits from above the first one down to the point, and those behind it down to below the last one,
denote a number together. -/
theorem value_integer_fraction {highest : Int} {decimals : Nat} (hnonneg : 0 ≤ highest)
    (habove : x.scale ≤ highest) (hbelow : (x.digits.length : Int) ≤ x.scale + decimals) :
    (value (x.digitsAt highest highest.toNat ++ x.digitsAt 0 decimals) : ℚ) =
      x.magnitude * 10 ^ decimals := by
  have hcount : ((highest.toNat : Nat) : Int) = highest := Int.toNat_of_nonneg hnonneg
  have hall := @value_digitsAt x highest (highest.toNat + decimals) habove (by omega)
  rw [digitsAt_add, hcount, sub_self] at hall
  rw [hall]
  congr 1
  rw [← zpow_natCast]
  congr 1
  omega

end

variable {x : Decimal}

/-- The digits before the point and those behind it denote a number that has no more than these. -/
theorem positional {decimals : Nat} (h : x.Normalized)
    (hlength : (x.digits.length : Int) ≤ x.scale + decimals) :
    Positional decimals x.magnitude (x.digitsAt (max x.scale 1) (max x.scale 1).toNat)
      (x.digitsAt 0 decimals) where
  belowOne hlt := by
    have hscale : ¬ 0 < x.scale := fun hpos => hlt.not_ge ((one_le_magnitude_iff h).mpr hpos)
    rw [max_eq_right (by omega)]
    exact x.digitsAt_eq_zeros fun i hi => digit_of_scale_lt (by omega)
  fromOne hge := by
    have hscale := (one_le_magnitude_iff h).mp hge
    obtain ⟨hhead, -, hzero⟩ := h
    obtain ⟨more, hcount⟩ : ∃ more, x.scale.toNat = more + 1 := ⟨x.scale.toNat - 1, by omega⟩
    rw [max_eq_left (by omega), hcount, digitsAt_succ]
    refine ⟨_, _, rfl, ?_⟩
    cases hdigits : x.digits with
    | nil => exact absurd (hzero hdigits) (by omega)
    | cons first rest =>
      rw [hdigits, List.head?_cons, ne_eq, Option.some.injEq] at hhead
      simpa [digit, hdigits] using hhead
  length := x.length_digitsAt 0 decimals
  value := value_integer_fraction (by omega) (by omega) hlength

/-- The last digit behind the point is the last one of all, and so not zero. -/
theorem getLast?_fraction (h : x.Normalized) :
    (x.digitsAt 0 x.fractionLength).getLast? ≠ some 0 := by
  cases hlength : x.fractionLength with
  | zero => simp [digitsAt]
  | succ n =>
    have hn : (x.digits.length : Int) - x.scale = n + 1 := by
      rw [fractionLength] at hlength
      omega
    have hpos : 0 < x.digits.length := by
      rw [List.length_pos_iff]
      intro hnil
      rw [h.2.2 hnil, hnil] at hn
      exact absurd hn (by simp; omega)
    have hindex : (x.scale - (0 - n)).toNat = x.digits.length - 1 := by omega
    have hlast : some (x.digit (0 - n)) = x.digits.getLast? := by
      rw [digit, if_neg (by omega), hindex, List.getLast?_eq_getElem?, List.getD_eq_getElem?_getD,
        List.getElem?_eq_getElem (by omega), Option.getD_some]
    have hrun : x.digitsAt 0 (n + 1) = x.digitsAt 0 n ++ [x.digit (0 - n)] := by
      rw [digitsAt_add, digitsAt_succ]
      rfl
    rw [hrun, List.getLast?_concat, hlast]
    exact h.2.1

end Decimal

end ScriptEngine
