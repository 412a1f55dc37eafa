import Mathlib.Data.Int.Log
import Mathlib.Data.Rat.Floor
import ScriptEngine.Proofs.Decimal.Rounding

/-!
# Sizes of decimals

Where the first digit of a number stands (`log_magnitude`), and how many digits it has before and behind the
point (`isLeast_scale`, `isLeast_fractionLength`). Rounding to a count of digits takes a number to the
nearest multiple of the last of them (`nearest_significant`).
-/

namespace ScriptEngine.Decimal

variable {x : Decimal}

theorem shift_zero (x : Decimal) : x.shift 0 = x := by
  rw [shift, Int.add_zero]

theorem magnitude_shift (x : Decimal) (places : Int) :
    (x.shift places).magnitude = x.magnitude * 10 ^ places := by
  rw [magnitude, magnitude, shift, mul_assoc, ← zpow_add₀ (by norm_num)]

theorem magnitude_lt (x : Decimal) : x.magnitude < 10 ^ x.scale := by
  have hpos : (0 : ℚ) < 10 ^ x.scale := by positivity
  have hless := mul_lt_mul_of_pos_right (Digit.fraction_lt_one x.digits) hpos
  rwa [one_mul] at hless

theorem le_magnitude (hhead : x.digits.head? ≠ some 0) (hne : x.digits ≠ []) :
    10 ^ (x.scale - 1) ≤ x.magnitude := by
  obtain ⟨first, rest, hdigits⟩ := List.exists_cons_of_ne_nil hne
  rw [hdigits, List.head?_cons, ne_eq, Option.some.injEq] at hhead
  have hfirst : (1 : ℚ) ≤ first.val := by
    exact_mod_cast Nat.one_le_iff_ne_zero.mpr fun h0 => hhead (Fin.ext h0)
  have hrest := Digit.fraction_nonneg rest
  have hpos : (0 : ℚ) < 10 ^ x.scale := by positivity
  rw [magnitude, hdigits, Digit.fraction_cons, zpow_sub_one₀ (by norm_num)]
  nlinarith

theorem one_le_magnitude_iff (h : x.Normalized) : 1 ≤ x.magnitude ↔ 0 < x.scale := by
  constructor
  · intro hone
    by_contra hscale
    have hpower : (10 : ℚ) ^ x.scale ≤ 1 := zpow_le_one_of_nonpos₀ (by norm_num) (by omega)
    exact (x.magnitude_lt.trans_le hpower).not_ge hone
  · intro hscale
    have hne : x.digits ≠ [] := fun hnil => absurd (h.2.2 hnil) (by omega)
    have hpower : (1 : ℚ) ≤ 10 ^ (x.scale - 1) := one_le_zpow₀ (by norm_num) (by omega)
    exact hpower.trans (le_magnitude h.1 hne)

/-- The first digit of a number stands at its scale. -/
theorem log_magnitude (h : x.Normalized) (hne : x.digits ≠ []) :
    Int.log 10 x.magnitude = x.scale - 1 := by
  have hle := le_magnitude h.1 hne
  have hpos : 0 < x.magnitude := lt_of_lt_of_le (by positivity) hle
  have hlower : x.scale - 1 ≤ Int.log 10 x.magnitude :=
    (Int.zpow_le_iff_le_log (by decide) hpos).mp (by exact_mod_cast hle)
  have hupper : Int.log 10 x.magnitude < x.scale :=
    (Int.lt_zpow_iff_log_lt (by decide) hpos).mp (by exact_mod_cast x.magnitude_lt)
  omega

/-- Rounding to a count of digits takes a number to the nearest multiple of the last of them. -/
theorem nearest_significant (hx : x.Normalized) (count : Nat) :
    NearestMultiple (10 ^ (Int.log 10 x.magnitude + 1 - count)) x.magnitude (x.round count).magnitude := by
  by_cases hne : x.digits = []
  · have hzero : x.magnitude = 0 := (magnitude_eq_zero_iff hx.1).mpr hne
    have hround : (x.round count).magnitude = (0 : ℤ) * 10 ^ (Int.log 10 x.magnitude + 1 - count) := by
      rw [round_of_isZero (List.isEmpty_iff.mpr hne), Int.cast_zero, zero_mul]
      exact (magnitude_eq_zero_iff (by simp [zero])).mpr rfl
    have hunit : (0 : ℚ) < 10 ^ (Int.log 10 x.magnitude + 1 - count) := by positivity
    rw [hround]
    refine .of_half hunit ?_ ?_ <;> rw [hzero] at hunit ⊢ <;> push_cast <;> linarith
  · rw [log_magnitude hx hne, sub_add_cancel]
    exact (roundsTo_round x count).nearest

theorem isLeast_scale (h : x.Normalized) : IsLeast {n : ℕ | x.magnitude < 10 ^ n} x.scale.toNat := by
  constructor
  · have hpower : (10 : ℚ) ^ x.scale ≤ 10 ^ (x.scale.toNat : ℤ) :=
      zpow_le_zpow_right₀ (by norm_num) (by omega)
    rw [zpow_natCast] at hpower
    exact x.magnitude_lt.trans_le hpower
  · intro n hn
    by_contra hless
    have hsome : x.digits ≠ [] := fun hnil => by
      have := h.2.2 hnil
      omega
    have hpower : (10 : ℚ) ^ (n : ℤ) ≤ 10 ^ (x.scale - 1) :=
      zpow_le_zpow_right₀ (by norm_num) (by omega)
    rw [zpow_natCast] at hpower
    exact absurd hn (hpower.trans (le_magnitude h.1 hsome)).not_gt

/-- A number in units of its last digit. -/
theorem magnitude_eq_value (x : Decimal) :
    x.magnitude = Digit.value x.digits * 10 ^ (x.scale - x.digits.length) := by
  rw [magnitude, Digit.fraction, zpow_sub₀ (by norm_num), zpow_natCast]
  ring

/-- The digits of a normalized number do not denote a multiple of ten. -/
theorem value_mod_ten (h : x.Normalized) (hne : x.digits ≠ []) : Digit.value x.digits % 10 ≠ 0 := by
  obtain ⟨front, last, hdigits⟩ := (List.eq_nil_or_concat' x.digits).resolve_left hne
  have hlast : last.val ≠ 0 := by
    intro hzero
    have hnone := h.2.1
    rw [hdigits, List.getLast?_concat] at hnone
    exact hnone (congrArg some (Fin.ext hzero))
  have hlt := last.isLt
  rw [hdigits, Digit.value_append, Digit.value_singleton, List.length_singleton, pow_one]
  omega

theorem isLeast_fractionLength (h : x.Normalized) :
    IsLeast {n : ℕ | ∃ count : ℤ, x.magnitude * 10 ^ n = count} x.fractionLength := by
  have hscaled : ∀ n : ℕ, x.magnitude * 10 ^ n =
      Digit.value x.digits * 10 ^ (x.scale - x.digits.length + n) := by
    intro n
    rw [magnitude_eq_value, mul_assoc, zpow_add₀ (by norm_num), zpow_natCast]
  constructor
  · obtain ⟨power, hpower⟩ : ∃ power : ℕ, x.scale - x.digits.length + x.fractionLength = power :=
      ⟨(x.scale - x.digits.length + x.fractionLength).toNat, by rw [fractionLength]; omega⟩
    refine ⟨Digit.value x.digits * 10 ^ power, ?_⟩
    rw [hscaled, hpower, zpow_natCast]
    push_cast
    rfl
  · rintro n ⟨count, hn⟩
    by_contra hless
    rw [fractionLength] at hless
    have hsome : x.digits ≠ [] := fun hnil => by
      have hscale := h.2.2 hnil
      rw [hnil, List.length_nil] at hless
      omega
    -- With fewer decimals the last digit would still stand behind the point.
    obtain ⟨power, hpower⟩ : ∃ power : ℕ, x.scale - x.digits.length + n = -(power + 1 : ℕ) :=
      ⟨(x.digits.length - x.scale - n - 1).toNat, by omega⟩
    rw [hscaled, hpower, zpow_neg, zpow_natCast, ← div_eq_mul_inv, div_eq_iff (by positivity)] at hn
    have hmultiple : (Digit.value x.digits : ℤ) = count * 10 ^ (power + 1) := by exact_mod_cast hn
    refine value_mod_ten h hsome ?_
    rw [pow_succ, ← mul_assoc] at hmultiple
    omega

end ScriptEngine.Decimal
