import ScriptEngine.Decimal.Binary64
import ScriptEngine.Proofs.Decimal.Rounding

/-!
# Parts of doubles

`Binary64.ofFloat` reads the sign, the significand and the exponent of a finite double off its bits
(`Binary64.unpack_ofFloat`). So a double is less than zero exactly if it has a sign and a significand
(`Binary64.lt_zero_iff`), and a number that is made of it loses the sign exactly if it is rounded to zero
(`Decimal.round_negative_iff`).
-/

namespace ScriptEngine

open Float.Model Float.Model.UnpackedFloat

theorem isFinite_iff {x : Float} : x.isFinite = true ↔ x.isNaN = false ∧ x.isInf = false := by
  have hparts : x.isFinite = (!x.isNaN && !x.isInf) := by
    show x.toModel.unpack.isFinite = (!x.toModel.unpack.isNaN && !x.toModel.unpack.isInf)
    cases x.toModel.unpack <;> rfl
  rw [hparts, Bool.and_eq_true, Bool.not_eq_true', Bool.not_eq_true']

namespace Binary64

variable (bits : BitVec Format.binary64.numBits)

theorem toNat_unpackMantissa : (unpackMantissa bits).toNat = bits.toNat % Nat.pow 2 52 := by
  simp [unpackMantissa]

theorem toNat_unpackExponent :
    (unpackExponent bits).toNat = bits.toNat / Nat.pow 2 52 % Nat.pow 2 11 := by
  simp [unpackExponent, Nat.shiftRight_eq_div_pow]

theorem toNat_unpackSign : (unpackSign bits).toNat = bits.toNat / Nat.pow 2 63 := by
  have hlt : bits.toNat < 18446744073709551616 := bits.isLt
  have hsign : (unpackSign bits).toNat = bits.toNat / 9223372036854775808 % 2 := by
    show (bits.extractLsb' 63 1).toNat = _
    rw [BitVec.extractLsb'_toNat, Nat.shiftRight_eq_div_pow]
  rw [hsign]
  exact Nat.mod_eq_of_lt (by omega)

/-- The sign that a flag stands for. -/
def signOf (negative : Bool) : Sign :=
  if negative then .negative else .positive

theorem ofBitVec_unpackSign :
    Sign.ofBitVec (unpackSign bits) = signOf (bits.toNat / Nat.pow 2 63 == 1) := by
  rw [← toNat_unpackSign]
  rcases BitVec.eq_zero_or_eq_one (unpackSign bits) with h | h <;> rw [h] <;> rfl

theorem toNat_implicit (mantissa : BitVec 52) :
    (1#1 ++ mantissa).toNat = Nat.pow 2 52 + mantissa.toNat := by
  rw [BitVec.toNat_append, ← Nat.shiftLeft_add_eq_or_of_lt mantissa.isLt]
  rfl

/-- The parts of a finite value may be given in other words. -/
theorem finite_congr {u : UnpackedFloat} {sign : Sign} {m n : Nat} {e f : Int} {hm : 0 < m}
    (hu : u = .finite sign m e hm) (hmn : m = n) (hef : e = f) : ∃ hn, u = .finite sign n f hn := by
  subst hmn hef
  exact ⟨hm, hu⟩

/-- A finite double is zero, a subnormal number, or has a bit in front of its mantissa. -/
theorem unpack_cases (hf : (UnpackedFloat.unpack Format.binary64 bits).isFinite = true) :
    ((unpackExponent bits).toNat = 0 ∧ (unpackMantissa bits).toNat = 0 ∧
      UnpackedFloat.unpack Format.binary64 bits = .zero (Sign.ofBitVec (unpackSign bits))) ∨
    ((unpackExponent bits).toNat = 0 ∧ ∃ h, UnpackedFloat.unpack Format.binary64 bits =
      .finite (Sign.ofBitVec (unpackSign bits)) (unpackMantissa bits).toNat (-1074) h) ∨
    ((unpackExponent bits).toNat ≠ 0 ∧ ∃ h, UnpackedFloat.unpack Format.binary64 bits =
      .finite (Sign.ofBitVec (unpackSign bits)) (Nat.pow 2 52 + (unpackMantissa bits).toNat)
        ((unpackExponent bits).toNat - 1075) h) := by
  by_cases hfull : unpackExponent bits = -BitVec.ofNat _ 1
  · -- The exponent of infinities and of what is not a number.
    have hspecial : (UnpackedFloat.unpack Format.binary64 bits).isFinite = false := by
      by_cases hnone : unpackMantissa bits = BitVec.ofNat _ 0
      · exact congrArg UnpackedFloat.isFinite ((if_pos hfull).trans (if_pos hnone))
      · exact congrArg UnpackedFloat.isFinite ((if_pos hfull).trans (if_neg hnone))
    exact absurd (hspecial.symm.trans hf) Bool.false_ne_true
  · by_cases hzero : unpackExponent bits = BitVec.ofNat _ 0
    · have hzero' : (unpackExponent bits).toNat = 0 := congrArg BitVec.toNat hzero
      by_cases hnone : unpackMantissa bits = BitVec.ofNat _ 0
      · exact .inl ⟨hzero', congrArg BitVec.toNat hnone,
          (if_neg hfull).trans ((if_pos hzero).trans (dif_pos hnone))⟩
      · refine .inr (.inl ⟨hzero', ?_⟩)
        refine finite_congr ((if_neg hfull).trans ((if_pos hzero).trans (dif_neg hnone))) rfl ?_
        rw [hzero]
        rfl
    · refine .inr (.inr ⟨fun h => hzero (BitVec.eq_of_toNat_eq h), ?_⟩)
      exact finite_congr ((if_neg hfull).trans (if_neg hzero)) (toNat_implicit _) rfl

/-- The parts of a finite double are its sign, significand and exponent. -/
theorem unpack_ofFloat {x : Float} (hx : x.isFinite = true) :
    (x.toModel.unpack = .zero (signOf (ofFloat x).negative) ∧ (ofFloat x).significand = 0) ∨
      ∃ h, x.toModel.unpack =
        .finite (signOf (ofFloat x).negative) (ofFloat x).significand (ofFloat x).exponent h := by
  have hcases := unpack_cases x.toBits.toBitVec hx
  have hbits : x.toBits.toBitVec.toNat = x.toBits.toNat := rfl
  rw [toNat_unpackMantissa, toNat_unpackExponent, ofBitVec_unpackSign, hbits] at hcases
  unfold ofFloat
  dsimp only
  rcases hcases with ⟨he, hm, hu⟩ | ⟨he, hpos, hu⟩ | ⟨he, hpos, hu⟩
  · rw [if_pos he]
    exact .inl ⟨hu, hm⟩
  · rw [if_pos he]
    exact .inr ⟨hpos, hu⟩
  · rw [if_neg he]
    exact .inr ⟨hpos, hu⟩

theorem lt_zero_iff {x : Float} (hx : x.isFinite = true) :
    x < 0 ↔ (ofFloat x).negative = true ∧ (ofFloat x).significand ≠ 0 := by
  have hzero : (0 : Float).toModel.unpack = .zero .positive := rfl
  have hlt : x < 0 ↔ x.toModel.unpack.compare (.zero .positive) = some .lt := by
    rw [← hzero, ← beq_iff_eq]
    exact decide_eq_true_iff
  rw [hlt]
  rcases unpack_ofFloat hx with ⟨hu, hs⟩ | ⟨hpos, hu⟩
  · have hequal : ¬ some Ordering.eq = some .lt := by decide
    rw [hu]
    exact iff_of_false hequal fun h => h.2 hs
  · rw [hu]
    cases (ofFloat x).negative with
    | true => exact iff_of_true rfl ⟨rfl, Nat.pos_iff_ne_zero.mp hpos⟩
    | false =>
      have hgreater : ¬ some Ordering.gt = some .lt := by decide
      exact iff_of_false hgreater fun h => absurd h.1 Bool.false_ne_true

theorem significand_of_beq_zero {x : Float} (hx : x.isFinite = true) (h : (x == 0) = true) :
    (ofFloat x).significand = 0 := by
  have hcompare : (x.toModel.unpack.compare (.zero .positive) == some .eq) = true := h
  rcases unpack_ofFloat hx with ⟨-, hs⟩ | ⟨hpos, hu⟩
  · exact hs
  · rw [hu] at hcompare
    cases hsign : (ofFloat x).negative <;> rw [hsign] at hcompare <;> cases hcompare

end Binary64

namespace Decimal

theorem significant_of_zero {v : Float} (h : (Binary64.ofFloat v).significand = 0) (count : Nat) :
    (significant count v).digits = [] := by
  have hexact : Binary64.tenCoefficient 0 (Binary64.ofFloat v).exponent = 0 := by
    simp [Binary64.tenCoefficient]
  have hround : ∀ excess, roundHalfEven 0 (Nat.pow 10 excess) = 0 := fun excess => by
    simp [roundHalfEven]
  simp only [significant, h, hexact, hround]
  rfl

theorem lt_zero_iff_negative {v : Float} (hv : v.isFinite = true) {count : Nat}
    (hx : (significant count v).isZero = false) : v < 0 ↔ (significant count v).negative = true := by
  have hsignificand : (Binary64.ofFloat v).significand ≠ 0 := fun h =>
    List.isEmpty_eq_false_iff.mp hx (significant_of_zero h count)
  rw [Binary64.lt_zero_iff hv]
  exact and_iff_left hsignificand

/-- A number keeps the sign of the double that it is made of, unless it is rounded to zero. -/
theorem round_negative_iff {v : Float} (hv : v.isFinite = true) (count : Nat) (shifted places : Int) :
    (((significant count v).shift shifted).round places).negative = true ↔
      v < 0 ∧ (((significant count v).shift shifted).round places).magnitude ≠ 0 := by
  have hnormal : (significant count v).Normalized := ofCoefficient_normalized ..
  have hrounds := roundsTo_round ((significant count v).shift shifted) places
  have hzero := magnitude_eq_zero_iff (hrounds.normalized hnormal.1).1
  rw [Binary64.lt_zero_iff hv, hzero.ne]
  generalize hy : ((significant count v).shift shifted).round places = y at hrounds ⊢
  by_cases hnone : y.digits = []
  · simp [hrounds.eq_zero hnone, zero]
  · have hsign : y.negative = (Binary64.ofFloat v).negative := hrounds.negative_eq hnone
    have hsignificand : (Binary64.ofFloat v).significand ≠ 0 := by
      intro h
      have hempty : ((significant count v).shift shifted).isZero = true :=
        List.isEmpty_iff.mpr (significant_of_zero h count)
      rw [round_of_isZero hempty] at hy
      exact hnone (hy ▸ rfl)
    simp [hsign, hnone, hsignificand]

end Decimal

end ScriptEngine
