import Mathlib
import ScriptEngine.Proofs.Decimal.Binary64

/-!
# Absolute values of doubles

An absolute value differs from its double in the sign alone (`Binary64.ofFloat_abs`), and rounding does not
look at the sign (`Decimal.round_unsigned`). That the parts of a double, put together again, are its bits is a
law of the model of doubles which only the library as a whole brings in.
-/

namespace ScriptEngine

namespace Binary64

open Float.Model Float.Model.UnpackedFloat

/-- The sign of a number is kept apart from its other bits. -/
theorem pack_abs {u : UnpackedFloat} (hu : u.isNaN = false) :
    ∃ sign exponent mantissa,
      UnpackedFloat.pack Format.binary64 u = packComponents _ sign exponent mantissa ∧
      UnpackedFloat.pack Format.binary64 u.abs = packComponents _ .positive exponent mantissa := by
  cases u with
  | notANumber => cases hu
  | infinity sign => exact ⟨sign, _, _, rfl, rfl⟩
  | zero sign => exact ⟨sign, _, _, rfl, rfl⟩
  | finite sign m e hm =>
    by_cases hlarge : 2 ^ Format.binary64.exponentBits ≤
        (e + Format.binary64.exponentBias + Format.binary64.mantissaBitsWithoutImplicit).toNat + 1
    · exact ⟨sign, _, _, if_pos hlarge, if_pos hlarge⟩
    · by_cases hfull : m.log2 + 1 = Format.binary64.mantissaBits
      · exact ⟨sign, _, _, (if_neg hlarge).trans (if_pos hfull), (if_neg hlarge).trans (if_pos hfull)⟩
      · exact ⟨sign, _, _, (if_neg hlarge).trans (if_neg hfull), (if_neg hlarge).trans (if_neg hfull)⟩

theorem ofFloat_abs {x : Float} (hx : x.isNaN = false) :
    ofFloat x.abs = { ofFloat x with negative := false } := by
  obtain ⟨sign, exponent, mantissa, hbits, habs⟩ := pack_abs hx
  have hpacked : x.toBits.toBitVec = packComponents Format.binary64 sign exponent mantissa :=
    (pack_unpack_of_valid x.toModel.valid).symm.trans hbits
  have hpacked' : x.abs.toBits.toBitVec = packComponents Format.binary64 .positive exponent mantissa :=
    habs
  have hmantissa : x.abs.toBits.toNat % Nat.pow 2 52 = x.toBits.toNat % Nat.pow 2 52 := by
    show x.abs.toBits.toBitVec.toNat % _ = x.toBits.toBitVec.toNat % _
    rw [← toNat_unpackMantissa, ← toNat_unpackMantissa, hpacked, hpacked', unpackMantissa_packComponents,
      unpackMantissa_packComponents]
  have hexponent : x.abs.toBits.toNat / Nat.pow 2 52 % Nat.pow 2 11 =
      x.toBits.toNat / Nat.pow 2 52 % Nat.pow 2 11 := by
    show x.abs.toBits.toBitVec.toNat / _ % _ = x.toBits.toBitVec.toNat / _ % _
    rw [← toNat_unpackExponent, ← toNat_unpackExponent, hpacked, hpacked', unpackExponent_packComponents,
      unpackExponent_packComponents]
  have hsign : x.abs.toBits.toNat / Nat.pow 2 63 = 0 := by
    show x.abs.toBits.toBitVec.toNat / _ = 0
    rw [← toNat_unpackSign, hpacked', unpackSign_packComponents]
    rfl
  simp only [ofFloat, hmantissa, hexponent, hsign]
  split <;> rfl

end Binary64

namespace Decimal

/-- A number without its sign. -/
def unsigned (x : Decimal) : Decimal :=
  { x with negative := false }

theorem significant_abs {v : Float} (hv : v.isNaN = false) (count : Nat) :
    significant count v.abs = (significant count v).unsigned := by
  simp only [significant, Binary64.ofFloat_abs hv]
  rfl

theorem withDigits_unsigned (x : Decimal) (digits : List Digit) :
    x.unsigned.withDigits digits = (x.withDigits digits).unsigned := by
  unfold withDigits
  split <;> rfl

theorem round_unsigned (x : Decimal) (places : Int) :
    x.unsigned.round places = (x.round places).unsigned := by
  have hdigits : x.unsigned.digits = x.digits := rfl
  unfold round
  rw [hdigits]
  split
  · rfl
  · dsimp only
    split
    · split
      · split <;> rfl
      · exact withDigits_unsigned x _
    · exact withDigits_unsigned x _

end Decimal

end ScriptEngine
