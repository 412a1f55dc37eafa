import Mathlib.Algebra.Order.Ring.Nat
import Mathlib.Tactic.Linarith
import Mathlib.Tactic.Ring
import ScriptEngine.Decimal.Literal

/-!
# Values of digits

`Digit.value` is positional (`value_append`), so zeros at the end multiply it by a power of ten and a
carry through nines adds one (`increment_spec`). The digits of a number denote it and start with no zero
(`value_digitsOf`, `head?_digitsOf`), those of its text denote it too (`exists_toString`), and
`Decimal.dropTrailingZeros` takes zeros from the end until there are none (`eq_dropTrailingZeros_append`,
`getLast?_dropTrailingZeros`).
-/

namespace ScriptEngine

namespace Digit

theorem foldl_value (n : Nat) (ds : List Digit) :
    ds.foldl (fun n d => 10 * n + d.val) n = n * 10 ^ ds.length + value ds := by
  induction ds generalizing n with
  | nil => simp [value]
  | cons d ds ih =>
    have hvalue : value (d :: ds) = (10 * 0 + d.val) * 10 ^ ds.length + value ds := ih (10 * 0 + d.val)
    rw [List.foldl_cons, ih, hvalue, List.length_cons]
    ring

theorem value_append (ds es : List Digit) :
    value (ds ++ es) = value ds * 10 ^ es.length + value es := by
  rw [value, List.foldl_append, foldl_value]
  rfl

theorem value_cons (d : Digit) (ds : List Digit) :
    value (d :: ds) = d.val * 10 ^ ds.length + value ds := by
  rw [value, List.foldl_cons, foldl_value, Nat.mul_zero, Nat.zero_add]

theorem value_singleton (d : Digit) : value [d] = d.val :=
  Nat.zero_add d.val

@[simp] theorem value_zeros (n : Nat) : value (List.replicate n 0) = 0 := by
  induction n with
  | zero => rfl
  | succ n ih => rw [List.replicate_succ, value_cons, ih, Fin.val_zero, Nat.zero_mul]

theorem value_lt (ds : List Digit) : value ds < 10 ^ ds.length := by
  induction ds with
  | nil => exact Nat.one_pos
  | cons d ds ih =>
    have hd : d.val ≤ 9 := Nat.le_of_lt_succ d.isLt
    rw [value_cons, List.length_cons, Nat.pow_succ]
    calc d.val * 10 ^ ds.length + value ds
        ≤ 9 * 10 ^ ds.length + value ds := by gcongr
      _ < 10 ^ ds.length * 10 := by omega

/-- Digits that start with no zero denote zero only if there are none. -/
theorem value_eq_zero_iff {ds : List Digit} (h : ds.head? ≠ some 0) : value ds = 0 ↔ ds = [] := by
  constructor
  · intro hv
    cases ds with
    | nil => rfl
    | cons d ds =>
      rw [value_cons, Nat.add_eq_zero_iff, Nat.mul_eq_zero] at hv
      have hd : d.val = 0 := hv.1.resolve_right (Nat.pow_pos (by decide)).ne'
      exact absurd (congrArg some (Fin.ext hd)) h
  · rintro rfl
    rfl

theorem isDigit_toChar : ∀ d : Digit, d.toChar.isDigit = true := by
  decide

theorem ofChar_toChar : ∀ d : Digit, ofChar d.toChar = d := by
  decide

theorem toNat_toChar : ∀ d : Digit, d.toChar.toNat - '0'.toNat = d.val := by
  decide

theorem digitChar_eq_toChar : ∀ d : Digit, Nat.digitChar d.val = d.toChar := by
  decide

/-- A number is written with digits that denote it. -/
theorem exists_toString (n : Nat) :
    ∃ ds : List Digit, (toString n).toList = ds.map toChar ∧ ds ≠ [] ∧ value ds = n := by
  rw [Nat.toString_eq_repr, Nat.toList_repr]
  induction n using Nat.strongRecOn with
  | ind n ih =>
    have hlast (m : Nat) (hm : m < 10) : Nat.digitChar m = toChar ⟨m, hm⟩ := digitChar_eq_toChar ⟨m, hm⟩
    rw [Nat.toDigits_eq_if (by decide)]
    split
    · rename_i hn
      exact ⟨[⟨n, hn⟩], congrArg (fun c => [c]) (hlast n hn), List.cons_ne_nil _ _, value_singleton _⟩
    · rename_i hn
      obtain ⟨ds, hds, -, hvalue⟩ := ih (n / 10) (by omega)
      have hmod : n % 10 < 10 := Nat.mod_lt n (by decide)
      refine ⟨ds ++ [⟨n % 10, hmod⟩], ?_, by simp, ?_⟩
      · rw [hds, hlast _ hmod, List.map_append, List.map_singleton]
      · rw [value_append, hvalue, value_singleton, List.length_singleton, Nat.pow_one]
        exact Nat.div_add_mod' n 10

theorem length_toString_le_iff {n count : Nat} (hc : 0 < count) :
    (toString n).toList.length ≤ count ↔ n < 10 ^ count := by
  rw [Nat.toString_eq_repr, Nat.toList_repr, Nat.length_toDigits_le_iff (by decide) hc]

end Digit

namespace Decimal

open Digit (value value_append value_cons)

theorem eq_dropTrailingZeros_append (ds : List Digit) :
    ∃ n, ds = dropTrailingZeros ds ++ List.replicate n 0 := by
  induction ds with
  | nil => exact ⟨0, rfl⟩
  | cons d ds ih =>
    obtain ⟨n, hn⟩ := ih
    rw [dropTrailingZeros]
    split
    · rename_i hnone
      rw [hnone, List.nil_append] at hn
      split
      · rename_i hd
        exact ⟨n + 1, by rw [hd, List.replicate_succ, List.nil_append, ← hn]⟩
      · exact ⟨n, congrArg (d :: ·) hn⟩
    · exact ⟨n, congrArg (d :: ·) hn⟩

theorem getLast?_dropTrailingZeros (ds : List Digit) :
    (dropTrailingZeros ds).getLast? ≠ some 0 := by
  induction ds with
  | nil => simp [dropTrailingZeros]
  | cons d ds ih =>
    rw [dropTrailingZeros]
    split
    · split
      · simp
      · rename_i hd
        simpa using hd
    · rename_i hsome
      obtain ⟨e, es, he⟩ := List.exists_cons_of_ne_nil (by simpa using hsome)
      rw [he] at ih ⊢
      rwa [List.getLast?_cons_cons]

/-- The first digit stays, unless none does. -/
theorem head?_dropTrailingZeros {ds : List Digit} (h : ds.head? ≠ some 0) :
    (dropTrailingZeros ds).head? ≠ some 0 := by
  obtain ⟨n, hn⟩ := eq_dropTrailingZeros_append ds
  cases hd : dropTrailingZeros ds with
  | nil => simp
  | cons d es =>
    rw [hn, hd] at h
    exact h

theorem length_dropTrailingZeros (ds : List Digit) : (dropTrailingZeros ds).length ≤ ds.length := by
  obtain ⟨n, hn⟩ := eq_dropTrailingZeros_append ds
  have hlength := congrArg List.length hn
  rw [List.length_append] at hlength
  omega

/-! ## Carries -/

/-- What a carry leaves when it stops: a number greater by one in the last place, without zeros at its
end. -/
structure Incremented (ds kept : List Digit) : Prop where
  length_le : kept.length ≤ ds.length
  value_eq : value kept * 10 ^ (ds.length - kept.length) = value ds + 1
  getLast : kept.getLast? ≠ some 0
  head : ds.head? ≠ some 0 → kept.head? ≠ some 0
  ne_nil : kept ≠ []

theorem succ_ne_zero {d : Digit} (h : d ≠ 9) : (d + 1).val = d.val + 1 ∧ d + 1 ≠ 0 := by
  revert d
  decide

/-- A carry runs through all digits only if they are nines; else it stops in front of the nines at the
end. -/
theorem increment_spec (ds : List Digit) :
    match increment ds with
    | none => value ds + 1 = 10 ^ ds.length
    | some kept => Incremented ds kept := by
  induction ds with
  | nil => rfl
  | cons d ds ih =>
    rw [increment]
    cases hi : increment ds with
    | some kept =>
      simp only [hi] at ih ⊢
      obtain ⟨e, es, rfl⟩ := List.exists_cons_of_ne_nil ih.ne_nil
      refine ⟨Nat.succ_le_succ ih.length_le, ?_, ?_, id, List.cons_ne_nil _ _⟩
      · have hlength : (d :: ds).length - (d :: e :: es).length = ds.length - (e :: es).length := by
          simp only [List.length_cons]
          omega
        rw [hlength, value_cons d, value_cons d, Nat.add_mul, ih.value_eq, Nat.mul_assoc, ← Nat.pow_add,
          Nat.add_sub_cancel' ih.length_le]
        rfl
      · rw [List.getLast?_cons_cons]
        exact ih.getLast
    | none =>
      simp only [hi] at ih ⊢
      by_cases hd : d = 9
      · rw [if_pos hd]
        have h9 : d.val = 9 := congrArg Fin.val hd
        show value (d :: ds) + 1 = 10 ^ (d :: ds).length
        rw [value_cons, h9, List.length_cons, Nat.pow_succ]
        omega
      · rw [if_neg hd]
        obtain ⟨hv, hz⟩ := succ_ne_zero hd
        have hhead : some (d + 1) ≠ some 0 := fun h => hz (Option.some.inj h)
        refine ⟨Nat.succ_le_succ (Nat.zero_le _), ?_, hhead, fun _ => hhead, List.cons_ne_nil _ _⟩
        show value [d + 1] * 10 ^ ds.length = value (d :: ds) + 1
        rw [Digit.value_singleton, hv, value_cons, Nat.add_mul]
        omega

variable {ds kept : List Digit}

theorem incremented_of_some (h : increment ds = some kept) : Incremented ds kept := by
  have hspec := increment_spec ds
  rwa [h] at hspec

theorem value_of_increment_none (h : increment ds = none) : value ds + 1 = 10 ^ ds.length := by
  have hspec := increment_spec ds
  rwa [h] at hspec

/-- Enough fuel takes all digits of a number. -/
theorem digitsOnto_eq {fuel n : Nat} (h : n ≤ fuel) (rest : List Digit) :
    ∃ ds, digitsOnto fuel n rest = ds ++ rest ∧ value ds = n ∧ ds.head? ≠ some 0 := by
  induction fuel generalizing n rest with
  | zero => exact ⟨[], rfl, (Nat.le_zero.mp h).symm, by simp⟩
  | succ fuel ih =>
    rw [digitsOnto]
    split
    · rename_i hn
      exact ⟨[], rfl, hn.symm, by simp⟩
    · rename_i hn
      obtain ⟨ds, hds, hv, hhead⟩ := ih (n := n / 10) (by omega) (Fin.ofNat 10 n :: rest)
      have hmod : (Fin.ofNat 10 n).val = n % 10 := rfl
      refine ⟨ds ++ [Fin.ofNat 10 n], by rw [hds, List.append_assoc]; rfl, ?_, ?_⟩
      · rw [value_append, hv, Digit.value_singleton, hmod, List.length_singleton, Nat.pow_one]
        omega
      · cases ds with
        | cons d ds => exact hhead
        | nil =>
          -- The number is below ten, and its one digit is the number itself.
          have hsmall : n / 10 = 0 := hv.symm
          intro hzero
          have hval : n % 10 = 0 := congrArg Fin.val (Option.some.inj hzero)
          omega

theorem value_digitsOf (n : Nat) : value (digitsOf n) = n := by
  obtain ⟨ds, hds, hv, -⟩ := digitsOnto_eq (Nat.le_refl n) []
  rw [digitsOf, hds, List.append_nil, hv]

theorem digitsOf_ne_nil {n : Nat} (h : n ≠ 0) : digitsOf n ≠ [] := by
  intro hnone
  have hvalue := value_digitsOf n
  rw [hnone] at hvalue
  exact h hvalue.symm

theorem head?_digitsOf (n : Nat) : (digitsOf n).head? ≠ some 0 := by
  obtain ⟨ds, hds, -, hhead⟩ := digitsOnto_eq (Nat.le_refl n) []
  rwa [digitsOf, hds, List.append_nil]

/-- What is built from a coefficient is normalized. -/
theorem ofCoefficient_normalized (negative : Bool) (coefficient : Nat) (exponent : Int) :
    (ofCoefficient negative coefficient exponent).Normalized := by
  refine ⟨head?_dropTrailingZeros (head?_digitsOf coefficient), getLast?_dropTrailingZeros _, fun h => ?_⟩
  have hnone : dropTrailingZeros (digitsOf coefficient) = [] := h
  obtain ⟨n, hn⟩ := eq_dropTrailingZeros_append (digitsOf coefficient)
  have hc : coefficient = 0 := by
    rw [← value_digitsOf coefficient, hn, hnone, List.nil_append, Digit.value_zeros]
  exact if_pos hc

end Decimal

end ScriptEngine
