import ScriptEngine.NumberFormat.Custom
import ScriptEngine.Proofs.Decimal.Positions

/-!
# What placeholders show

`Display.digit?` decides at each position whether a digit is shown there. `Display.digit?_eq` says that
the positions which show one lie next to each other, from `Display.highest` down to the last decimal, so
that the texts at successive placeholders (`Display.run`) are runs of digits of the number:

* `Display.overflow_append_run`: before the point these are all digits, in groups if the section groups
  them, whether they have a placeholder of their own or not;
* `Display.run_fraction`, `Display.run_decimals`: behind the point they are the decimals, without groups,
  as many as are shown.
-/

namespace ScriptEngine

namespace NumberFormat

theorem groupInteger_nil (digits : List Char) : groupInteger [] digits = digits := by
  induction digits with
  | nil => rfl
  | cons first rest ih => simp [groupInteger, ih]

namespace Display

variable (d : Display)

/-- The text at a number of positions from `position` downwards. -/
def run (position : Int) (count : Nat) : List Char :=
  (List.range count).flatMap fun (i : Nat) => d.place (position - i)

theorem run_succ (position : Int) (count : Nat) :
    d.run position (count + 1) = d.place position ++ d.run (position - 1) count := by
  simp only [run, List.range_succ_eq_map, List.flatMap_cons, List.flatMap_map, Int.natCast_zero,
    Int.sub_zero]
  congr 2
  funext i
  congr 1
  omega

theorem run_add (position : Int) (count more : Nat) :
    d.run position (count + more) = d.run position count ++ d.run (position - count) more := by
  induction count generalizing position with
  | zero => simp [run]
  | succ count ih =>
    rw [Nat.succ_add, run_succ, run_succ, ih, List.append_assoc]
    congr 3
    omega

/-- The highest position that shows a digit. -/
def highest : Int :=
  max d.number.scale d.leastInteger

/-- Number of positions behind the point that show a digit. -/
def fractionDigits : Nat :=
  max d.leastFraction d.number.fractionLength

/-- The positions that show a digit lie next to each other, and show that of the number. -/
theorem digit?_eq (position : Int) :
    d.digit? position =
      if -(d.fractionDigits : Int) < position ∧ position ≤ d.highest then
        some (d.number.digit position)
      else none := by
  have hf : (d.fractionDigits : Int) =
      max (d.leastFraction : Int) (max (d.number.digits.length - d.number.scale) 0) := by
    simp only [fractionDigits, Decimal.fractionLength]
    omega
  unfold digit? highest
  rw [hf]
  split
  · rename_i hs
    rw [Decimal.digit_of_scale_lt hs]
    split
    · rw [if_pos (by omega)]
    · rw [if_neg (by omega)]
  · split
    · rw [if_pos (by omega)]
    · rename_i hs hl
      rw [Decimal.digit_of_length_le (by omega)]
      split
      · rw [if_pos (by omega)]
      · rw [if_neg (by omega)]

theorem place_above {position : Int} (h : d.highest < position) : d.place position = [] := by
  rw [place, digit?_eq, if_neg (by omega)]

theorem place_shown {position : Int} (hf : -(d.fractionDigits : Int) < position)
    (hh : position ≤ d.highest) :
    d.place position = (d.number.digit position).toChar ::
      if 1 < position ∧ (position - 1) % groupSize = 0 then d.separator else [] := by
  rw [place, digit?_eq, if_pos ⟨hf, hh⟩]

/-- Digits before the point are grouped. -/
theorem run_grouped {count : Nat} (h : (count : Int) ≤ d.highest) :
    d.run count count = groupInteger d.separator (d.number.digitRun count count) := by
  induction count with
  | zero => rfl
  | succ count ih =>
    have hc : ((count + 1 : Nat) : Int) - 1 = count := by omega
    rw [run_succ, place_shown d (by omega) h, Decimal.digitRun_succ, hc, ih (by omega)]
    have he : (d.number.digitRun count count).isEmpty = decide (count = 0) := by
      rw [Bool.eq_iff_iff, List.isEmpty_iff_length_eq_zero, Decimal.length_digitRun,
        decide_eq_true_iff]
    have hg : (1 < ((count + 1 : Nat) : Int) ∧ (count : Int) % (groupSize : Nat) = 0) ↔
        (decide (count % groupSize = 0) && !decide (count = 0)) = true := by
      simp only [Bool.and_eq_true, decide_eq_true_iff, Bool.not_eq_true', decide_eq_false_iff_not]
      omega
    simp only [groupInteger, Decimal.length_digitRun, he, hg]
    split <;> rfl

/-- All digits before the point, with as many positions for them as it takes. -/
theorem run_integer {count : Nat} (h : d.highest ≤ count) :
    d.run count count = groupInteger d.separator (d.number.digitRun d.highest d.highest.toNat) := by
  induction count with
  | zero =>
    rw [show d.highest.toNat = 0 by omega]
    rfl
  | succ count ih =>
    by_cases hc : d.highest ≤ count
    · have hn : ((count + 1 : Nat) : Int) - 1 = count := by omega
      rw [run_succ, place_above d (by omega), hn, ih hc, List.nil_append]
    · have hh : d.highest = (count + 1 : Nat) := by omega
      rw [hh, Int.toNat_natCast]
      exact run_grouped d (by omega)

/-- The digits in front of the first placeholder and those at the placeholders before the point are all
digits before the point. -/
theorem overflow_append_run (h : d.leastInteger ≤ d.integerPlaces) :
    d.overflow ++ d.run d.integerPlaces d.integerPlaces =
      groupInteger d.separator (d.number.digitRun d.highest d.highest.toNat) := by
  have ho : d.overflow = d.run d.number.scale (d.number.scale - d.integerPlaces).toNat := rfl
  rw [ho]
  by_cases hs : d.number.scale ≤ d.integerPlaces
  · rw [show (d.number.scale - d.integerPlaces).toNat = 0 by omega]
    exact run_integer d (by unfold highest; omega)
  · obtain ⟨extra, he⟩ : ∃ extra : Nat, d.number.scale = (extra + d.integerPlaces : Nat) :=
      ⟨(d.number.scale - d.integerPlaces).toNat, by omega⟩
    have hh : d.highest ≤ (extra + d.integerPlaces : Nat) := by unfold highest; omega
    rw [← run_integer d hh, run_add, he]
    congr 2 <;> omega

/-- Behind the point digits are not grouped. -/
theorem run_fraction {position : Int} {count : Nat} (hp : position ≤ 0)
    (hf : count ≤ position + d.fractionDigits) :
    d.run position count = d.number.digitRun position count := by
  induction count generalizing position with
  | zero => rfl
  | succ count ih =>
    have hg : ¬ (1 < position ∧ (position - 1) % groupSize = 0) := by omega
    rw [run_succ, Decimal.digitRun_succ, place_shown d (by omega) (by unfold highest; omega), if_neg hg,
      ih (by omega) (by omega)]
    rfl

theorem run_below {position : Int} (h : position ≤ -(d.fractionDigits : Int)) (count : Nat) :
    d.run position count = [] := by
  induction count generalizing position with
  | zero => rfl
  | succ count ih =>
    have hnone : d.place position = [] := by
      rw [place, digit?_eq, if_neg (by omega)]
    rw [run_succ, hnone, ih (by omega), List.nil_append]

/-- Placeholders behind the last decimal show nothing. -/
theorem run_decimals {count : Nat} (h : d.fractionDigits ≤ count) :
    d.run 0 count = d.number.digitRun 0 d.fractionDigits := by
  obtain ⟨more, rfl⟩ := Nat.exists_eq_add_of_le h
  rw [run_add, run_fraction d (Int.le_refl 0) (by omega), run_below d (by omega), List.append_nil]

end Display

end NumberFormat

end ScriptEngine
