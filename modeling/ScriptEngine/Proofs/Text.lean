import Mathlib.Data.List.DropRight
import Mathlib.Data.List.Forall2
import Mathlib.Data.List.TakeWhile
import ScriptEngine.Text.Blank

/-!
# Laws of texts

Folding the case of names (`Text.lower`) identifies exactly those names that have the same letters,
capital or small (`lower_eq_iff`); capitals identify the same characters as small letters do
(`toUpper_eq_iff`). Trimming a text leaves nothing exactly if the text has no character but blanks
(`isEmpty_trim`), and what it leaves can be trimmed no further (`trim_trim`). Blank texts at the ends of
others do not matter (`trimChars_blank_append`, `trimChars_append_blank`), and what stands between texts
that are not blank is kept (`trimChars_between`).
-/

namespace ScriptEngine.Text

/-- Two characters are equal, or one is a capital letter of ASCII and the other is its small letter. -/
def SameLetter (c d : Char) : Prop :=
  c = d ∨ ∃ i < 26, (c.toNat = 'A'.toNat + i ∧ d.toNat = 'a'.toNat + i) ∨
    (c.toNat = 'a'.toNat + i ∧ d.toNat = 'A'.toNat + i)

/-- Two names have the same letters one by one, capital or small. -/
def SameName (name other : String) : Prop :=
  List.Forall₂ SameLetter name.toList other.toList

theorem toNat_toLower (c : Char) :
    c.toLower.toNat = if 65 ≤ c.toNat ∧ c.toNat ≤ 90 then c.toNat + 32 else c.toNat := by
  by_cases h : c.val ≥ 'A'.val ∧ c.val ≤ 'Z'.val
  · have hn : 65 ≤ c.toNat ∧ c.toNat ≤ 90 := h
    have hlower : c.toLower.val = c.val + 32 := congrArg Char.val (dif_pos h)
    have hle : c.val.toNat ≤ 90 := hn.2
    rw [if_pos hn, Char.toNat, Char.toNat, hlower, UInt32.toNat_add]
    exact Nat.mod_eq_of_lt (by simp only [UInt32.reduceToNat]; omega)
  · have hn : ¬ (65 ≤ c.toNat ∧ c.toNat ≤ 90) := h
    have hlower : c.toLower = c := dif_neg h
    rw [if_neg hn, hlower]

theorem toNat_toUpper (c : Char) :
    c.toUpper.toNat = if 97 ≤ c.toNat ∧ c.toNat ≤ 122 then c.toNat - 32 else c.toNat := by
  by_cases h : 'a'.val ≤ c.val ∧ c.val ≤ 'z'.val
  · have hn : 97 ≤ c.toNat ∧ c.toNat ≤ 122 := h
    have hchar : c.toUpper = _ := dif_pos h
    have hupper : c.toUpper.val = c.val + ('A'.val - 'a'.val) := by rw [hchar]
    have hbounds : 97 ≤ c.val.toNat ∧ c.val.toNat ≤ 122 := hn
    have hshift : ('A'.val - 'a'.val).toNat = 4294967264 := by decide +kernel
    rw [if_pos hn, Char.toNat, Char.toNat, hupper, UInt32.toNat_add, hshift]
    omega
  · have hn : ¬ (97 ≤ c.toNat ∧ c.toNat ≤ 122) := h
    have hupper : c.toUpper = c := dif_neg h
    rw [if_neg hn, hupper]

theorem toLower_toLower (c : Char) : c.toLower.toLower = c.toLower := by
  rw [← Char.toNat_inj, toNat_toLower, toNat_toLower]
  grind

theorem toLower_eq_iff {c d : Char} : c.toLower = d.toLower ↔ SameLetter c d := by
  rw [← Char.toNat_inj, toNat_toLower, toNat_toLower, SameLetter, ← Char.toNat_inj]
  show _ ↔ _ ∨ ∃ i < 26, (c.toNat = 65 + i ∧ d.toNat = 97 + i) ∨ (c.toNat = 97 + i ∧ d.toNat = 65 + i)
  constructor
  · intro h
    by_cases he : c.toNat = d.toNat
    · exact .inl he
    · -- One of the two is a capital letter; its place in the alphabet is the one that is looked for.
      refine .inr ⟨min c.toNat d.toNat - 65, ?_⟩
      split at h <;> split at h <;> omega
  · rintro (he | ⟨i, hi, h⟩)
    · rw [he]
    · split <;> split <;> omega

theorem toUpper_eq_iff {c d : Char} : c.toUpper = d.toUpper ↔ SameLetter c d := by
  rw [← toLower_eq_iff, ← Char.toNat_inj, ← Char.toNat_inj, toNat_toUpper, toNat_toUpper, toNat_toLower,
    toNat_toLower]
  grind

theorem lower_eq_iff {name other : String} : lower name = lower other ↔ SameName name other := by
  simp only [lower, String.ofList_inj, SameName]
  rw [← List.forall₂_eq_eq_eq, List.forall₂_map_left_iff, List.forall₂_map_right_iff]
  simp only [toLower_eq_iff]

@[simp] theorem lower_lower (name : String) : lower (lower name) = lower name := by
  rw [lower, lower, String.toList_ofList, List.map_map]
  exact congrArg String.ofList (List.map_congr_left fun c _ => toLower_toLower c)

/-- A name that is written in small letters. -/
theorem sameName_iff_of_lower {name : String} (h : lower name = name) (text : String) :
    SameName text name ↔ lower text = name := by
  rw [← lower_eq_iff, h]

/-! ## Blanks -/

theorem trimRight_eq_nil_iff {cs : List Char} : trimRight cs = [] ↔ ∀ c ∈ cs, isBlank c = true := by
  simp [trimRight, List.dropWhile_eq_nil_iff]

/-- What is left when the blanks in front are removed begins with something else. -/
theorem isBlank_of_dropWhile {cs rest : List Char} {c : Char} (h : cs.dropWhile isBlank = c :: rest) :
    isBlank c = false := by
  have hc := List.head?_dropWhile_not isBlank cs
  rw [h] at hc
  simpa using hc

theorem trimChars_eq_nil_iff {cs : List Char} : trimChars cs = [] ↔ ∀ c ∈ cs, isBlank c = true := by
  rw [trimChars, trimRight_eq_nil_iff]
  constructor
  · intro h
    refine List.dropWhile_eq_nil_iff.mp ?_
    cases hd : cs.dropWhile isBlank with
    | nil => rfl
    | cons c rest =>
      have hc := h c (by rw [hd]; exact List.mem_cons_self ..)
      rw [isBlank_of_dropWhile hd] at hc
      cases hc
  · exact fun h c hc => h c (List.dropWhile_subset _ hc)

theorem isEmpty_trim {text : String} :
    (trim text).isEmpty = true ↔ ∀ c ∈ text.toList, isBlank c = true := by
  rw [trim, ← trimChars_eq_nil_iff, String.isEmpty_iff, String.ofList_eq_empty_iff]

theorem trimRight_cons {c : Char} (h : isBlank c = false) (rest : List Char) :
    trimRight (c :: rest) = c :: trimRight rest := by
  rw [trimRight, List.reverse_cons, List.dropWhile_append]
  split
  · rename_i hb
    rw [List.dropWhile_cons_of_neg (by rw [h]; decide), trimRight, List.isEmpty_iff.mp hb]
    rfl
  · rw [List.reverse_append]
    rfl

theorem trimChars_trimChars (cs : List Char) : trimChars (trimChars cs) = trimChars cs := by
  rw [trimChars, trimChars]
  cases hd : cs.dropWhile isBlank with
  | nil => rfl
  | cons c rest =>
    have hc := isBlank_of_dropWhile hd
    rw [trimRight_cons hc, List.dropWhile_cons_of_neg (by rw [hc]; decide), trimRight_cons hc]
    exact congrArg (c :: ·) (List.rdropWhile_idempotent ..)

theorem isBlankText_eq_true_iff {text : String} :
    isBlankText text = true ↔ ∀ c ∈ text.toList, isBlank c = true :=
  List.all_eq_true

theorem trimRight_append_blank {back : List Char} (h : ∀ c ∈ back, isBlank c = true) (cs : List Char) :
    trimRight (cs ++ back) = trimRight cs := by
  rw [trimRight, List.reverse_append,
    List.dropWhile_append_of_pos fun c hc => h c (List.mem_reverse.mp hc), trimRight]

theorem trimChars_blank_append {front : List Char} (h : ∀ c ∈ front, isBlank c = true) (cs : List Char) :
    trimChars (front ++ cs) = trimChars cs := by
  rw [trimChars, List.dropWhile_append_of_pos h, trimChars]

theorem trimChars_append_blank {back : List Char} (h : ∀ c ∈ back, isBlank c = true) (cs : List Char) :
    trimChars (cs ++ back) = trimChars cs := by
  rw [trimChars, List.dropWhile_append]
  split
  · rename_i hb
    rw [List.dropWhile_eq_nil_iff.mpr h, trimChars, List.isEmpty_iff.mp hb]
  · rw [trimRight_append_blank h, trimChars]

/-- Trimming reaches no further than the first and the last text that are not blank. -/
theorem trimChars_between {front back : List Char} (hf : ¬ ∀ c ∈ front, isBlank c = true)
    (hb : ¬ ∀ c ∈ back, isBlank c = true) (cs : List Char) :
    trimChars (front ++ (cs ++ back)) = front.dropWhile isBlank ++ (cs ++ trimRight back) := by
  have hfront : ¬ (front.dropWhile isBlank).isEmpty = true := by
    rwa [List.isEmpty_iff, List.dropWhile_eq_nil_iff]
  have hback : ¬ (back.reverse.dropWhile isBlank).isEmpty = true := by
    rw [List.isEmpty_iff, List.dropWhile_eq_nil_iff]
    exact fun h => hb fun c hc => h c (List.mem_reverse.mpr hc)
  rw [trimChars, List.dropWhile_append, if_neg hfront, ← List.append_assoc, trimRight, List.reverse_append,
    List.dropWhile_append, if_neg hback, List.reverse_append, List.reverse_reverse, List.append_assoc,
    trimRight]

@[simp] theorem trim_trim (text : String) : trim (trim text) = trim text := by
  rw [trim, trim, String.toList_ofList, trimChars_trimChars]

end ScriptEngine.Text
