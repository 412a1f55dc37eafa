/-!
# The order of texts by their bytes

Texts are ordered by their characters. This is the order of their bytes in UTF-8 (`lt_iff_bytes_lt`): a
character with a larger number has bytes that are larger from the first one in which they differ
(`utf8EncodeChar_append_lt`), since the bytes hold the digits of the number to the base 64 (`digits_lt`) and
a longer row of bytes begins with a larger one.
-/

namespace ScriptEngine.Text

/-- The bytes of a text in UTF-8. -/
def bytes (s : String) : List UInt8 :=
  s.toUTF8.data.toList

theorem bytes_eq (s : String) : bytes s = s.toList.flatMap String.utf8EncodeChar := by
  rw [bytes, String.toUTF8_eq_toByteArray, ← String.utf8Encode_toList, List.utf8Encode, List.data_toByteArray]

/-- Of two numbers the digits in front decide, or else the last one. -/
theorem div_mod_lt {v w : Nat} (h : v < w) (base : Nat) :
    v / base < w / base ∨ v / base = w / base ∧ v % base < w % base := by
  have hle : v / base ≤ w / base := Nat.div_le_div_right (Nat.le_of_lt h)
  rcases Nat.lt_or_eq_of_le hle with hlt | heq
  · exact .inl hlt
  · refine .inr ⟨heq, ?_⟩
    have hv := Nat.div_add_mod v base
    have hw := Nat.div_add_mod w base
    rw [heq] at hv
    omega

/-- The comparison of two numbers by their digits to the base 64. -/
theorem digits_lt {v w : Nat} (h : v < w) :
    v / 262144 < w / 262144 ∨ v / 262144 = w / 262144 ∧
      (v / 4096 % 64 < w / 4096 % 64 ∨ v / 4096 % 64 = w / 4096 % 64 ∧
        (v / 64 % 64 < w / 64 % 64 ∨ v / 64 % 64 = w / 64 % 64 ∧ v % 64 < w % 64)) := by
  have hsecond (n : Nat) : n / 4096 = n / 64 / 64 := by rw [Nat.div_div_eq_div_mul]
  have hfirst (n : Nat) : n / 262144 = n / 4096 / 64 := by rw [Nat.div_div_eq_div_mul]
  rw [hfirst v, hfirst w, hsecond v, hsecond w]
  rcases div_mod_lt h 64 with h | ⟨heq, hlast⟩
  · rcases div_mod_lt h 64 with h | ⟨heq, hlast⟩
    · rcases div_mod_lt h 64 with h | ⟨heq, hlast⟩
      · exact .inl h
      · exact .inr ⟨heq, .inl hlast⟩
    · rw [heq]
      exact .inr ⟨rfl, .inr ⟨rfl, .inl hlast⟩⟩
  · rw [heq]
    exact .inr ⟨rfl, .inr ⟨rfl, .inr ⟨rfl, hlast⟩⟩⟩

/-! ## Characters -/

/-- One to four bytes, by the size of the number of the character. -/
theorem utf8EncodeChar_cases (c : Char) :
    let v := c.val.toNat
    (v ≤ 127 ∧ String.utf8EncodeChar c = [UInt8.ofNat v]) ∨
    (127 < v ∧ v ≤ 2047 ∧
      String.utf8EncodeChar c = [UInt8.ofNat (v / 64 + 192), UInt8.ofNat (v % 64 + 128)]) ∨
    (2047 < v ∧ v ≤ 65535 ∧ String.utf8EncodeChar c =
      [UInt8.ofNat (v / 4096 + 224), UInt8.ofNat (v / 64 % 64 + 128), UInt8.ofNat (v % 64 + 128)]) ∨
    (65535 < v ∧ v < 1114112 ∧ String.utf8EncodeChar c =
      [UInt8.ofNat (v / 262144 + 240), UInt8.ofNat (v / 4096 % 64 + 128), UInt8.ofNat (v / 64 % 64 + 128),
        UInt8.ofNat (v % 64 + 128)]) := by
  intro v
  have hmax : v < 1114112 := by
    rcases c.valid with hv | hv
    · exact Nat.lt_trans hv (by decide)
    · exact hv.2
  have hcode : String.utf8EncodeChar c = if v ≤ 127 then [UInt8.ofNat v]
      else if v ≤ 2047 then [UInt8.ofNat (v / 64 % 32 + 192), UInt8.ofNat (v % 64 + 128)]
      else if v ≤ 65535 then
        [UInt8.ofNat (v / 4096 % 16 + 224), UInt8.ofNat (v / 64 % 64 + 128), UInt8.ofNat (v % 64 + 128)]
      else [UInt8.ofNat (v / 262144 % 8 + 240), UInt8.ofNat (v / 4096 % 64 + 128),
        UInt8.ofNat (v / 64 % 64 + 128), UInt8.ofNat (v % 64 + 128)] := rfl
  rw [hcode]
  by_cases h₁ : v ≤ 127
  · exact .inl ⟨h₁, if_pos h₁⟩
  by_cases h₂ : v ≤ 2047
  · have hfirst : v / 64 % 32 = v / 64 := Nat.mod_eq_of_lt (by omega)
    rw [if_neg h₁, if_pos h₂, hfirst]
    exact .inr (.inl ⟨by omega, h₂, rfl⟩)
  by_cases h₃ : v ≤ 65535
  · have hfirst : v / 4096 % 16 = v / 4096 := Nat.mod_eq_of_lt (by omega)
    rw [if_neg h₁, if_neg h₂, if_pos h₃, hfirst]
    exact .inr (.inr (.inl ⟨by omega, h₃, rfl⟩))
  · have hfirst : v / 262144 % 8 = v / 262144 := Nat.mod_eq_of_lt (by omega)
    rw [if_neg h₁, if_neg h₂, if_neg h₃, hfirst]
    exact .inr (.inr (.inr ⟨by omega, hmax, rfl⟩))

/-- A byte decides, or else those behind it. -/
theorem byte_cons_lt {a b : Nat} {xs ys : List UInt8} (ha : a < 256) (hb : b < 256) :
    UInt8.ofNat a :: xs < UInt8.ofNat b :: ys ↔ a < b ∨ a = b ∧ xs < ys := by
  rw [List.cons_lt_cons_iff, UInt8.lt_iff_toNat_lt, ← UInt8.toNat_inj, UInt8.toNat_ofNat_of_lt' ha,
    UInt8.toNat_ofNat_of_lt' hb]

/-- The bytes of different characters decide, whatever follows. -/
theorem utf8EncodeChar_append_lt {c d : Char} (h : c < d) (xs ys : List UInt8) :
    String.utf8EncodeChar c ++ xs < String.utf8EncodeChar d ++ ys := by
  have hlt : c.val.toNat < d.val.toNat := h
  have hdigits := digits_lt hlt
  rcases utf8EncodeChar_cases c with ⟨_, hc⟩ | ⟨_, _, hc⟩ | ⟨_, _, hc⟩ | ⟨_, _, hc⟩ <;>
    rcases utf8EncodeChar_cases d with ⟨_, hd⟩ | ⟨_, _, hd⟩ | ⟨_, _, hd⟩ | ⟨_, _, hd⟩ <;>
    rw [hc, hd] <;>
    simp (disch := omega) only [List.cons_append, List.nil_append, byte_cons_lt] <;>
    omega

theorem bytes_lt_of_lt {cs ds : List Char} (h : cs < ds) :
    cs.flatMap String.utf8EncodeChar < ds.flatMap String.utf8EncodeChar := by
  induction cs generalizing ds with
  | nil =>
    cases ds with
    | nil => exact absurd h (List.lt_irrefl _)
    | cons d ds =>
      have hne : String.utf8EncodeChar d ≠ [] := String.utf8EncodeChar_ne_nil
      obtain ⟨b, bs, hd⟩ := List.exists_cons_of_ne_nil hne
      rw [List.flatMap_cons, hd]
      exact List.nil_lt_cons _ _
  | cons c cs ih =>
    cases ds with
    | nil => exact absurd h (List.not_lt_nil _)
    | cons d ds =>
      rw [List.flatMap_cons, List.flatMap_cons]
      rcases List.cons_lt_cons_iff.mp h with hlt | ⟨rfl, hlt⟩
      · exact utf8EncodeChar_append_lt hlt _ _
      · exact List.append_left_lt (ih hlt)

/-- Texts are ordered like their bytes. -/
theorem lt_iff_bytes_lt {s t : String} : s < t ↔ bytes s < bytes t := by
  have himp {s t : String} (h : s < t) : bytes s < bytes t := by
    rw [bytes_eq, bytes_eq]
    exact bytes_lt_of_lt (String.lt_iff.mp h)
  refine ⟨himp, fun h => Classical.not_not.mp fun hn => ?_⟩
  by_cases heq : s = t
  · rw [heq] at h
    exact List.lt_irrefl _ h
  · have hlt : t < s := Classical.not_not.mp fun hn' => heq (String.le_antisymm hn' hn)
    exact List.lt_asymm h (himp hlt)

end ScriptEngine.Text
