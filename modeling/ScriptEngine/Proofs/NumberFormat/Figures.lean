import ScriptEngine.Proofs.NumberFormat.Fixed
import ScriptEngine.Proofs.Script.Literal

/-!
# Numbers in figures

`Figures` are what a reader finds in the text of a number: a sign, digits before and behind the point, and
an exponent. They denote a number (`Figures.value`), and no text is that of two of them
(`Figures.text_injective`), so the text denotes that number too. The separator may be that of any locale
(`separator_eq`).
-/

namespace ScriptEngine.NumberFormat

/-- The exponent of a number in figures. -/
structure Exponent where
  /-- Whether its mark is a small letter. -/
  lowerCase : Bool
  negative : Bool
  digits : List Digit
  deriving DecidableEq, Repr

/-- A number in figures. -/
structure Figures where
  negative : Bool
  integer : List Digit
  /-- The digits behind the separator, none if there is no separator. -/
  fraction : List Digit
  exponent : Option Exponent
  deriving DecidableEq, Repr

/-- The power of ten that an exponent stands for. -/
def Exponent.power (e : Exponent) : ℤ :=
  if e.negative then -Digit.value e.digits else Digit.value e.digits

namespace Figures

/-- The power of ten by which the digits are multiplied. -/
def power (n : Figures) : ℤ :=
  (n.exponent.map Exponent.power).getD 0

/-- The number without its sign. -/
def magnitude (n : Figures) : ℚ :=
  Digit.value (n.integer ++ n.fraction) * 10 ^ (n.power - n.fraction.length)

/-- The number that figures denote. -/
def value (n : Figures) : ℚ :=
  if n.negative then -n.magnitude else n.magnitude

/-- Figures that show a rounded number have the sign of the double, which does not matter for zero. -/
theorem value_eq {n : Figures} {rounded : Decimal} {x : Float}
    (hs : rounded.negative = true ↔ x < 0 ∧ rounded.magnitude ≠ 0)
    (hn : n.negative = rounded.negative) (hm : n.magnitude = rounded.magnitude) :
    n.value = if x < 0 then -rounded.magnitude else rounded.magnitude := by
  rw [value, hn, hm]
  by_cases hzero : rounded.magnitude = 0
  · simp [hzero]
  · simp [hs, hzero]

end Figures

/-! ## Texts -/

/-- The text of an exponent. Its sign is always written. -/
def Exponent.text (e : Exponent) : List Char :=
  (if e.lowerCase then 'e' else 'E') :: (if e.negative then '-' else '+') :: e.digits.map Digit.toChar

namespace Figures

/-- The text of the exponent, if there is one. -/
def exponentChars (n : Figures) : List Char :=
  (n.exponent.map Exponent.text).getD []

/-- The text of the fraction and its separator, if there is one. -/
def fractionChars (separator : Char) (n : Figures) : List Char :=
  if n.fraction = [] then [] else separator :: n.fraction.map Digit.toChar

/-- The text of a number in figures. -/
def text (separator : Char) (n : Figures) : List Char :=
  (if n.negative then ['-'] else []) ++
    (n.integer.map Digit.toChar ++ (n.fractionChars separator ++ n.exponentChars))

/-- The same text with the digits before the point in groups. -/
def groupedText (groupSeparator : List Char) (separator : Char) (n : Figures) : List Char :=
  (if n.negative then ['-'] else []) ++
    (groupInteger groupSeparator (n.integer.map Digit.toChar) ++
      (n.fractionChars separator ++ n.exponentChars))

theorem groupedText_nil (separator : Char) (n : Figures) : n.groupedText [] separator = n.text separator := by
  rw [groupedText, groupInteger_nil, text]

theorem fractionChars_digitsAt (separator : Char) {n : Figures} {x : Decimal} {position : Int}
    {count : Nat} (h : n.fraction = x.digitsAt position count) :
    n.fractionChars separator = if count = 0 then [] else separator :: x.digitRun position count := by
  have hnil : x.digitsAt position count = [] ↔ count = 0 := by
    rw [← List.length_eq_zero_iff, Decimal.length_digitsAt]
  rw [fractionChars, h, Decimal.digitRun_eq_map]
  exact if_congr hnil rfl rfl

/-- What may divide the integer from the fraction. -/
def IsSeparator (c : Char) : Prop :=
  c = '.' ∨ c = ','

variable {separator : Char} {n m : Figures}

/-- Digits end where something else begins. -/
theorem digits_injective {ds es : List Digit} {rest rest' : List Char}
    (hr : ∀ c ∈ rest.head?, c.isDigit = false) (hr' : ∀ c ∈ rest'.head?, c.isDigit = false)
    (h : ds.map Digit.toChar ++ rest = es.map Digit.toChar ++ rest') : ds = es ∧ rest = rest' := by
  have hrun := congrArg Digit.run h
  rwa [Digit.run_map ds hr, Digit.run_map es hr', Prod.mk.injEq] at hrun

theorem head?_exponentChars (n : Figures) : ∀ c ∈ n.exponentChars.head?, c = 'e' ∨ c = 'E' := by
  unfold exponentChars
  cases n.exponent with
  | none => simp
  | some e => cases hl : e.lowerCase <;> simp [Exponent.text, hl]

theorem exponentChars_injective (h : n.exponentChars = m.exponentChars) : n.exponent = m.exponent := by
  have hdigits : Function.Injective Digit.toChar := Function.LeftInverse.injective Digit.ofChar_toChar
  unfold exponentChars at h
  cases hn : n.exponent with
  | none => cases hm : m.exponent <;> simp_all [Exponent.text]
  | some e =>
    cases hm : m.exponent with
    | none => simp_all [Exponent.text]
    | some f =>
      obtain ⟨lowerCase, negative, digits⟩ := e
      obtain ⟨lowerCase', negative', digits'⟩ := f
      simp only [hn, hm, Option.map_some, Option.getD_some, Exponent.text, List.cons.injEq,
        List.map_inj_right fun _ _ heq => hdigits heq] at h
      obtain ⟨hmark, hsign, rfl⟩ := h
      cases lowerCase <;> cases lowerCase' <;> cases negative <;> cases negative' <;> simp_all

theorem head?_fractionChars (n : Figures) :
    ∀ c ∈ (n.fractionChars separator ++ n.exponentChars).head?, c = separator ∨ c = 'e' ∨ c = 'E' := by
  unfold fractionChars
  split
  · exact fun c hc => .inr (n.head?_exponentChars c hc)
  · simp

/-- The separator tells a fraction from an exponent, and digits end at anything else. -/
theorem fractionChars_injective (hs : IsSeparator separator)
    (h : n.fractionChars separator ++ n.exponentChars = m.fractionChars separator ++ m.exponentChars) :
    n.fraction = m.fraction ∧ n.exponent = m.exponent := by
  have hmark : ∀ (n : Figures), ∀ c ∈ n.exponentChars.head?, c.isDigit = false ∧ c ≠ separator := by
    intro n c hc
    rcases hs with rfl | rfl <;> rcases n.head?_exponentChars c hc with rfl | rfl <;> decide
  unfold fractionChars at h
  split at h <;> rename_i hn
  · split at h <;> rename_i hm
    · exact ⟨hn.trans hm.symm, exponentChars_injective h⟩
    · exact absurd rfl (hmark n separator (by rw [List.nil_append] at h; rw [h]; rfl)).2
  · split at h <;> rename_i hm
    · exact absurd rfl (hmark m separator (by rw [List.nil_append] at h; rw [← h]; rfl)).2
    · obtain ⟨hfraction, hexponent⟩ := digits_injective (fun c hc => (hmark n c hc).1)
        (fun c hc => (hmark m c hc).1) (List.cons.inj h).2
      exact ⟨hfraction, exponentChars_injective hexponent⟩

/-- No text is that of two numbers in figures. -/
theorem text_injective (hs : IsSeparator separator) (h : n.text separator = m.text separator) : n = m := by
  have hrest : ∀ (n : Figures), ∀ c ∈ (n.fractionChars separator ++ n.exponentChars).head?,
      c.isDigit = false ∧ c ≠ '-' := by
    intro n c hc
    rcases n.head?_fractionChars c hc with rfl | rfl | rfl
    · rcases hs with rfl | rfl <;> decide
    · decide
    · decide
  -- Only a sign begins with a minus.
  have hfirst : ∀ (n : Figures), ∀ c ∈ (n.integer.map Digit.toChar ++
      (n.fractionChars separator ++ n.exponentChars)).head?, c ≠ '-' := by
    intro n c hc
    cases hi : n.integer with
    | nil =>
      rw [hi, List.map_nil, List.nil_append] at hc
      exact (hrest n c hc).2
    | cons d ds =>
      rw [hi, List.map_cons, List.cons_append, List.head?_cons, Option.mem_some_iff] at hc
      rintro rfl
      have hdigit := Digit.isDigit_toChar d
      rw [hc] at hdigit
      exact absurd hdigit (by decide)
  have hbody : n.negative = m.negative ∧
      n.integer.map Digit.toChar ++ (n.fractionChars separator ++ n.exponentChars) =
        m.integer.map Digit.toChar ++ (m.fractionChars separator ++ m.exponentChars) := by
    unfold text at h
    split at h <;> rename_i hn <;> split at h <;> rename_i hm
    · exact ⟨hn.trans hm.symm, (List.cons.inj h).2⟩
    · exact absurd rfl (hfirst m '-' (by rw [List.nil_append] at h; rw [← h]; rfl))
    · exact absurd rfl (hfirst n '-' (by rw [List.nil_append] at h; rw [h]; rfl))
    · exact ⟨by simp_all, h⟩
  obtain ⟨hinteger, htail⟩ :=
    digits_injective (fun c hc => (hrest n c hc).1) (fun c hc => (hrest m c hc).1) hbody.2
  obtain ⟨hfraction, hexponent⟩ := fractionChars_injective hs htail
  cases n
  cases m
  simp_all

end Figures

/-- Every locale has a separator that cannot be taken for anything else in a number. -/
theorem separator_eq {name : String} {locale : Locale} (h : Locale.find? name = some locale) :
    ∃ separator, Figures.IsSeparator separator ∧ locale.decimalSeparator.toList = [separator] := by
  have hlocale : locale.decimalSeparator = "." ∨ locale.decimalSeparator = "," := by
    unfold Locale.find? at h
    split at h <;> cases h <;> decide
  rcases hlocale with hpoint | hcomma
  · exact ⟨'.', .inl rfl, by rw [hpoint]; rfl⟩
  · exact ⟨',', .inr rfl, by rw [hcomma]; rfl⟩

end ScriptEngine.NumberFormat
