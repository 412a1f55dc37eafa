import ScriptEngine.Fault
import ScriptEngine.Proofs.NumberFormat.Scanning
import ScriptEngine.Proofs.Text

/-!
# Which formats are accepted

A locale is known by its name (`Locale.IsKnown`). A format is empty, a letter with at most two digits, or a
pattern (`IsFormat`), and a pattern is a text with its literals closed and at most two dividers outside of
them (`Pattern.Closed`).

* `Pattern.Divided.closed`, `Pattern.Closed.divided`: to count the dividers from left to right is to count
  the sections;
* `Pattern.parse_ok_iff`, `Standard.ofLetter?_isSome_iff`, `Locale.find?_isSome_iff`: what the readers of
  patterns, letters and locales accept;
* `parse_ok_iff`: what the reader of formats accepts;
* `acceptance_depends_on_format_and_locale`: the number is looked at only after that, so it decides nothing.
-/

namespace ScriptEngine

namespace NumberFormat.Pattern

/-- A text, read from left to right, in which every quote is closed by the same quote and no backslash
stands at the end, and the number of its dividers outside of quotes and escapes. -/
inductive Closed : List Char → Nat → Prop
  | nil : Closed [] 0
  | char {c : Char} {rest : List Char} {dividers : Nat} (plain : ¬ IsOpening c) (undivided : c ≠ ';')
      (later : Closed rest dividers) : Closed (c :: rest) dividers
  | divider {rest : List Char} {dividers : Nat} (later : Closed rest dividers) :
      Closed (';' :: rest) (dividers + 1)
  | escaped {c : Char} {rest : List Char} {dividers : Nat} (later : Closed rest dividers) :
      Closed ('\\' :: c :: rest) dividers
  | quoted {quote : Char} {text rest : List Char} {dividers : Nat} (isQuote : quote = '\'' ∨ quote = '"')
      (closed : quote ∉ text) (later : Closed rest dividers) :
      Closed (quote :: (text ++ quote :: rest)) dividers

variable {text rest : List Char} {dividers : Nat} {texts : List (List Char)}

/-- The text of a section has no dividers. -/
theorem SectionText.closed_append (h : SectionText text) (hr : Closed rest dividers) :
    Closed (text ++ rest) dividers := by
  induction h with
  | nil => exact hr
  | char plain undivided later ih => exact .char plain undivided ih
  | escaped later ih => exact .escaped ih
  | quoted isQuote closed later ih =>
    rw [List.cons_append, List.append_assoc]
    exact .quoted isQuote closed ih

theorem Divided.closed (h : Divided text texts) : Closed text (texts.length - 1) := by
  obtain ⟨hne, hsections, rfl⟩ := h
  induction texts with
  | nil => exact absurd rfl hne
  | cons first texts ih =>
    obtain ⟨hfirst, hlater⟩ := List.forall_mem_cons.mp hsections
    cases texts with
    | nil =>
      have hclosed := hfirst.closed_append .nil
      rw [List.append_nil] at hclosed
      rwa [List.intercalate_singleton]
    | cons next texts =>
      rw [List.intercalate_cons_cons, List.append_assoc]
      exact hfirst.closed_append (.divider (ih (List.cons_ne_nil _ _) hlater))

/-- What sections are made of adds no section when it is put in front. -/
theorem divided_prepend {chunk : List Char} {count : Nat}
    (h : ∃ texts, Divided rest texts ∧ texts.length = count)
    (hchunk : ∀ rest, SectionText rest → SectionText (chunk ++ rest)) :
    ∃ texts, Divided (chunk ++ rest) texts ∧ texts.length = count := by
  obtain ⟨texts, hdivided, rfl⟩ := h
  exact hdivided.prepend hchunk

theorem Closed.divided (h : Closed text dividers) :
    ∃ texts, Divided text texts ∧ texts.length = dividers + 1 := by
  induction h with
  | nil => exact ⟨[[]], divided_nil, rfl⟩
  | @char c rest dividers plain undivided later ih =>
    have hchunk : ∀ rest, SectionText rest → SectionText ([c] ++ rest) := fun _ => .char plain undivided
    exact divided_prepend ih hchunk
  | divider later ih =>
    obtain ⟨texts, hdivided, hlength⟩ := ih
    exact ⟨[] :: texts, hdivided.divider, congrArg (· + 1) hlength⟩
  | @escaped c rest dividers later ih =>
    have hchunk : ∀ rest, SectionText rest → SectionText (['\\', c] ++ rest) := fun _ => .escaped
    exact divided_prepend ih hchunk
  | @quoted quote text rest dividers isQuote closed later ih =>
    have hchunk : ∀ rest, SectionText rest → SectionText (quote :: (text ++ [quote]) ++ rest) := by
      intro rest hrest
      rw [List.cons_append, List.append_assoc]
      exact .quoted isQuote closed hrest
    have hdivided := divided_prepend ih hchunk
    rwa [List.cons_append, List.append_assoc] at hdivided

/-- Exactly the texts with closed literals and at most two dividers are patterns. -/
theorem parse_ok_iff : (∃ sections, parse text = .ok sections) ↔ ∃ dividers ≤ 2, Closed text dividers := by
  constructor
  · rintro ⟨sections, hparse⟩
    obtain ⟨texts, hdivided⟩ := divided_of_parse hparse
    rcases parse_divided hdivided with ⟨-, herror⟩ | ⟨hfew, -⟩
    · rw [herror] at hparse
      cases hparse
    · exact ⟨texts.length - 1, by omega, hdivided.closed⟩
  · rintro ⟨dividers, hfew, hclosed⟩
    obtain ⟨texts, hdivided, hlength⟩ := hclosed.divided
    rcases parse_divided hdivided with ⟨hmany, -⟩ | ⟨-, sections, hparse, -⟩
    · omega
    · exact ⟨sections, hparse⟩

end NumberFormat.Pattern

/-! ## Letters and locales -/

/-- The letters of the standard formats. -/
def NumberFormat.standardLetters : List Char :=
  ['C', 'E', 'F', 'G', 'N', 'P', 'R']

theorem NumberFormat.Standard.ofLetter?_isSome_iff {letter : Char} :
    (∃ kind, ofLetter? letter = some kind) ↔ ∃ known ∈ standardLetters, Text.SameLetter letter known := by
  have hcapital : ∀ known ∈ standardLetters, known.toUpper = known := by
    intro known hm
    have hall : standardLetters.all (fun known => known.toUpper == known) = true := by decide
    exact eq_of_beq (List.all_eq_true.mp hall known hm)
  have hsame : (∃ known ∈ standardLetters, Text.SameLetter letter known) ↔
      letter.toUpper ∈ standardLetters := by
    constructor
    · rintro ⟨known, hm, hs⟩
      rwa [Text.toUpper_eq_iff.mpr hs, hcapital known hm]
    · intro hm
      exact ⟨_, hm, Text.toUpper_eq_iff.mp (hcapital _ hm).symm⟩
  rw [hsame, ofLetter?]
  split
  case h_8 =>
    refine iff_of_false (by rintro ⟨_, ⟨⟩⟩) ?_
    simp_all [standardLetters]
  all_goals
    rename_i hletter
    exact iff_of_true ⟨_, rfl⟩ (by rw [hletter]; decide)

namespace Locale

/-- The names of the locales in small letters. No name is the name of the invariant one. -/
def names : List String :=
  ["", "invariant", "en-us", "en-gb", "de-de", "fr-fr"]

/-- A text is the name of a locale, whatever its case and the blanks around it. -/
def IsKnown (name : String) : Prop :=
  ∃ known ∈ names, Text.SameName (Text.trim name) known

theorem find?_isSome_iff {name : String} : (∃ locale, find? name = some locale) ↔ IsKnown name := by
  have hsmall : ∀ known ∈ names, Text.lower known = known := by decide
  have hknown : IsKnown name ↔ Text.lower (Text.trim name) ∈ names := by
    constructor
    · rintro ⟨known, hm, hs⟩
      rwa [(Text.sameName_iff_of_lower (hsmall known hm) _).mp hs]
    · intro hm
      exact ⟨_, hm, (Text.sameName_iff_of_lower (hsmall _ hm) _).mpr rfl⟩
  rw [hknown, find?]
  split
  case h_7 =>
    refine iff_of_false (by rintro ⟨_, ⟨⟩⟩) ?_
    simp_all [names]
  all_goals
    rename_i hname
    exact iff_of_true ⟨_, rfl⟩ (by rw [hname]; decide)

end Locale

namespace NumberFormat

/-- The texts that are formats. -/
inductive IsFormat : List Char → Prop
  | empty : IsFormat []
  | standard {letter : Char} {digits : List Char} (shape : IsLettered letter digits)
      (known : ∃ known ∈ standardLetters, Text.SameLetter letter known) : IsFormat (letter :: digits)
  | pattern {text : List Char} {dividers : Nat}
      (custom : ∀ letter digits, text = letter :: digits → ¬ IsLettered letter digits)
      (closed : Pattern.Closed text dividers) (few : dividers ≤ 2) : IsFormat text

variable {format : String} {letter : Char} {digits text : List Char}

/-- A letter with digits is a format exactly if it is a letter of the standard formats. -/
theorem isFormat_lettered_iff (h : IsLettered letter digits) :
    IsFormat (letter :: digits) ↔ ∃ kind, Standard.ofLetter? letter = some kind := by
  rw [Standard.ofLetter?_isSome_iff]
  refine ⟨fun hformat => ?_, .standard h⟩
  cases hformat with
  | standard shape known => exact known
  | pattern custom closed few => exact absurd h (custom letter digits rfl)

/-- Any other text that is not empty is a format exactly if it is a pattern. -/
theorem isFormat_custom_iff (hne : text ≠ [])
    (h : ∀ letter digits, text = letter :: digits → ¬ IsLettered letter digits) :
    IsFormat text ↔ ∃ sections, Pattern.parse text = .ok sections := by
  rw [Pattern.parse_ok_iff]
  constructor
  · intro hformat
    cases hformat with
    | empty => exact absurd rfl hne
    | standard shape known => exact absurd shape (h _ _ rfl)
    | pattern custom closed few => exact ⟨_, few, closed⟩
  · rintro ⟨dividers, hfew, hclosed⟩
    exact .pattern h hclosed hfew

/-- Exactly the formats are read. -/
theorem parse_ok_iff : (∃ parsed, parse format = .ok parsed) ↔ IsFormat format.toList := by
  by_cases hempty : format = ""
  · subst hempty
    exact iff_of_true ⟨_, rfl⟩ .empty
  have hsome : format.isEmpty = false := by simpa using hempty
  have hne : format.toList ≠ [] := by simpa using hempty
  cases hshape : standardShape? format.toList with
  | some shape =>
    obtain ⟨letter, digits⟩ := shape
    obtain ⟨htext, hlettered⟩ := standardShape?_eq_some_iff.mp hshape
    rw [htext, isFormat_lettered_iff hlettered]
    cases hletter : Standard.ofLetter? letter with
    | some kind => simp [parse, hsome, hshape, hletter]
    | none => simp [parse, hsome, hshape, hletter]
  | none =>
    have hcustom : ∀ letter digits, format.toList = letter :: digits → ¬ IsLettered letter digits := by
      intro letter digits htext hlettered
      rw [standardShape?_eq_some_iff.mpr ⟨htext, hlettered⟩] at hshape
      cases hshape
    rw [isFormat_custom_iff hne hcustom]
    cases hparse : Pattern.parse format.toList with
    | ok sections => simp [parse, hsome, hshape, hparse]
    | error fault => simp [parse, hsome, hshape, hparse]

/-- A format of a letter and digits that is accepted has a kind, and nothing else is asked of it. -/
theorem parse_lettered (hf : format.toList = letter :: digits) (hl : IsLettered letter digits)
    (ha : IsFormat format.toList) :
    ∃ kind, Standard.ofLetter? letter = some kind ∧
      parse format = .ok (.standard kind letter.isLower (precisionOf digits)) := by
  obtain ⟨kind, hkind⟩ := (isFormat_lettered_iff hl).mp (hf ▸ ha)
  exact ⟨kind, hkind, parse_of_lettered hf hl hkind⟩

/-- Once locale and format are read, every double is written. -/
theorem write_eq {name : String} {locale : Locale} {parsed : NumberFormat}
    (hl : Locale.find? name = some locale) (hp : parse format = .ok parsed) (x : Float) :
    write x format name = .ok (parsed.apply locale x) := by
  simp only [write, hl, hp]
  rfl

/-- Locale and format decide alone whether they are accepted. -/
theorem write_cases (format name : String) :
    (∃ locale parsed, Locale.find? name = some locale ∧ parse format = .ok parsed) ∨
      ∃ fault, (∀ x, write x format name = .error fault) ∧
        ¬ (Locale.IsKnown name ∧ IsFormat format.toList) := by
  cases hl : Locale.find? name with
  | none =>
    refine .inr ⟨.unknownLocale name, fun x => by simp only [write, hl], fun h => ?_⟩
    obtain ⟨locale, hlocale⟩ := Locale.find?_isSome_iff.mpr h.1
    rw [hl] at hlocale
    cases hlocale
  | some locale =>
    cases hp : parse format with
    | ok parsed => exact .inl ⟨locale, parsed, rfl, rfl⟩
    | error fault =>
      refine .inr ⟨fault, fun x => by simp only [write, hl, hp]; rfl, fun h => ?_⟩
      obtain ⟨parsed, hparsed⟩ := parse_ok_iff.mpr h.2
      rw [hp] at hparsed
      cases hparsed

/-- Whether a format is accepted depends on the format and the locale alone. A double is written exactly if
the locale is a known one, whatever its case and the blanks around it, and the format is empty, or a letter
of a standard format, capital or small, and at most two digits, or not a letter and at most two digits but a
text with its literals closed and at most two dividers outside of them. So either every double is written,
NaN and the infinities too, or for every double there is the same fault, which is one of formats. A letter
that is accepted always has a kind of format by which finite doubles are written, so that nothing is refused
after the format is read. -/
theorem acceptance_depends_on_format_and_locale (format name : String) :
    (∀ x, (∃ text, write x format name = .ok text) ↔
      Locale.IsKnown name ∧ IsFormat format.toList) ∧
    ((∀ x, ∃ text, write x format name = .ok text) ∨
      ∃ fault, (∀ x, write x format name = .error fault) ∧
        (Cause.format fault).kind.code = "FORMAT_ERROR") ∧
    (∀ letter digits, format.toList = letter :: digits → IsLettered letter digits →
      Locale.IsKnown name → IsFormat format.toList →
      ∃ locale kind, Locale.find? name = some locale ∧ Standard.ofLetter? letter = some kind ∧
        ∀ x : Float, x.isNaN = false → x.isInf = false → write x format name =
          .ok (String.ofList (kind.format letter.isLower (precisionOf digits) locale x))) := by
  refine ⟨?_, ?_, fun letter digits hf hl hk ha => ?_⟩
  · intro x
    rcases write_cases format name with ⟨locale, parsed, hl, hp⟩ | ⟨fault, hfault, hnot⟩
    · refine iff_of_true ⟨_, write_eq hl hp x⟩ ⟨?_, ?_⟩
      · exact Locale.find?_isSome_iff.mp ⟨locale, hl⟩
      · exact parse_ok_iff.mp ⟨parsed, hp⟩
    · refine iff_of_false ?_ hnot
      rintro ⟨text, htext⟩
      cases (hfault x).symm.trans htext
  · rcases write_cases format name with ⟨locale, parsed, hl, hp⟩ | ⟨fault, hfault, -⟩
    · exact .inl fun x => ⟨_, write_eq hl hp x⟩
    · exact .inr ⟨fault, hfault, rfl⟩
  · obtain ⟨locale, hlocale⟩ := Locale.find?_isSome_iff.mpr hk
    obtain ⟨kind, hkind, hparse⟩ := parse_lettered hf hl ha
    refine ⟨locale, kind, hlocale, hkind, fun x hnan hinf => ?_⟩
    rw [write_eq hlocale hparse]
    simp only [apply, hnan, hinf, Bool.false_eq_true, if_false]

end NumberFormat

end ScriptEngine
