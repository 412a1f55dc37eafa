import ScriptEngine.Proofs.Decimal.AbsoluteValue
import ScriptEngine.Proofs.NumberFormat.Fixed
import ScriptEngine.Proofs.NumberFormat.Scanning

/-!
# Sections as formats of their own

A pattern with several sections writes each number as one of its sections would alone: the third one for
what is zero or rounded to zero, the second one for negative numbers, which lose their sign, and the first
one for everything that has no section of its own (`sections_act_like_separate_formats`).

* `writeSection_unsigned`: what a section writes does not depend on the sign;
* `Attempt.settle_start`: the search for a section, which starts again in the section for zero when a number
  is rounded to zero, ends after two rounds.
-/

namespace ScriptEngine

namespace NumberFormat

theorem negative_prepare {s : Section} {x : Decimal} (h : (Section.prepare s x).isZero = false) :
    (Section.prepare s x).negative = x.negative :=
  (Decimal.roundsTo_round (x.shift (Section.scaling s)) _).negative_eq (List.isEmpty_eq_false_iff.mp h)

theorem prepare_unsigned (s : Section) (x : Decimal) :
    Section.prepare s x.unsigned = (Section.prepare s x).unsigned :=
  Decimal.round_unsigned (x.shift (Section.scaling s)) _

theorem writePieces_unsigned (locale : Locale) (d : Display) (p : Progress) (s : Section) :
    writePieces locale { d with number := d.number.unsigned } p s = writePieces locale d p s := by
  induction s generalizing p with
  | nil => rfl
  | cons piece s ih =>
    cases piece <;> simp only [writePieces, ih] <;> rfl

theorem writeSection_unsigned (locale : Locale) (s : Section) (x : Decimal) :
    writeSection locale s x.unsigned = writeSection locale s x := by
  have hdisplay : Display.ofSection locale s x.unsigned =
      { Display.ofSection locale s x with number := (Display.ofSection locale s x).number.unsigned } := by
    unfold Display.ofSection
    dsimp only
    split <;> rfl
  unfold writeSection
  rw [hdisplay]
  exact writePieces_unsigned locale _ _ s

/-! ## The search for a section -/

/-- The part at an index, which is empty if there is none. -/
def partAt {α : Type} (parts : List (List α)) (index : Nat) : List α :=
  parts.getD index []

/-- The index of a section, or that of the first one if the section is absent or empty. -/
def locate (sections : List Section) (index : Nat) : Nat :=
  if partAt sections index = [] then 0 else index

theorem sectionAt_eq (sections : List Section) (index : Nat) :
    sectionAt sections index = (locate sections index == 0, partAt sections (locate sections index)) := by
  have hfirst : sections.headD [] = partAt sections 0 := by cases sections <;> rfl
  unfold sectionAt locate
  rw [hfirst]
  cases h : sections[index]? with
  | none => simp [partAt, List.getD_eq_getElem?_getD, h]
  | some s => cases s <;> simp [partAt, List.getD_eq_getElem?_getD, h]

/-- The index of the section for the sign of a number. -/
def signIndex (sections : List Section) (x : Decimal) : Nat :=
  locate sections (if x.negative then 1 else 0)

theorem formatSections_eq (locale : Locale) (sections : List Section) (x : Decimal) :
    formatSections locale sections x =
      let index := signIndex sections x
      let prepared := Section.prepare (partAt sections index) x
      if x.isZero || prepared.isZero then writeSection locale (partAt sections (locate sections 2)) .zero
      else (if prepared.negative && index == 0 then locale.negativeSign.toList else []) ++
        writeSection locale (partAt sections index) prepared := by
  simp only [formatSections, sectionAt_eq]
  rfl

/-- A section that is tried for a number, and the number as it stands. -/
structure Attempt where
  index : Nat
  number : Decimal

namespace Attempt

/-- The section in which the search starts. -/
def start (sections : List Section) (x : Decimal) : Attempt :=
  ⟨locate sections (if x.isZero then 2 else if x.negative then 1 else 0), x⟩

/-- Tries sections for a number, in a limited number of rounds. Each round prepares the number for the
section, and a number that becomes zero in this way goes to the section for zero. -/
def settle (sections : List Section) : Nat → Attempt → Option Attempt
  | 0, _ => none
  | rounds + 1, a =>
    if a.number.isZero then some { a with number := .zero }
    else
      let prepared := Section.prepare (partAt sections a.index) a.number
      if prepared.isZero && locate sections 2 != a.index then
        settle sections rounds ⟨locate sections 2, prepared⟩
      else some { a with number := prepared }

/-- What is written in the end. Only the first section writes a sign. -/
def write (locale : Locale) (sections : List Section) (a : Attempt) : List Char :=
  let sign := if a.number.negative && a.index == 0 then locale.negativeSign.toList else []
  sign ++ writeSection locale (partAt sections a.index) a.number

theorem settle_start (locale : Locale) (sections : List Section) (x : Decimal) :
    ∃ a, settle sections 2 (start sections x) = some a ∧
      formatSections locale sections x = a.write locale sections := by
  by_cases hx : x.isZero = true
  · refine ⟨⟨locate sections 2, .zero⟩, ?_, ?_⟩
    · simp [settle, start, hx]
    · simp [formatSections_eq, hx, write, Decimal.zero]
  obtain ⟨index, hindex⟩ : ∃ index, signIndex sections x = index := ⟨_, rfl⟩
  have hstart : start sections x = ⟨index, x⟩ := by
    rw [start, if_neg hx, ← signIndex, hindex]
  cases hzero : (Section.prepare (partAt sections index) x).isZero with
  | true =>
    have hprepared := prepare_eq_zero hzero
    have hempty : Decimal.zero.isZero = true := rfl
    have hplain : Decimal.zero.negative = false := rfl
    refine ⟨⟨locate sections 2, .zero⟩, ?_, ?_⟩
    · -- The first round ends in the section for zero already, or the second one does because of the zero.
      by_cases hsame : locate sections 2 = index
      · simp [settle, hstart, hx, hprepared, hsame]
      · simp [settle, hstart, hx, hprepared, hsame, hempty]
    · simp [formatSections_eq, hindex, hprepared, hempty, hplain, write]
  | false =>
    refine ⟨⟨index, Section.prepare (partAt sections index) x⟩, ?_, ?_⟩
    · simp [settle, hstart, hx, hzero]
    · simp [formatSections_eq, hindex, hx, hzero, write]

end Attempt

/-! ## Sections by themselves -/

section

variable (locale : Locale) (sections : List Section) (x : Decimal)

theorem formatSections_zero (h : x.isZero = true ∨
    (Section.prepare (partAt sections (signIndex sections x)) x).isZero = true) :
    formatSections locale sections x =
      formatSections locale [partAt sections (locate sections 2)] .zero := by
  have hsingle (s : Section) : formatSections locale [s] .zero = writeSection locale s .zero := by
    rw [formatSections_single, prepare_of_isZero s rfl]
    rfl
  rw [hsingle, formatSections_eq]
  exact if_pos (Bool.or_eq_true_iff.mpr h)

theorem formatSections_selected {index : Nat} (hindex : signIndex sections x = index)
    (hx : x.isZero = false) (hprepared : (Section.prepare (partAt sections index) x).isZero = false) :
    formatSections locale sections x =
      formatSections locale [partAt sections index] (if index = 0 then x else x.unsigned) := by
  have hchosen : formatSections locale sections x =
      (if (Section.prepare (partAt sections index) x).negative && index == 0 then
        locale.negativeSign.toList else []) ++
        writeSection locale (partAt sections index) (Section.prepare (partAt sections index) x) := by
    simp only [formatSections_eq, hindex, hx, hprepared, Bool.or_self, Bool.false_eq_true, if_false]
  rw [hchosen, formatSections_single, signed]
  by_cases hfirst : index = 0
  · simp only [hfirst, if_true, beq_self_eq_true, Bool.and_true]
    split <;> rfl
  · have hplain : (Section.prepare (partAt sections index) x).unsigned.negative = false := rfl
    simp [hfirst, prepare_unsigned, writeSection_unsigned, hplain]

end

open Pattern

/-- Writes a finite double in the custom format with the given text. -/
def formatText (locale : Locale) (text : List Char) (v : Float) : Except PatternFault (List Char) :=
  (Pattern.parse text).map (formatCustom locale · v)

/-- A section with the given text rounds a double to zero. -/
def RoundsToZero (text : List Char) (v : Float) : Prop :=
  ∃ s, Pattern.parse text = .ok [s] ∧ (Section.prepare s (Decimal.significant 15 v)).isZero = true

variable {text pattern : List Char} {s : Section} {sections : List Section} {v : Float}

theorem formatText_eq (h : Pattern.parse text = .ok sections) (locale : Locale) (v : Float) :
    formatText locale text v = .ok (formatSections locale sections (Decimal.significant 15 v)) := by
  rw [formatText, h]
  rfl

theorem roundsToZero_iff (h : Pattern.parse text = .ok [s]) :
    RoundsToZero text v ↔ (Section.prepare s (Decimal.significant 15 v)).isZero = true := by
  constructor
  · rintro ⟨s', hparse, hzero⟩
    rw [h] at hparse
    cases hparse
    exact hzero
  · exact fun hzero => ⟨s, h, hzero⟩

/-- The text of the section for the sign of a double. -/
def selectedText (texts : List (List Char)) (v : Float) : List Char :=
  if v < 0 ∧ partAt texts 1 ≠ [] then partAt texts 1 else partAt texts 0

/-- The text of the section for zero. -/
def zeroText (texts : List (List Char)) : List Char :=
  if partAt texts 2 ≠ [] then partAt texts 2 else partAt texts 0

section

variable {texts : List (List Char)} (h : List.Forall₂ Stands texts sections)
include h

theorem parse_partAt (index : Nat) :
    Pattern.parse (partAt texts index) = .ok [partAt sections index] ∧
      (partAt sections index = [] ↔ partAt texts index = []) := by
  induction h generalizing index with
  | nil =>
    cases index
    all_goals exact ⟨rfl, iff_of_true rfl rfl⟩
  | cons hfirst hrest ih =>
    cases index with
    | zero => exact ⟨hfirst.gives.parse, hfirst.empty_iff⟩
    | succ index => exact ih index

theorem partAt_locate (index : Nat) :
    partAt texts (locate sections index) =
      if partAt texts index ≠ [] then partAt texts index else partAt texts 0 := by
  have hempty := (parse_partAt h index).2
  unfold locate
  by_cases hnone : partAt sections index = []
  · rw [if_pos hnone, if_neg (not_not_intro (hempty.mp hnone))]
  · rw [if_neg hnone, if_pos fun htext => hnone (hempty.mpr htext)]

theorem partAt_selected (hv : v.isFinite = true) (hx : (Decimal.significant 15 v).isZero = false) :
    partAt texts (signIndex sections (Decimal.significant 15 v)) = selectedText texts v := by
  have hsign := Decimal.lt_zero_iff_negative hv hx
  rw [signIndex, partAt_locate h, selectedText]
  by_cases hnegative : v < 0
  · rw [if_pos (hsign.mp hnegative)]
    simp [hnegative]
  · rw [if_neg fun hn => hnegative (hsign.mpr hn)]
    simp [hnegative]

/-- Whether a double vanishes is decided by the section in which the search starts. -/
theorem vanishes_iff (hv : v.isFinite = true) :
    v == 0 ∨ RoundsToZero (selectedText texts v) v ↔
      (Decimal.significant 15 v).isZero = true ∨
        (Section.prepare (partAt sections (signIndex sections (Decimal.significant 15 v)))
          (Decimal.significant 15 v)).isZero = true := by
  by_cases hx : (Decimal.significant 15 v).isZero = true
  · -- A zero may have a sign although it is not below zero, but every section shows it as zero.
    have hparse : ∃ index, selectedText texts v = partAt texts index := by
      unfold selectedText
      split
      · exact ⟨1, rfl⟩
      · exact ⟨0, rfl⟩
    obtain ⟨index, hindex⟩ := hparse
    refine iff_of_true (.inr ?_) (.inl hx)
    rw [hindex, roundsToZero_iff (parse_partAt h index).1, prepare_of_isZero _ hx]
    rfl
  · have hnonzero : ¬ (v == 0) = true := fun hzero =>
      hx (List.isEmpty_iff.mpr
        (Decimal.significant_of_zero (Binary64.significand_of_beq_zero hv hzero) 15))
    rw [← partAt_selected h hv (Bool.eq_false_iff.mpr hx), roundsToZero_iff (parse_partAt h _).1,
      or_iff_right hnonzero, or_iff_right hx]

theorem formatText_vanishing (hp : Pattern.parse pattern = .ok sections) (hv : v.isFinite = true)
    (hzero : v == 0 ∨ RoundsToZero (selectedText texts v) v) (locale : Locale) :
    formatText locale pattern v = formatText locale (zeroText texts) 0 := by
  have hsignificant : Decimal.significant 15 0 = .zero := by decide +kernel
  rw [formatText_eq hp, formatSections_zero _ _ _ ((vanishes_iff h hv).mp hzero), zeroText,
    ← partAt_locate h, formatText_eq (parse_partAt h _).1, hsignificant]

theorem formatText_lasting (hp : Pattern.parse pattern = .ok sections) (hv : v.isFinite = true)
    (hlasts : ¬ (v == 0 ∨ RoundsToZero (selectedText texts v) v)) (locale : Locale) :
    formatText locale pattern v =
      if v < 0 ∧ partAt texts 1 ≠ [] then formatText locale (partAt texts 1) v.abs
      else formatText locale (partAt texts 0) v := by
  rw [vanishes_iff h hv, not_or] at hlasts
  obtain ⟨hx, hprepared⟩ := hlasts
  have hsign := Decimal.lt_zero_iff_negative hv (Bool.eq_false_iff.mpr hx)
  have hempty := (parse_partAt h 1).2
  have hselected := formatSections_selected locale sections (Decimal.significant 15 v) rfl
    (Bool.eq_false_iff.mpr hx) (Bool.eq_false_iff.mpr hprepared)
  rw [formatText_eq hp, hselected]
  by_cases hsecond : v < 0 ∧ partAt texts 1 ≠ []
  · have hindex : signIndex sections (Decimal.significant 15 v) = 1 := by
      rw [signIndex, if_pos (hsign.mp hsecond.1), locate, if_neg (hempty.not.mpr hsecond.2)]
    rw [if_pos hsecond, hindex, formatText_eq (parse_partAt h 1).1,
      Decimal.significant_abs (isFinite_iff.mp hv).1]
    rfl
  · have hindex : signIndex sections (Decimal.significant 15 v) = 0 := by
      by_cases hnegative : v < 0
      · have hnone : partAt sections 1 = [] := by
          rw [hempty]
          exact not_not.mp fun htext => hsecond ⟨hnegative, htext⟩
        rw [signIndex, if_pos (hsign.mp hnegative), locate, if_pos hnone]
      · rw [signIndex, if_neg fun hn => hnegative (hsign.mpr hn), locate, ite_self]
    rw [if_neg hsecond, hindex, formatText_eq (parse_partAt h 0).1]
    rfl

end

theorem formatText_signed (hp : Pattern.parse text = .ok [s]) (hv : v.isFinite = true) (hnegative : v < 0)
    (hlasts : ¬ RoundsToZero text v) (locale : Locale) :
    ∃ digits, formatText locale text v = .ok (locale.negativeSign.toList ++ digits) := by
  rw [roundsToZero_iff hp] at hlasts
  have hx : ¬ (Decimal.significant 15 v).isZero = true := by
    intro hx
    rw [prepare_of_isZero s hx] at hlasts
    exact hlasts rfl
  have hsign : (Section.prepare s (Decimal.significant 15 v)).negative = true := by
    rw [negative_prepare (Bool.eq_false_iff.mpr hlasts)]
    exact (Decimal.lt_zero_iff_negative hv (Bool.eq_false_iff.mpr hx)).mp hnegative
  rw [formatText_eq hp, formatSections_single, signed, if_pos hsign]
  exact ⟨_, rfl⟩

/-- The sections of a pattern act like formats of their own. Every pattern that is read is divided by the
dividers outside of its literals into at most three texts, those that are absent being empty. Under the
pattern a finite double that is zero, or is rounded to zero by the section for its sign, is written like
zero in the third text, or in the first if the third is empty. Any other double is written like its absolute
value in the second text if it is negative and the second is not empty, and like itself in the first text
otherwise, where a negative one has its sign. The search for the section ends after two rounds. -/
theorem sections_act_like_separate_formats (hp : Pattern.parse pattern = .ok sections) (locale : Locale)
    (hv : v.isFinite = true) :
    (∃ texts, Divided pattern texts) ∧
    (∀ texts, Divided pattern texts →
      let vanishes := v == 0 ∨ RoundsToZero (selectedText texts v) v
      texts.length ≤ 3 ∧
      (vanishes → formatText locale pattern v = formatText locale (zeroText texts) 0) ∧
      (¬ vanishes →
        formatText locale pattern v =
          (if v < 0 ∧ partAt texts 1 ≠ [] then formatText locale (partAt texts 1) v.abs
          else formatText locale (partAt texts 0) v) ∧
        (v < 0 → partAt texts 1 = [] →
          ∃ digits, formatText locale pattern v = .ok (locale.negativeSign.toList ++ digits)))) ∧
    ∃ a, Attempt.settle sections 2 (.start sections (Decimal.significant 15 v)) = some a ∧
      formatText locale pattern v = .ok (a.write locale sections) := by
  refine ⟨divided_of_parse hp, fun texts hd => ?_, ?_⟩
  · rcases parse_divided hd with ⟨-, herror⟩ | ⟨hlength, sections', hok, hstands⟩
    · rw [hp] at herror
      cases herror
    rw [hp] at hok
    cases hok
    refine ⟨hlength, fun h => formatText_vanishing hstands hp hv h locale, fun h => ?_⟩
    have hlasting := formatText_lasting hstands hp hv h locale
    refine ⟨hlasting, fun hnegative hnone => ?_⟩
    have hfirst : selectedText texts v = partAt texts 0 := if_neg fun hsecond => hsecond.2 hnone
    rw [hlasting, if_neg fun hsecond => hsecond.2 hnone]
    rw [hfirst, not_or] at h
    exact formatText_signed (parse_partAt hstands 0).1 hv hnegative h.2 locale
  · obtain ⟨a, hsettle, hwrite⟩ := Attempt.settle_start locale sections (Decimal.significant 15 v)
    exact ⟨a, hsettle, by rw [formatText_eq hp, hwrite]⟩

/-- A slight loss goes to the section for zero, which holds a divider in quotes, and a larger one to the
section for negative numbers. -/
theorem slight_loss_is_nil :
    let pattern := "0.0;(0.0);'n;l'".toList
    let texts := ["0.0".toList, "(0.0)".toList, "'n;l'".toList]
    (Pattern.parse pattern).toOption = some [[.place true, .point, .place true],
      [.literal ['('], .place true, .point, .place true, .literal [')']], [.literal ['n', ';', 'l']]] ∧
    (-0.04 : Float).isFinite ∧ (-2.25 : Float).isFinite ∧ Divided pattern texts ∧
    formatText .enUS pattern (-0.04) = formatText .enUS "'n;l'".toList 0 ∧
    formatText .enUS pattern (-2.25) = formatText .enUS "(0.0)".toList (-2.25 : Float).abs ∧
    (formatText .enUS pattern (-0.04)).toOption = some "n;l".toList ∧
    (formatText .enUS pattern (-2.25)).toOption = some "(2.3)".toList := by
  intro pattern texts
  have hparse : Pattern.parse pattern = .ok [[.place true, .point, .place true],
      [.literal ['('], .place true, .point, .place true, .literal [')']],
      [.literal ['n', ';', 'l']]] := rfl
  have hparse' : Pattern.parse "(0.0)".toList =
      .ok [[.literal ['('], .place true, .point, .place true, .literal [')']]] := rfl
  have hd : Divided pattern texts := by
    have hfirst : SectionText "0.0".toList := .of_plain (by simp [IsOpening])
    have hsecond : SectionText "(0.0)".toList := .of_plain (by simp [IsOpening])
    have hthird : SectionText "'n;l'".toList :=
      @SectionText.quoted '\'' ['n', ';', 'l'] [] (.inl rfl) (by decide) .nil
    exact ⟨List.cons_ne_nil _ _, List.forall_mem_cons.mpr ⟨hfirst, List.forall_mem_cons.mpr
      ⟨hsecond, List.forall_mem_singleton.mpr hthird⟩⟩, rfl⟩
  have hv : (-0.04 : Float).isFinite = true := by decide +kernel
  have hv' : (-2.25 : Float).isFinite = true := by decide +kernel
  have hzero : RoundsToZero (selectedText texts (-0.04)) (-0.04) := by
    have hselected : selectedText texts (-0.04) = "(0.0)".toList := if_pos (by decide +kernel)
    rw [hselected]
    exact ⟨_, hparse', by decide +kernel⟩
  have hlasts : ¬ ((-2.25 : Float) == 0 ∨ RoundsToZero (selectedText texts (-2.25)) (-2.25)) := by
    have hselected : selectedText texts (-2.25) = "(0.0)".toList := if_pos (by decide +kernel)
    rw [hselected, roundsToZero_iff hparse']
    decide +kernel
  have hslight := ((sections_act_like_separate_formats hparse .enUS hv).2.1 texts hd).2.1 (.inr hzero)
  have hlarge := (((sections_act_like_separate_formats hparse .enUS hv').2.1 texts hd).2.2 hlasts).1
  rw [if_pos (by decide +kernel)] at hlarge
  exact ⟨by rw [hparse]; rfl, hv, hv', hd, hslight, hlarge, by decide +kernel, by decide +kernel⟩

end NumberFormat

end ScriptEngine
