import ScriptEngine.Proofs.NumberFormat.Reading
import ScriptEngine.Proofs.NumberFormat.Sections

/-!
# Standard formats as patterns

The fixed, grouped, percent and scientific formats write every number as a pattern does that has a zero
for each digit they ask for (`standard_formats_agree_with_patterns`). The two are laid out in different
ways: a standard format knows how many digits there are before it writes them, while a pattern asks at
each placeholder which digit it shows, and whether it shows one.

* `formatSections_single`: a pattern of one section writes a sign where the standard formats do, since
  what is rounded to zero has none;
* `writeSection_required`: a section with one required digit before the point and only required ones
  behind it writes the integer and the fraction of a number as a whole;
* `formatSections_fixed`, `formatSections_scientific`: so patterns with such a section write decimals or
  an exponent in the same layout as the standard formats.
-/

namespace ScriptEngine

namespace NumberFormat

theorem prepare_of_isZero (s : Section) {x : Decimal} (hx : x.isZero = true) :
    Section.prepare s x = .zero :=
  Decimal.round_of_isZero (x := x.shift (Section.scaling s)) hx

/-- What is rounded to zero loses its sign and its scale. -/
theorem prepare_eq_zero {s : Section} {x : Decimal} (h : (Section.prepare s x).isZero = true) :
    Section.prepare s x = .zero :=
  (Decimal.roundsTo_round _ _).eq_zero (List.isEmpty_iff.mp h)

theorem sectionAt_single (s : Section) (index : Nat) : sectionAt [s] index = (true, s) := by
  cases index with
  | zero => cases s <;> rfl
  | succ index => rfl

/-- A pattern of one section writes the sign in front of what the section shows. -/
theorem formatSections_single (locale : Locale) (s : Section) (x : Decimal) :
    formatSections locale [s] x =
      signed locale (Section.prepare s x) (writeSection locale s (Section.prepare s x)) := by
  have hz : (x.isZero || (Section.prepare s x).isZero) = true → Section.prepare s x = .zero := by
    intro h
    rcases Bool.or_eq_true_iff.mp h with h | h
    · exact prepare_of_isZero s h
    · exact prepare_eq_zero h
  simp only [formatSections, sectionAt_single, Bool.and_true]
  by_cases h : (x.isZero || (Section.prepare s x).isZero) = true
  · rw [if_pos h, hz h]
    rfl
  · rw [if_neg h, signed]
    split <;> rfl

/-! ## Required decimals -/

/-- The parts of a section before and behind its decimals: a word of which only the last digit is
required, and a tail. -/
structure Surrounds (word tail : Section) : Prop where
  inWord : ∀ piece ∈ word, piece.inWord = true
  inTail : ∀ piece ∈ tail, piece.inTail = true
  least : Section.leastInteger word = 1

variable {word tail : Section} {locale : Locale} {p : Nat} {x : Decimal} {d : Display}

theorem Surrounds.places_ne_zero (h : Surrounds word tail) : Section.places word ≠ 0 := by
  have hl := Section.leastInteger_le word
  rw [h.least, Section.integerPlaces, Section.integerPart_word h.inWord] at hl
  omega

theorem Surrounds.leastFraction_eq (h : Surrounds word tail) (p : Nat) :
    Section.leastFraction (.layout word (.replicate p true) tail) = p := by
  rw [Section.leastFraction_layout h.inWord h.inTail, List.reverse_replicate]
  cases p with
  | zero => rfl
  | succ p =>
    rw [List.replicate_succ, List.dropWhile_cons_of_neg (by simp), List.length_cons,
      List.length_replicate]

/-- A section with only required decimals writes the digits before the point, as many behind it as it
has placeholders there, and the tail. -/
theorem writeSection_required (h : Surrounds word tail)
    (hd : Display.ofSection locale (.layout word (.replicate p true) tail) x = d) :
    writeSection locale (.layout word (.replicate p true) tail) x =
      groupInteger d.separator d.number.integerText ++
        (if p = 0 then [] else locale.decimalSeparator.toList ++ d.number.fractionText p) ++
        writePieces locale d (.behind (.replicate p true)) tail := by
  have hleast : d.leastFraction = p := hd ▸ h.leastFraction_eq p
  have hhighest : d.highest = max d.number.scale 1 := by
    have hi : d.leastInteger = 1 :=
      hd ▸ (Section.leastInteger_layout h.inWord h.inTail).trans h.least
    rw [Display.highest, hi]
    rfl
  have hrun : d.run 0 p = d.number.fractionText p :=
    d.run_fraction (Int.le_refl 0) (by rw [Display.fractionDigits, hleast]; omega)
  have hpoint : d.showsPoint = decide (0 < p) := by
    have hf : d.hasFraction = decide (0 < p) := by
      rw [← hd, Display.ofSection, Section.fractionPlaces_layout h.inWord h.inTail,
        List.length_replicate]
    rw [Display.showsPoint, hleast, hf]
    cases decide (0 < p) <;> simp
  rw [writeSection_layout h.inWord h.inTail (.inl h.places_ne_zero) hd, List.length_replicate, hrun, hpoint,
    hhighest, ← Decimal.integerText_eq]
  cases p with
  | zero => simp [Decimal.fractionText, Decimal.digitRun]
  | succ p => simp

/-- Without an exponent the number is written with a fixed number of decimals. -/
theorem writeSection_fixed (h : Surrounds word tail) (he : Section.isScientific tail = false)
    (hd : Display.ofSection locale (.layout word (.replicate p true) tail) x = d) :
    writeSection locale (.layout word (.replicate p true) tail) x =
      fixedText locale (Section.isGrouped word) p x ++
        writePieces locale d (.behind (.replicate p true)) tail := by
  have hnumber : d.number = x := by
    rw [← hd, Display.ofSection, Section.isScientific_layout h.inWord h.inTail, he]
    rfl
  have hseparator : d.separator =
      if Section.isGrouped word then locale.groupSeparator.toList else [] := by
    rw [← hd, Display.ofSection, Section.isGrouped_layout h.inWord h.inTail]
  rw [writeSection_required h hd, hnumber, hseparator, fixedText]
  cases Section.isGrouped word <;> by_cases hp : p = 0 <;> simp [hp, groupInteger_nil]

/-- So a pattern of such a section scales the number by its marks and rounds it to its decimals. -/
theorem formatSections_fixed (h : Surrounds word tail) (he : Section.isScientific tail = false)
    {places : Int} (hs : 2 * tail.count .percent + 3 * tail.count .perMille -
      3 * Section.thousands word = places) (locale : Locale) (p : Nat) (x : Decimal) :
    let rounded := (x.shift places).round ((x.shift places).scale + p)
    ∃ d, formatSections locale [.layout word (.replicate p true) tail] x =
      signed locale rounded (fixedText locale (Section.isGrouped word) p rounded ++
        writePieces locale d (.behind (.replicate p true)) tail) := by
  intro rounded
  have hp : Section.prepare (.layout word (.replicate p true) tail) x = rounded := by
    rw [Section.prepare, Section.scaling_layout h.inWord h.inTail, hs,
      Section.isScientific_layout h.inWord h.inTail, he, Section.fractionPlaces_layout h.inWord h.inTail,
      List.length_replicate]
    rfl
  exact ⟨_, by rw [formatSections_single, hp, writeSection_fixed h he rfl]⟩

/-- One digit before the point, required decimals, and an exponent of three digits. -/
def scientificSection (p : Nat) : Section :=
  .layout [.place true] (.replicate p true) [.exponent 'E' .plus 3]

theorem surrounds_exponent : Surrounds [.place true] [.exponent 'E' .plus 3] :=
  ⟨by decide, by decide, rfl⟩

theorem writeSection_scientific (locale : Locale) (p : Nat) (x : Decimal) :
    writeSection locale (scientificSection p) x = scientificText locale 'E' (p + 1) x := by
  have h := surrounds_exponent
  obtain ⟨d, hd⟩ : ∃ d, Display.ofSection locale (scientificSection p) x = d := ⟨_, rfl⟩
  have hnumber : d.number = { x with scale := 1 } := by
    rw [← hd, Display.ofSection, scientificSection, Section.isScientific_layout h.inWord h.inTail,
      Section.integerPlaces_layout h.inWord h.inTail]
    rfl
  have hseparator : d.separator = [] := by
    rw [← hd, Display.ofSection, scientificSection, Section.isGrouped_layout h.inWord h.inTail]
    rfl
  have hpower : d.power = if x.isZero then 0 else x.scale - 1 := by
    rw [← hd, Display.ofSection, scientificSection, Section.integerPlaces_layout h.inWord h.inTail]
    rfl
  -- The digits start at the first placeholder, wherever the point of the number is.
  have hinteger : Decimal.integerText { x with scale := 1 } = x.digitRun x.scale 1 := by
    have hr := x.digitRun_rescale 1 0 1
    simpa [Decimal.integerText] using hr
  have hfraction : Decimal.fractionText { x with scale := 1 } p = x.digitRun (x.scale - 1) p :=
    x.digitRun_rescale 1 1 p
  rw [scientificSection, writeSection_required h hd, hnumber, hseparator, groupInteger_nil, hinteger,
    hfraction, writePieces, hpower, writePieces, scientificText]
  cases p with
  | zero => simp [Progress.behind, Decimal.digitRun, widestExponent]
  | succ p => simp [Progress.behind, widestExponent]

theorem formatSections_scientific (locale : Locale) (p : Nat) (x : Decimal) :
    let rounded := x.round (p + 1 : Nat)
    formatSections locale [scientificSection p] x =
      signed locale rounded (scientificText locale 'E' (p + 1) rounded) := by
  intro rounded
  have h := surrounds_exponent
  have hs : Section.scaling (scientificSection p) = 0 := Section.scaling_layout h.inWord h.inTail
  have he : Section.isScientific (scientificSection p) = true :=
    Section.isScientific_layout h.inWord h.inTail
  have hn : Section.places (scientificSection p) = p + 1 := by
    rw [Section.places_eq, scientificSection, Section.integerPlaces_layout h.inWord h.inTail,
      Section.fractionPlaces_layout h.inWord h.inTail, List.length_replicate]
    exact Nat.add_comm 1 p
  have hp : Section.prepare (scientificSection p) x = rounded := by
    rw [Section.prepare, hs, Decimal.shift_zero, he, hn]
    rfl
  rw [formatSections_single, hp, writeSection_scientific]

/-- Shapes that differ in the sign only write the sign in front. -/
theorem shaped_signed {positive negative rest : List Slot} (hp : positive = .digits :: rest)
    (hn : negative = .minus :: .digits :: rest) (locale : Locale) (p : Nat) (x : Decimal) :
    let rounded := x.round (x.scale + p)
    shaped locale positive negative p x =
      signed locale rounded (fixedText locale true p rounded ++
        fill locale (fixedText locale true p rounded) rest) := by
  intro rounded
  subst hp hn
  show fill locale _ (if rounded.negative then _ else _) = _
  rw [signed]
  split <;> rfl

theorem numberNegative_eq {name : String} (h : Locale.find? name = some locale) :
    locale.numberNegative = [.minus, .digits] := by
  unfold Locale.find? at h
  split at h <;> cases h <;> rfl

/-- Only one locale writes percentages without a blank. -/
theorem percentShapes_eq {name : String} (h : Locale.find? name = some locale) :
    let mark : List Slot := if locale = .enGB then [.percent] else [.char ' ', .percent]
    locale.percentPositive = .digits :: mark ∧ locale.percentNegative = .minus :: .digits :: mark := by
  unfold Locale.find? at h
  split at h <;> cases h <;> decide

/-- A point and as many zeros as there are decimals, or nothing if there are none. -/
def decimals (p : Nat) : String :=
  if p = 0 then "" else "." ++ String.ofList (List.replicate p '0')

theorem reads_decimals {front back : List Char} (hf : Pattern.Reads front word)
    (hb : Pattern.Reads back tail) (p : Nat) :
    Pattern.Reads (front ++ (decimals p).toList ++ back) (.layout word (.replicate p true) tail) := by
  have hd : (decimals p).toList = if p = 0 then [] else '.' :: List.replicate p '0' := by
    unfold decimals
    split <;> simp
  rw [hd, Section.layout, List.append_assoc]
  refine hf.append ?_
  cases p with
  | zero => exact hb
  | succ p =>
    have hz : Pattern.Reads ('.' :: List.replicate (p + 1) '0')
        (.point :: (List.replicate (p + 1) true).map .place) := by
      simp [Pattern.Reads, Pattern.pieceOf?]
    exact hz.append hb

theorem parse_decimals {front back : String} {first : Char} {rest : List Char} {p : Nat}
    {sections : List Section} (hf : front.toList = first :: rest) (ha : first.isAlpha = false)
    (h : Pattern.parse (front.toList ++ (decimals p).toList ++ back.toList) = .ok sections) :
    parse (front ++ decimals p ++ back) = .ok (.custom sections) := by
  have ht : (front ++ decimals p ++ back).toList =
      first :: (rest ++ (decimals p).toList ++ back.toList) := by
    rw [String.toList_append, String.toList_append, hf, List.cons_append, List.cons_append]
  rw [hf, List.cons_append, List.cons_append] at h
  exact parse_pattern ht ha h

/-! ## Agreement -/

/-- Two formats write a number in the same way. -/
def SameText (x : Float) (locale format format' : String) : Prop :=
  ∃ text, write x format locale = .ok text ∧ write x format' locale = .ok text

/-- The texts before and behind the decimals of a pattern without exponent, what they stand for, and the
power of ten by which the number is multiplied. -/
structure FixedPattern (front back : String) (word tail : Section) (places : Int) : Prop
    extends Surrounds word tail where
  starts : ∃ first rest, front.toList = first :: rest ∧ first.isAlpha = false
  readsFront : Pattern.Reads front.toList word
  readsBack : Pattern.Reads back.toList tail
  plain : Section.isScientific tail = false
  scales : 2 * tail.count .percent + 3 * tail.count .perMille - 3 * Section.thousands word = places

section

variable {name : String} (hl : Locale.find? name = some locale) {format : String} {kind : Standard}
  {lowerCase : Bool} (hf : parse format = .ok (.standard kind lowerCase (some p))) {x : Float}
include hl hf

theorem sameText_of_format {format' : String} {sections : List Section}
    (hf' : parse format' = .ok (.custom sections))
    (h : formatCustom locale sections x = kind.format lowerCase (some p) locale x) :
    SameText x name format format' := by
  refine ⟨_, by rw [write, hl, hf]; rfl, ?_⟩
  rw [write, hl, hf']
  simp only [Except.map, apply, h]

/-- A standard format agrees with a pattern if it writes the same sign, decimals and marks. -/
theorem FixedPattern.sameText {front back : String} {places : Int}
    (h : FixedPattern front back word tail places)
    (hsigned : ∀ d,
      let number := (Decimal.significant usualDigits x).shift places
      let rounded := number.round (number.scale + p)
      kind.format lowerCase (some p) locale x =
        signed locale rounded (fixedText locale (Section.isGrouped word) p rounded ++
          writePieces locale d (.behind (.replicate p true)) tail)) :
    SameText x name format (front ++ decimals p ++ back) := by
  obtain ⟨first, rest, hfront, ha⟩ := h.starts
  obtain ⟨d, hd⟩ := formatSections_fixed h.toSurrounds h.plain h.scales locale p
    (Decimal.significant usualDigits x)
  have hf' := parse_decimals hfront ha (reads_decimals h.readsFront h.readsBack p).parse
  exact sameText_of_format hl hf hf' (hd.trans (hsigned d).symm)

end

/-- The word of the pattern `#,##0`. -/
def groupedWord : Section :=
  [.place false, .comma, .place false, .place false, .place true]

section

variable {name : String} (hl : Locale.find? name = some locale) (hp : p < 100) (x : Float)
include hl hp

theorem fixed_sameText : SameText x name ("F" ++ toString p) ("0" ++ decimals p) := by
  have hf : parse ("F" ++ toString p) = .ok (.standard .fixed false (some p)) :=
    parse_standard 'F' hp (String.toList_append ..) rfl rfl
  have hpattern : FixedPattern "0" "" [.place true] [] 0 :=
    ⟨⟨by decide, by decide, rfl⟩, ⟨_, _, rfl, rfl⟩, rfl, rfl, rfl, rfl⟩
  have h : SameText x name ("F" ++ toString p) ("0" ++ decimals p ++ "") := by
    refine hpattern.sameText hl hf fun d => ?_
    dsimp only
    rw [Decimal.shift_zero, writePieces, List.append_nil]
    rfl
  rwa [String.append_empty] at h

theorem number_sameText : SameText x name ("N" ++ toString p) ("#,##0" ++ decimals p) := by
  have hf : parse ("N" ++ toString p) = .ok (.standard .number false (some p)) :=
    parse_standard 'N' hp (String.toList_append ..) rfl rfl
  have hpattern : FixedPattern "#,##0" "" groupedWord [] 0 :=
    ⟨⟨by decide, by decide, rfl⟩, ⟨_, _, rfl, rfl⟩, rfl, rfl, rfl, rfl⟩
  have h : SameText x name ("N" ++ toString p) ("#,##0" ++ decimals p ++ "") := by
    refine hpattern.sameText hl hf fun d => ?_
    rw [Decimal.shift_zero, writePieces]
    exact shaped_signed rfl (numberNegative_eq hl) locale p (Decimal.significant usualDigits x)
  rwa [String.append_empty] at h

theorem percent_sameText : SameText x name ("P" ++ toString p)
    ("#,##0" ++ decimals p ++ if locale = .enGB then "%" else " %") := by
  have hf : parse ("P" ++ toString p) = .ok (.standard .percent false (some p)) :=
    parse_standard 'P' hp (String.toList_append ..) rfl rfl
  obtain ⟨hpositive, hnegative⟩ := percentShapes_eq hl
  have hshape := shaped_signed hpositive hnegative locale p
    ((Decimal.significant usualDigits x).shift 2)
  split <;> rename_i hgb
  · have hpattern : FixedPattern "#,##0" "%" groupedWord [.percent] 2 :=
      ⟨⟨by decide, by decide, rfl⟩, ⟨_, _, rfl, rfl⟩, rfl, rfl, rfl, rfl⟩
    rw [if_pos hgb] at hshape
    exact hpattern.sameText hl hf fun d => hshape
  · have hpattern : FixedPattern "#,##0" " %" groupedWord [.literal [' '], .percent] 2 :=
      ⟨⟨by decide, by decide, rfl⟩, ⟨_, _, rfl, rfl⟩, rfl, rfl, rfl, rfl⟩
    rw [if_neg hgb] at hshape
    exact hpattern.sameText hl hf fun d => hshape

theorem scientific_sameText (hd : p ≤ 14) :
    SameText x name ("E" ++ toString p) ("0" ++ decimals p ++ "E+000") := by
  have hf : parse ("E" ++ toString p) = .ok (.standard .scientific false (some p)) :=
    parse_standard 'E' hp (String.toList_append ..) rfl rfl
  have hf' : parse ("0" ++ decimals p ++ "E+000") = .ok (.custom [scientificSection p]) := by
    have hzero : Pattern.Reads "0".toList [.place true] := rfl
    have hnone : Pattern.Reads [] [] := rfl
    have hreads := reads_decimals hzero hnone p
    rw [List.append_nil] at hreads
    exact parse_decimals rfl rfl (hreads.parse_exponent.trans (by rw [Section.layout_append]; rfl))
  have hdigits : Standard.digits .scientific (some p) = usualDigits := if_neg (by omega)
  refine sameText_of_format hl hf hf' ?_
  rw [formatCustom, formatSections_scientific]
  simp only [Standard.format, hdigits]
  rfl

end

/-- The standard formats agree with patterns. For every double, every locale and every precision: the
fixed, grouped and percent formats write the number as the pattern does that has a zero for each decimal
and, for the latter two, commas; the scientific format does so as far as its precision does not ask for
more digits than usual. -/
theorem standard_formats_agree_with_patterns {name : String} (hl : Locale.find? name = some locale)
    (hp : p < 100) (x : Float) :
    SameText x name ("F" ++ toString p) ("0" ++ decimals p) ∧
    SameText x name ("N" ++ toString p) ("#,##0" ++ decimals p) ∧
    SameText x name ("P" ++ toString p)
      ("#,##0" ++ decimals p ++ if locale = .enGB then "%" else " %") ∧
    (p ≤ 14 → SameText x name ("E" ++ toString p) ("0" ++ decimals p ++ "E+000")) :=
  ⟨fixed_sameText hl hp x, number_sameText hl hp x, percent_sameText hl hp x,
    scientific_sameText hl hp x⟩

/-- A number that is rounded up, with a sign and in groups. -/
theorem debt_written_alike :
    Locale.find? "de-DE" = some .deDE ∧ SameText (-1234.995) "de-DE" "N2" "#,##0.00" ∧
      SameText (-1234.995) "de-DE" "P2" "#,##0.00 %" ∧
      SameText (-1234.995) "de-DE" "E2" "0.00E+000" ∧
      (write (-1234.995) "#,##0.00" "de-DE").toOption = some "-1.235,00" := by
  have hl : Locale.find? "de-DE" = some .deDE := rfl
  have hp : 2 < 100 := by decide
  obtain ⟨-, hn, hpercent, he⟩ := standard_formats_agree_with_patterns hl hp (-1234.995)
  exact ⟨hl, hn, hpercent, he (by decide), by decide +kernel⟩

end NumberFormat

end ScriptEngine
