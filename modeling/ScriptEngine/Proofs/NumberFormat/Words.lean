import ScriptEngine.Proofs.NumberFormat.Significant

/-!
# Patterns of placeholders

A pattern of placeholders, with a point or without, writes the number that a double is rounded to with as
many digits as it has, and with more if the pattern requires them (`placeholders_print_the_rounded_number`).

* `writeSection_plain`: a section of placeholders shows these digits, whether there are too many or too few
  of them for the placeholders before the point;
* `formatSections_point`: a point behind the last placeholder changes nothing.
-/

namespace ScriptEngine

namespace NumberFormat

section

variable {word : Section} (hw : ∀ piece ∈ word, piece.inWord = true) {fraction : List Bool}
  (hn : Section.places word ≠ 0 ∨ fraction ≠ [])
include hw

theorem prepare_plain (x : Decimal) :
    Section.prepare (.layout word fraction []) x =
      (x.shift (-3 * Section.thousands word)).round
        ((x.shift (-3 * Section.thousands word)).scale + fraction.length) := by
  have ht : ∀ piece ∈ ([] : Section), piece.inTail = true := by simp
  have hs : Section.scaling (.layout word fraction []) = -3 * Section.thousands word := by
    rw [Section.scaling_layout hw ht]
    simp
  rw [Section.prepare, hs, Section.isScientific_layout hw ht, Section.fractionPlaces_layout hw ht]
  rfl

include hn

/-- A section of placeholders shows all digits of a number that has no more decimals than it has places for
them, and more if it requires them. -/
theorem writeSection_plain (locale : Locale) {x : Decimal}
    (hx : (x.digits.length : Int) ≤ x.scale + fraction.length) :
    let highest : Int := max x.scale (Section.leastInteger word)
    let decimals := max (fraction.reverse.dropWhile (!·)).length x.fractionLength
    writeSection locale (.layout word fraction []) x =
      groupInteger (if Section.isGrouped word then locale.groupSeparator.toList else [])
          (x.digitRun highest highest.toNat) ++
        if decimals = 0 then [] else locale.decimalSeparator.toList ++ x.digitRun 0 decimals := by
  intro highest decimals
  have ht : ∀ piece ∈ ([] : Section), piece.inTail = true := by simp
  obtain ⟨d, hd⟩ : ∃ d, Display.ofSection locale (.layout word fraction []) x = d := ⟨_, rfl⟩
  have hnumber : d.number = x := by
    rw [← hd, Display.ofSection, Section.isScientific_layout hw ht]
    rfl
  have hseparator : d.separator =
      if Section.isGrouped word then locale.groupSeparator.toList else [] := by
    rw [← hd, Display.ofSection, Section.isGrouped_layout hw ht]
  have hleast : d.leastFraction = (fraction.reverse.dropWhile (!·)).length :=
    hd ▸ Section.leastFraction_layout hw ht
  have hhighest : d.highest = highest := by
    have hi : d.leastInteger = Section.leastInteger word := hd ▸ Section.leastInteger_layout hw ht
    rw [Display.highest, hnumber, hi]
  have hdecimals : d.fractionDigits = decimals := by
    rw [Display.fractionDigits, hnumber, hleast]
  have hshown : decimals ≤ fraction.length := by
    have hrequired := (List.dropWhile_sublist (p := (!·)) (l := fraction.reverse)).length_le
    rw [List.length_reverse] at hrequired
    have hlength : x.fractionLength ≤ fraction.length := by
      rw [Decimal.fractionLength]
      omega
    omega
  have hpoint : d.showsPoint = decide (0 < decimals) := by
    have hf : d.hasFraction = decide (0 < fraction.length) :=
      hd ▸ congrArg (fun n => decide (0 < n)) (Section.fractionPlaces_layout hw ht)
    rw [Display.showsPoint, hleast, hf, hnumber, Bool.eq_iff_iff]
    simp only [Bool.or_eq_true, Bool.and_eq_true, decide_eq_true_eq]
    have hlength : x.scale < x.digits.length ↔ 0 < x.fractionLength := by
      rw [Decimal.fractionLength]
      omega
    rw [hlength]
    omega
  rw [writeSection_layout hw ht hn hd, Display.run_decimals d (hdecimals.trans_le hshown), hpoint,
    hnumber, hseparator, hhighest, hdecimals, writePieces]
  by_cases hnone : decimals = 0
  · simp [hnone, Decimal.digitRun]
  · simp [hnone, Nat.pos_of_ne_zero hnone]

end

/-! ## Words -/

/-- The placeholders of a word: a zero for each digit that is required and `#` for the others. -/
def placeholders (word : List Bool) : List Char :=
  word.map fun required => if required then '0' else '#'

theorem reads_placeholders (word : List Bool) :
    Pattern.Reads (placeholders word) (word.map .place) := by
  rw [Pattern.Reads, placeholders, List.map_map, List.map_map]
  refine List.map_congr_left fun required _ => ?_
  cases required <;> rfl

theorem inWord_map_place (word : List Bool) : ∀ piece ∈ word.map Piece.place, piece.inWord = true := by
  intro piece hm
  obtain ⟨required, -, rfl⟩ := List.mem_map.mp hm
  rfl

theorem comma_not_mem (word : List Bool) : Piece.comma ∉ word.map Piece.place := by
  simp

theorem isGrouped_map_place (word : List Bool) : Section.isGrouped (word.map .place) = false := by
  rw [Section.isGrouped, Section.integerPart_word (inWord_map_place word), ← Bool.not_eq_true,
    List.contains_iff_mem]
  intro hm
  have hm' := (List.dropWhile_sublist _).mem (List.mem_reverse.mp ((List.dropWhile_sublist _).mem hm))
  exact comma_not_mem word hm'

theorem thousands_map_place (word : List Bool) : Section.thousands (word.map .place) = 0 := by
  rw [Section.thousands, Section.integerPart_word (inWord_map_place word)]
  split
  · rfl
  · refine List.count_eq_zero.mpr fun hm => comma_not_mem word ?_
    exact List.mem_reverse.mp ((List.takeWhile_sublist _).mem hm)

theorem leastInteger_map_place (word : List Bool) :
    Section.leastInteger (word.map .place) = (word.dropWhile (!·)).length := by
  have hp : (· != Piece.place true) ∘ Piece.place = (!·) := by
    funext b
    cases b <;> rfl
  rw [Section.leastInteger, Section.integerPart_word (inWord_map_place word), List.dropWhile_map, hp,
    Section.places_map_place]

section

variable {word : Section} (hw : ∀ piece ∈ word, piece.inWord = true)
include hw

theorem integerPart_point : Section.integerPart (word ++ [.point]) = word := by
  rw [Section.integerPart,
    List.takeWhile_append_of_pos fun piece hm => Piece.ne_point_of_inWord (hw piece hm)]
  exact List.append_nil word

theorem fractionPart_point : Section.fractionPart (word ++ [.point]) = [.point] := by
  rw [Section.fractionPart,
    List.dropWhile_append_of_pos fun piece hm => Piece.ne_point_of_inWord (hw piece hm)]
  rfl

theorem fractionPart_word : Section.fractionPart word = [] :=
  List.dropWhile_eq_nil_iff.mpr fun piece hm => Piece.ne_point_of_inWord (hw piece hm)

theorem prepare_point (x : Decimal) : Section.prepare (word ++ [.point]) x = Section.prepare word x := by
  simp [Section.prepare, Section.scaling, Section.thousands, Section.isScientific, Section.integerPlaces,
    Section.fractionPlaces, Section.places, integerPart_point hw, Section.integerPart_word hw,
    fractionPart_point hw, fractionPart_word hw, Piece.isPlace, Piece.isExponent]

theorem display_point (locale : Locale) (x : Decimal) :
    Display.ofSection locale (word ++ [.point]) x = Display.ofSection locale word x := by
  simp [Display.ofSection, Section.isScientific, Section.isGrouped, Section.leastInteger,
    Section.leastFraction, Section.integerPlaces, Section.fractionPlaces, Section.places,
    integerPart_point hw, Section.integerPart_word hw, fractionPart_point hw, fractionPart_word hw,
    Piece.isPlace, Piece.isExponent]

/-- A point behind the last placeholder changes nothing. -/
theorem formatSections_point (hn : Section.places word ≠ 0) (locale : Locale) (x : Decimal) :
    formatSections locale [word ++ [.point]] x = formatSections locale [word] x := by
  have hwrite (y : Decimal) : writeSection locale (word ++ [.point]) y = writeSection locale word y := by
    obtain ⟨d, hd⟩ : ∃ d, Display.ofSection locale word y = d := ⟨_, rfl⟩
    have hpoint : d.showsPoint = false := by
      rw [← hd, Display.showsPoint, Display.ofSection, Section.leastFraction, Section.fractionPlaces,
        fractionPart_word hw]
      rfl
    have hword := @writePieces_word locale d word hw { position := d.integerPlaces } (.inr hn)
    rw [writeSection, writeSection, display_point hw, hd, hword, ← List.append_nil word, hword]
    simp [writePieces, hpoint]
  rw [formatSections_single, formatSections_single, prepare_point hw, hwrite]

end

/-- The digits of a number before the point, at least `least` of them, and `decimals` behind it. -/
def wordFigures (least decimals : Nat) (x : Decimal) : Figures where
  negative := x.negative
  integer := x.digitsAt (max x.scale least) (max x.scale least).toNat
  fraction := x.digitsAt 0 decimals
  exponent := none

theorem magnitude_wordFigures (least : Nat) {decimals : Nat} {x : Decimal}
    (h : (x.digits.length : Int) ≤ x.scale + decimals) :
    (wordFigures least decimals x).magnitude = x.magnitude := by
  have hvalue := @Decimal.value_integer_fraction x (max x.scale least) decimals (by omega) (by omega) h
  simp only [Figures.magnitude, Figures.power, wordFigures, hvalue, Decimal.length_digitsAt,
    Option.map_none, Option.getD_none]
  rw [zero_sub, zpow_neg, zpow_natCast]
  field_simp

/-- A section that does not divide by thousands writes the sign and the digits of the rounded number, in
groups if it asks for them. -/
theorem formatSections_grouped {name : String} {locale : Locale} {separator : Char}
    (hl : Locale.find? name = some locale) (hs : locale.decimalSeparator.toList = [separator])
    {word : Section} (hw : ∀ piece ∈ word, piece.inWord = true) (ht : Section.thousands word = 0)
    {behind : List Bool} (hn : Section.places word ≠ 0 ∨ behind ≠ []) (x : Decimal) :
    let rounded := x.round (x.scale + behind.length)
    formatSections locale [.layout word behind []] x =
      (wordFigures (Section.leastInteger word)
        (max (behind.reverse.dropWhile (!·)).length rounded.fractionLength) rounded).groupedText
          (if Section.isGrouped word then locale.groupSeparator.toList else []) separator := by
  intro rounded
  have hprepare : Section.prepare (.layout word behind []) x = rounded := by
    rw [prepare_plain hw, ht, Nat.cast_zero, mul_zero, Decimal.shift_zero]
  have hlength : (rounded.digits.length : Int) ≤ rounded.scale + behind.length :=
    (Decimal.roundsTo_round x _).length_le_scale
  rw [formatSections_single, hprepare, writeSection_plain hw hn locale hlength, signed_eq hl, hs,
    Figures.groupedText, Figures.fractionChars_digitsAt separator rfl, Decimal.digitRun_eq_map,
    show Figures.exponentChars (wordFigures _ _ rounded) = [] from rfl, List.append_nil]
  generalize max (behind.reverse.dropWhile (!·)).length rounded.fractionLength = decimals
  by_cases hnone : decimals = 0
  · rw [if_pos hnone, if_pos hnone]
    rfl
  · rw [if_neg hnone, if_neg hnone]
    rfl

/-- A pattern of two words writes the sign and the digits of the rounded number. -/
theorem formatSections_words {name : String} {locale : Locale} {separator : Char}
    (hl : Locale.find? name = some locale) (hs : locale.decimalSeparator.toList = [separator])
    {word behind : List Bool} (hne : word ≠ [] ∨ behind ≠ []) (x : Decimal) :
    let rounded := x.round (x.scale + behind.length)
    formatSections locale [.layout (word.map .place) behind []] x =
      (wordFigures (word.dropWhile (!·)).length
        (max (behind.reverse.dropWhile (!·)).length rounded.fractionLength) rounded).text separator := by
  intro rounded
  have hn : Section.places (word.map .place) ≠ 0 ∨ behind ≠ [] := by
    rwa [Section.places_map_place, ne_eq, List.length_eq_zero_iff]
  rw [formatSections_grouped hl hs (inWord_map_place word) (thousands_map_place word) hn,
    isGrouped_map_place, leastInteger_map_place, if_neg Bool.false_ne_true, Figures.groupedText_nil]

/-- The pattern of a word and, if there is a point, of another word behind it. -/
def wordPattern (word : List Bool) (fraction : Option (List Bool)) : List Char :=
  placeholders word ++ (fraction.map fun behind => '.' :: placeholders behind).getD []

/-- The section that such a pattern stands for. -/
def wordSection (word : List Bool) (fraction : Option (List Bool)) : Section :=
  word.map .place ++ (fraction.map fun behind => .point :: behind.map .place).getD []

theorem reads_wordPattern (word : List Bool) (fraction : Option (List Bool)) :
    Pattern.Reads (wordPattern word fraction) (wordSection word fraction) := by
  refine (reads_placeholders word).append ?_
  cases fraction with
  | none => rfl
  | some behind =>
    have hpoint : Pattern.Reads ['.'] [.point] := rfl
    exact hpoint.append (reads_placeholders behind)

theorem parse_wordPattern {word : List Bool} {fraction : Option (List Bool)}
    (hne : word ≠ [] ∨ fraction.getD [] ≠ []) :
    parse (String.ofList (wordPattern word fraction)) = .ok (.custom [wordSection word fraction]) := by
  have hplaces : ∀ word : List Bool, ∀ c ∈ placeholders word, c.isAlpha = false := by
    intro word c hc
    obtain ⟨required, -, rfl⟩ := List.mem_map.mp hc
    cases required <;> rfl
  have hfirst : ∀ c ∈ wordPattern word fraction, c.isAlpha = false := by
    intro c hc
    rcases List.mem_append.mp hc with hc | hc
    · exact hplaces word c hc
    · cases fraction with
      | none => exact absurd hc List.not_mem_nil
      | some behind =>
        rcases List.mem_cons.mp hc with rfl | hc
        · rfl
        · exact hplaces behind c hc
  have hsome : wordPattern word fraction ≠ [] := by
    intro hnil
    obtain ⟨hword, hbehind⟩ := List.append_eq_nil_iff.mp hnil
    rcases hne with hne | hne
    · exact hne (List.map_eq_nil_iff.mp hword)
    · cases fraction with
      | none => exact hne rfl
      | some behind => exact absurd hbehind (List.cons_ne_nil _ _)
  obtain ⟨first, rest, hpattern⟩ := List.exists_cons_of_ne_nil hsome
  refine parse_pattern (String.toList_ofList.trans hpattern)
    (hfirst first (by rw [hpattern]; exact List.mem_cons_self)) ?_
  rw [← hpattern]
  exact (reads_wordPattern word fraction).parse

/-- A point with no placeholder behind it may be left out. -/
theorem formatSections_behind {word : Section} (hw : ∀ piece ∈ word, piece.inWord = true)
    {fraction : Option (List Bool)} (hn : Section.places word ≠ 0 ∨ fraction.getD [] ≠ []) (locale : Locale)
    (x : Decimal) :
    formatSections locale [word ++ (fraction.map fun behind => .point :: behind.map .place).getD []] x =
      formatSections locale [.layout word (fraction.getD []) []] x := by
  cases fraction with
  | none => rfl
  | some behind =>
    cases behind with
    | nil =>
      have hpoint := formatSections_point hw (hn.resolve_right fun h => h rfl) locale x
      rwa [← List.append_nil word, List.append_assoc] at hpoint
    | cons first rest => rw [Section.layout, if_neg (by simp), List.append_nil]; rfl

theorem formatSections_wordSection {word : List Bool} {fraction : Option (List Bool)}
    (hne : word ≠ [] ∨ fraction.getD [] ≠ []) (locale : Locale) (x : Decimal) :
    formatSections locale [wordSection word fraction] x =
      formatSections locale [.layout (word.map .place) (fraction.getD []) []] x := by
  refine formatSections_behind (inWord_map_place word) ?_ locale x
  rwa [Section.places_map_place, ne_eq, List.length_eq_zero_iff]

/-- Patterns of placeholders print exactly the rounded number. For every finite double, every locale, and
every pattern of a word of placeholders or of two with a point between them, not both empty: the text can be
read as figures in one way only, has no exponent, and denotes the number with as many decimals as there are
placeholders behind the point that is nearest to the first fifteen digits of the double, the one further
from zero of two that are equally near. There is a sign exactly if the double is below zero and not rounded
to zero. Before the point stand as many digits as the number has, and no fewer than there are placeholders
from the first zero on; behind it as many as the number has, and no fewer than there are placeholders up to
the last zero. -/
theorem placeholders_print_the_rounded_number {name : String} {locale : Locale} {word : List Bool}
    {fraction : Option (List Bool)} {x : Float} (hl : Locale.find? name = some locale)
    (hne : word ≠ [] ∨ fraction.getD [] ≠ []) (hx : x.isFinite = true) :
    let behind := fraction.getD []
    ∃ (separator : Char) (figures : Figures) (rounded : ℚ) (whole decimals : ℕ),
      locale.decimalSeparator.toList = [separator] ∧
      write x (String.ofList (wordPattern word fraction)) name =
        .ok (String.ofList (figures.text separator)) ∧
      (∀ other : Figures, other.text separator = figures.text separator → other = figures) ∧
      NearestMultiple (10 ^ (-behind.length : ℤ)) (Decimal.significant 15 x).magnitude rounded ∧
      figures.exponent = none ∧
      figures.value = (if x < 0 then -rounded else rounded) ∧
      (figures.negative = true ↔ x < 0 ∧ rounded ≠ 0) ∧
      IsLeast {n : ℕ | rounded < 10 ^ n} whole ∧
      IsLeast {n : ℕ | ∃ count : ℤ, rounded * 10 ^ n = count} decimals ∧
      figures.integer.length = max whole (word.dropWhile (!·)).length ∧
      figures.fraction.length = max decimals (behind.reverse.dropWhile (!·)).length := by
  intro behind
  obtain ⟨separator, hseparator, hlist⟩ := separator_eq hl
  obtain ⟨hnan, hinf⟩ := isFinite_iff.mp hx
  have hnumber : (Decimal.significant 15 x).Normalized := Decimal.ofCoefficient_normalized ..
  have hrounds := Decimal.roundsTo_round (Decimal.significant 15 x)
    ((Decimal.significant 15 x).scale + behind.length)
  have hsign := Decimal.round_negative_iff hx 15 0 ((Decimal.significant 15 x).scale + behind.length)
  have htext := formatSections_words hl hlist hne (Decimal.significant 15 x)
  have hnearest := hrounds.nearest
  rw [Decimal.shift_zero] at hsign
  rw [sub_add_cancel_left] at hnearest
  dsimp only at htext
  generalize (Decimal.significant 15 x).round ((Decimal.significant 15 x).scale + behind.length) =
    rounded at *
  have hnormal := hrounds.normalized hnumber.1
  obtain ⟨figures, hfigures⟩ : ∃ figures, wordFigures (word.dropWhile (!·)).length
      (max (behind.reverse.dropWhile (!·)).length rounded.fractionLength) rounded = figures := ⟨_, rfl⟩
  have hmagnitude : figures.magnitude = rounded.magnitude :=
    hfigures ▸ magnitude_wordFigures _ (by rw [Decimal.fractionLength]; omega)
  have hnegative : figures.negative = rounded.negative := hfigures ▸ rfl
  refine ⟨separator, figures, rounded.magnitude, rounded.scale.toNat, rounded.fractionLength, hlist, ?_,
    fun other => Figures.text_injective hseparator, hnearest, hfigures ▸ rfl,
    Figures.value_eq hsign hnegative hmagnitude, hnegative ▸ hsign, Decimal.isLeast_scale hnormal,
    Decimal.isLeast_fractionLength hnormal, ?_, ?_⟩
  · rw [write, hl, parse_wordPattern hne]
    simp only [Except.map, apply, hnan, hinf, Bool.false_eq_true, if_false, formatCustom,
      formatSections_wordSection hne, htext, hfigures, behind]
  · rw [← hfigures, wordFigures, Decimal.length_digitsAt]
    omega
  · rw [← hfigures, wordFigures, Decimal.length_digitsAt, max_comm]

/-- Digits without a placeholder of their own, and a zero that is left of the decimals after a carry. -/
theorem carry_leaves_required_zero :
    Locale.find? "de-DE" = some .deDE ∧ (some [true, false]).getD [] ≠ ([] : List Bool) ∧
      (-12.996 : Float).isFinite ∧
      (∃ (figures : Figures) (rounded : ℚ) (whole decimals : ℕ),
        write (-12.996) ".0#" "de-DE" = .ok (String.ofList (figures.text ',')) ∧
        NearestMultiple (10 ^ (-2 : ℤ)) (Decimal.significant 15 (-12.996)).magnitude rounded ∧
        figures.value = (if (-12.996 : Float) < 0 then -rounded else rounded) ∧
        IsLeast {n : ℕ | rounded < 10 ^ n} whole ∧
        IsLeast {n : ℕ | ∃ count : ℤ, rounded * 10 ^ n = count} decimals ∧
        figures.integer.length = max whole 0 ∧ figures.fraction.length = max decimals 1) ∧
      (write (-12.996) ".0#" "de-DE").toOption = some "-13,0" := by
  have hl : Locale.find? "de-DE" = some .deDE := rfl
  have hne : (some [true, false]).getD [] ≠ ([] : List Bool) := by decide
  have hx : (-12.996 : Float).isFinite = true := by decide +kernel
  obtain ⟨separator, figures, rounded, whole, decimals, hseparator, hwrite, -, hnearest, -, hvalue, -,
    hwhole, hdecimals, hinteger, hfraction⟩ :=
    @placeholders_print_the_rounded_number _ _ [] _ _ hl (.inr hne) hx
  obtain rfl : ',' = separator := (List.cons.inj hseparator).1
  exact ⟨hl, hne, hx, ⟨figures, rounded, whole, decimals, hwrite, hnearest, hvalue, hwhole, hdecimals,
    hinteger, hfraction⟩, by decide +kernel⟩

end NumberFormat

end ScriptEngine
