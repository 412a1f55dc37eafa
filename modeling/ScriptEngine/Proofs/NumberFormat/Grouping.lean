import ScriptEngine.Proofs.NumberFormat.Survey
import ScriptEngine.Proofs.NumberFormat.Words

/-!
# Grouping in patterns

A pattern with a comma between its placeholders before the point groups the digits as the standard formats
do, although it decides about each separator at the placeholder or the digit it follows
(`patterns_group_like_standard_formats`).

* `Section.isGrouped_of_split`, `GroupedPattern.thousands_word`: a comma between placeholders groups, and a
  word that ends with a placeholder does not divide by thousands;
* `leastInteger_marks`: a comma does not change how many digits are required;
* `GroupedPattern.plain_eq`: without its commas the pattern is one of placeholders.
-/

namespace ScriptEngine.NumberFormat

namespace Section

variable {word before after : Section}

theorem dropWhile_append_of_place (h : ∃ piece ∈ word, piece.isPlace = true) (rest : Section) :
    (word ++ rest).dropWhile (!·.isPlace) = word.dropWhile (!·.isPlace) ++ rest := by
  obtain ⟨piece, hm, hp⟩ := h
  rw [List.dropWhile_append, if_neg]
  simp only [List.isEmpty_iff, List.dropWhile_eq_nil_iff, Bool.not_eq_true']
  intro hnone
  exact Bool.false_ne_true ((hnone piece hm).symm.trans hp)

/-- A comma between two placeholders groups. -/
theorem isGrouped_of_split (hw : ∀ piece ∈ word, piece.inWord = true)
    (hsplit : word = before ++ .comma :: after) (hb : ∃ piece ∈ before, piece.isPlace = true)
    (ha : ∃ piece ∈ after, piece.isPlace = true) : isGrouped word = true := by
  have hr : ∃ piece ∈ after.reverse, piece.isPlace = true := by
    obtain ⟨piece, hm, hp⟩ := ha
    exact ⟨piece, List.mem_reverse.mpr hm, hp⟩
  rw [isGrouped, integerPart_word hw, hsplit, dropWhile_append_of_place hb, List.reverse_append,
    List.reverse_cons, List.append_assoc, dropWhile_append_of_place hr]
  simp

end Section

/-- The piece that a character of a word stands for. -/
def markOf (c : Char) : Piece :=
  if c = ',' then .comma else .place (c == '0')

/-- Which of the placeholders of a word are required. -/
def requiredMarks (word : List Char) : List Bool :=
  (word.filter (· ≠ ',')).map (· == '0')

variable {word : List Char} {c : Char}

theorem inWord_marks (word : List Char) : ∀ piece ∈ word.map markOf, piece.inWord = true := by
  intro piece hm
  obtain ⟨c, -, rfl⟩ := List.mem_map.mp hm
  unfold markOf
  split <;> rfl

theorem isPlace_markOf : (markOf c).isPlace = true ↔ c ≠ ',' := by
  unfold markOf
  split <;> simp_all [Piece.isPlace]

theorem requiredMarks_cons (c : Char) (word : List Char) :
    requiredMarks (c :: word) =
      if c = ',' then requiredMarks word else (c == '0') :: requiredMarks word := by
  by_cases h : c = ',' <;> simp [requiredMarks, h]

theorem places_marks (word : List Char) : Section.places (word.map markOf) = (requiredMarks word).length := by
  induction word with
  | nil => rfl
  | cons c word ih =>
    rw [List.map_cons, ← List.singleton_append, Section.places_append, ih, requiredMarks_cons]
    by_cases h : c = ','
    · simp [h, markOf, Section.places, Piece.isPlace]
    · simp [h, markOf, Section.places, Piece.isPlace, Nat.add_comm]

/-- Commas do not count among the digits that are required. -/
theorem leastInteger_marks (word : List Char) :
    Section.leastInteger (word.map markOf) = ((requiredMarks word).dropWhile (!·)).length := by
  rw [Section.leastInteger, Section.integerPart_word (inWord_marks word)]
  induction word with
  | nil => rfl
  | cons c word ih =>
    rw [requiredMarks_cons]
    by_cases hcomma : c = ','
    · subst hcomma
      exact ih
    by_cases hzero : c = '0'
    · subst hzero
      have hall := places_marks ('0' :: word)
      rw [requiredMarks_cons] at hall
      exact hall
    · have hmark : markOf c = .place false := by simp [markOf, hcomma, hzero]
      simp only [List.map_cons, hmark, hcomma, beq_eq_false_iff_ne.mpr hzero, if_false]
      exact ih

theorem reads_marks (h : ∀ c ∈ word, c = '#' ∨ c = '0' ∨ c = ',') :
    Pattern.Reads word (word.map markOf) := by
  rw [Pattern.Reads, List.map_map]
  refine List.map_congr_left fun c hm => ?_
  rcases h c hm with rfl | rfl | rfl <;> rfl

theorem placeholders_map (h : ∀ c ∈ word, c = '#' ∨ c = '0') : placeholders (word.map (· == '0')) = word := by
  rw [placeholders, List.map_map]
  refine (List.map_congr_left fun c hm => ?_).trans (List.map_id word)
  rcases h c hm with rfl | rfl <;> rfl

/-! ## Patterns that group -/

/-- A pattern of a word of placeholders and commas and, if there is a point, of a word of placeholders behind
it. There is a comma with a placeholder before it, and none behind the last placeholder of its word. -/
structure GroupedPattern where
  word : List Char
  fraction : Option (List Char)
  inWord : ∀ c ∈ word, c = '#' ∨ c = '0' ∨ c = ','
  inFraction : ∀ c ∈ fraction.getD [], c = '#' ∨ c = '0'
  groups : ∃ before after, word = before ++ ',' :: after ∧ ∃ c ∈ before, c ≠ ','
  unscaled : word.getLast? ≠ some ','

namespace GroupedPattern

variable (p : GroupedPattern)

/-- The pattern as it is written. -/
def text : List Char :=
  p.word ++ (p.fraction.map ('.' :: ·)).getD []

/-- The pattern without its commas. -/
def plain : List Char :=
  p.text.filter (· ≠ ',')

/-- The placeholders behind the point. -/
def behind : Option (List Bool) :=
  p.fraction.map (·.map (· == '0'))

/-- The section that the pattern stands for. -/
def pieces : Section :=
  p.word.map markOf ++ (p.behind.map fun behind => .point :: behind.map .place).getD []

theorem word_ne_nil : p.word ≠ [] := by
  obtain ⟨before, after, hsplit, -⟩ := p.groups
  simp [hsplit]

theorem word_eq_concat : ∃ front last, p.word = front ++ [last] ∧ last ≠ ',' := by
  obtain ⟨front, last, hword⟩ := (List.eq_nil_or_concat' p.word).resolve_left p.word_ne_nil
  have hunscaled := p.unscaled
  rw [hword, List.getLast?_concat] at hunscaled
  exact ⟨front, last, hword, fun h => hunscaled (congrArg some h)⟩

theorem isGrouped_word : Section.isGrouped (p.word.map markOf) = true := by
  obtain ⟨before, after, hsplit, c, hm, hc⟩ := p.groups
  obtain ⟨front, last, hword, hlast⟩ := p.word_eq_concat
  have hmem : last ∈ after := by
    have hend := congrArg List.getLast? (hsplit.symm.trans hword)
    rw [List.getLast?_concat, List.getLast?_append, List.getLast?_cons] at hend
    cases hafter : after.getLast? with
    | none => simp [hafter] at hend; exact absurd hend.symm hlast
    | some d =>
      simp only [hafter, Option.getD_some, Option.some_or, Option.some.injEq] at hend
      exact hend ▸ List.mem_of_getLast? hafter
  have hpieces : p.word.map markOf = before.map markOf ++ .comma :: after.map markOf := by
    rw [hsplit, List.map_append]
    rfl
  exact Section.isGrouped_of_split (inWord_marks p.word) hpieces
    ⟨markOf c, List.mem_map_of_mem hm, isPlace_markOf.mpr hc⟩
    ⟨markOf last, List.mem_map_of_mem hmem, isPlace_markOf.mpr hlast⟩

theorem thousands_word : Section.thousands (p.word.map markOf) = 0 := by
  obtain ⟨front, last, hword, hlast⟩ := p.word_eq_concat
  have hpieces : p.word.map markOf = front.map markOf ++ [markOf last] := by
    rw [hword, List.map_append]
    rfl
  have hpoint : Piece.point ∉ front.map markOf := fun hm => by cases inWord_marks front _ hm
  rw [hpieces, Section.thousands_concat hpoint, if_pos (isPlace_markOf.mpr hlast)]

theorem requiredMarks_ne_nil : requiredMarks p.word ≠ [] := by
  obtain ⟨before, after, hsplit, c, hm, hc⟩ := p.groups
  have hword : c ∈ p.word.filter (· ≠ ',') := by
    simp [hsplit, hm, hc]
  exact List.ne_nil_of_mem (List.mem_map_of_mem hword)

theorem plain_eq : p.plain = wordPattern (requiredMarks p.word) p.behind := by
  have hword : ∀ c ∈ p.word.filter (· ≠ ','), c = '#' ∨ c = '0' := by
    intro c hm
    obtain ⟨hm, hc⟩ := List.mem_filter.mp hm
    rcases p.inWord c hm with h | h | rfl
    · exact .inl h
    · exact .inr h
    · simp at hc
  rw [plain, text, List.filter_append, wordPattern, requiredMarks, placeholders_map hword, behind]
  congr 1
  cases hf : p.fraction with
  | none => rfl
  | some chars =>
    have hchars : ∀ c ∈ chars, c = '#' ∨ c = '0' := by simpa [hf] using p.inFraction
    have hkept : chars.filter (· ≠ ',') = chars := by
      refine List.filter_eq_self.mpr fun c hm => ?_
      rcases hchars c hm with rfl | rfl <;> rfl
    simp only [Option.map_some, Option.getD_some, placeholders_map hchars]
    exact congrArg ('.' :: ·) hkept

theorem reads_text : Pattern.Reads p.text p.pieces := by
  refine (reads_marks p.inWord).append ?_
  unfold behind
  cases hf : p.fraction with
  | none => rfl
  | some chars =>
    have hchars : ∀ c ∈ chars, c = '#' ∨ c = '0' := by simpa [hf] using p.inFraction
    have hpoint : Pattern.Reads ['.'] [.point] := rfl
    have hbehind := reads_placeholders (chars.map (· == '0'))
    rw [placeholders_map hchars] at hbehind
    exact hpoint.append hbehind

theorem parse_text : parse (String.ofList p.text) = .ok (.custom [p.pieces]) := by
  obtain ⟨first, rest, hword⟩ := List.exists_cons_of_ne_nil p.word_ne_nil
  have hletter : first.isAlpha = false := by
    rcases p.inWord first (hword ▸ List.mem_cons_self ..) with rfl | rfl | rfl <;> rfl
  have htext : p.text = first :: (rest ++ (p.fraction.map ('.' :: ·)).getD []) := by
    rw [text, hword, List.cons_append]
  refine parse_pattern (String.toList_ofList.trans htext) hletter ?_
  rw [← htext]
  exact p.reads_text.parse

end GroupedPattern

theorem write_finite {name : String} {locale : Locale} {format : List Char} {sections : List Section}
    {x : Float} (hl : Locale.find? name = some locale)
    (hp : parse (String.ofList format) = .ok (.custom sections)) (hx : x.isFinite = true) :
    write x (String.ofList format) name =
      .ok (String.ofList (formatSections locale sections (Decimal.significant 15 x))) := by
  obtain ⟨hnan, hinf⟩ := isFinite_iff.mp hx
  rw [write, hl, hp]
  simp only [Except.map, apply, hnan, hinf, Bool.false_eq_true, if_false, formatCustom]

/-- Patterns group digits as the standard formats do. For every finite double, every locale, and every
pattern of a word of placeholders and commas, with a point and placeholders behind it or without, in which
some comma has a placeholder before it and none stands behind the last placeholder of its word: the text is
the one that the pattern without its commas writes, with the digits between the sign and the separator or the
end put into groups. These digits can be told in one way only. -/
theorem patterns_group_like_standard_formats {name : String} {locale : Locale} {x : Float}
    (pattern : GroupedPattern) (hl : Locale.find? name = some locale) (hx : x.isFinite = true) :
    ∃ (separator : Char) (figures : Figures),
      locale.decimalSeparator.toList = [separator] ∧
      write x (String.ofList pattern.plain) name = .ok (String.ofList (figures.text separator)) ∧
      (∀ other : Figures, other.text separator = figures.text separator → other = figures) ∧
      figures.exponent = none ∧
      write x (String.ofList pattern.text) name =
        .ok (String.ofList (figures.groupedText locale.groupSeparator.toList separator)) := by
  obtain ⟨separator, hseparator, hlist⟩ := separator_eq hl
  have hne : requiredMarks pattern.word ≠ [] ∨ pattern.behind.getD [] ≠ [] :=
    .inl pattern.requiredMarks_ne_nil
  have hplaces : Section.places (pattern.word.map markOf) ≠ 0 ∨ pattern.behind.getD [] ≠ [] := by
    rwa [places_marks, ne_eq, List.length_eq_zero_iff]
  have hplain := write_finite hl (parse_wordPattern hne) hx
  rw [← pattern.plain_eq, formatSections_wordSection hne, formatSections_words hl hlist hne] at hplain
  have hgrouped := write_finite hl pattern.parse_text hx
  rw [GroupedPattern.pieces, formatSections_behind (inWord_marks pattern.word) hplaces,
    formatSections_grouped hl hlist (inWord_marks pattern.word) pattern.thousands_word hplaces,
    leastInteger_marks, pattern.isGrouped_word, if_pos rfl] at hgrouped
  exact ⟨separator, _, hlist, hplain, fun other => Figures.text_injective hseparator, rfl, hgrouped⟩

/-- Two commas in odd places, and a zero for a placeholder without a digit. -/
def sevenPlaces : GroupedPattern where
  word := "0,0,00000".toList
  fraction := some "0#".toList
  inWord := by simp
  inFraction := by simp
  groups := ⟨"0".toList, "0,00000".toList, rfl, '0', by decide, by decide⟩
  unscaled := by decide

/-- A zero in front is grouped as other digits are. -/
theorem zero_in_front_is_grouped :
    Locale.find? "de-DE" = some .deDE ∧ (-999999.955 : Float).isFinite = true ∧
      (∃ figures : Figures,
        write (-999999.955) "0000000.0#" "de-DE" = .ok (String.ofList (figures.text ',')) ∧
        write (-999999.955) "0,0,00000.0#" "de-DE" = .ok (String.ofList (figures.groupedText ['.'] ','))) ∧
      (write (-999999.955) "0,0,00000.0#" "de-DE").toOption = some "-0.999.999,96" := by
  have hl : Locale.find? "de-DE" = some .deDE := rfl
  have hx : (-999999.955 : Float).isFinite = true := by decide +kernel
  obtain ⟨separator, figures, hseparator, hplain, -, -, hgrouped⟩ :=
    patterns_group_like_standard_formats sevenPlaces hl hx
  obtain rfl : ',' = separator := (List.cons.inj hseparator).1
  exact ⟨hl, hx, ⟨figures, hplain, hgrouped⟩, by decide +kernel⟩

end ScriptEngine.NumberFormat
