import Mathlib.Data.List.TakeWhile
import ScriptEngine.Proofs.NumberFormat.Placeholders

/-!
# Sections of placeholders

`Section.layout` builds a section from a word of placeholders and commas, placeholders behind the point,
and a tail of other pieces. What a section counts and asks for (`Section.integerPlaces`,
`Section.isGrouped`, `Section.scaling` and so on) depends on one or two of these parts, and
`writeSection_layout` says that the parts are written one after the other.
-/

namespace ScriptEngine.NumberFormat

namespace Piece

/-- Whether a piece is a placeholder or a comma. -/
def inWord : Piece → Bool
  | .place _ | .comma => true
  | _ => false

/-- Whether a piece is no placeholder, comma or point. -/
def inTail : Piece → Bool
  | .place _ | .comma | .point => false
  | _ => true

variable {piece : Piece}

theorem ne_point_of_inWord (h : piece.inWord = true) : (piece != .point) = true := by
  cases piece <;> simp_all [inWord]

theorem inTail_of_inWord (h : piece.inWord = true) : piece.inTail = false := by
  cases piece <;> simp_all [inWord, inTail]

theorem ne_point_of_inTail (h : piece.inTail = true) : (piece != .point) = true := by
  cases piece <;> simp_all [inTail]

theorem not_place_of_inTail (h : piece.inTail = true) : (!piece.isPlace) = true := by
  cases piece <;> simp_all [inTail, isPlace]

theorem ne_place_of_inTail (h : piece.inTail = true) : (piece != .place true) = true := by
  cases piece <;> simp_all [inTail]

end Piece

namespace Section

/-- A section of placeholders: a word before the point, placeholders behind it, and a tail. There is no
point if no placeholder stands behind it. -/
def layout (word : Section) (fraction : List Bool) (tail : Section) : Section :=
  word ++ if fraction = [] then tail else .point :: (fraction.map .place ++ tail)

theorem layout_append (word tail rest : Section) (fraction : List Bool) :
    layout word fraction tail ++ rest = layout word fraction (tail ++ rest) := by
  unfold layout
  split <;> simp

theorem places_append (s s' : Section) : places (s ++ s') = places s + places s' :=
  List.countP_append

theorem places_map_place (fraction : List Bool) : places (fraction.map .place) = fraction.length := by
  rw [places, List.countP_map]
  exact List.countP_eq_length.mpr fun _ _ => rfl

theorem places_eq_zero {s : Section} (h : ∀ piece ∈ s, (!piece.isPlace) = true) : places s = 0 :=
  List.countP_eq_zero.mpr fun piece hm => by simpa using h piece hm

/-- Every placeholder stands before the point or behind it. -/
theorem places_eq (s : Section) : places s = integerPlaces s + fractionPlaces s := by
  rw [integerPlaces, fractionPlaces, ← places_append, integerPart, fractionPart,
    List.takeWhile_append_dropWhile]

/-- Pieces without placeholders at the end do not count, from whichever piece on. -/
theorem places_dropWhile_append (s : Section) {rest : Section} (p : Piece → Bool)
    (h : ∀ piece ∈ rest, (!piece.isPlace) = true) :
    places ((s ++ rest).dropWhile p) = places (s.dropWhile p) := by
  rw [List.dropWhile_append]
  split
  · rename_i hs
    rw [List.isEmpty_iff.mp hs]
    exact places_eq_zero fun piece hm => h piece ((List.dropWhile_sublist p).mem hm)
  · rw [places_append, places_eq_zero h, Nat.add_zero]

/-- No more digits are required before the point than there are placeholders. -/
theorem leastInteger_le (s : Section) : leastInteger s ≤ integerPlaces s :=
  (List.dropWhile_sublist _).countP_le

/-! ## The parts of a section -/

variable {word tail : Section} {fraction : List Bool}

theorem integerPart_word (h : ∀ piece ∈ word, piece.inWord = true) : integerPart word = word :=
  List.takeWhile_eq_self_iff.mpr fun piece hm => Piece.ne_point_of_inWord (h piece hm)

section

variable (hw : ∀ piece ∈ word, piece.inWord = true) (ht : ∀ piece ∈ tail, piece.inTail = true)
include hw ht

/-- What stands before the point: the word, and the tail if there is no point. -/
theorem integerPart_layout (fraction : List Bool) :
    ∃ rest, (∀ piece ∈ rest, piece.inTail = true) ∧
      integerPart (layout word fraction tail) = word ++ rest := by
  have hp : ∀ piece ∈ word, (piece != .point) = true :=
    fun piece hm => Piece.ne_point_of_inWord (hw piece hm)
  rw [integerPart, layout, List.takeWhile_append_of_pos hp]
  split
  · refine ⟨tail, ht, congrArg (word ++ ·) (List.takeWhile_eq_self_iff.mpr fun piece hm => ?_)⟩
    exact Piece.ne_point_of_inTail (ht piece hm)
  · exact ⟨[], fun piece hm => absurd hm List.not_mem_nil, rfl⟩

theorem fractionPart_layout :
    fractionPart (layout word fraction tail) =
      if fraction = [] then [] else .point :: (fraction.map .place ++ tail) := by
  have hp : ∀ piece ∈ word, (piece != .point) = true :=
    fun piece hm => Piece.ne_point_of_inWord (hw piece hm)
  rw [fractionPart, layout, List.dropWhile_append_of_pos hp]
  split
  · exact List.dropWhile_eq_nil_iff.mpr fun piece hm => Piece.ne_point_of_inTail (ht piece hm)
  · rfl

theorem integerPlaces_layout : integerPlaces (layout word fraction tail) = places word := by
  obtain ⟨rest, hr, he⟩ := integerPart_layout hw ht fraction
  rw [integerPlaces, he, places_append,
    places_eq_zero fun piece hm => Piece.not_place_of_inTail (hr piece hm), Nat.add_zero]

theorem fractionPlaces_layout : fractionPlaces (layout word fraction tail) = fraction.length := by
  rw [fractionPlaces, fractionPart_layout hw ht]
  split
  · rename_i hf
    rw [hf]
    rfl
  · rw [← List.singleton_append, places_append, places_append, places_map_place,
      places_eq_zero fun piece hm => Piece.not_place_of_inTail (ht piece hm)]
    exact Nat.zero_add _

theorem leastInteger_layout : leastInteger (layout word fraction tail) = leastInteger word := by
  obtain ⟨rest, hr, he⟩ := integerPart_layout hw ht fraction
  rw [leastInteger, he,
    places_dropWhile_append _ _ fun piece hm => Piece.not_place_of_inTail (hr piece hm), leastInteger,
    integerPart_word hw]

/-- Digits are required behind the point up to the last required placeholder. -/
theorem leastFraction_layout :
    leastFraction (layout word fraction tail) = (fraction.reverse.dropWhile (!·)).length := by
  have hp : (· != Piece.place true) ∘ Piece.place = (!·) := by
    funext b
    cases b <;> rfl
  rw [leastFraction, fractionPart_layout hw ht]
  split
  · rename_i hf
    rw [hf]
    rfl
  · have hq : ∀ piece ∈ tail.reverse, (piece != .place true) = true :=
      fun piece hm => Piece.ne_place_of_inTail (ht piece (List.mem_reverse.mp hm))
    rw [List.reverse_cons, List.reverse_append, List.append_assoc, List.dropWhile_append_of_pos hq,
      places_dropWhile_append _ _ (by simp [Piece.isPlace]), ← List.map_reverse, List.dropWhile_map, hp,
      places_map_place]

theorem thousands_layout : thousands (layout word fraction tail) = thousands word := by
  obtain ⟨rest, hr, he⟩ := integerPart_layout hw ht fraction
  have hn : ∀ piece ∈ rest.reverse, (!piece.isPlace) = true :=
    fun piece hm => Piece.not_place_of_inTail (hr piece (List.mem_reverse.mp hm))
  have hc : rest.reverse.count .comma = 0 := by
    rw [List.count_eq_zero, List.mem_reverse]
    exact fun hm => Bool.false_ne_true (hr _ hm)
  rw [thousands, integerPlaces_layout hw ht, he, List.reverse_append, List.takeWhile_append_of_pos hn,
    List.count_append, hc, Nat.zero_add, thousands, integerPlaces, integerPart_word hw]

theorem isGrouped_layout : isGrouped (layout word fraction tail) = isGrouped word := by
  obtain ⟨rest, hr, he⟩ := integerPart_layout hw ht fraction
  have hn : ∀ piece ∈ rest, (!piece.isPlace) = true :=
    fun piece hm => Piece.not_place_of_inTail (hr piece hm)
  rw [isGrouped, he, isGrouped, integerPart_word hw, List.dropWhile_append]
  split
  · rename_i hd
    rw [List.dropWhile_eq_nil_iff.mpr hn, List.isEmpty_iff.mp hd]
  · rw [List.reverse_append,
      List.dropWhile_append_of_pos fun piece hm => hn piece (List.mem_reverse.mp hm)]

theorem filter_layout : (layout word fraction tail).filter Piece.inTail = tail := by
  have hn : word.filter Piece.inTail = [] :=
    List.filter_eq_nil_iff.mpr fun piece hm => by simp [Piece.inTail_of_inWord (hw piece hm)]
  have hf : (fraction.map Piece.place).filter Piece.inTail = [] :=
    List.filter_eq_nil_iff.mpr fun piece hm => by
      obtain ⟨b, -, rfl⟩ := List.mem_map.mp hm
      exact Bool.false_ne_true
  have hs : tail.filter Piece.inTail = tail := List.filter_eq_self.mpr ht
  rw [layout, List.filter_append, hn, List.nil_append]
  split
  · exact hs
  · rw [List.filter_cons_of_neg (by exact Bool.false_ne_true), List.filter_append, hf, hs,
      List.nil_append]

theorem isScientific_layout : isScientific (layout word fraction tail) = isScientific tail := by
  have he : (fun piece : Piece => piece.inTail && piece.isExponent) = Piece.isExponent := by
    funext piece
    cases piece <;> rfl
  have hf := List.any_filter (l := layout word fraction tail) (p := Piece.inTail) (q := Piece.isExponent)
  rw [filter_layout hw ht, he] at hf
  exact hf.symm

theorem scaling_layout :
    scaling (layout word fraction tail) =
      2 * tail.count .percent + 3 * tail.count .perMille - 3 * thousands word := by
  have hc (piece : Piece) (h : piece.inTail = true) :
      (layout word fraction tail).count piece = tail.count piece := by
    rw [← List.count_filter h, filter_layout hw ht]
  rw [scaling, thousands_layout hw ht, hc .percent rfl, hc .perMille rfl]

end

end Section

variable {locale : Locale} {d : Display} {word tail : Section}

/-- A word shows the digits at its placeholders, and the first placeholder those in front of it. -/
theorem writePieces_word (hw : ∀ piece ∈ word, piece.inWord = true) {p : Progress}
    (hp : p.started = true ∨ Section.places word ≠ 0) (rest : Section) :
    writePieces locale d p (word ++ rest) =
      (if p.started then [] else d.overflow) ++ d.run p.position (Section.places word) ++
        writePieces locale d
          { p with position := p.position - Section.places word, started := true } rest := by
  induction word generalizing p with
  | nil =>
    have hs : p.started = true := hp.resolve_right fun h => h rfl
    obtain ⟨position, started, pointMet, exponentMet⟩ := p
    cases hs
    simp [Display.run, Section.places]
  | cons piece word ih =>
    obtain ⟨hpiece, hword⟩ := List.forall_mem_cons.mp hw
    cases piece with
    | place required =>
      have hc : Section.places (.place required :: word) = Section.places word + 1 :=
        List.countP_cons_of_pos rfl
      have hn : p.position - 1 - Section.places word = p.position - (Section.places word + 1 : Nat) := by
        omega
      rw [List.cons_append, writePieces, ih hword (.inl rfl), hc, Display.run_succ]
      simp only [hn, if_true, List.nil_append, List.append_assoc]
    | comma =>
      have hc : Section.places (.comma :: word) = Section.places word :=
        List.countP_cons_of_neg Bool.false_ne_true
      rw [hc] at hp ⊢
      rw [List.cons_append, writePieces, ih hword hp]
    | _ => cases hpiece

theorem writePieces_commas (hw : ∀ piece ∈ word, piece.inWord = true) (hn : Section.places word = 0)
    (p : Progress) (rest : Section) :
    writePieces locale d p (word ++ rest) = writePieces locale d p rest := by
  induction word with
  | nil => rfl
  | cons piece word ih =>
    obtain ⟨hpiece, hword⟩ := List.forall_mem_cons.mp hw
    cases piece with
    | place required => simp [Section.places, Piece.isPlace] at hn
    | comma =>
      rw [List.cons_append, writePieces]
      exact ih hword ((List.countP_cons_of_neg Bool.false_ne_true).symm.trans hn)
    | _ => cases hpiece

/-- How far the writing of a section has come behind its placeholders. -/
def Progress.behind (fraction : List Bool) : Progress where
  position := -(fraction.length : Int)
  started := true
  pointMet := !fraction.isEmpty

/-- Behind the point a section writes the digits at its placeholders and the tail, and before it those
digits that have not been written yet. -/
theorem writePieces_fraction {fraction : List Bool} (hf : fraction ≠ []) {p : Progress}
    (hp : p = { position := 0, started := p.started }) :
    writePieces locale d p (.point :: (fraction.map .place ++ tail)) =
      (if p.started then [] else d.overflow) ++
        (if d.showsPoint then locale.decimalSeparator.toList else []) ++ d.run 0 fraction.length ++
        writePieces locale d (.behind fraction) tail := by
  have hw : ∀ piece ∈ fraction.map Piece.place, piece.inWord = true := by
    intro piece hm
    obtain ⟨b, -, rfl⟩ := List.mem_map.mp hm
    rfl
  have he : fraction.isEmpty = false := by simpa using hf
  rw [hp, writePieces, writePieces_word hw (.inl rfl), Section.places_map_place]
  simp [he, Progress.behind]

/-- A section of placeholders writes all digits before the point, the point if it is shown, the digits at
the placeholders behind it, and the tail. -/
theorem writeSection_layout (hw : ∀ piece ∈ word, piece.inWord = true)
    (ht : ∀ piece ∈ tail, piece.inTail = true) {fraction : List Bool}
    (hn : Section.places word ≠ 0 ∨ fraction ≠ []) {x : Decimal}
    (hd : Display.ofSection locale (.layout word fraction tail) x = d) :
    writeSection locale (.layout word fraction tail) x =
      groupInteger d.separator (d.number.digitRun d.highest d.highest.toNat) ++
        (if d.showsPoint then locale.decimalSeparator.toList else []) ++ d.run 0 fraction.length ++
        writePieces locale d (.behind fraction) tail := by
  have hi : d.integerPlaces = Section.places word := hd ▸ Section.integerPlaces_layout hw ht
  have hl : d.leastInteger ≤ d.integerPlaces := hd ▸ Section.leastInteger_le _
  have hs : fraction = [] → d.showsPoint = false := by
    rintro rfl
    have hleast : d.leastFraction = 0 := hd ▸ Section.leastFraction_layout hw ht
    have hplaces : d.hasFraction = decide (0 < 0) :=
      hd ▸ congrArg (fun n => decide (0 < n)) (Section.fractionPlaces_layout hw ht)
    simp [Display.showsPoint, hleast, hplaces]
  rw [← Display.overflow_append_run d hl, writeSection, hd, Section.layout]
  by_cases hplaces : Section.places word = 0
  · -- The point is the first to be written.
    have hf : fraction ≠ [] := hn.resolve_left fun h => h hplaces
    rw [writePieces_commas hw hplaces, if_neg hf, hi, hplaces, writePieces_fraction hf rfl]
    simp [Display.run]
  · rw [writePieces_word hw (.inr hplaces), hi, Int.sub_self]
    by_cases hf : fraction = []
    · simp [hf, hs hf, Display.run, Progress.behind]
    · rw [if_neg hf, writePieces_fraction hf rfl]
      simp

end ScriptEngine.NumberFormat
