import Mathlib.Data.List.Induction
import ScriptEngine.Proofs.NumberFormat.Sections

/-!
# One look through a section

What a section counts is defined by its parts: the pieces before the point, those from the first required
placeholder on, those behind the last placeholder, and so on. A `Survey` finds all of it in one look through
the pieces from left to right, with a few counters and a flag for what a later piece may still change.
`Survey.finds_ofSection` says what the counters hold after any number of pieces, so that in the end a number
is prepared and displayed as the section asks for (`Survey.prepare_ofSection`, `Survey.display_ofSection`).
-/

namespace ScriptEngine.NumberFormat

/-- The commas between the first placeholder and the point that have been met. -/
structure CommaSurvey where
  /-- Whether a placeholder stands between two of them. -/
  grouped : Bool := false
  /-- Placeholders before the latest one. -/
  latest : Option Nat := none
  /-- Commas behind the same placeholder as the latest one. -/
  count : Nat := 0

/-- Meets a comma behind a number of placeholders. -/
def CommaSurvey.add (c : CommaSurvey) (places : Nat) : CommaSurvey :=
  if c.latest = some places then { c with count := c.count + 1 }
  else ⟨c.grouped || c.latest.isSome, some places, 1⟩

/-- The counters of a look through a section. -/
structure Survey where
  /-- Placeholders. -/
  places : Nat := 0
  /-- Placeholders before the first point, once there is one. -/
  point : Option Nat := none
  /-- Placeholders before the first required one, once there is one. -/
  first : Option Nat := none
  /-- Placeholders up to the last required one. -/
  last : Nat := 0
  scientific : Bool := false
  /-- The power of ten of the percent and per mille marks. -/
  power : Int := 0
  commas : CommaSurvey := {}

namespace Survey

section

variable (v : Survey)

/-- Meets a placeholder. -/
def addPlace (required : Bool) : Survey :=
  { v with
    places := v.places + 1
    first := if required then v.first.or (some v.places) else v.first
    last := if required then v.places + 1 else v.last }

/-- Meets a point. -/
def addPoint : Survey :=
  { v with point := v.point.or (some v.places) }

/-- Meets a comma. -/
def addComma : Survey :=
  { v with commas := if 0 < v.places ∧ v.point = none then v.commas.add v.places else v.commas }

/-- Meets a mark that multiplies by a power of ten. -/
def addPower (power : Int) : Survey :=
  { v with power := v.power + power }

/-- Meets an exponent. -/
def addExponent : Survey :=
  { v with scientific := true }

/-- Looks at one more piece. -/
def add : Piece → Survey
  | .place required => v.addPlace required
  | .point => v.addPoint
  | .comma => v.addComma
  | .percent => v.addPower 2
  | .perMille => v.addPower 3
  | .exponent .. => v.addExponent
  | .literal _ => v

def integerPlaces : Nat :=
  v.point.getD v.places

def leastInteger : Nat :=
  v.integerPlaces - v.first.getD v.integerPlaces

def leastFraction : Nat :=
  v.last - v.integerPlaces

/-- The latest commas divide by a thousand if no placeholder stands between them and the point. -/
def thousands : Nat :=
  if v.commas.latest = some v.integerPlaces then v.commas.count else 0

/-- Otherwise they group digits, as all earlier ones do. -/
def isGrouped : Bool :=
  v.commas.grouped || v.commas.latest.any (· != v.integerPlaces)

/-- A number scaled and rounded as far as the section shows it. -/
def prepare (x : Decimal) : Decimal :=
  let scaled := x.shift (v.power - 3 * v.thousands)
  scaled.round (if v.scientific then v.places else scaled.scale + v.places - v.integerPlaces)

/-- The display of a prepared number. -/
def display (locale : Locale) (x : Decimal) : Display where
  number := if v.scientific then { x with scale := v.integerPlaces } else x
  leastInteger := v.leastInteger
  leastFraction := v.leastFraction
  integerPlaces := v.integerPlaces
  hasFraction := v.integerPlaces < v.places
  separator := if v.isGrouped then locale.groupSeparator.toList else []
  power := if x.isZero then 0 else x.scale - v.integerPlaces

end

/-- The look through a whole section. -/
def ofSection (s : Section) : Survey :=
  s.foldl add {}

end Survey

/-! ## Sections with one more piece -/

namespace Section

theorem takeWhile_append_of_mem {p : Piece → Bool} {s : Section} {piece : Piece} (hm : piece ∈ s)
    (hp : p piece = false) (rest : Section) : (s ++ rest).takeWhile p = s.takeWhile p := by
  rw [List.takeWhile_append, if_neg fun hlength => ?_]
  have hall := List.takeWhile_eq_self_iff.mp ((List.takeWhile_sublist p).eq_of_length hlength)
  exact Bool.false_ne_true (hp.symm.trans (hall piece hm))

theorem takeWhile_ne_of_not_mem {mark : Piece} {s : Section} (h : mark ∉ s) :
    s.takeWhile (· != mark) = s := by
  refine List.takeWhile_eq_self_iff.mpr fun other hm => bne_iff_ne.mpr ?_
  rintro rfl
  exact h hm

theorem takeWhile_ne_concat (mark : Piece) (s : Section) (piece : Piece) :
    (s ++ [piece]).takeWhile (· != mark) =
      if mark ∈ s then s.takeWhile (· != mark) else if piece = mark then s else s ++ [piece] := by
  by_cases hs : mark ∈ s
  · have hstop : (mark != mark) = false := bne_self_eq_false mark
    rw [if_pos hs]
    exact @takeWhile_append_of_mem (· != mark) s mark hs hstop _
  · rw [if_neg hs, List.takeWhile_append, takeWhile_ne_of_not_mem hs, if_pos rfl]
    by_cases hp : piece = mark <;> simp [hp]

/-- The placeholders before the first piece of a kind, if there is one. -/
def placesBefore (mark : Piece) (s : Section) : Option Nat :=
  if mark ∈ s then some (places (s.takeWhile (· != mark))) else none

theorem placesBefore_concat (mark : Piece) (s : Section) (piece : Piece) :
    placesBefore mark (s ++ [piece]) =
      (placesBefore mark s).or (if piece = mark then some (places s) else none) := by
  simp only [placesBefore, takeWhile_ne_concat, List.mem_append, List.mem_singleton, eq_comm (a := mark)]
  by_cases hs : mark ∈ s <;> by_cases hp : piece = mark <;> simp [hs, hp]

theorem integerPlaces_eq (s : Section) : integerPlaces s = (placesBefore .point s).getD (places s) := by
  unfold integerPlaces integerPart placesBefore
  split
  · rfl
  · rename_i hs
    rw [takeWhile_ne_of_not_mem hs]
    rfl

/-- The pieces before the point from the first placeholder on. -/
def core (s : Section) : Section :=
  (integerPart s).dropWhile (!·.isPlace)

theorem core_eq_nil_iff (s : Section) : core s = [] ↔ integerPlaces s = 0 := by
  rw [core, List.dropWhile_eq_nil_iff, integerPlaces, places, List.countP_eq_zero]
  simp

theorem thousands_eq (s : Section) :
    thousands s = ((core s).reverse.takeWhile (!·.isPlace)).count .comma := by
  unfold thousands
  by_cases hnone : integerPlaces s = 0
  · rw [if_pos hnone, (core_eq_nil_iff s).mpr hnone]
    rfl
  · -- The first placeholder ends the look from the right, so nothing before it matters.
    have hcore : core s ≠ [] := fun h => hnone ((core_eq_nil_iff s).mp h)
    have hfirst : (!((core s).head hcore).isPlace) = false :=
      List.head_dropWhile_not _ hcore
    have hsplit : (integerPart s).reverse =
        (core s).reverse ++ ((integerPart s).takeWhile (!·.isPlace)).reverse := by
      rw [← List.reverse_append, core, List.takeWhile_append_dropWhile]
    rw [if_neg hnone, hsplit, takeWhile_append_of_mem (List.mem_reverse.mpr (List.head_mem hcore)) hfirst]

theorem isGrouped_eq (s : Section) :
    isGrouped s = ((core s).reverse.dropWhile (!·.isPlace)).contains .comma :=
  rfl

section

variable {s : Section} (hs : .point ∉ s)
include hs

theorem core_concat (piece : Piece) :
    core (s ++ [piece]) =
      if core s = [] then (if piece.isPlace then [piece] else [])
      else if piece = .point then core s else core s ++ [piece] := by
  have hself : integerPart s = s := takeWhile_ne_of_not_mem hs
  have hinteger : integerPart (s ++ [piece]) = if piece = .point then s else s ++ [piece] := by
    rw [integerPart, takeWhile_ne_concat, if_neg hs]
  rw [core, core, hself, hinteger]
  by_cases hp : piece = .point
  · simp only [hp, if_true, Piece.isPlace]
    split <;> simp_all
  · simp only [hp, if_false, List.dropWhile_append, List.isEmpty_iff]
    split
    · cases hplace : piece.isPlace <;> simp [hplace]
    · rfl

/-- Commas behind the last placeholder count until another one follows. -/
theorem thousands_concat (piece : Piece) :
    thousands (s ++ [piece]) =
      if piece.isPlace then 0
      else if piece = .comma ∧ integerPlaces s ≠ 0 then thousands s + 1 else thousands s := by
  have hnone := core_eq_nil_iff s
  rw [thousands_eq, thousands_eq, core_concat hs]
  by_cases hcore : core s = []
  · cases hplace : piece.isPlace <;> simp [hcore, hplace, hnone.mp hcore]
  · have hsome : integerPlaces s ≠ 0 := hnone.not.mp hcore
    cases piece <;> simp [hcore, hsome, Piece.isPlace]

/-- They group digits once another placeholder follows. -/
theorem isGrouped_concat (piece : Piece) :
    isGrouped (s ++ [piece]) = (isGrouped s || (piece.isPlace && decide (0 < thousands s))) := by
  rw [isGrouped_eq, isGrouped_eq, thousands_eq, core_concat hs]
  by_cases hcore : core s = []
  · cases hplace : piece.isPlace <;> simp [hcore, hplace]
    rintro rfl
    cases hplace
  · cases piece with
    | place required =>
      have hsplit : Piece.comma ∈ core s ↔
          .comma ∈ (core s).reverse.takeWhile (!·.isPlace) ∨
          .comma ∈ (core s).reverse.dropWhile (!·.isPlace) := by
        rw [← List.mem_append, List.takeWhile_append_dropWhile, List.mem_reverse]
      rw [Bool.eq_iff_iff]
      simp only [hcore, if_false, reduceCtorEq, List.reverse_append, List.reverse_singleton,
        List.singleton_append, List.dropWhile_cons, Piece.isPlace, Bool.not_true, Bool.false_eq_true,
        List.contains_eq_mem, List.mem_cons, List.mem_reverse, false_or, decide_eq_true_eq, Bool.true_and,
        Bool.or_eq_true, List.count_pos_iff, hsplit]
      exact or_comm
    | _ => simp [hcore, Piece.isPlace]

end

/-- Behind the point nothing changes for the commas. -/
theorem integerPart_concat_of_mem {s : Section} (hs : .point ∈ s) (piece : Piece) :
    integerPart (s ++ [piece]) = integerPart s := by
  rw [integerPart, takeWhile_ne_concat, if_pos hs]
  rfl

end Section

namespace Survey

/-! ## What a survey finds -/

/-- The counters for places and marks after some pieces. -/
structure Counts (v : Survey) (s : Section) : Prop where
  places : v.places = Section.places s
  point : v.point = Section.placesBefore .point s
  first : v.first = Section.placesBefore (.place true) s
  last : v.last = Section.places (s.reverse.dropWhile (· != .place true))
  scientific : v.scientific = Section.isScientific s
  power : v.power = 2 * s.count .percent + 3 * s.count .perMille

variable {v : Survey} {s : Section}

theorem Counts.add (h : Counts v s) (piece : Piece) : Counts (v.add piece) (s ++ [piece]) where
  places := by
    rw [Section.places_append, ← h.places]
    cases piece <;> rfl
  point := by
    rw [Section.placesBefore_concat, ← h.point, ← h.places]
    cases piece <;> simp [Survey.add, addPlace, addPoint, addComma, addPower, addExponent]
  first := by
    rw [Section.placesBefore_concat, ← h.first, ← h.places]
    cases piece with
    | place required => cases required <;> simp [Survey.add, addPlace]
    | _ => simp [Survey.add, addPoint, addComma, addPower, addExponent]
  last := by
    rw [List.reverse_append, List.reverse_singleton, List.singleton_append, List.dropWhile_cons]
    cases piece with
    | place required =>
      cases required with
      | true =>
        have hall : Section.places (.place true :: s.reverse) = Section.places s + 1 := by
          rw [Section.places, List.countP_cons, List.countP_reverse]
          rfl
        exact (congrArg (· + 1) h.places).trans hall.symm
      | false => exact h.last
    | _ => exact h.last
  scientific := by
    have hconcat : Section.isScientific (s ++ [piece]) = (Section.isScientific s || piece.isExponent) := by
      simp [Section.isScientific]
    rw [hconcat, ← h.scientific]
    cases piece <;>
      simp [Survey.add, addPlace, addPoint, addComma, addPower, addExponent, Piece.isExponent]
  power := by
    have hpower := h.power
    cases piece <;> simp [Survey.add, addPlace, addPoint, addComma, addPower, addExponent] <;> omega

/-- The counters for commas after some pieces. -/
structure Commas (v : Survey) (s : Section) : Prop where
  latest : ∀ places, v.commas.latest = some places → places ≤ v.integerPlaces ∧ 0 < v.commas.count
  thousands : v.thousands = Section.thousands s
  isGrouped : v.isGrouped = Section.isGrouped s

/-- Nothing changes as long as neither the commas nor the placeholders before the point do. -/
theorem Commas.congr {v' : Survey} {s' : Section} (h : Commas v s) (hcommas : v'.commas = v.commas)
    (hplaces : v'.integerPlaces = v.integerPlaces) (ht : Section.thousands s' = Section.thousands s)
    (hg : Section.isGrouped s' = Section.isGrouped s) : Commas v' s' where
  latest places hl := by
    rw [hcommas] at hl ⊢
    rw [hplaces]
    exact h.latest places hl
  thousands := by rw [Survey.thousands, hcommas, hplaces, ht, ← h.thousands, Survey.thousands]
  isGrouped := by rw [Survey.isGrouped, hcommas, hplaces, hg, ← h.isGrouped, Survey.isGrouped]

section

variable {s' : Section} (h : Commas v s) (hpoint : v.point = none)
include h hpoint

/-- A placeholder before the point turns commas behind the one before it into commas between them. -/
theorem Commas.addPlace (required : Bool) (ht : Section.thousands s' = 0)
    (hg : Section.isGrouped s' = (v.isGrouped || decide (0 < v.thousands))) :
    Commas (v.addPlace required) s' := by
  have hplaces : v.integerPlaces = v.places := by rw [integerPlaces, hpoint, Option.getD_none]
  have hplaces' : (v.addPlace required).integerPlaces = v.places + 1 := by
    simp [Survey.addPlace, integerPlaces, hpoint]
  have hcommas : (v.addPlace required).commas = v.commas := rfl
  cases hlatest : v.commas.latest with
  | none =>
    refine ⟨fun places hl => ?_, ?_, ?_⟩
    · cases (hlatest.symm.trans hl)
    · rw [ht, Survey.thousands, hcommas, hlatest]
      rfl
    · simp [hg, Survey.isGrouped, Survey.thousands, hcommas, hlatest]
  | some before =>
    obtain ⟨hle, hpos⟩ := h.latest before hlatest
    rw [hplaces] at hle
    have hne : before ≠ v.places + 1 := by omega
    refine ⟨fun places hl => ?_, ?_, ?_⟩
    · obtain rfl := Option.some.inj (hlatest.symm.trans hl)
      exact ⟨by omega, hpos⟩
    · simp [ht, Survey.thousands, hcommas, hlatest, hplaces', hne]
    · have hother : (before != v.places + 1) = true := bne_iff_ne.mpr hne
      by_cases hsame : before = v.places <;>
        simp [hg, Survey.isGrouped, Survey.thousands, hcommas, hlatest, hplaces, hplaces', hother, hsame,
          hpos]

/-- A comma before the point divides by a thousand unless a placeholder follows. -/
theorem Commas.addComma
    (ht : Section.thousands s' = if 0 < v.places then v.thousands + 1 else v.thousands)
    (hg : Section.isGrouped s' = v.isGrouped) : Commas v.addComma s' := by
  have hplaces : v.integerPlaces = v.places := by rw [integerPlaces, hpoint, Option.getD_none]
  have hplaces' : v.addComma.integerPlaces = v.places := hplaces
  by_cases hnone : 0 < v.places
  · have hcommas : v.addComma.commas = v.commas.add v.places := if_pos ⟨hnone, hpoint⟩
    rw [if_pos hnone] at ht
    by_cases hsame : v.commas.latest = some v.places
    · refine ⟨fun places hl => ?_, ?_, ?_⟩ <;>
        simp_all [Survey.thousands, Survey.isGrouped, CommaSurvey.add]
    · refine ⟨fun places hl => ?_, ?_, ?_⟩
      · simp_all [CommaSurvey.add]
      · simp_all [Survey.thousands, CommaSurvey.add]
      · cases hlatest : v.commas.latest <;>
          simp_all [Survey.isGrouped, CommaSurvey.add]
  · have hcommas : v.addComma.commas = v.commas := if_neg fun hsome => hnone hsome.1
    rw [if_neg hnone] at ht
    exact h.congr hcommas rfl (ht.trans h.thousands) (hg.trans h.isGrouped)

end

theorem Commas.add (h : Commas v s) (hcounts : Counts v s) (piece : Piece) :
    Commas (v.add piece) (s ++ [piece]) := by
  by_cases hs : .point ∈ s
  · -- Behind the point commas are not looked at, and placeholders do not count for them.
    have hpart := Section.integerPart_concat_of_mem hs piece
    obtain ⟨before, hpoint⟩ : ∃ before, v.point = some before :=
      ⟨_, hcounts.point.trans (if_pos hs)⟩
    refine h.congr ?_ ?_ ?_ ?_
    · cases piece <;>
        simp [Survey.add, Survey.addPlace, addPoint, Survey.addComma, addPower, addExponent, hpoint]
    · cases piece <;>
        simp [Survey.add, Survey.addPlace, addPoint, Survey.addComma, addPower, addExponent, integerPlaces,
          hpoint]
    · rw [Section.thousands_eq, Section.thousands_eq, Section.core, Section.core, hpart]
    · rw [Section.isGrouped_eq, Section.isGrouped_eq, Section.core, Section.core, hpart]
  · have hpoint : v.point = none := hcounts.point.trans (if_neg hs)
    have hinteger : v.places = Section.integerPlaces s := by
      rw [Section.integerPlaces_eq, ← hcounts.point, hpoint, hcounts.places, Option.getD_none]
    have hthousands := Section.thousands_concat hs piece
    have hgrouped := Section.isGrouped_concat hs piece
    rw [← h.thousands, ← hinteger] at hthousands
    rw [← h.isGrouped, ← h.thousands] at hgrouped
    cases piece with
    | place required => exact h.addPlace hpoint required hthousands hgrouped
    | comma =>
      refine h.addComma hpoint ?_ ?_
      · simpa [Piece.isPlace, Nat.pos_iff_ne_zero] using hthousands
      · simpa [Piece.isPlace] using hgrouped
    | point =>
      refine h.congr rfl ?_ (hthousands.trans h.thousands) (hgrouped.trans ?_)
      · simp [Survey.add, addPoint, integerPlaces, hpoint]
      · simp [Piece.isPlace, h.isGrouped]
    | percent | perMille | exponent | literal =>
      refine h.congr rfl rfl (hthousands.trans h.thousands) (hgrouped.trans ?_)
      simp [Piece.isPlace, h.isGrouped]

theorem finds_ofSection (s : Section) : Counts (ofSection s) s ∧ Commas (ofSection s) s := by
  induction s using List.reverseRecOn with
  | nil =>
    refine ⟨⟨rfl, rfl, rfl, rfl, rfl, rfl⟩, ⟨fun places hl => ?_, rfl, rfl⟩⟩
    cases hl
  | append_singleton s piece ih =>
    have hadd : ofSection (s ++ [piece]) = (ofSection s).add piece := by
      rw [ofSection, List.foldl_concat, ← ofSection]
    rw [hadd]
    exact ⟨ih.1.add piece, ih.2.add ih.1 piece⟩

section

variable (h : Counts v s)
include h

theorem Counts.integerPlaces_eq : v.integerPlaces = Section.integerPlaces s := by
  rw [integerPlaces, h.point, h.places, Section.integerPlaces_eq]

theorem Counts.leastInteger_eq : v.leastInteger = Section.leastInteger s := by
  have hsplit : Section.integerPart s ++ Section.fractionPart s = s := List.takeWhile_append_dropWhile
  rw [leastInteger, h.first, h.integerPlaces_eq, Section.leastInteger, Section.integerPlaces]
  by_cases hrequired : .place true ∈ Section.integerPart s
  · have hfirst := @Section.takeWhile_append_of_mem (· != .place true) _ _ hrequired
      (bne_self_eq_false _) (Section.fractionPart s)
    have hplaces := Section.places_append ((Section.integerPart s).takeWhile (· != .place true))
      ((Section.integerPart s).dropWhile (· != .place true))
    rw [List.takeWhile_append_dropWhile] at hplaces
    have hmem : .place true ∈ s := hsplit ▸ List.mem_append_left _ hrequired
    rw [hsplit] at hfirst
    rw [Section.placesBefore, if_pos hmem, hfirst, Option.getD_some]
    omega
  · -- The first required placeholder, if there is one, stands behind the point.
    have hall : ∀ piece ∈ Section.integerPart s, (piece != .place true) = true :=
      List.takeWhile_eq_self_iff.mp (Section.takeWhile_ne_of_not_mem hrequired)
    rw [List.dropWhile_eq_nil_iff.mpr hall, Section.placesBefore]
    split
    · have hfirst : s.takeWhile (· != .place true) =
          Section.integerPart s ++ (Section.fractionPart s).takeWhile (· != .place true) := by
        rw [← List.takeWhile_append_of_pos hall, hsplit]
      rw [hfirst, Option.getD_some, Section.places_append]
      exact Nat.sub_eq_zero_of_le (Nat.le_add_right _ _)
    · exact Nat.sub_self _

theorem Counts.leastFraction_eq : v.leastFraction = Section.leastFraction s := by
  have hsplit : s.reverse = (Section.fractionPart s).reverse ++ (Section.integerPart s).reverse := by
    rw [← List.reverse_append, Section.integerPart, Section.fractionPart, List.takeWhile_append_dropWhile]
  have hreverse : Section.places (Section.integerPart s).reverse = Section.integerPlaces s :=
    List.countP_reverse
  rw [leastFraction, h.last, h.integerPlaces_eq, Section.leastFraction, hsplit, List.dropWhile_append]
  split
  · -- All required placeholders stand before the point.
    rename_i hnone
    rw [List.isEmpty_iff.mp hnone]
    refine Nat.sub_eq_zero_of_le (Nat.le_trans ?_ hreverse.le)
    exact (List.dropWhile_sublist _).countP_le
  · rw [Section.places_append, hreverse, Nat.add_sub_cancel]

end

theorem prepare_ofSection (s : Section) (x : Decimal) : (ofSection s).prepare x = Section.prepare s x := by
  obtain ⟨hcounts, hcommas⟩ := finds_ofSection s
  have hplaces := Section.places_eq s
  have hfraction (scale : Int) : scale + Section.places s - Section.integerPlaces s =
      scale + Section.fractionPlaces s := by
    rw [hplaces]
    push_cast
    omega
  simp only [prepare, Section.prepare, Section.scaling, hcounts.power, hcommas.thousands, hcounts.scientific,
    hcounts.places, hcounts.integerPlaces_eq, hfraction]

theorem display_ofSection (locale : Locale) (s : Section) (x : Decimal) :
    (ofSection s).display locale x = Display.ofSection locale s x := by
  obtain ⟨hcounts, hcommas⟩ := finds_ofSection s
  have hfraction : (Section.integerPlaces s < Section.places s) = (0 < Section.fractionPlaces s) := by
    rw [Section.places_eq s]
    exact propext (Nat.lt_add_right_iff_pos)
  simp only [display, Display.ofSection, hcounts.scientific, hcounts.places, hcounts.integerPlaces_eq,
    hcounts.leastInteger_eq, hcounts.leastFraction_eq, hcommas.isGrouped, hfraction]

end Survey

end ScriptEngine.NumberFormat
