import ScriptEngine.Proofs.NumberFormat.Selection

/-!
# Ways to write literal text

A text can be put into a pattern in single quotes, in double quotes, or with a backslash before each of its
characters. Which of these is chosen makes no difference (`literals_are_interchangeable`).

* `Section.bare`: a section without its literals, on which the layout of numbers depends alone
  (`Section.prepare_bare`, `Display.ofSection_bare`);
* `Section.spread`: a section with its literals cut into single characters, which writes the same
  (`writePieces_spread`);
* `Pattern.foldlM_alike`: sections that agree in this way stay so whatever is read behind them.
-/

namespace ScriptEngine.NumberFormat

namespace Piece

/-- Whether a piece is literal text. -/
def isLiteral : Piece → Bool
  | .literal _ => true
  | _ => false

/-- A piece, or the characters of a literal by themselves. -/
def spread : Piece → Section
  | .literal text => text.map fun c => .literal [c]
  | piece => [piece]

end Piece

namespace Section

/-- The pieces that are not literals. -/
def bare (s : Section) : Section :=
  s.filter (!·.isLiteral)

section

variable {p : Piece → Bool} (hp : ∀ text, p (.literal text) = true)
include hp

theorem takeWhile_bare (s : Section) : (bare s).takeWhile p = bare (s.takeWhile p) := by
  induction s with
  | nil => rfl
  | cons piece s ih =>
    cases hpiece : p piece with
    | true =>
      rw [List.takeWhile_cons_of_pos hpiece]
      cases piece <;> simp_all [bare, Piece.isLiteral]
    | false =>
      rw [List.takeWhile_cons_of_neg (by simp [hpiece])]
      cases piece <;> simp_all [bare, Piece.isLiteral]

theorem dropWhile_bare (s : Section) : (bare s).dropWhile p = bare (s.dropWhile p) := by
  induction s with
  | nil => rfl
  | cons piece s ih =>
    cases hpiece : p piece with
    | true =>
      rw [List.dropWhile_cons_of_pos hpiece]
      cases piece <;> simp_all [bare, Piece.isLiteral]
    | false =>
      rw [List.dropWhile_cons_of_neg (by simp [hpiece])]
      cases piece <;> simp_all [bare, Piece.isLiteral]

end

variable (s : Section)

theorem reverse_bare : (bare s).reverse = bare s.reverse :=
  List.filter_reverse.symm

theorem places_bare : places (bare s) = places s := by
  rw [places, bare, List.countP_filter]
  exact List.countP_congr fun piece _ => by cases piece <;> simp [Piece.isPlace, Piece.isLiteral]

theorem count_bare {piece : Piece} (h : piece.isLiteral = false) : (bare s).count piece = s.count piece :=
  List.count_filter (by rw [h]; rfl)

theorem integerPart_bare : integerPart (bare s) = bare (integerPart s) :=
  takeWhile_bare (fun _ => rfl) s

theorem fractionPart_bare : fractionPart (bare s) = bare (fractionPart s) :=
  dropWhile_bare (fun _ => rfl) s

theorem integerPlaces_bare : integerPlaces (bare s) = integerPlaces s := by
  rw [integerPlaces, integerPart_bare, places_bare, integerPlaces]

theorem fractionPlaces_bare : fractionPlaces (bare s) = fractionPlaces s := by
  rw [fractionPlaces, fractionPart_bare, places_bare, fractionPlaces]

theorem leastInteger_bare : leastInteger (bare s) = leastInteger s := by
  rw [leastInteger, integerPart_bare, dropWhile_bare fun _ => rfl, places_bare, leastInteger]

theorem leastFraction_bare : leastFraction (bare s) = leastFraction s := by
  rw [leastFraction, fractionPart_bare, reverse_bare, dropWhile_bare fun _ => rfl, places_bare,
    leastFraction]

theorem isScientific_bare : isScientific (bare s) = isScientific s := by
  rw [isScientific, bare, List.any_filter, isScientific]
  congr 1
  funext piece
  cases piece <;> rfl

theorem thousands_bare : thousands (bare s) = thousands s := by
  rw [thousands, integerPlaces_bare, integerPart_bare, reverse_bare, takeWhile_bare fun _ => rfl,
    count_bare _ rfl, thousands]

theorem isGrouped_bare : isGrouped (bare s) = isGrouped s := by
  have hcontains (inner : Section) : (bare inner).contains .comma = inner.contains .comma := by
    rw [Bool.eq_iff_iff, List.contains_iff_mem, List.contains_iff_mem, bare, List.mem_filter]
    exact and_iff_left rfl
  rw [isGrouped, integerPart_bare, dropWhile_bare fun _ => rfl, reverse_bare, dropWhile_bare fun _ => rfl,
    hcontains, isGrouped]

theorem scaling_bare : scaling (bare s) = scaling s := by
  rw [scaling, count_bare s rfl, count_bare s rfl, thousands_bare, scaling]

theorem prepare_bare (x : Decimal) : prepare (bare s) x = prepare s x := by
  rw [prepare, scaling_bare, isScientific_bare, places_bare, fractionPlaces_bare, prepare]

/-- The pieces with every literal cut into single characters. A section that is reversed is not cut alike,
so its layout is compared without literals. -/
def spread (s : Section) : Section :=
  s.flatMap Piece.spread

theorem spread_append (s s' : Section) : spread (s ++ s') = spread s ++ spread s' :=
  List.flatMap_append

theorem spread_characters (text : List Char) :
    spread (text.map fun c => .literal [c]) = text.map fun c => .literal [c] := by
  induction text with
  | nil => rfl
  | cons c text ih => exact congrArg (.literal [c] :: ·) ih

theorem bare_spread : bare (spread s) = bare s := by
  induction s with
  | nil => rfl
  | cons piece s ih =>
    have hpiece : bare piece.spread = bare [piece] := by
      cases piece with
      | literal text => simp [bare, Piece.spread, Piece.isLiteral]
      | _ => rfl
    have hcons : spread (piece :: s) = piece.spread ++ spread s := List.flatMap_cons
    rw [hcons, bare, List.filter_append, ← bare, ← bare, ih, hpiece, bare, bare, ← List.filter_append]
    rfl

/-- Two sections that differ at most in how their literals are cut. -/
structure Alike (s s' : Section) : Prop where
  spread_eq : spread s = spread s'
  empty_iff : s = [] ↔ s' = []

variable {s} {s' t t' : Section}

theorem Alike.refl (s : Section) : Alike s s :=
  ⟨rfl, Iff.rfl⟩

theorem Alike.append (h : Alike s s') (h' : Alike t t') : Alike (s ++ t) (s' ++ t') := by
  constructor
  · rw [spread_append, spread_append, h.spread_eq, h'.spread_eq]
  · rw [List.append_eq_nil_iff, List.append_eq_nil_iff, h.empty_iff, h'.empty_iff]

theorem Alike.bare_eq (h : Alike s s') : bare s = bare s' := by
  rw [← bare_spread s, h.spread_eq, bare_spread]

theorem Alike.prepare_eq (h : Alike s s') (x : Decimal) : prepare s x = prepare s' x := by
  rw [← prepare_bare s, h.bare_eq, prepare_bare]

end Section

/-! ## What sections write -/

variable (locale : Locale)

theorem Display.ofSection_bare (s : Section) (x : Decimal) :
    Display.ofSection locale (Section.bare s) x = Display.ofSection locale s x := by
  simp only [Display.ofSection, Section.isScientific_bare, Section.integerPlaces_bare,
    Section.leastInteger_bare, Section.leastFraction_bare, Section.fractionPlaces_bare,
    Section.isGrouped_bare]

theorem writePieces_characters (d : Display) (p : Progress) (text : List Char) (rest : Section) :
    writePieces locale d p ((text.map fun c => .literal [c]) ++ rest) =
      text ++ writePieces locale d p rest := by
  induction text with
  | nil => rfl
  | cons c text ih => exact congrArg (c :: ·) ih

theorem writePieces_spread (d : Display) (p : Progress) (s : Section) :
    writePieces locale d p (Section.spread s) = writePieces locale d p s := by
  induction s generalizing p with
  | nil => rfl
  | cons piece s ih =>
    have hcons : Section.spread (piece :: s) = piece.spread ++ Section.spread s := List.flatMap_cons
    rw [hcons]
    cases piece with
    | literal text => rw [Piece.spread, writePieces_characters, ih, writePieces]
    | _ => simp only [Piece.spread, List.singleton_append, writePieces, ih]

theorem writeSection_alike {s s' : Section} (h : Section.Alike s s') (x : Decimal) :
    writeSection locale s x = writeSection locale s' x := by
  have hdisplay : Display.ofSection locale s x = Display.ofSection locale s' x := by
    rw [← Display.ofSection_bare, h.bare_eq, Display.ofSection_bare]
  simp only [writeSection]
  rw [hdisplay, ← writePieces_spread locale _ _ s, h.spread_eq, writePieces_spread]

theorem alike_partAt {sections sections' : List Section} (h : List.Forall₂ Section.Alike sections sections')
    (index : Nat) : Section.Alike (partAt sections index) (partAt sections' index) := by
  induction h generalizing index with
  | nil => exact .refl _
  | cons hfirst hrest ih =>
    cases index with
    | zero => exact hfirst
    | succ index => exact ih index

theorem formatSections_alike {sections sections' : List Section}
    (h : List.Forall₂ Section.Alike sections sections') (x : Decimal) :
    formatSections locale sections x = formatSections locale sections' x := by
  have hlocate (index : Nat) : locate sections index = locate sections' index :=
    if_congr (alike_partAt h index).empty_iff rfl rfl
  have hsign : signIndex sections x = signIndex sections' x := hlocate _
  have hprepare (index : Nat) := (alike_partAt h index).prepare_eq x
  have hwrite (index : Nat) (y : Decimal) := writeSection_alike locale (alike_partAt h index) y
  simp only [formatSections_eq, hsign, hlocate, hprepare, hwrite]

namespace Pattern

/-- Two readings that fail in the same way, or both succeed with related results. -/
inductive Agree {α : Type} (R : α → α → Prop) : Except PatternFault α → Except PatternFault α → Prop
  | error (fault : PatternFault) : Agree R (.error fault) (.error fault)
  | ok {a b : α} (related : R a b) : Agree R (.ok a) (.ok b)

theorem Agree.bind {α β : Type} {R : α → α → Prop} {R' : β → β → Prop} {x y : Except PatternFault α}
    {f g : α → Except PatternFault β} (h : Agree R x y) (hf : ∀ a b, R a b → Agree R' (f a) (g b)) :
    Agree R' (x >>= f) (y >>= g) := by
  cases h with
  | error fault => exact .error fault
  | ok related => exact hf _ _ related

/-- Two states that differ at most in how literals are cut. -/
structure Scanner.Alike (a b : Scanner) : Prop where
  mode_eq : a.mode = b.mode
  pieces : Section.Alike a.pieces b.pieces
  sections : List.Forall₂ Section.Alike a.sections b.sections

variable {a b : Scanner}

theorem forall₂_concat {sections sections' : List Section} {s s' : Section}
    (h : List.Forall₂ Section.Alike sections sections') (hs : Section.Alike s s') :
    List.Forall₂ Section.Alike (sections ++ [s]) (sections' ++ [s']) :=
  List.rel_append h (.cons hs .nil)

theorem read_alike (h : a.Alike b) (c : Char) : Agree Scanner.Alike (a.read c) (b.read c) := by
  obtain ⟨mode, pieces, sections⟩ := a
  obtain ⟨mode', pieces', sections'⟩ := b
  obtain ⟨hmode, hpieces, hsections⟩ := h
  cases hmode
  rcases divides_or_adds mode c with ⟨hm, rfl⟩ | ⟨new, mode', hadds⟩
  · rw [read_divider hm, read_divider hm, hsections.length_eq]
    split
    · exact .error _
    · exact .ok ⟨rfl, .refl _, forall₂_concat hsections (hpieces.append (.refl _))⟩
  · rw [hadds.read, hadds.read]
    exact .ok ⟨rfl, hpieces.append (.refl new), hsections⟩

/-- States that are alike stay so whatever is read. -/
theorem foldlM_alike (h : a.Alike b) (text : List Char) :
    Agree Scanner.Alike (text.foldlM Scanner.read a) (text.foldlM Scanner.read b) := by
  induction text generalizing a b with
  | nil => exact .ok h
  | cons c text ih =>
    rw [List.foldlM_cons, List.foldlM_cons]
    exact (read_alike h c).bind fun _ _ hread => ih hread

theorem finish_alike (h : a.Alike b) :
    Agree (List.Forall₂ Section.Alike) a.finish b.finish := by
  obtain ⟨mode, pieces, sections⟩ := a
  obtain ⟨mode', pieces', sections'⟩ := b
  obtain ⟨hmode, hpieces, hsections⟩ := h
  cases hmode
  cases hm : mode.isOutside with
  | true =>
    rw [finish_outside hm, finish_outside hm]
    exact .ok (forall₂_concat hsections (hpieces.append (.refl _)))
  | false =>
    cases mode with
    | quoted | escaped => exact .error _
    | plain | marked | signed | zeros => cases hm

/-! ## Literals -/

/-- The ways to write a text as a literal. -/
inductive LiteralOf (text : List Char) : List Char → Prop
  | quoted {quote : Char} (isQuote : quote = '\'' ∨ quote = '"') (closed : quote ∉ text) :
      LiteralOf text (quote :: (text ++ [quote]))
  | escaped : LiteralOf text (text.flatMap fun c => ['\\', c])

variable {text literal literal' front : List Char} {mode : Mode}

theorem LiteralOf.opening (h : LiteralOf text literal) (hne : text ≠ []) :
    ∃ c, IsOpening c ∧ c ∈ literal := by
  cases h with
  | quoted isQuote closed => exact ⟨_, or_assoc.mp (.inl isQuote), List.mem_cons_self⟩
  | escaped =>
    obtain ⟨c, rest, rfl⟩ := List.exists_cons_of_ne_nil hne
    exact ⟨'\\', .inr (.inr rfl), List.mem_cons_self⟩

theorem adds_escapes (text : List Char) :
    Adds (text.flatMap fun c => ['\\', c]) .plain (text.map fun c => .literal [c]) .plain := by
  have hplain : Mode.plain.isOutside = true := rfl
  induction text with
  | nil => exact .nil
  | cons c text ih => exact (adds_escaped hplain c).append ih

/-- A literal adds its text, in one piece or in several. -/
theorem LiteralOf.adds (h : LiteralOf text literal) (hne : text ≠ []) (hm : mode.isOutside = true) :
    ∃ new, Adds literal mode (mode.pending ++ new) .plain ∧
      Section.spread new = (text.map fun c => .literal [c]) ∧ new ≠ [] := by
  cases h with
  | quoted isQuote closed =>
    exact ⟨[.literal text], adds_quoted hm isQuote closed, by simp [Section.spread, Piece.spread],
      List.cons_ne_nil _ _⟩
  | escaped =>
    obtain ⟨c, rest, rfl⟩ := List.exists_cons_of_ne_nil hne
    have hadds := (adds_escaped hm c).append (adds_escapes rest)
    rw [List.append_assoc] at hadds
    exact ⟨_, hadds, Section.spread_characters (c :: rest), List.cons_ne_nil _ _⟩

theorem LiteralOf.foldlM_alike (h : LiteralOf text literal) (h' : LiteralOf text literal')
    (hne : text ≠ []) (hm : a.mode.isOutside = true) :
    Agree Scanner.Alike (literal.foldlM Scanner.read a) (literal'.foldlM Scanner.read a) := by
  obtain ⟨new, hadds, hspread, hnew⟩ := h.adds hne hm
  obtain ⟨new', hadds', hspread', hnew'⟩ := h'.adds hne hm
  have halike : Section.Alike new new' := ⟨hspread.trans hspread'.symm, iff_of_false hnew hnew'⟩
  obtain ⟨mode, pieces, sections⟩ := a
  rw [hadds, hadds']
  have hsections : List.Forall₂ Section.Alike sections sections := List.forall₂_same.mpr fun _ _ => .refl _
  exact .ok ⟨rfl, (Section.Alike.refl _).append ((Section.Alike.refl _).append halike), hsections⟩

theorem parse_alike {texts : List (List Char)} (hfront : Divided front texts)
    (h : LiteralOf text literal) (h' : LiteralOf text literal') (hne : text ≠ []) (back : List Char) :
    Agree (List.Forall₂ Section.Alike) (parse (front ++ literal ++ back))
      (parse (front ++ literal' ++ back)) := by
  have hread : Agree Scanner.Alike ((front ++ literal ++ back).foldlM Scanner.read {})
      ((front ++ literal' ++ back).foldlM Scanner.read {}) := by
    rw [List.append_assoc, List.append_assoc, List.foldlM_append, List.foldlM_append]
    rcases hfront.foldlM with ⟨-, herror⟩ | ⟨-, s, hok, hm⟩
    · rw [herror]
      exact .error _
    · rw [hok]
      show Agree _ ((literal ++ back).foldlM Scanner.read s) ((literal' ++ back).foldlM Scanner.read s)
      rw [List.foldlM_append, List.foldlM_append]
      exact (h.foldlM_alike h' hne hm).bind fun _ _ hliteral => foldlM_alike hliteral back
  exact hread.bind fun _ _ hlast => finish_alike hlast

end Pattern

open Pattern

theorem standardShape?_literal {text : List Char} {c : Char} (hc : IsOpening c) (hmem : c ∈ text) :
    standardShape? text = none := by
  have hletter : c.isAlpha = false ∧ Text.isDecimalDigit c = false := by
    rcases hc with rfl | rfl | rfl <;> decide +kernel
  cases text with
  | nil => rfl
  | cons first rest =>
    refine if_neg fun hshape => ?_
    simp only [Bool.and_eq_true] at hshape
    rcases List.mem_cons.mp hmem with rfl | hrest
    · exact Bool.false_ne_true (hletter.1.symm.trans hshape.1.1)
    · exact Bool.false_ne_true (hletter.2.symm.trans (List.all_eq_true.mp hshape.2 c hrest))

theorem write_custom {text : List Char} {c : Char} (hc : IsOpening c) (hmem : c ∈ text) (v : Float)
    (name : String) :
    (write v (String.ofList text) name).toOption =
      (Locale.find? name).bind fun locale =>
        (Pattern.parse text).toOption.map fun sections => apply (.custom sections) locale v := by
  obtain ⟨first, rest, rfl⟩ := List.exists_cons_of_ne_nil (List.ne_nil_of_mem hmem)
  have hempty := isEmpty_of_toList (@String.toList_ofList (first :: rest))
  have hshape := standardShape?_literal hc hmem
  unfold write
  cases Locale.find? name with
  | none => rfl
  | some locale =>
    cases hparse : Pattern.parse (first :: rest) with
    | error fault =>
      have hread : parse (String.ofList (first :: rest)) =
          .error (.malformed (String.ofList (first :: rest)) fault) := by
        simp only [parse, hempty, String.toList_ofList, hshape, hparse, Bool.false_eq_true, if_false]
      rw [hread]
      rfl
    | ok sections =>
      have hread : parse (String.ofList (first :: rest)) = .ok (.custom sections) := by
        simp only [parse, hempty, String.toList_ofList, hshape, hparse, Bool.false_eq_true, if_false]
      rw [hread]
      rfl

/-- The ways to write a literal are interchangeable. Behind any text that ends outside of literals, and
before any text at all, a text that is not empty can be put in single quotes or in double quotes, if it does
not hold such a quote, or with a backslash before each of its characters: either none of these formats is
accepted or all are, and write every double alike in every locale. -/
theorem literals_are_interchangeable {front text literal literal' : List Char} {texts : List (List Char)}
    (hfront : Divided front texts) (hne : text ≠ []) (h : LiteralOf text literal)
    (h' : LiteralOf text literal') (back : List Char) (v : Float) (name : String) :
    (write v (String.ofList (front ++ literal ++ back)) name).toOption =
      (write v (String.ofList (front ++ literal' ++ back)) name).toOption := by
  obtain ⟨c, hc, hmem⟩ := h.opening hne
  obtain ⟨c', hc', hmem'⟩ := h'.opening hne
  have hin : c ∈ front ++ literal ++ back :=
    List.mem_append_left back (List.mem_append_right front hmem)
  have hin' : c' ∈ front ++ literal' ++ back :=
    List.mem_append_left back (List.mem_append_right front hmem')
  have hagree := parse_alike hfront h h' hne back
  rw [write_custom hc hin, write_custom hc' hin']
  cases Locale.find? name with
  | none => rfl
  | some locale =>
    generalize Pattern.parse (front ++ literal ++ back) = sections at hagree ⊢
    generalize Pattern.parse (front ++ literal' ++ back) = sections' at hagree ⊢
    cases hagree with
    | error fault => rfl
    | @ok sections sections' halike =>
      have hformat := formatSections_alike locale halike (Decimal.significant 15 v)
      show some (apply (.custom sections) locale v) = some (apply (.custom sections') locale v)
      simp only [apply, formatCustom, hformat]

/-- A divider, a placeholder, an exponent and a single quote are no more than text behind a mark that might
have begun an exponent. -/
theorem quoted_divider_like_escaped :
    Divided "0;#E".toList ["0".toList, "#E".toList] ∧
    LiteralOf ";#E0'".toList "\";#E0'\"".toList ∧ LiteralOf ";#E0'".toList "\\;\\#\\E\\0\\'".toList ∧
    (write (-12.5) "0;#E\";#E0'\"0.0" "en-US").toOption =
      (write (-12.5) "0;#E\\;\\#\\E\\0\\'0.0" "en-US").toOption ∧
    (write (-12.5) "0;#E\";#E0'\"0.0" "en-US").toOption = some "1E;#E0'2.5" := by
  have hfront : Divided "0;#E".toList ["0".toList, "#E".toList] := by
    have hfirst : SectionText "0".toList := .of_plain (by simp [IsOpening])
    have hsecond : SectionText "#E".toList := .of_plain (by simp [IsOpening])
    exact ⟨List.cons_ne_nil _ _, List.forall_mem_cons.mpr
      ⟨hfirst, List.forall_mem_singleton.mpr hsecond⟩, rfl⟩
  have hquoted : LiteralOf ";#E0'".toList "\";#E0'\"".toList :=
    @LiteralOf.quoted ";#E0'".toList '"' (.inr rfl) (by decide)
  have hescaped : LiteralOf ";#E0'".toList "\\;\\#\\E\\0\\'".toList := .escaped
  have hne : ";#E0'".toList ≠ [] := List.cons_ne_nil _ _
  exact ⟨hfront, hquoted, hescaped,
    literals_are_interchangeable hfront hne hquoted hescaped "0.0".toList (-12.5) "en-US",
    by decide +kernel⟩

end ScriptEngine.NumberFormat
