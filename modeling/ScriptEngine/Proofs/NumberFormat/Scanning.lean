import Mathlib.Data.List.Forall2
import ScriptEngine.Proofs.NumberFormat.Reading

/-!
# Patterns divided into sections

What a character of a pattern does depends on the mode of the scanner alone: it divides sections, or it adds
pieces to the one being read and changes the mode (`Pattern.Adds`). So a text with all its quotes closed and
no divider outside of them (`Pattern.SectionText`) stands for the same pieces wherever it is read
(`Pattern.SectionText.stands`), and a pattern is read as the sections that its dividers leave
(`Pattern.parse_divided`). Every pattern that is read at all is divided in this way
(`Pattern.divided_of_parse`).
-/

namespace ScriptEngine.NumberFormat.Pattern

/-- Whether a mode lies outside of literals. -/
def Mode.isOutside : Mode → Bool
  | .quoted .. | .escaped => false
  | _ => true

/-- The pieces that a mode turns into when something else follows. -/
def Mode.pending : Mode → Section
  | .marked mark => [.literal [mark]]
  | .signed mark sign => [.literal [mark], .literal [sign]]
  | .zeros mark sign count => [.exponent mark sign count]
  | _ => []

variable {mode mode' mode'' : Mode} {new new' : Section}

theorem Scanner.settle_eq (h : mode.isOutside = true) (pieces : Section) (sections : List Section) :
    Scanner.settle ⟨mode, pieces, sections⟩ = ⟨.plain, pieces ++ mode.pending, sections⟩ := by
  cases mode with
  | quoted | escaped => cases h
  | plain => simp [settle, Mode.pending]
  | marked | signed | zeros => simp [settle, push, Mode.pending]

/-- Reading a text takes the scanner from one mode to another and adds pieces to the section being read. -/
def Adds (text : List Char) (mode : Mode) (new : Section) (mode' : Mode) : Prop :=
  ∀ pieces sections, text.foldlM Scanner.read ⟨mode, pieces, sections⟩ =
    .ok ⟨mode', pieces ++ new, sections⟩

variable {text text' : List Char} {c quote : Char}

theorem Adds.nil : Adds [] mode [] mode := by
  intro pieces sections
  rw [List.append_nil]
  rfl

theorem Adds.append (h : Adds text mode new mode') (h' : Adds text' mode' new' mode'') :
    Adds (text ++ text') mode (new ++ new') mode'' := by
  intro pieces sections
  rw [List.foldlM_append, h]
  exact (h' (pieces ++ new) sections).trans (by rw [List.append_assoc])

theorem Adds.of_read (h : ∀ pieces sections, Scanner.read ⟨mode, pieces, sections⟩ c =
    .ok ⟨mode', pieces ++ new, sections⟩) : Adds [c] mode new mode' := by
  intro pieces sections
  rw [List.foldlM_cons, h]
  rfl

theorem Adds.read (h : Adds [c] mode new mode') (pieces : Section) (sections : List Section) :
    Scanner.read ⟨mode, pieces, sections⟩ c = .ok ⟨mode', pieces ++ new, sections⟩ := by
  rw [← h pieces sections, List.foldlM_cons]
  exact (bind_pure _).symm

/-! ## Characters outside of literals -/

/-- The characters that belong to the exponent which a mode has begun. -/
def Mode.Continues : Mode → Char → Prop
  | .marked _, c => c = '0' ∨ c = '+' ∨ c = '-'
  | .signed .., c | .zeros .., c => c = '0'
  | _, _ => False

theorem adds_continued (h : mode.Continues c) :
    ∃ mode', Adds [c] mode [] mode' ∧ mode'.isOutside = true ∧ mode'.pending ≠ [] := by
  cases mode with
  | plain | quoted | escaped => cases h
  | marked mark =>
    rcases h with rfl | hsign
    · refine ⟨.zeros mark .absent 1, .of_read fun pieces sections => ?_, rfl, List.cons_ne_nil _ _⟩
      rw [List.append_nil]
      rfl
    · have h0 : c ≠ '0' := by rcases hsign with rfl | rfl <;> decide
      refine ⟨.signed mark c, .of_read fun pieces sections => ?_, rfl, List.cons_ne_nil _ _⟩
      rw [List.append_nil]
      simp only [Scanner.read, h0, hsign, if_false, if_true]
  | signed mark sign =>
    obtain rfl := h
    refine ⟨.zeros mark (Scanner.signOf sign) 1, .of_read fun pieces sections => ?_, rfl,
      List.cons_ne_nil _ _⟩
    rw [List.append_nil]
    rfl
  | zeros mark sign count =>
    obtain rfl := h
    refine ⟨.zeros mark sign (count + 1), .of_read fun pieces sections => ?_, rfl, List.cons_ne_nil _ _⟩
    rw [List.append_nil]
    rfl

/-- Any other character ends the exponent or the mark. -/
theorem read_settled (hm : mode.isOutside = true) (hc : ¬ mode.Continues c) (pieces : Section)
    (sections : List Section) :
    Scanner.read ⟨mode, pieces, sections⟩ c =
      Scanner.readPlain ⟨.plain, pieces ++ mode.pending, sections⟩ c := by
  rw [← Scanner.settle_eq hm]
  cases mode with
  | quoted | escaped => cases hm
  | plain => rfl
  | marked mark =>
    obtain ⟨h0, hsign⟩ := not_or.mp hc
    simp only [Scanner.read, h0, hsign, if_false]
  | signed mark sign =>
    have h0 : c ≠ '0' := hc
    simp only [Scanner.read, h0, if_false]
  | zeros mark sign count =>
    have h0 : c ≠ '0' := hc
    simp only [Scanner.read, h0, if_false]

/-- The characters that open a literal. -/
def IsOpening (c : Char) : Prop :=
  c = '\'' ∨ c = '"' ∨ c = '\\'

theorem pieceOf?_eq_none (h : pieceOf? c = none) : IsOpening c ∨ c = 'E' ∨ c = 'e' ∨ c = ';' := by
  unfold pieceOf? at h
  split at h <;> simp_all [IsOpening]

theorem not_continues (hc : IsOpening c ∨ c = ';') : ¬ mode.Continues c := by
  have hne : c ≠ '0' ∧ c ≠ '+' ∧ c ≠ '-' := by
    rcases hc with (rfl | rfl | rfl) | rfl <;> decide
  cases mode <;> simp [Mode.Continues, hne]

theorem readPlain_char (hc : ¬ IsOpening c) (hd : c ≠ ';') :
    ∃ new mode', mode'.isOutside = true ∧ new ++ mode'.pending ≠ [] ∧ ∀ pieces sections,
      Scanner.readPlain ⟨.plain, pieces, sections⟩ c = .ok ⟨mode', pieces ++ new, sections⟩ := by
  cases hp : pieceOf? c with
  | some piece =>
    exact ⟨[piece], .plain, rfl, List.cons_ne_nil _ _, fun pieces sections =>
      @Scanner.read_piece ⟨.plain, pieces, sections⟩ c piece rfl hp⟩
  | none =>
    refine ⟨[], .marked c, rfl, List.cons_ne_nil _ _, fun pieces sections => ?_⟩
    rw [List.append_nil]
    rcases pieceOf?_eq_none hp with h | rfl | rfl | h
    · exact absurd h hc
    · rfl
    · rfl
    · exact absurd h hd

/-- A character that neither opens a literal nor divides sections adds a piece, or may do so later. -/
theorem adds_char (hm : mode.isOutside = true) (hc : ¬ IsOpening c) (hd : c ≠ ';') :
    ∃ new mode', Adds [c] mode new mode' ∧ mode'.isOutside = true ∧ new ++ mode'.pending ≠ [] := by
  by_cases hcontinues : mode.Continues c
  · obtain ⟨mode', hadds, houtside, hpending⟩ := adds_continued hcontinues
    exact ⟨[], mode', hadds, houtside, hpending⟩
  · obtain ⟨new, mode', houtside, hne, hread⟩ := readPlain_char hc hd
    refine ⟨mode.pending ++ new, mode', .of_read fun pieces sections => ?_, houtside, fun hnil => ?_⟩
    · rw [read_settled hm hcontinues, hread, List.append_assoc]
    · rw [List.append_assoc] at hnil
      exact hne (List.append_eq_nil_iff.mp hnil).2

theorem read_divider (hm : mode.isOutside = true) (pieces : Section) (sections : List Section) :
    Scanner.read ⟨mode, pieces, sections⟩ ';' =
      if 2 ≤ sections.length then .error .tooManySections
      else .ok ⟨.plain, [], sections ++ [pieces ++ mode.pending]⟩ := by
  rw [read_settled hm (not_continues (.inr rfl))]
  rfl

theorem adds_backslash (hm : mode.isOutside = true) : Adds ['\\'] mode mode.pending .escaped := by
  refine .of_read fun pieces sections => ?_
  rw [read_settled hm (not_continues (.inl (.inr (.inr rfl))))]
  rfl

theorem adds_quote (hm : mode.isOutside = true) (hq : quote = '\'' ∨ quote = '"') :
    Adds [quote] mode mode.pending (.quoted quote []) := by
  refine .of_read fun pieces sections => ?_
  rcases hq with rfl | rfl
  · rw [read_settled hm (not_continues (.inl (.inl rfl)))]
    rfl
  · rw [read_settled hm (not_continues (.inl (.inr (.inl rfl))))]
    rfl

theorem adds_inside (h : quote ∉ text) (before : List Char) :
    Adds text (.quoted quote before) [] (.quoted quote (before ++ text)) := by
  induction text generalizing before with
  | nil =>
    rw [List.append_nil]
    exact .nil
  | cons c text ih =>
    obtain ⟨hc, htext⟩ := List.ne_and_not_mem_of_not_mem_cons h
    have hfirst : Adds [c] (.quoted quote before) [] (.quoted quote (before ++ [c])) := by
      refine .of_read fun pieces sections => ?_
      rw [List.append_nil]
      exact if_neg (Ne.symm hc)
    have hrest := hfirst.append (ih htext (before ++ [c]))
    rwa [List.append_assoc] at hrest

/-- A text in quotes is a literal. -/
theorem adds_quoted (hm : mode.isOutside = true) (hq : quote = '\'' ∨ quote = '"') (h : quote ∉ text) :
    Adds (quote :: (text ++ [quote])) mode (mode.pending ++ [.literal text]) .plain := by
  have hclose : Adds [quote] (.quoted quote text) [.literal text] .plain :=
    .of_read fun pieces sections => if_pos rfl
  exact (adds_quote hm hq).append ((adds_inside h []).append hclose)

/-- Outside of literals every character but the divider adds pieces, and inside of them every one. -/
theorem divides_or_adds (mode : Mode) (c : Char) :
    (mode.isOutside = true ∧ c = ';') ∨ ∃ new mode', Adds [c] mode new mode' := by
  cases hm : mode.isOutside with
  | true =>
    by_cases hdivider : c = ';'
    · exact .inl ⟨rfl, hdivider⟩
    · refine .inr ?_
      by_cases hopening : IsOpening c
      · rcases or_assoc.mpr hopening with hquote | rfl
        · exact ⟨_, _, adds_quote hm hquote⟩
        · exact ⟨_, _, adds_backslash hm⟩
      · obtain ⟨new, mode', hadds, -, -⟩ := adds_char hm hopening hdivider
        exact ⟨new, mode', hadds⟩
  | false =>
    refine .inr ?_
    cases mode with
    | plain | marked | signed | zeros => cases hm
    | escaped => exact ⟨[.literal [c]], .plain, .of_read fun _ _ => rfl⟩
    | quoted quote text =>
      by_cases hclosing : c = quote
      · exact ⟨[.literal text], .plain, .of_read fun _ _ => if_pos hclosing⟩
      · have hinside : quote ∉ [c] := fun hmem => hclosing (List.mem_singleton.mp hmem).symm
        exact ⟨[], _, adds_inside hinside text⟩

/-- A character behind a backslash is a literal. -/
theorem adds_escaped (hm : mode.isOutside = true) (c : Char) :
    Adds ['\\', c] mode (mode.pending ++ [.literal [c]]) .plain :=
  (adds_backslash hm).append (.of_read fun _ _ => rfl)

/-- A text with all its quotes closed, no escape at its end, and no divider outside of literals. -/
inductive SectionText : List Char → Prop
  | nil : SectionText []
  | char {c : Char} {rest : List Char} (plain : ¬ IsOpening c) (undivided : c ≠ ';')
      (later : SectionText rest) : SectionText (c :: rest)
  | escaped {c : Char} {rest : List Char} (later : SectionText rest) : SectionText ('\\' :: c :: rest)
  | quoted {quote : Char} {text rest : List Char} (isQuote : quote = '\'' ∨ quote = '"')
      (closed : quote ∉ text) (later : SectionText rest) : SectionText (quote :: (text ++ quote :: rest))

theorem SectionText.of_plain (h : ∀ c ∈ text, ¬ IsOpening c ∧ c ≠ ';') : SectionText text := by
  induction text with
  | nil => exact .nil
  | cons c text ih =>
    obtain ⟨hc, htext⟩ := List.forall_mem_cons.mp h
    exact .char hc.1 hc.2 (ih htext)

/-- Reading such a text leaves the scanner outside of literals. It adds something unless it is empty. -/
theorem SectionText.adds (h : SectionText text) (hm : mode.isOutside = true) :
    ∃ new mode', Adds text mode new mode' ∧ mode'.isOutside = true ∧
      (mode.pending ≠ [] ∨ text ≠ [] → new ++ mode'.pending ≠ []) := by
  induction h generalizing mode with
  | nil => exact ⟨[], mode, .nil, hm, fun h => h.resolve_right fun hne => hne rfl⟩
  | @char c rest plain undivided later ih =>
    obtain ⟨new, mode₁, hadds, hm₁, hne⟩ := adds_char hm plain undivided
    obtain ⟨new', mode₂, hadds', hm₂, hne'⟩ := ih hm₁
    refine ⟨new ++ new', mode₂, hadds.append hadds', hm₂, fun _ hnil => ?_⟩
    rw [List.append_assoc] at hnil
    obtain ⟨hnew, hlater⟩ := List.append_eq_nil_iff.mp hnil
    rw [hnew] at hne
    exact hne' (.inl hne) hlater
  | @escaped c rest later ih =>
    obtain ⟨new, mode', hadds, hm', -⟩ := @ih .plain rfl
    exact ⟨_, mode', (adds_escaped hm c).append hadds, hm', by simp⟩
  | @quoted quote text rest isQuote closed later ih =>
    obtain ⟨new, mode', hadds, hm', -⟩ := @ih .plain rfl
    have hall := (adds_quoted hm isQuote closed).append hadds
    rw [List.cons_append, List.append_assoc] at hall
    exact ⟨_, mode', hall, hm', by simp⟩

/-- From a mode on, a text gives a section and what the mode has left open is the start of it. -/
def Gives (mode : Mode) (text : List Char) (s : Section) : Prop :=
  ∃ new mode', Adds text mode new mode' ∧ mode'.isOutside = true ∧ s = new ++ mode'.pending

/-- A text stands for a section, whatever sections have been read before it. Only the empty text stands for
the empty section. -/
structure Stands (text : List Char) (s : Section) : Prop where
  gives : Gives .plain text s
  empty_iff : s = [] ↔ text = []

theorem SectionText.stands (h : SectionText text) :
    ∃ new mode, Adds text .plain new mode ∧ mode.isOutside = true ∧ Stands text (new ++ mode.pending) := by
  have hplain : Mode.plain.isOutside = true := rfl
  obtain ⟨new, mode, hadds, hm, hne⟩ := h.adds hplain
  refine ⟨new, mode, hadds, hm, ⟨new, mode, hadds, hm, rfl⟩, fun hnil => ?_, ?_⟩
  · by_contra htext
    exact hne (.inr htext) hnil
  · rintro rfl
    have hempty := hadds [] []
    cases hempty
    rfl

/-! ## Divided patterns -/

/-- The dividers of a pattern outside of literals leave these texts. -/
structure Divided (pattern : List Char) (texts : List (List Char)) : Prop where
  nonempty : texts ≠ []
  isSection : ∀ text ∈ texts, SectionText text
  eq : pattern = [';'].intercalate texts

/-- Reading a divided text ends outside of literals, unless there are too many sections. -/
theorem foldlM_intercalate {texts : List (List Char)} (hne : texts ≠ [])
    (h : ∀ text ∈ texts, SectionText text) {before : List Section} (hb : before.length ≤ 2) :
    let state := ([';'].intercalate texts).foldlM Scanner.read ⟨.plain, [], before⟩
    (3 < before.length + texts.length ∧ state = .error .tooManySections) ∨
    (before.length + texts.length ≤ 3 ∧ ∃ mode pieces sections, mode.isOutside = true ∧
      state = .ok ⟨mode, pieces, before ++ sections⟩ ∧
      List.Forall₂ Stands texts (sections ++ [pieces ++ mode.pending])) := by
  intro state
  induction texts generalizing before with
  | nil => exact absurd rfl hne
  | cons text texts ih =>
    obtain ⟨htext, hlater⟩ := List.forall_mem_cons.mp h
    obtain ⟨new, mode, hadds, hm, hstands⟩ := htext.stands
    have hread := hadds [] before
    rw [List.nil_append] at hread
    cases texts with
    | nil =>
      refine .inr ⟨by simp only [List.length_singleton]; omega, mode, new, [], hm, ?_, .cons hstands .nil⟩
      rw [List.append_nil, ← hread]
      exact congrArg (List.foldlM _ _) List.intercalate_singleton
    | cons next texts =>
      have hstate : state = if 2 ≤ before.length then .error .tooManySections
          else ([';'].intercalate (next :: texts)).foldlM Scanner.read
            ⟨.plain, [], before ++ [new ++ mode.pending]⟩ := by
        show ([';'].intercalate (text :: next :: texts)).foldlM _ _ = _
        rw [List.intercalate_cons_cons, List.append_assoc, List.foldlM_append, hread]
        show (Scanner.read ⟨mode, new, before⟩ ';' >>= _) = _
        rw [read_divider hm]
        split <;> rfl
      by_cases hfull : 2 ≤ before.length
      · rw [if_pos hfull] at hstate
        exact .inl ⟨by simp only [List.length_cons]; omega, hstate⟩
      · rw [if_neg hfull] at hstate
        have hlength : (before ++ [new ++ mode.pending]).length = before.length + 1 :=
          List.length_append
        rcases @ih (List.cons_ne_nil _ _) hlater (before ++ [new ++ mode.pending]) (by omega) with
          ⟨hmany, herror⟩ | ⟨hfew, mode', pieces, sections, hm', hok, hlast⟩
        · refine .inl ⟨?_, hstate.trans herror⟩
          rw [hlength] at hmany
          rw [List.length_cons]
          omega
        · rw [hlength] at hfew
          refine .inr ⟨by rw [List.length_cons]; omega, mode', pieces, (new ++ mode.pending) :: sections,
            hm', ?_, .cons hstands hlast⟩
          rw [hstate, hok, List.append_assoc]
          rfl

variable {pattern front : List Char} {texts : List (List Char)}

/-- What stands before the end of a pattern leaves the scanner outside of literals, unless there are too many
sections. -/
theorem Divided.foldlM (h : Divided front texts) :
    (3 < texts.length ∧ front.foldlM Scanner.read {} = .error .tooManySections) ∨
    (texts.length ≤ 3 ∧ ∃ s, front.foldlM Scanner.read {} = .ok s ∧ s.mode.isOutside = true) := by
  have hnone : ([] : List Section).length ≤ 2 := Nat.zero_le 2
  have hstate := foldlM_intercalate h.nonempty h.isSection hnone
  rw [← h.eq, List.length_nil, Nat.zero_add] at hstate
  rcases hstate with ⟨hmany, herror⟩ | ⟨hfew, mode, pieces, sections, hm, hok, -⟩
  · exact .inl ⟨hmany, herror⟩
  · exact .inr ⟨hfew, _, hok, hm⟩

theorem finish_outside (hm : mode.isOutside = true) (pieces : Section) (sections : List Section) :
    Scanner.finish ⟨mode, pieces, sections⟩ = .ok (sections ++ [pieces ++ mode.pending]) := by
  have hsettle := Scanner.settle_eq hm pieces sections
  cases mode with
  | quoted | escaped => cases hm
  | plain | marked | signed | zeros => simp only [Scanner.finish, hsettle]

/-- A divided pattern is read as one section for each of its texts, if there are at most three. -/
theorem parse_divided (h : Divided pattern texts) :
    (3 < texts.length ∧ parse pattern = .error .tooManySections) ∨
    (texts.length ≤ 3 ∧ ∃ sections, parse pattern = .ok sections ∧
      List.Forall₂ Stands texts sections) := by
  have hnone : ([] : List Section).length ≤ 2 := Nat.zero_le 2
  have hstate := foldlM_intercalate h.nonempty h.isSection hnone
  rw [← h.eq, List.length_nil, Nat.zero_add] at hstate
  rcases hstate with ⟨hmany, herror⟩ | ⟨hfew, mode, pieces, sections, hm, hok, hstands⟩
  · refine .inl ⟨hmany, ?_⟩
    show (pattern.foldlM Scanner.read _ >>= _) = _
    rw [herror]
    rfl
  · refine .inr ⟨hfew, _, ?_, hstands⟩
    show (pattern.foldlM Scanner.read _ >>= _) = _
    rw [hok]
    exact finish_outside hm pieces sections

theorem Gives.parse {s : Section} (h : Gives .plain text s) : Pattern.parse text = .ok [s] := by
  obtain ⟨new, mode, hadds, hm, rfl⟩ := h
  show (text.foldlM Scanner.read _ >>= _) = _
  rw [hadds]
  exact finish_outside hm new []

/-- What a text may end with that is not closed, and the fault that it is. -/
inductive Ending : List Char → Option PatternFault → Prop
  | closed : Ending [] none
  | quoted {quote : Char} {text : List Char} (isQuote : quote = '\'' ∨ quote = '"')
      (unclosed : quote ∉ text) : Ending (quote :: text) (some (.unterminatedLiteral quote))
  | escaped : Ending ['\\'] (some .danglingEscape)

variable {ending : List Char} {fault? : Option PatternFault}

theorem intercalate_append (text rest : List Char) (texts : List (List Char)) :
    [';'].intercalate ((text ++ rest) :: texts) = text ++ [';'].intercalate (rest :: texts) := by
  cases texts <;> simp [List.intercalate_cons_cons]

theorem Divided.prepend (h : Divided front texts)
    (ht : ∀ rest, SectionText rest → SectionText (text ++ rest)) :
    ∃ texts', Divided (text ++ front) texts' ∧ texts'.length = texts.length := by
  obtain ⟨first, rest, rfl⟩ := List.exists_cons_of_ne_nil h.nonempty
  obtain ⟨hfirst, hrest⟩ := List.forall_mem_cons.mp h.isSection
  refine ⟨(text ++ first) :: rest, ⟨List.cons_ne_nil _ _,
    List.forall_mem_cons.mpr ⟨ht first hfirst, hrest⟩, ?_⟩, rfl⟩
  rw [intercalate_append, ← h.eq]

theorem divided_nil : Divided [] [[]] :=
  ⟨List.cons_ne_nil _ _, List.forall_mem_singleton.mpr .nil, List.intercalate_singleton.symm⟩

/-- A divider in front leaves one more text. -/
theorem Divided.divider (h : Divided front texts) : Divided (';' :: front) ([] :: texts) := by
  obtain ⟨first, rest, rfl⟩ := List.exists_cons_of_ne_nil h.nonempty
  refine ⟨List.cons_ne_nil _ _, List.forall_mem_cons.mpr ⟨.nil, h.isSection⟩, ?_⟩
  rw [List.intercalate_cons_cons, ← h.eq]
  rfl

/-- A text begins with a divider or with something that sections are made of, unless it is an ending. -/
theorem ending_or_begins (text : List Char) :
    (∃ fault?, Ending text fault?) ∨ (∃ rest, text = ';' :: rest) ∨
      ∃ chunk rest, chunk ≠ [] ∧ text = chunk ++ rest ∧
        ∀ rest, SectionText rest → SectionText (chunk ++ rest) := by
  cases text with
  | nil => exact .inl ⟨_, .closed⟩
  | cons c rest =>
    by_cases hdivider : c = ';'
    · exact .inr (.inl ⟨rest, by rw [hdivider]⟩)
    by_cases hquote : c = '\'' ∨ c = '"'
    · by_cases hclosed : c ∈ rest
      · obtain ⟨body, after, rfl, hbody⟩ := List.eq_append_cons_of_mem hclosed
        refine .inr (.inr ⟨c :: (body ++ [c]), after, List.cons_ne_nil _ _, by simp, fun rest hrest => ?_⟩)
        have hquoted := SectionText.quoted hquote hbody hrest
        rwa [List.cons_append, List.append_assoc]
      · exact .inl ⟨_, .quoted hquote hclosed⟩
    by_cases hescape : c = '\\'
    · obtain rfl := hescape
      cases rest with
      | nil => exact .inl ⟨_, .escaped⟩
      | cons e rest =>
        exact .inr (.inr ⟨['\\', e], rest, List.cons_ne_nil _ _, rfl, fun _ hrest => .escaped hrest⟩)
    · have hplain : ¬ IsOpening c := fun h => (or_assoc.mpr h).elim hquote hescape
      exact .inr (.inr ⟨[c], rest, List.cons_ne_nil _ _, rfl, fun _ hrest => .char hplain hdivider hrest⟩)

/-- Every text is divided up to its end, where a literal may be left open. -/
theorem exists_divided (text : List Char) :
    ∃ front ending fault?, text = front ++ ending ∧ (∃ texts, Divided front texts) ∧
      Ending ending fault? := by
  -- What is taken from the front may be a whole literal, so the induction is on the length.
  induction hlength : text.length using Nat.strongRecOn generalizing text with
  | ind length ih =>
    subst hlength
    rcases ending_or_begins text with ⟨fault?, hending⟩ | ⟨rest, rfl⟩ | ⟨chunk, rest, hchunk, rfl, hsection⟩
    · exact ⟨[], text, fault?, rfl, ⟨_, divided_nil⟩, hending⟩
    · obtain ⟨front, ending, fault?, rfl, ⟨texts, hdivided⟩, hending⟩ :=
        ih rest.length (Nat.lt_succ_self _) rest rfl
      exact ⟨';' :: front, ending, fault?, rfl, ⟨_, hdivided.divider⟩, hending⟩
    · have hshorter : rest.length < (chunk ++ rest).length := by
        have hpos := List.length_pos_iff.mpr hchunk
        rw [List.length_append]
        omega
      obtain ⟨front, ending, fault?, rfl, ⟨texts, hdivided⟩, hending⟩ := ih rest.length hshorter rest rfl
      obtain ⟨texts', hlonger, -⟩ := hdivided.prepend hsection
      exact ⟨chunk ++ front, ending, fault?, (List.append_assoc ..).symm, ⟨texts', hlonger⟩, hending⟩

/-- What a text ends with is read outside of literals, unless there are too many sections before it. -/
theorem Divided.parse_append (h : Divided front texts) (ending : List Char) :
    (3 < texts.length ∧ parse (front ++ ending) = .error .tooManySections) ∨
    (texts.length ≤ 3 ∧ ∃ s : Scanner, s.mode.isOutside = true ∧
      parse (front ++ ending) = (ending.foldlM Scanner.read s >>= Scanner.finish)) := by
  have hparse : parse (front ++ ending) =
      ((front.foldlM Scanner.read {} >>= (ending.foldlM Scanner.read ·)) >>= Scanner.finish) := by
    show ((front ++ ending).foldlM Scanner.read {} >>= _) = _
    rw [List.foldlM_append]
  rw [hparse]
  rcases h.foldlM with ⟨hmany, herror⟩ | ⟨hfew, s, hok, hm⟩
  · refine .inl ⟨hmany, ?_⟩
    rw [herror]
    rfl
  · refine .inr ⟨hfew, s, hm, ?_⟩
    rw [hok]
    rfl

/-- A literal that is left open is an error. -/
theorem Ending.finish (h : Ending ending fault?) {s : Scanner} (hm : s.mode.isOutside = true) :
    ((ending.foldlM Scanner.read s >>= Scanner.finish).map fun _ => ()) = fault?.elim (.ok ()) .error := by
  obtain ⟨mode, pieces, sections⟩ := s
  cases h with
  | closed => exact congrArg (Except.map _) (finish_outside hm pieces sections)
  | @quoted quote text isQuote unclosed =>
    have hopen := (adds_quote hm isQuote).append (adds_inside unclosed [])
    rw [List.singleton_append] at hopen
    rw [hopen]
    rfl
  | escaped =>
    rw [adds_backslash hm]
    rfl

theorem Ending.eq_nil_of_parse (he : Ending ending fault?) (hd : Divided front texts)
    {sections : List Section} (h : parse (front ++ ending) = .ok sections) : ending = [] := by
  rcases hd.parse_append ending with ⟨-, hmany⟩ | ⟨-, s, hm, hread⟩
  · cases hmany.symm.trans h
  · have hfinish := he.finish hm
    rw [← hread, h] at hfinish
    cases he with
    | closed => rfl
    | quoted | escaped => cases hfinish

theorem divided_of_parse {sections : List Section} (h : parse pattern = .ok sections) :
    ∃ texts, Divided pattern texts := by
  obtain ⟨front, ending, fault?, rfl, ⟨texts, hd⟩, he⟩ := exists_divided pattern
  rw [he.eq_nil_of_parse hd h, List.append_nil]
  exact ⟨texts, hd⟩

end ScriptEngine.NumberFormat.Pattern
