import ScriptEngine.Proofs.NumberFormat.Scanning

/-!
# Sections piece by piece

The scanner reads a pattern one character at a time and keeps in its mode what it cannot decide yet. Who
looks ahead instead can take a section apart from the left, one piece after the other (`Lexes`): a character
with a meaning of its own, a literal up to its end, a mark with the sign and all the zeros behind it, or a
mark by itself. Both ways give the same pieces (`Lexes.gives`), so every section can be taken apart into the
pieces that it is read as (`SectionText.lexes_of_parse`).
-/

namespace ScriptEngine.NumberFormat.Pattern

/-- The sign with which a text begins, if it does. -/
def signAhead : List Char → List Char
  | '+' :: _ => ['+']
  | '-' :: _ => ['-']
  | _ => []

/-- What follows the sign with which a text begins. -/
def afterSign (text : List Char) : List Char :=
  text.drop (signAhead text).length

/-- Whether a text behind a mark makes it an exponent: it begins with a zero, or with a sign and a zero. -/
def startsExponent (text : List Char) : Bool :=
  (afterSign text).head? == some '0'

/-- A text is taken apart into pieces from the left. -/
inductive Lexes : List Char → Section → Prop
  | nil : Lexes [] []
  | piece {c : Char} {piece : Piece} {rest : List Char} {s : Section} (meant : pieceOf? c = some piece)
      (later : Lexes rest s) : Lexes (c :: rest) (piece :: s)
  | escaped {c : Char} {rest : List Char} {s : Section} (later : Lexes rest s) :
      Lexes ('\\' :: c :: rest) (.literal [c] :: s)
  | quoted {quote : Char} {text rest : List Char} {s : Section} (isQuote : quote = '\'' ∨ quote = '"')
      (closed : quote ∉ text) (later : Lexes rest s) :
      Lexes (quote :: (text ++ quote :: rest)) (.literal text :: s)
  | exponent {mark : Char} {sign : ExponentSign} {zeros : Nat} {rest : List Char} {s : Section}
      (isMark : mark = 'E' ∨ mark = 'e') (ended : rest.head? ≠ some '0') (later : Lexes rest s) :
      Lexes (mark :: (sign.text ++ (List.replicate (zeros + 1) '0' ++ rest)))
        (.exponent mark sign (zeros + 1) :: s)
  | mark {mark : Char} {rest : List Char} {s : Section} (isMark : mark = 'E' ∨ mark = 'e')
      (alone : startsExponent rest = false) (later : Lexes rest s) :
      Lexes (mark :: rest) (.literal [mark] :: s)

variable {text rest : List Char} {s : Section} {c : Char} {mode : Mode}

theorem signAhead_text (sign : ExponentSign) (zeros : List Char) :
    signAhead (sign.text ++ '0' :: zeros) = sign.text := by
  cases sign <;> rfl

theorem afterSign_text (sign : ExponentSign) (zeros : List Char) :
    afterSign (sign.text ++ '0' :: zeros) = '0' :: zeros := by
  rw [afterSign, signAhead_text, List.drop_left]

theorem startsExponent_text (sign : ExponentSign) (zeros : Nat) (rest : List Char) :
    startsExponent (sign.text ++ (List.replicate (zeros + 1) '0' ++ rest)) = true := by
  rw [startsExponent, List.replicate_succ, List.cons_append, afterSign_text]
  rfl

theorem signAhead_append_afterSign (text : List Char) : signAhead text ++ afterSign text = text := by
  unfold afterSign signAhead
  split <;> rfl

theorem exists_exponent (h : startsExponent text = true) :
    ∃ sign zeros rest, text = ExponentSign.text sign ++ (List.replicate (zeros + 1) '0' ++ rest) ∧
      rest.head? ≠ some '0' := by
  have hzeros : ∀ text : List Char, ∃ zeros rest, text = List.replicate zeros '0' ++ rest ∧
      rest.head? ≠ some '0' := by
    intro text
    induction text with
    | nil => exact ⟨0, [], rfl, by simp⟩
    | cons c text ih =>
      by_cases hc : c = '0'
      · obtain ⟨zeros, rest, rfl, hrest⟩ := ih
        exact ⟨zeros + 1, rest, by rw [hc]; rfl, hrest⟩
      · exact ⟨0, c :: text, rfl, fun h => hc (Option.some.inj h)⟩
  have hsign : ∃ sign, ExponentSign.text sign = signAhead text := by
    unfold signAhead
    split
    · exact ⟨.plus, rfl⟩
    · exact ⟨.minus, rfl⟩
    · exact ⟨.absent, rfl⟩
  obtain ⟨sign, hsign⟩ := hsign
  obtain ⟨after, hafter⟩ := List.head?_eq_some_iff.mp (beq_iff_eq.mp h)
  obtain ⟨zeros, rest, rfl, hrest⟩ := hzeros after
  refine ⟨sign, zeros, rest, ?_, hrest⟩
  rw [hsign, List.replicate_succ, List.cons_append, ← hafter, signAhead_append_afterSign]

theorem SectionText.of_cons (h : SectionText (c :: rest)) (hc : ¬ IsOpening c) : SectionText rest := by
  cases h with
  | char plain undivided later => exact later
  | escaped => exact absurd (.inr (.inr rfl)) hc
  | quoted isQuote => exact absurd (or_assoc.mp (.inl isQuote)) hc

theorem SectionText.of_append {front : List Char} (h : SectionText (front ++ rest))
    (hfront : ∀ c ∈ front, ¬ IsOpening c) : SectionText rest := by
  induction front with
  | nil => exact h
  | cons c front ih =>
    obtain ⟨hc, hlater⟩ := List.forall_mem_cons.mp hfront
    exact ih (h.of_cons hc) hlater

theorem not_opening_exponent (sign : ExponentSign) (zeros : Nat) :
    ∀ c ∈ sign.text ++ List.replicate zeros '0', ¬ IsOpening c := by
  intro c hc
  rcases List.mem_append.mp hc with hc | hc
  · cases sign <;> simp_all [ExponentSign.text, IsOpening]
  · rw [List.eq_of_mem_replicate hc]
    simp [IsOpening]

theorem SectionText.lexes (h : SectionText text) : ∃ s, Lexes text s := by
  -- A piece may take more than one character, so the induction is on the length.
  induction hlength : text.length using Nat.strongRecOn generalizing text with
  | ind length ih =>
    subst hlength
    cases h with
    | nil => exact ⟨[], .nil⟩
    | escaped later =>
      obtain ⟨s, hs⟩ := ih _ (by simp only [List.length_cons]; omega) later rfl
      exact ⟨_, .escaped hs⟩
    | quoted isQuote closed later =>
      obtain ⟨s, hs⟩ := ih _ (by simp only [List.length_cons, List.length_append]; omega) later rfl
      exact ⟨_, .quoted isQuote closed hs⟩
    | @char c rest plain undivided later =>
      cases hp : pieceOf? c with
      | some piece =>
        obtain ⟨s, hs⟩ := ih _ (Nat.lt_succ_self _) later rfl
        exact ⟨_, .piece hp hs⟩
      | none =>
        have hmark : c = 'E' ∨ c = 'e' := by
          rcases pieceOf?_eq_none hp with hopening | hmark | hmark | hdivider
          · exact absurd hopening plain
          · exact .inl hmark
          · exact .inr hmark
          · exact absurd hdivider undivided
        cases hexponent : startsExponent rest with
        | false =>
          obtain ⟨s, hs⟩ := ih _ (Nat.lt_succ_self _) later rfl
          exact ⟨_, .mark hmark hexponent hs⟩
        | true =>
          obtain ⟨sign, zeros, after, rfl, hafter⟩ := exists_exponent hexponent
          rw [← List.append_assoc] at later
          have hlater := later.of_append (not_opening_exponent sign _)
          obtain ⟨s, hs⟩ := ih _ (by simp only [List.length_cons, List.length_append]; omega) hlater rfl
          exact ⟨_, .exponent hmark hafter hs⟩

/-! ## The scanner gives the same pieces -/

theorem Gives.prepend {chunk : List Char} {new : Section} {mode' : Mode} (hchunk : Adds chunk mode new mode')
    (h : Gives mode' rest s) : Gives mode (chunk ++ rest) (new ++ s) := by
  obtain ⟨new', last, hadds, hlast, rfl⟩ := h
  exact ⟨new ++ new', last, hchunk.append hadds, hlast, (List.append_assoc ..).symm⟩

/-- A text does not go on with the exponent that a mode may have begun. -/
def Mode.EndsAt : Mode → List Char → Prop
  | .marked _, text => startsExponent text = false
  | .signed .., text | .zeros .., text => text.head? ≠ some '0'
  | _, _ => True

/-- The next character ends what the mode has begun, unless it is a sign behind a mark. -/
theorem Mode.EndsAt.cons (h : mode.EndsAt (c :: rest)) :
    ¬ mode.Continues c ∨
      ∃ mark, mode = .marked mark ∧ (c = '+' ∨ c = '-') ∧ rest.head? ≠ some '0' := by
  cases mode with
  | plain | quoted | escaped => exact .inl id
  | signed | zeros => exact .inl fun hc => h (congrArg some hc)
  | marked mark =>
    by_cases hsign : c = '+' ∨ c = '-'
    · refine .inr ⟨mark, rfl, hsign, fun hzero => ?_⟩
      have hstarts : startsExponent (c :: rest) = true := by
        rcases hsign with rfl | rfl <;> exact beq_iff_eq.mpr hzero
      exact Bool.false_ne_true (h.symm.trans hstarts)
    · refine .inl fun hc => ?_
      obtain rfl := hc.resolve_right hsign
      cases h

theorem adds_mark (hm : mode.isOutside = true) (hc : c = 'E' ∨ c = 'e') :
    Adds [c] mode mode.pending (.marked c) := by
  have hends : ¬ mode.Continues c := by
    rcases hc with rfl | rfl <;> cases mode <;> simp [Mode.Continues]
  refine .of_read fun pieces sections => ?_
  rw [read_settled hm hends]
  rcases hc with rfl | rfl <;> rfl

theorem adds_zeros (mark : Char) (sign : ExponentSign) (count zeros : Nat) :
    Adds (List.replicate zeros '0') (.zeros mark sign count) [] (.zeros mark sign (count + zeros)) := by
  induction zeros generalizing count with
  | zero => exact .nil
  | succ zeros ih =>
    have hfirst : Adds ['0'] (.zeros mark sign count) [] (.zeros mark sign (count + 1)) :=
      .of_read fun pieces sections => by rw [List.append_nil]; rfl
    have hall := hfirst.append (ih (count + 1))
    rwa [Nat.add_assoc, Nat.add_comm 1] at hall

theorem adds_exponent (mark : Char) (sign : ExponentSign) (zeros : Nat) :
    Adds (sign.text ++ List.replicate (zeros + 1) '0') (.marked mark) [] (.zeros mark sign (zeros + 1)) := by
  have hfirst : Adds (sign.text ++ ['0']) (.marked mark) [] (.zeros mark sign 1) := by
    intro pieces sections
    rw [List.append_nil]
    cases sign <;> rfl
  have hall := hfirst.append (adds_zeros mark sign 1 zeros)
  rwa [List.append_assoc, Nat.add_comm 1] at hall

/-- What a section is taken apart into is what the scanner reads. -/
theorem Lexes.gives (h : Lexes text s) (hm : mode.isOutside = true) (hends : mode.EndsAt text) :
    Gives mode text (mode.pending ++ s) := by
  induction h generalizing mode with
  | nil => exact ⟨[], mode, .nil, hm, List.append_nil _⟩
  | @piece c piece rest s meant later ih =>
    rcases hends.cons with hsettled | ⟨mark, rfl, hsign, hzero⟩
    · have hread : Adds [c] mode (mode.pending ++ [piece]) .plain := .of_read fun pieces sections => by
        rw [read_settled hm hsettled, ← List.append_assoc]
        exact @Scanner.read_piece ⟨.plain, pieces ++ mode.pending, sections⟩ c piece rfl meant
      have hgives := (@ih .plain rfl trivial).prepend hread
      rwa [List.append_assoc] at hgives
    · -- The sign is kept in the mode together with the mark, and both become literals.
      have hpiece : piece = .literal [c] := by
        rcases hsign with rfl | rfl <;> exact Option.some.inj meant.symm
      have hread : Adds [c] (.marked mark) [] (.signed mark c) := .of_read fun pieces sections => by
        rw [List.append_nil]
        rcases hsign with rfl | rfl <;> rfl
      rw [hpiece]
      exact (@ih (.signed mark c) rfl hzero).prepend hread
  | @escaped c rest s later ih =>
    have hgives := (@ih .plain rfl trivial).prepend (adds_escaped hm c)
    rwa [List.append_assoc] at hgives
  | @quoted quote text rest s isQuote closed later ih =>
    have hgives := (@ih .plain rfl trivial).prepend (adds_quoted hm isQuote closed)
    rwa [List.cons_append, List.append_assoc, List.append_assoc] at hgives
  | @exponent mark sign zeros rest s isMark ended later ih =>
    have hgives := (@ih (.zeros mark sign (zeros + 1)) rfl ended).prepend
      ((adds_mark hm isMark).append (adds_exponent mark sign zeros))
    rwa [List.append_assoc, List.append_assoc, List.append_nil] at hgives
  | @mark mark rest s isMark alone later ih =>
    exact (@ih (.marked mark) rfl alone).prepend (adds_mark hm isMark)

theorem SectionText.lexes_of_parse (h : SectionText text) (hp : parse text = .ok [s]) : Lexes text s := by
  obtain ⟨s', hlexes⟩ := h.lexes
  have hparse := (@Lexes.gives text s' .plain hlexes rfl trivial).parse
  have hsame := Except.ok.inj (hparse.symm.trans hp)
  rwa [← (List.cons.inj hsame).1]

end ScriptEngine.NumberFormat.Pattern
