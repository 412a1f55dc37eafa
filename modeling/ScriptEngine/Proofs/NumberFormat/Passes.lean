import ScriptEngine.Proofs.NumberFormat.Lexing
import ScriptEngine.Proofs.NumberFormat.Selection
import ScriptEngine.Proofs.NumberFormat.Survey

/-!
# Passes over the text of a pattern

A number can be written in a custom format without reading the pattern into sections first. Each question is
then answered by a pass of its own over the text, which looks ahead for the end of a literal or an exponent:
whether the text is a pattern (`check`), where a section starts (`findSection`), what the section counts and
asks for (`survey`), and what is written in the end (`emit`). A place in the text is what lies ahead of it.

* `check_eq`: the check finds the same fault as the scanner, or none;
* `findSection_eq`: a section starts behind as many dividers as its index says;
* `survey_section`, `emit_section`: from there the passes see the pieces that the scanner reads;
* `passes_agree`: so the passes write what the sections of the pattern do.
-/

namespace ScriptEngine.NumberFormat.Pattern

/-- What follows the next quote of a kind. -/
def afterQuote (quote : Char) (text : List Char) : List Char :=
  (text.dropWhile (· != quote)).tail

/-- What follows the zeros with which a text begins. -/
def afterZeros (text : List Char) : List Char :=
  text.dropWhile (· == '0')

theorem length_afterQuote_le (quote : Char) (text : List Char) :
    (afterQuote quote text).length ≤ text.length := by
  have hle := (List.dropWhile_sublist (l := text) (· != quote)).length_le
  rw [afterQuote, List.length_tail]
  omega

theorem length_afterZeros_le (text : List Char) : (afterZeros text).length ≤ text.length :=
  (List.dropWhile_sublist _).length_le

theorem length_afterSign_le (text : List Char) : (afterSign text).length ≤ text.length := by
  rw [afterSign, List.length_drop]
  omega

/-- Checks a text, given the number of sections up to here. -/
def check (sections : Nat) (text : List Char) : Except PatternFault Unit :=
  match text with
  | [] => .ok ()
  | c :: rest =>
    if c = '\'' ∨ c = '"' then
      if c ∈ rest then check sections (afterQuote c rest) else .error (.unterminatedLiteral c)
    else if c = '\\' then
      if rest = [] then .error .danglingEscape else check sections rest.tail
    else if c = ';' then
      if 3 < sections + 1 then .error .tooManySections else check (sections + 1) rest
    else check sections rest
  termination_by text.length
  decreasing_by
    all_goals simp only [List.length_cons, List.length_tail]
    · have := length_afterQuote_le c rest
      omega
    all_goals omega

/-- Looks for the end of so many sections. If the section behind them is absent or empty, the place is the
start of the pattern. -/
def seek (pattern : List Char) (remaining : Nat) (text : List Char) : List Char :=
  match text with
  | [] => pattern
  | c :: rest =>
    if c = '\'' ∨ c = '"' then seek pattern remaining (afterQuote c rest)
    else if c = '\\' then seek pattern remaining rest.tail
    else if c = ';' then
      if remaining = 1 then
        if rest = [] ∨ rest.head? = some ';' then pattern else rest
      else seek pattern (remaining - 1) rest
    else seek pattern remaining rest
  termination_by text.length
  decreasing_by
    all_goals simp only [List.length_cons, List.length_tail]
    · have := length_afterQuote_le c rest
      omega
    all_goals omega

/-- The start of a section, or that of the first one if the section is absent or empty. -/
def findSection (pattern : List Char) (index : Nat) : List Char :=
  if index = 0 then pattern else seek pattern index pattern

/-- Meets a character that is no part of a literal or an exponent. -/
def meet (v : Survey) : Char → Survey
  | '0' => v.addPlace true
  | '#' => v.addPlace false
  | '.' => v.addPoint
  | ',' => v.addComma
  | '%' => v.addPower 2
  | '‰' => v.addPower 3
  | _ => v

/-- Looks through the text of a section up to the next divider. -/
def survey (v : Survey) (text : List Char) : Survey :=
  match text with
  | [] => v
  | c :: rest =>
    if c = ';' then v
    else if c = '\'' ∨ c = '"' then survey v (afterQuote c rest)
    else if c = '\\' then survey v rest.tail
    else if c = 'E' ∨ c = 'e' then
      if startsExponent rest then survey v.addExponent (afterZeros rest.tail) else survey v rest
    else survey (meet v c) rest
  termination_by text.length
  decreasing_by
    all_goals simp only [List.length_cons, List.length_tail]
    · have := length_afterQuote_le c rest
      omega
    · omega
    · have := length_afterZeros_le rest.tail
      rw [List.length_tail] at this
      omega
    all_goals omega

/-- Writes for a character that is no part of a literal or an exponent. -/
def emitChar (locale : Locale) (d : Display) (p : Progress) : Char → List Char × Progress
  | '0' | '#' =>
    ((if p.started then [] else d.overflow) ++ d.place p.position,
      { p with position := p.position - 1, started := true })
  | '.' =>
    ((if p.started then [] else d.overflow) ++
        (if !p.pointMet && d.showsPoint then locale.decimalSeparator.toList else []),
      { p with started := true, pointMet := true })
  | ',' => ([], p)
  | '%' => (locale.percentSymbol.toList, p)
  | '‰' => (locale.perMilleSymbol.toList, p)
  | c => ([c], p)

/-- Writes a section up to the next divider. Only the first exponent is one. -/
def emit (locale : Locale) (d : Display) (scientific : Bool) (p : Progress) (text : List Char) : List Char :=
  match text with
  | [] => []
  | c :: rest =>
    if c = ';' then []
    else if c = '\'' ∨ c = '"' then
      rest.takeWhile (· != c) ++ emit locale d scientific p (afterQuote c rest)
    else if c = '\\' then rest.take 1 ++ emit locale d scientific p rest.tail
    else if c = 'E' ∨ c = 'e' then
      if !scientific || p.exponentMet then
        c :: signAhead rest ++ (afterSign rest).takeWhile (· == '0') ++
          emit locale d scientific p (afterZeros (afterSign rest))
      else if startsExponent rest then
        let zeros := ((afterSign rest).takeWhile (· == '0')).length
        exponentText locale c (signAhead rest == ['+']) (min zeros widestExponent) d.power ++
          emit locale d scientific { p with exponentMet := true } (afterZeros (afterSign rest))
      else c :: emit locale d scientific p rest
    else (emitChar locale d p c).1 ++ emit locale d scientific (emitChar locale d p c).2 rest
  termination_by text.length
  decreasing_by
    all_goals simp only [List.length_cons, List.length_tail]
    · have := length_afterQuote_le c rest
      omega
    · omega
    · have := length_afterZeros_le (afterSign rest)
      have := length_afterSign_le rest
      omega
    · have := length_afterZeros_le (afterSign rest)
      have := length_afterSign_le rest
      omega
    all_goals omega

/-! ## The check and the start of a section -/

variable {text rest after : List Char} {c quote : Char} {mode : Mode} {s : Section}

theorem quote_ahead (h : quote ∉ text) :
    (text ++ quote :: rest).takeWhile (· != quote) = text ∧ afterQuote quote (text ++ quote :: rest) = rest := by
  have hall : ∀ c ∈ text, (c != quote) = true := fun c hc => bne_iff_ne.mpr fun he => h (he ▸ hc)
  rw [afterQuote, List.takeWhile_append_of_pos hall, List.dropWhile_append_of_pos hall, List.takeWhile_cons,
    List.dropWhile_cons, bne_self_eq_false]
  exact ⟨List.append_nil text, rfl⟩

theorem not_quote_of_plain (h : ¬ IsOpening c) : ¬ (c = '\'' ∨ c = '"') ∧ c ≠ '\\' :=
  ⟨fun hq => h (or_assoc.mp (.inl hq)), fun he => h (.inr (.inr he))⟩

theorem SectionText.check_append (h : SectionText text) (sections : Nat) :
    check sections (text ++ after) = check sections after := by
  induction h with
  | nil => rfl
  | @char c rest plain undivided later ih =>
    obtain ⟨hquote, hescape⟩ := not_quote_of_plain plain
    rw [List.cons_append, check, if_neg hquote, if_neg hescape, if_neg undivided, ih]
  | @escaped c rest later ih =>
    have hne : c :: rest ++ after ≠ [] := List.cons_ne_nil _ _
    rw [List.cons_append, check, if_neg (by decide), if_pos rfl, if_neg hne]
    exact ih
  | @quoted quote text rest isQuote closed later ih =>
    have hmem : quote ∈ text ++ quote :: (rest ++ after) :=
      List.mem_append_right _ List.mem_cons_self
    rw [List.cons_append, List.append_assoc, List.cons_append, check, if_pos isQuote, if_pos hmem,
      (quote_ahead closed).2, ih]

theorem check_intercalate {texts : List (List Char)} (hne : texts ≠ [])
    (h : ∀ text ∈ texts, SectionText text) (ending : List Char) {before : Nat} (hb : before ≤ 2) :
    check (before + 1) ([';'].intercalate texts ++ ending) =
      if 3 < before + texts.length then .error .tooManySections
      else check (before + texts.length) ending := by
  induction texts generalizing before with
  | nil => exact absurd rfl hne
  | cons first texts ih =>
    obtain ⟨hfirst, hlater⟩ := List.forall_mem_cons.mp h
    cases texts with
    | nil =>
      rw [List.intercalate_singleton, hfirst.check_append, List.length_singleton, if_neg (by omega)]
    | cons next texts =>
      rw [List.intercalate_cons_cons, List.append_assoc, List.append_assoc, hfirst.check_append,
        List.singleton_append, check, if_neg (by decide), if_neg (by decide), if_pos rfl]
      by_cases hfull : 2 ≤ before
      · rw [if_pos (by omega), if_pos (by simp only [List.length_cons]; omega)]
      · have hlength : before + (first :: next :: texts).length = before + 1 + (next :: texts).length := by
          simp only [List.length_cons]
          omega
        rw [if_neg (by omega), ih (List.cons_ne_nil _ _) hlater (by omega), hlength]

theorem Ending.check_eq {ending : List Char} {fault? : Option PatternFault} (h : Ending ending fault?)
    (sections : Nat) : check sections ending = fault?.elim (.ok ()) .error := by
  cases h with
  | closed => rw [check]; rfl
  | quoted isQuote unclosed => rw [check, if_pos isQuote, if_neg unclosed]; rfl
  | escaped => rw [check, if_neg (by decide), if_pos rfl, if_pos rfl]; rfl

theorem check_eq (text : List Char) : check 1 text = (parse text).map fun _ => () := by
  obtain ⟨front, ending, fault?, rfl, ⟨texts, hd⟩, he⟩ := exists_divided text
  have hcheck := check_intercalate hd.nonempty hd.isSection ending (Nat.zero_le 2)
  rw [← hd.eq, Nat.zero_add, Nat.zero_add] at hcheck
  rcases hd.parse_append ending with ⟨hmany, herror⟩ | ⟨hfew, s, hm, hread⟩
  · rw [hcheck, if_pos hmany, herror]
    rfl
  · rw [hcheck, if_neg (Nat.not_lt.mpr hfew), he.check_eq, hread, he.finish hm]

theorem SectionText.seek_append (h : SectionText text) (pattern : List Char) (remaining : Nat) :
    seek pattern remaining (text ++ after) = seek pattern remaining after := by
  induction h with
  | nil => rfl
  | @char c rest plain undivided later ih =>
    obtain ⟨hquote, hescape⟩ := not_quote_of_plain plain
    rw [List.cons_append, seek, if_neg hquote, if_neg hescape, if_neg undivided, ih]
  | @escaped c rest later ih =>
    rw [List.cons_append, seek, if_neg (by decide), if_pos rfl]
    exact ih
  | @quoted quote text rest isQuote closed later ih =>
    rw [List.cons_append, List.append_assoc, List.cons_append, seek, if_pos isQuote,
      (quote_ahead closed).2, ih]

theorem SectionText.head?_ne (h : SectionText text) : text.head? ≠ some ';' := by
  cases h with
  | nil => simp
  | char plain undivided later => exact fun hc => undivided (Option.some.inj hc)
  | escaped => simp
  | quoted isQuote => rcases isQuote with rfl | rfl <;> simp

/-- What lies ahead is an empty section if it is nothing or begins with a divider. -/
theorem ahead_empty_iff (h : SectionText text) (texts : List (List Char)) :
    ([';'].intercalate (text :: texts) = [] ∨ ([';'].intercalate (text :: texts)).head? = some ';') ↔
      text = [] := by
  cases text with
  | nil => cases texts <;> simp [List.intercalate_cons_cons]
  | cons c rest =>
    have hhead : ([';'].intercalate ((c :: rest) :: texts)).head? = some c := by
      cases texts <;> simp [List.intercalate_cons_cons]
    have hne : [';'].intercalate ((c :: rest) :: texts) ≠ [] := fun hnil => by simp [hnil] at hhead
    rw [hhead]
    exact iff_of_false (not_or.mpr ⟨hne, h.head?_ne⟩) (List.cons_ne_nil _ _)

theorem seek_intercalate (pattern : List Char) {texts : List (List Char)}
    (h : ∀ text ∈ texts, SectionText text) (index : Nat) :
    seek pattern (index + 1) ([';'].intercalate texts) =
      if partAt texts (index + 1) = [] then pattern else [';'].intercalate (texts.drop (index + 1)) := by
  induction texts generalizing index with
  | nil =>
    rw [List.intercalate_nil, seek]
    rfl
  | cons first texts ih =>
    obtain ⟨hfirst, hlater⟩ := List.forall_mem_cons.mp h
    cases texts with
    | nil =>
      have hseek := @SectionText.seek_append _ [] hfirst pattern (index + 1)
      rw [List.append_nil] at hseek
      rw [List.intercalate_singleton, hseek, seek]
      rfl
    | cons next texts =>
      obtain ⟨hnext, -⟩ := List.forall_mem_cons.mp hlater
      rw [List.intercalate_cons_cons, List.append_assoc, hfirst.seek_append, List.singleton_append, seek,
        if_neg (by decide), if_neg (by decide), if_pos rfl]
      cases index with
      | zero =>
        rw [if_pos rfl]
        exact if_congr (ahead_empty_iff hnext texts) rfl rfl
      | succ index =>
        rw [if_neg (by omega)]
        exact ih hlater index

/-- What lies ahead of the start of a section. -/
def aheadOf (texts : List (List Char)) (index : Nat) : List Char :=
  [';'].intercalate (texts.drop index)

section

variable {pattern : List Char} {texts : List (List Char)} {sections : List Section}
  (hd : Divided pattern texts) (hs : List.Forall₂ Stands texts sections)
include hd hs

theorem findSection_eq (index : Nat) :
    findSection pattern index = aheadOf texts (locate sections index) := by
  have hempty := (parse_partAt hs index).2
  have hfirst : aheadOf texts 0 = pattern := hd.eq.symm
  unfold findSection locate
  cases index with
  | zero => rw [if_pos rfl, ite_self, hfirst]
  | succ index =>
    have hseek := seek_intercalate pattern hd.isSection index
    rw [← hd.eq] at hseek
    rw [if_neg (Nat.succ_ne_zero index), hseek]
    by_cases hnone : partAt sections (index + 1) = []
    · rw [if_pos (hempty.mp hnone), if_pos hnone, hfirst]
    · rw [if_neg (hempty.not.mp hnone), if_neg hnone]
      rfl

end

/-! ## What lies ahead in a section -/

/-- What follows the text of a section. -/
def EndsSection (after : List Char) : Prop :=
  after = [] ∨ ∃ later, after = ';' :: later

theorem EndsSection.head?_ne (h : EndsSection after) (hc : c ≠ ';') : after.head? ≠ some c := by
  rcases h with rfl | ⟨later, rfl⟩
  · simp
  · exact fun he => hc (Option.some.inj he).symm

theorem EndsSection.head?_append (h : EndsSection after) (hc : c ≠ ';') (hr : rest.head? ≠ some c) :
    (rest ++ after).head? ≠ some c := by
  cases rest with
  | nil => exact h.head?_ne hc
  | cons first rest => exact hr

theorem EndsSection.signAhead_append (h : EndsSection after) (rest : List Char) :
    signAhead (rest ++ after) = signAhead rest := by
  cases rest with
  | nil => rcases h with rfl | ⟨later, rfl⟩ <;> rfl
  | cons first rest =>
    simp only [List.cons_append, signAhead]
    split <;> simp_all

theorem EndsSection.afterSign_append (h : EndsSection after) (rest : List Char) :
    afterSign (rest ++ after) = afterSign rest ++ after := by
  have hle : (signAhead rest).length ≤ rest.length := by
    have hlength := congrArg List.length (signAhead_append_afterSign rest)
    rw [List.length_append] at hlength
    omega
  rw [afterSign, h.signAhead_append, List.drop_append_of_le_length hle, afterSign]

theorem EndsSection.startsExponent_append (h : EndsSection after) (rest : List Char) :
    startsExponent (rest ++ after) = startsExponent rest := by
  rw [startsExponent, h.afterSign_append, startsExponent]
  cases afterSign rest with
  | nil => rcases h with rfl | ⟨later, rfl⟩ <;> rfl
  | cons first others => rfl

theorem zeros_ahead (zeros : Nat) (h : rest.head? ≠ some '0') :
    (List.replicate zeros '0' ++ rest).takeWhile (· == '0') = List.replicate zeros '0' ∧
      afterZeros (List.replicate zeros '0' ++ rest) = rest := by
  have hall : ∀ c ∈ List.replicate zeros '0', (c == '0') = true :=
    fun c hc => beq_iff_eq.mpr (List.eq_of_mem_replicate hc)
  rw [afterZeros, List.takeWhile_append_of_pos hall, List.dropWhile_append_of_pos hall]
  cases rest with
  | nil => exact ⟨List.append_nil _, rfl⟩
  | cons c rest =>
    have hc : (c == '0') = false := beq_eq_false_iff_ne.mpr fun he => h (congrArg some he)
    simp [hc]

theorem plain_of_pieceOf? {piece : Piece} (h : pieceOf? c = some piece) :
    c ≠ ';' ∧ ¬ (c = '\'' ∨ c = '"') ∧ c ≠ '\\' ∧ ¬ (c = 'E' ∨ c = 'e') := by
  refine ⟨?_, ?_, ?_, ?_⟩
  · rintro rfl
    cases h
  · rintro (rfl | rfl) <;> cases h
  · rintro rfl
    cases h
  · rintro (rfl | rfl) <;> cases h

theorem plain_of_mark (h : c = 'E' ∨ c = 'e') : c ≠ ';' ∧ ¬ (c = '\'' ∨ c = '"') ∧ c ≠ '\\' := by
  rcases h with rfl | rfl <;> decide

theorem ne_divider_of_quote (h : c = '\'' ∨ c = '"') : c ≠ ';' := by
  rcases h with rfl | rfl <;> decide

theorem meet_eq {piece : Piece} (h : pieceOf? c = some piece) (v : Survey) : meet v c = v.add piece := by
  unfold pieceOf? at h
  split at h <;> cases h <;> try rfl
  unfold meet
  split <;> simp_all [Survey.add]

theorem survey_section (h : Lexes text s) (hafter : EndsSection after) (v : Survey) :
    survey v (text ++ after) = s.foldl Survey.add v := by
  induction h generalizing v with
  | nil =>
    rcases hafter with rfl | ⟨later, rfl⟩
    · rw [List.append_nil, survey]
      rfl
    · rw [List.nil_append, survey, if_pos rfl]
      rfl
  | @piece c piece rest s meant later ih =>
    obtain ⟨hdivider, hquote, hescape, hmark⟩ := plain_of_pieceOf? meant
    rw [List.cons_append, survey, if_neg hdivider, if_neg hquote, if_neg hescape, if_neg hmark,
      meet_eq meant, ih]
    rfl
  | @escaped c rest s later ih =>
    rw [List.cons_append, survey, if_neg (by decide), if_neg (by decide), if_pos rfl]
    exact ih v
  | @quoted quote text rest s isQuote closed later ih =>
    rw [List.cons_append, List.append_assoc, List.cons_append, survey, if_neg (ne_divider_of_quote isQuote),
      if_pos isQuote, (quote_ahead closed).2]
    exact ih v
  | @exponent mark sign zeros rest s isMark ended later ih =>
    obtain ⟨hdivider, hquote, hescape⟩ := plain_of_mark isMark
    have hzeros := (zeros_ahead (zeros + 1) (hafter.head?_append (by decide) ended)).2
    have hstarts := startsExponent_text sign zeros (rest ++ after)
    have hskip : afterZeros (sign.text ++ (List.replicate (zeros + 1) '0' ++ (rest ++ after))).tail =
        rest ++ after := by
      cases sign with
      | absent => exact (zeros_ahead zeros (hafter.head?_append (by decide) ended)).2
      | plus | minus => exact hzeros
    rw [List.cons_append, List.append_assoc, List.append_assoc, survey, if_neg hdivider, if_neg hquote,
      if_neg hescape, if_pos isMark, if_pos hstarts, hskip, ih]
    rfl
  | @mark mark rest s isMark alone later ih =>
    obtain ⟨hdivider, hquote, hescape⟩ := plain_of_mark isMark
    rw [List.cons_append, survey, if_neg hdivider, if_neg hquote, if_neg hescape, if_pos isMark,
      hafter.startsExponent_append, alone, ih]
    rfl

section

variable {locale : Locale} {d : Display} {scientific : Bool}

theorem writePieces_char {piece : Piece} (h : pieceOf? c = some piece) (p : Progress) (s : Section) :
    writePieces locale d p (piece :: s) =
      (emitChar locale d p c).1 ++ writePieces locale d (emitChar locale d p c).2 s := by
  unfold pieceOf? at h
  split at h <;> cases h <;> try rfl
  unfold emitChar
  split <;> simp_all [writePieces]

/-- A sign is written as it stands, whether the mark before it is looked at together with it or not. -/
theorem emit_sign (p : Progress) (text : List Char) :
    emit locale d scientific p text =
      signAhead text ++ emit locale d scientific p (afterSign text) := by
  have hsign {c : Char} (hc : c = '+' ∨ c = '-') (rest : List Char) :
      emit locale d scientific p (c :: rest) = c :: emit locale d scientific p rest := by
    rw [emit]
    rcases hc with rfl | rfl <;> simp [emitChar]
  unfold afterSign signAhead
  split
  · exact hsign (.inl rfl) _
  · exact hsign (.inr rfl) _
  · rfl

theorem emit_section (h : Lexes text s) (hafter : EndsSection after)
    (hs : Section.isScientific s = true → scientific = true) (p : Progress) :
    emit locale d scientific p (text ++ after) = writePieces locale d p s := by
  induction h generalizing p with
  | nil =>
    rcases hafter with rfl | ⟨later, rfl⟩
    · rw [List.append_nil, emit]
      rfl
    · rw [List.nil_append, emit, if_pos rfl]
      rfl
  | @piece c piece rest s meant later ih =>
    have hlater : Section.isScientific s = true → scientific = true :=
      fun hl => hs (Bool.or_eq_true_iff.mpr (.inr hl))
    obtain ⟨hdivider, hquote, hescape, hmark⟩ := plain_of_pieceOf? meant
    rw [List.cons_append, emit, if_neg hdivider, if_neg hquote, if_neg hescape, if_neg hmark, ih hlater,
      writePieces_char meant]
  | @escaped c rest s later ih =>
    rw [List.cons_append, emit, if_neg (by decide), if_neg (by decide), if_pos rfl]
    exact congrArg ([c] ++ ·) (ih hs p)
  | @quoted quote text rest s isQuote closed later ih =>
    obtain ⟨htext, hskip⟩ := @quote_ahead _ (rest ++ after) _ closed
    rw [List.cons_append, List.append_assoc, List.cons_append, emit, if_neg (ne_divider_of_quote isQuote),
      if_pos isQuote, htext, hskip]
    exact congrArg (text ++ ·) (ih hs p)
  | @exponent mark sign zeros rest s isMark ended later ih =>
    obtain rfl : scientific = true := hs rfl
    obtain ⟨hdivider, hquote, hescape⟩ := plain_of_mark isMark
    obtain ⟨hzeros, hskip⟩ := zeros_ahead (zeros + 1) (hafter.head?_append (by decide) ended)
    have hstarts := startsExponent_text sign zeros (rest ++ after)
    have hsign := signAhead_text sign (List.replicate zeros '0' ++ (rest ++ after))
    have hafterSign := afterSign_text sign (List.replicate zeros '0' ++ (rest ++ after))
    rw [← List.cons_append, ← List.replicate_succ] at hsign hafterSign
    rw [List.cons_append, List.append_assoc, List.append_assoc, emit, if_neg hdivider, if_neg hquote,
      if_neg hescape, if_pos isMark, hsign, hafterSign, hzeros, hskip, hstarts]
    cases hmet : p.exponentMet with
    | true =>
      have hsame : { p with exponentMet := true } = p := by rw [← hmet]
      simp [writePieces, hmet, hsame, ih]
    | false =>
      have hplus : (sign.text == ['+']) = (sign == .plus) := by cases sign <;> rfl
      simp [writePieces, hmet, hplus, ih]
  | @mark mark rest s isMark alone later ih =>
    obtain ⟨hdivider, hquote, hescape⟩ := plain_of_mark isMark
    rw [List.cons_append, emit, if_neg hdivider, if_neg hquote, if_neg hescape, if_pos isMark,
      hafter.startsExponent_append, alone]
    have hsign := @emit_sign locale d scientific p (rest ++ after)
    have hnone : (afterSign (rest ++ after)).head? ≠ some '0' :=
      beq_eq_false_iff_ne.mp ((hafter.startsExponent_append rest).trans alone)
    obtain ⟨hzeros, hskip⟩ := zeros_ahead 0 hnone
    rw [List.replicate_zero, List.nil_append] at hzeros hskip
    rw [hzeros, hskip, List.append_nil, List.cons_append, ← hsign, ih hs, if_neg Bool.false_ne_true, ite_self]
    rfl

end

/-! ## The choice of a section -/

/-- A place that is tried for a number, and the number as it stands. -/
structure Round where
  ahead : List Char
  number : Decimal

namespace Round

/-- The place at which the search starts. -/
def start (pattern : List Char) (x : Decimal) : Round :=
  ⟨findSection pattern (if x.isZero then 2 else if x.negative then 1 else 0), x⟩

/-- Tries places for a number, in a limited number of rounds. -/
def settle (pattern : List Char) : Nat → Round → Option Round
  | 0, _ => none
  | rounds + 1, r =>
    if r.number.isZero then some { r with number := .zero }
    else
      let prepared := (survey {} r.ahead).prepare r.number
      if prepared.isZero && findSection pattern 2 != r.ahead then
        settle pattern rounds ⟨findSection pattern 2, prepared⟩
      else some { r with number := prepared }

/-- What is written in the end. Only at the start of the pattern there is a sign. -/
def write (locale : Locale) (pattern : List Char) (r : Round) : List Char :=
  let v := survey {} r.ahead
  let sign := if r.number.negative && r.ahead == pattern then locale.negativeSign.toList else []
  sign ++ emit locale (v.display locale r.number) v.scientific { position := v.integerPlaces } r.ahead

end Round

theorem length_aheadOf_lt {texts : List (List Char)} {index later : Nat} (hi : index < later)
    (hl : later < texts.length) : (aheadOf texts later).length < (aheadOf texts index).length := by
  induction texts generalizing index later with
  | nil => exact absurd hl (Nat.not_lt_zero _)
  | cons first texts ih =>
    cases later with
    | zero => exact absurd hi (Nat.not_lt_zero _)
    | succ later =>
      rw [List.length_cons, Nat.add_lt_add_iff_right] at hl
      cases index with
      | succ index => exact ih (Nat.lt_of_succ_lt_succ hi) hl
      | zero =>
        have hnext : (aheadOf texts 0).length < (aheadOf (first :: texts) 0).length := by
          cases texts with
          | nil => exact absurd hl (Nat.not_lt_zero _)
          | cons next texts =>
            simp only [aheadOf, List.drop_zero, List.intercalate_cons_cons, List.length_append,
              List.length_singleton]
            omega
        show (aheadOf texts later).length < _
        cases later with
        | zero => exact hnext
        | succ later => exact Nat.lt_trans (ih (Nat.succ_pos later) hl) hnext

theorem aheadOf_inj {texts : List (List Char)} {index other : Nat} (hi : index < texts.length)
    (ho : other < texts.length) : aheadOf texts index = aheadOf texts other ↔ index = other := by
  refine ⟨fun h => ?_, congrArg _⟩
  have hlength := congrArg List.length h
  rcases Nat.lt_trichotomy index other with hlt | heq | hgt
  · have := length_aheadOf_lt hlt ho
    omega
  · exact heq
  · have := length_aheadOf_lt hgt hi
    omega

/-- The text of a section lies ahead of its start. -/
theorem aheadOf_eq {texts : List (List Char)} {index : Nat} (h : index < texts.length) :
    ∃ after, EndsSection after ∧ aheadOf texts index = partAt texts index ++ after := by
  have hpart : partAt texts index = texts[index] := List.getD_eq_getElem _ _ h
  rw [aheadOf, List.drop_eq_getElem_cons h, hpart]
  cases texts.drop (index + 1) with
  | nil => exact ⟨[], .inl rfl, by rw [List.intercalate_singleton, List.append_nil]⟩
  | cons next others =>
    exact ⟨_, .inr ⟨_, rfl⟩, by rw [List.intercalate_cons_cons, List.append_assoc]; rfl⟩

section

variable {pattern : List Char} {texts : List (List Char)} {sections : List Section}
  (hd : Divided pattern texts) (hs : List.Forall₂ Stands texts sections)
include hd hs

/-- From the start of a section the passes see its pieces. -/
theorem lexes_ahead {index : Nat} (h : index < texts.length) :
    ∃ text after, aheadOf texts index = text ++ after ∧ EndsSection after ∧
      Lexes text (partAt sections index) := by
  obtain ⟨after, hafter, hahead⟩ := aheadOf_eq h
  have hpart : partAt texts index = texts[index] := List.getD_eq_getElem _ _ h
  have htext : SectionText (partAt texts index) := hpart ▸ hd.isSection _ (List.getElem_mem h)
  exact ⟨_, after, hahead, hafter, htext.lexes_of_parse (parse_partAt hs index).1⟩

theorem survey_ahead {index : Nat} (h : index < texts.length) :
    survey {} (aheadOf texts index) = Survey.ofSection (partAt sections index) := by
  obtain ⟨text, after, hahead, hafter, hlexes⟩ := lexes_ahead hd hs h
  rw [hahead, survey_section hlexes hafter]
  rfl

theorem locate_lt (index : Nat) : locate sections index < texts.length := by
  have hlength := hs.length_eq
  unfold locate
  split
  · exact List.length_pos_iff.mpr hd.nonempty
  · rename_i hpart
    by_contra hbeyond
    exact hpart (List.getD_eq_default _ _ (by omega))

/-- The rounds over the text are those over the sections. -/
theorem settle_ahead {rounds : Nat} {a result : Attempt} (h : Attempt.settle sections rounds a = some result)
    (ha : a.index < texts.length) :
    Round.settle pattern rounds ⟨aheadOf texts a.index, a.number⟩ =
        some ⟨aheadOf texts result.index, result.number⟩ ∧
      result.index < texts.length := by
  induction rounds generalizing a with
  | zero => cases h
  | succ rounds ih =>
    have hzero := findSection_eq hd hs 2
    have hsame : (aheadOf texts (locate sections 2) != aheadOf texts a.index) =
        (locate sections 2 != a.index) := by
      rw [Bool.eq_iff_iff, bne_iff_ne, bne_iff_ne, (aheadOf_inj (locate_lt hd hs 2) ha).ne]
    simp only [Round.settle, survey_ahead hd hs ha, Survey.prepare_ofSection, hzero, hsame]
    unfold Attempt.settle at h
    split at h
    · rename_i hiszero
      cases h
      rw [if_pos hiszero]
      exact ⟨rfl, ha⟩
    · dsimp only at h
      split at h
      · rename_i hnonzero hagain
        rw [if_neg hnonzero, if_pos hagain]
        exact ih h (locate_lt hd hs 2)
      · rename_i hnonzero hdone
        cases h
        rw [if_neg hnonzero, if_neg hdone]
        exact ⟨rfl, ha⟩

theorem write_ahead (locale : Locale) {a : Attempt} (ha : a.index < texts.length) :
    Round.write locale pattern ⟨aheadOf texts a.index, a.number⟩ = a.write locale sections := by
  obtain ⟨text, after, hahead, hafter, hlexes⟩ := lexes_ahead hd hs ha
  have hcounts := (Survey.finds_ofSection (partAt sections a.index)).1
  have hpattern : pattern = aheadOf texts 0 := hd.eq
  have hfirst : (aheadOf texts a.index == pattern) = (a.index == 0) := by
    rw [hpattern, Bool.eq_iff_iff, beq_iff_eq, beq_iff_eq,
      aheadOf_inj ha (List.length_pos_iff.mpr hd.nonempty)]
  have hwritten : ∀ p, emit locale (Display.ofSection locale (partAt sections a.index) a.number)
      (Section.isScientific (partAt sections a.index)) p (aheadOf texts a.index) =
      writePieces locale (Display.ofSection locale (partAt sections a.index) a.number) p
        (partAt sections a.index) := by
    intro p
    rw [hahead]
    exact emit_section hlexes hafter id p
  simp only [Round.write, Attempt.write, writeSection, survey_ahead hd hs ha, hfirst,
    Survey.display_ofSection, hcounts.scientific, hcounts.integerPlaces_eq, hwritten]
  rfl

end

/-- The passes over the text of a pattern agree with its sections. The check finds the fault that reading
finds, or none. If the text is a pattern, the search over its places ends after two rounds, and what is
written from there is what the sections write. -/
theorem passes_agree (pattern : List Char) :
    (check 1 pattern = (parse pattern).map fun _ => ()) ∧
    ∀ sections, parse pattern = .ok sections → ∀ (locale : Locale) (x : Decimal),
      ∃ r, Round.settle pattern 2 (.start pattern x) = some r ∧
        r.write locale pattern = formatSections locale sections x := by
  refine ⟨check_eq pattern, fun sections hp locale x => ?_⟩
  obtain ⟨texts, hd⟩ := divided_of_parse hp
  rcases parse_divided hd with ⟨-, herror⟩ | ⟨-, sections', hok, hs⟩
  · cases herror.symm.trans hp
  obtain rfl := Except.ok.inj (hok.symm.trans hp)
  obtain ⟨a, hsettle, hwrite⟩ := Attempt.settle_start locale sections' x
  have hstart : Round.start pattern x =
      ⟨aheadOf texts (Attempt.start sections' x).index, (Attempt.start sections' x).number⟩ :=
    congrArg (Round.mk · x) (findSection_eq hd hs _)
  obtain ⟨hround, ha⟩ := settle_ahead hd hs hsettle (locate_lt hd hs _)
  exact ⟨_, hstart ▸ hround, (write_ahead hd hs locale ha).trans hwrite.symm⟩

end ScriptEngine.NumberFormat.Pattern
