import Mathlib.Data.List.Nodup
import ScriptEngine.Proofs.Text
import ScriptEngine.Text.Html

/-!
# Escaped text

Escaping puts one entity after the other in place of its character, and decoding puts the characters back.
In between a text is written with some special characters as entities and the others as they are
(`spell`): encoding one more entity adds it to them (`encode_spelled`), and decoding one takes it away
(`decode_spelled`), provided that ampersands are written as entities, too. So escaped text is the text
with all four entities (`toList_escapeHtml`), and decoding it gives the text back
(`decodeEntities_escapeHtml`).

What is left of stripping escaped text is the folding of white space: the words of a text one blank apart
are the text with its runs of blanks squeezed and its ends trimmed (`collapse_eq`).
-/

namespace ScriptEngine.Text

section Replace

variable {pattern : List Char} (replacement : List Char)

theorem replaceFrom_drop (front cs : List Char) :
    replaceFrom pattern replacement front.length (front ++ cs) = replace pattern replacement cs := by
  induction front with
  | nil => rfl
  | cons c front ih => exact ih

/-- An occurrence of the pattern is replaced. -/
theorem replace_append_self (h : pattern ≠ []) (cs : List Char) :
    replace pattern replacement (pattern ++ cs) = replacement ++ replace pattern replacement cs := by
  obtain ⟨c, rest, rfl⟩ := List.exists_cons_of_ne_nil h
  have hbegins : (c :: rest).isPrefixOf (c :: (rest ++ cs)) = true :=
    List.isPrefixOf_iff_prefix.mpr (List.prefix_append (c :: rest) cs)
  rw [List.cons_append, replace, replaceFrom, if_pos hbegins, List.length_cons, Nat.add_sub_cancel,
    replaceFrom_drop]

/-- A character at which the pattern does not begin is kept. -/
theorem replace_cons {c : Char} {cs : List Char} (h : ¬ pattern <+: c :: cs) :
    replace pattern replacement (c :: cs) = c :: replace pattern replacement cs := by
  rw [replace, replaceFrom, if_neg (mt List.isPrefixOf_iff_prefix.mp h), replace]

/-- Characters other than the first one of the pattern are kept. -/
theorem replace_append_of_not_mem {first : Char} {front : List Char} (h : first ∉ front)
    (rest cs : List Char) :
    replace (first :: rest) replacement (front ++ cs) =
      front ++ replace (first :: rest) replacement cs := by
  induction front with
  | nil => rfl
  | cons c front ih =>
    rw [List.mem_cons, not_or] at h
    rw [List.cons_append, replace_cons, ih h.2, List.cons_append]
    exact fun hp => h.1 (List.cons_prefix_cons.mp hp).1

theorem replace_single (c : Char) (cs : List Char) :
    replace [c] replacement cs = cs.flatMap fun d => if d = c then replacement else [d] := by
  induction cs with
  | nil => rfl
  | cons d cs ih =>
    rw [List.flatMap_cons, ← ih]
    split
    · rename_i he
      rw [he]
      exact replace_append_self replacement (List.cons_ne_nil _ _) cs
    · rename_i hne
      have hkept : c ∉ [d] := fun hm => hne (List.mem_singleton.mp hm).symm
      exact replace_append_of_not_mem replacement hkept [] cs

end Replace

/-! ## Texts with entities -/

/-- A character as it is written where some characters are written as entities. -/
def spell (entities : List Entity) (c : Char) : List Char :=
  match entities.find? (·.char == c) with
  | some e => e.text
  | none => [c]

theorem spell_cases (entities : List Entity) (c : Char) :
    (∃ e ∈ entities, e.char = c ∧ spell entities c = e.text) ∨
    ((∀ e ∈ entities, e.char ≠ c) ∧ spell entities c = [c]) := by
  unfold spell
  cases h : entities.find? (·.char == c) with
  | some e => exact .inl ⟨e, List.mem_of_find?_eq_some h, by simpa using List.find?_some h, rfl⟩
  | none => exact .inr ⟨by simpa using h, rfl⟩

theorem spell_of_mem {entities : List Entity} (h : (entities.map (·.char)).Nodup) {e : Entity}
    (he : e ∈ entities) : spell entities e.char = e.text := by
  rcases spell_cases entities e.char with ⟨other, ho, hc, hs⟩ | ⟨hnone, -⟩
  · rw [hs, List.inj_on_of_nodup_map h ho he hc]
  · exact absurd rfl (hnone e he)

theorem spell_of_not_mem {entities : List Entity} {c : Char} (h : ∀ e ∈ entities, e.char ≠ c) :
    spell entities c = [c] := by
  rcases spell_cases entities c with ⟨e, he, hc, -⟩ | ⟨-, hs⟩
  · exact absurd hc (h e he)
  · exact hs

/-- Encoding one more character leaves the entities that are there alone. -/
theorem encode_spelled {entities : List Entity} {e : Entity} (h : ∀ other ∈ entities, e.char ∉ other.text)
    (cs : List Char) :
    Entity.encode (cs.flatMap (spell entities)) e = cs.flatMap (spell (entities ++ [e])) := by
  rw [Entity.encode, replace_single, List.flatMap_assoc]
  refine List.flatMap_congr fun c _ => ?_
  simp only [spell, List.find?_append]
  cases hf : entities.find? (·.char == c) with
  | some other =>
    have hkept : ∀ d ∈ other.text, (if d = e.char then e.text else [d]) = [d] := by
      intro d hd
      refine if_neg fun he : d = e.char => ?_
      exact h other (List.mem_of_find?_eq_some hf) (he ▸ hd)
    show other.text.flatMap _ = other.text
    rw [List.flatMap_congr hkept, List.flatMap_singleton']
  | none =>
    rw [Option.none_or, List.find?_singleton, List.flatMap_singleton]
    by_cases hc : c = e.char
    · simp [hc]
    · simp [hc, Ne.symm hc]

/-- Entities that can be told from each other and from plain text. -/
structure Distinct (entities : List Entity) : Prop where
  chars : (entities.map (·.char)).Nodup
  names : (entities.map (·.name)).Nodup
  plain : ∀ e ∈ entities, '&' ∉ e.name ∧ ';' ∉ e.name
  ampersand : ∃ e ∈ entities, e.char = '&'

theorem Distinct.erase {entities : List Entity} (h : Distinct entities) {e : Entity} (he : e.char ≠ '&') :
    Distinct (entities.erase e) where
  chars := h.chars.sublist (List.erase_sublist.map _)
  names := h.names.sublist (List.erase_sublist.map _)
  plain other ho := h.plain other (List.mem_of_mem_erase ho)
  ampersand := by
    obtain ⟨amp, ha, hc⟩ := h.ampersand
    have hne : amp ≠ e := fun heq => he ((congrArg Entity.char heq).symm.trans hc)
    exact ⟨amp, (List.mem_erase_of_ne hne).mpr ha, hc⟩

/-- A character that is written as it is is no ampersand. -/
theorem Distinct.ampersand_not_mem {entities : List Entity} (h : Distinct entities) {c : Char}
    (hc : ∀ e ∈ entities, e.char ≠ c) : '&' ∉ [c] := by
  obtain ⟨amp, ha, hamp⟩ := h.ampersand
  exact fun hm => hc amp ha (hamp.trans (List.mem_singleton.mp hm))

/-- A name in front of a semicolon ends there. -/
theorem name_eq_of_begins {name other cs : List Char} (hn : ';' ∉ name) (ho : ';' ∉ other)
    (h : name ++ [';'] <+: other ++ [';'] ++ cs) : name = other := by
  induction name generalizing other with
  | nil =>
    cases other with
    | nil => rfl
    | cons d other =>
      have hd := (List.cons_prefix_cons.mp h).1
      exact absurd (hd ▸ List.mem_cons_self) ho
  | cons c name ih =>
    cases other with
    | nil =>
      have hc := (List.cons_prefix_cons.mp h).1
      exact absurd (hc ▸ List.mem_cons_self) hn
    | cons d other =>
      obtain ⟨rfl, hrest⟩ := List.cons_prefix_cons.mp h
      rw [ih (mt (List.mem_cons_of_mem _) hn) (mt (List.mem_cons_of_mem _) ho) hrest]

/-- Replacing an entity passes over another one. -/
theorem replace_other {e other : Entity} (he : ';' ∉ e.name) (ho : '&' ∉ other.name ∧ ';' ∉ other.name)
    (hne : e.name ≠ other.name) (replacement cs : List Char) :
    replace e.text replacement (other.text ++ cs) = other.text ++ replace e.text replacement cs := by
  have hfirst : ¬ e.text <+: '&' :: ((other.name ++ [';']) ++ cs) := fun hp =>
    hne (name_eq_of_begins he ho.2 (List.cons_prefix_cons.mp hp).2)
  have hrest : '&' ∉ other.name ++ [';'] := by simp [ho.1]
  rw [Entity.text, Entity.text, List.cons_append, ← Entity.text, replace_cons replacement hfirst, Entity.text,
    replace_append_of_not_mem replacement hrest, List.cons_append]

/-- Decoding one entity leaves the others as they are. -/
theorem decode_spelled {entities : List Entity} (h : Distinct entities) {e : Entity} (he : e ∈ entities)
    (cs : List Char) :
    Entity.decode (cs.flatMap (spell entities)) e = cs.flatMap (spell (entities.erase e)) := by
  have hmem {other : Entity} : other ∈ entities.erase e ↔ other ≠ e ∧ other ∈ entities :=
    (List.Nodup.of_map _ h.chars).mem_erase_iff
  have hchar : ∀ other ∈ entities.erase e, other.char ≠ e.char := by
    intro other ho hc
    exact (hmem.mp ho).1 (List.inj_on_of_nodup_map h.chars (hmem.mp ho).2 he hc)
  induction cs with
  | nil => rfl
  | cons c cs ih =>
    rw [Entity.decode] at ih ⊢
    rw [List.flatMap_cons, List.flatMap_cons, ← ih]
    by_cases hc : c = e.char
    · rw [hc, spell_of_mem h.chars he, spell_of_not_mem hchar]
      exact replace_append_self _ (List.cons_ne_nil _ _) _
    · rcases spell_cases entities c with ⟨other, ho, rfl, hs⟩ | ⟨hnone, hs⟩
      · have hne : other ≠ e := fun heq => hc (congrArg _ heq)
        have hnames : e.name ≠ other.name := fun hn =>
          hne (List.inj_on_of_nodup_map h.names ho he hn.symm)
        have hkept : spell (entities.erase e) other.char = other.text :=
          spell_of_mem (h.chars.sublist (List.erase_sublist.map _)) (hmem.mpr ⟨hne, ho⟩)
        rw [hs, hkept]
        exact replace_other (h.plain e he).2 (h.plain other ho) hnames _ _
      · rw [hs, spell_of_not_mem fun other ho => hnone other (hmem.mp ho).2]
        exact replace_append_of_not_mem _ (h.ampersand_not_mem hnone) _ _

/-- The entities of escaped text. -/
def htmlEntities : List Entity :=
  [.ampersand, .less, .greater, .quote]

theorem toList_escapeHtml (s : String) : (escapeHtml s).toList = s.toList.flatMap (spell htmlEntities) := by
  have hplain : s.toList = s.toList.flatMap (spell []) := (List.flatMap_singleton' _).symm
  rw [escapeHtml, String.toList_ofList]
  simp only [List.foldl_cons, List.foldl_nil]
  conv_lhs => rw [hplain]
  rw [encode_spelled (by decide), encode_spelled (by decide), encode_spelled (by decide),
    encode_spelled (by decide)]
  rfl

theorem distinct_htmlEntities : Distinct htmlEntities :=
  ⟨by decide, by decide, by decide, by decide⟩

/-- Decoding gives back what was escaped. -/
theorem decodeEntities_escapeHtml (s : String) : decodeEntities (escapeHtml s).toList = s.toList := by
  have hfour := distinct_htmlEntities
  have hthree : Distinct (htmlEntities.erase .less) := hfour.erase (by decide)
  have htwo : Distinct ((htmlEntities.erase .less).erase .greater) := hthree.erase (by decide)
  have hone : Distinct (((htmlEntities.erase .less).erase .greater).erase .quote) :=
    htwo.erase (by decide)
  rw [toList_escapeHtml, decodeEntities]
  simp only [List.foldl_cons, List.foldl_nil]
  rw [decode_spelled hfour (by decide), decode_spelled hthree (by decide), decode_spelled htwo (by decide),
    decode_spelled hone (by decide)]
  exact List.flatMap_singleton' _

/-- No special character but the ampersand occurs in escaped text, neither for itself nor in an entity. -/
theorem plain_of_mem_escapeHtml {s : String} {c : Char} (h : c ∈ (escapeHtml s).toList) :
    c ≠ '<' ∧ c ≠ '>' ∧ c ≠ '"' := by
  rw [toList_escapeHtml, List.mem_flatMap] at h
  obtain ⟨d, -, hd⟩ := h
  rcases spell_cases htmlEntities d with ⟨e, he, -, hs⟩ | ⟨hnone, hs⟩
  · have hclean : ∀ e ∈ htmlEntities, '<' ∉ e.text ∧ '>' ∉ e.text ∧ '"' ∉ e.text := by decide
    obtain ⟨hless, hgreater, hquote⟩ := hclean e he
    rw [hs] at hd
    exact ⟨ne_of_mem_of_not_mem hd hless, ne_of_mem_of_not_mem hd hgreater, ne_of_mem_of_not_mem hd hquote⟩
  · obtain rfl := List.mem_singleton.mp (hs ▸ hd)
    exact ⟨(hnone .less (by decide)).symm, (hnone .greater (by decide)).symm,
      (hnone .quote (by decide)).symm⟩

/-- Where ampersands are written as entities, each ampersand begins an entity. -/
theorem entity_at_ampersand {entities : List Entity} (h : Distinct entities) {cs before rest : List Char}
    (hs : cs.flatMap (spell entities) = before ++ '&' :: rest) : ∃ e ∈ entities, e.text <+: '&' :: rest := by
  induction cs generalizing before with
  | nil => simp at hs
  | cons c cs ih =>
    rw [List.flatMap_cons, List.append_eq_append_iff] at hs
    -- The ampersand stands behind what the first character is written as, or within it.
    rcases hs with ⟨middle, hb, hrest⟩ | ⟨middle, hc, hrest⟩
    · exact ih hrest
    cases middle with
    | nil => exact @ih [] (by simpa using hrest.symm)
    | cons d middle =>
      rw [List.cons_append, List.cons.injEq] at hrest
      obtain ⟨rfl, rfl⟩ := hrest
      rcases spell_cases entities c with ⟨e, he, -, ht⟩ | ⟨hnone, ht⟩
      · refine ⟨e, he, ?_⟩
        have htext : '&' :: (e.name ++ [';']) = before ++ '&' :: middle := ht.symm.trans hc
        cases before with
        | nil => exact ⟨_, congrArg (· ++ _) htext⟩
        | cons b before =>
          have hmem : '&' ∈ e.name ++ [';'] := (List.cons.inj htext).2 ▸ by simp
          simp [(h.plain e he).1] at hmem
      · have hmem : '&' ∈ [c] := (ht.symm.trans hc) ▸ by simp
        exact absurd hmem (h.ampersand_not_mem hnone)

/-! ## Stripping -/

theorem dropTags_plain {cs : List Char} (h : '<' ∉ cs) : dropTags false cs = cs := by
  induction cs with
  | nil => rfl
  | cons c cs ih =>
    rw [List.mem_cons, not_or] at h
    rw [dropTags, if_neg (Ne.symm h.1), ih h.2]

/-- A text with one space in place of each run of blanks, where the last blank of the run stands. -/
def squeeze : List Char → List Char
  | [] => []
  | c :: cs =>
    if isBlank c then
      if cs.head?.any isBlank then squeeze cs else ' ' :: squeeze cs
    else
      c :: squeeze cs

theorem squeeze_cons_of_not_blank {c : Char} (h : isBlank c = false) (cs : List Char) :
    squeeze (c :: cs) = c :: squeeze cs := by
  simp [squeeze, h]

/-- A run of blanks becomes one space. -/
theorem squeeze_cons_of_blank {c : Char} (h : isBlank c = true) (cs : List Char) :
    squeeze (c :: cs) = ' ' :: (squeeze cs).dropWhile isBlank := by
  induction cs generalizing c with
  | nil => simp [squeeze, h]
  | cons d cs ih =>
    cases hd : isBlank d with
    | true =>
      rw [squeeze, if_pos h, if_pos (by simpa using hd), ih hd]
      have hspace : isBlank ' ' = true := by decide
      rw [List.dropWhile_cons_of_pos hspace, List.dropWhile_idempotent]
    | false =>
      rw [squeeze, if_pos h, if_neg (by simp [hd]), squeeze_cons_of_not_blank hd,
        List.dropWhile_cons_of_neg (by simp [hd])]

theorem trimRight_append_filled {cs : List Char} (h : trimRight cs ≠ []) (front : List Char) :
    trimRight (front ++ cs) = front ++ trimRight cs := by
  have hkept : ¬ (cs.reverse.dropWhile isBlank).isEmpty = true := by
    rwa [List.isEmpty_iff, ← List.reverse_eq_nil_iff]
  rw [trimRight, List.reverse_append, List.dropWhile_append, if_neg hkept, List.reverse_append,
    List.reverse_reverse, trimRight]

theorem ne_nil_of_mem_wordsFrom {word cs w : List Char} (h : w ∈ wordsFrom word cs) : w ≠ [] := by
  induction cs generalizing word with
  | nil =>
    rw [wordsFrom] at h
    split at h <;> simp_all
  | cons c cs ih =>
    rw [wordsFrom] at h
    split at h
    · split at h
      · exact ih h
      · rcases List.mem_cons.mp h with rfl | h
        · simp_all
        · exact ih h
    · exact ih h

/-- The words of a text one space apart. A word that is being read has its beginning in front of the text. -/
theorem intercalate_wordsFrom (cs : List Char) :
    List.intercalate [' '] (wordsFrom [] cs) = trimChars (squeeze cs) ∧
    ∀ word, word ≠ [] →
      List.intercalate [' '] (wordsFrom word cs) = word.reverse ++ trimRight (squeeze cs) := by
  induction cs with
  | nil =>
    refine ⟨rfl, fun word hw => ?_⟩
    simp [wordsFrom, hw, squeeze, trimRight]
  | cons c cs ih =>
    obtain ⟨ihfresh, ihword⟩ := ih
    cases hc : isBlank c with
    | false =>
      rw [squeeze_cons_of_not_blank hc, trimChars, List.dropWhile_cons_of_neg (by simp [hc]),
        trimRight_cons hc]
      refine ⟨?_, fun word hw => ?_⟩
      · simp [wordsFrom, hc, ihword]
      · simp [wordsFrom, hc, ihword]
    | true =>
      rw [squeeze_cons_of_blank hc]
      refine ⟨?_, fun word hw => ?_⟩
      · have hspace : isBlank ' ' = true := by decide
        rw [trimChars, List.dropWhile_cons_of_pos hspace, List.dropWhile_idempotent, ← trimChars, ← ihfresh]
        simp [wordsFrom, hc]
      · have hwords : wordsFrom word (c :: cs) = word.reverse :: wordsFrom [] cs := by
          simp [wordsFrom, hc, hw]
        rw [trimChars] at ihfresh
        rw [hwords]
        cases hrest : wordsFrom [] cs with
        | nil =>
          -- Only blanks follow, and nothing is left of them.
          rw [hrest, List.intercalate_nil, eq_comm, trimRight_eq_nil_iff] at ihfresh
          have hnone : trimRight (' ' :: (squeeze cs).dropWhile isBlank) = [] :=
            trimRight_eq_nil_iff.mpr (List.forall_mem_cons.mpr ⟨by decide, ihfresh⟩)
          rw [List.intercalate_singleton, hnone, List.append_nil]
        | cons next words =>
          have hnext : next ≠ [] := ne_nil_of_mem_wordsFrom (hrest ▸ List.mem_cons_self)
          have hfilled : trimRight ((squeeze cs).dropWhile isBlank) ≠ [] := by
            rw [← ihfresh, hrest]
            cases words with
            | nil => simpa using hnext
            | cons _ _ => simp [List.intercalate_cons_cons, hnext]
          have hspace := trimRight_append_filled hfilled [' ']
          rw [List.singleton_append] at hspace
          rw [List.intercalate_cons_of_ne_nil (List.cons_ne_nil _ _), ← hrest, ihfresh, hspace,
            List.append_assoc]

/-- The words of a text one space apart are the text with its runs of blanks squeezed and no blanks
outside. -/
theorem collapse_eq (cs : List Char) : collapse cs = trimChars (squeeze cs) :=
  (intercalate_wordsFrom cs).1

theorem squeeze_of_no_blank {cs : List Char} (h : ∀ c ∈ cs, isBlank c = false) : squeeze cs = cs := by
  induction cs with
  | nil => rfl
  | cons c cs ih =>
    obtain ⟨hc, hcs⟩ := List.forall_mem_cons.mp h
    rw [squeeze_cons_of_not_blank hc, ih hcs]

theorem trimChars_of_no_blank {cs : List Char} (h : ∀ c ∈ cs, isBlank c = false) : trimChars cs = cs := by
  have hkept {cs : List Char} (h : ∀ c ∈ cs, isBlank c = false) : cs.dropWhile isBlank = cs := by
    cases cs with
    | nil => rfl
    | cons c cs => exact List.dropWhile_cons_of_neg (by simp [h c List.mem_cons_self])
  rw [trimChars, hkept h, trimRight, hkept fun c hc => h c (List.mem_reverse.mp hc), List.reverse_reverse]

/-- What is left of escaped text when it is stripped. -/
theorem stripHtml_escapeHtml (s : String) :
    stripHtml (escapeHtml s) = String.ofList (trimChars (squeeze s.toList)) := by
  have htags : '<' ∉ (escapeHtml s).toList := fun hm => (plain_of_mem_escapeHtml hm).1 rfl
  rw [stripHtml, dropTags_plain htags, decodeEntities_escapeHtml, collapse_eq]

/-- Escaped text is inert and decodes back. It holds no angle bracket and no quotation mark, and each of its
ampersands begins one of the four entities. Stripping it gives the text that was escaped with each run of
blanks squeezed to one space and the blanks outside removed. So a text without blanks comes back
unchanged, also one that looks like an entity itself. -/
theorem escaped_text_is_inert_and_decodes_back (s : String) :
    (∀ c ∈ (escapeHtml s).toList, c ≠ '<' ∧ c ≠ '>' ∧ c ≠ '"') ∧
    (∀ before rest, (escapeHtml s).toList = before ++ '&' :: rest →
      ∃ entity ∈ ["&amp;", "&lt;", "&gt;", "&quot;"], entity.toList <+: '&' :: rest) ∧
    stripHtml (escapeHtml s) = trim (String.ofList (squeeze s.toList)) ∧
    ((∀ c ∈ s.toList, isBlank c = false) → stripHtml (escapeHtml s) = s) := by
  refine ⟨fun c hc => plain_of_mem_escapeHtml hc, fun before rest hs => ?_, ?_, fun hblank => ?_⟩
  · obtain ⟨e, he, hp⟩ := entity_at_ampersand distinct_htmlEntities ((toList_escapeHtml s).symm.trans hs)
    have hwritten : ∀ e ∈ htmlEntities, String.ofList e.text ∈ ["&amp;", "&lt;", "&gt;", "&quot;"] := by
      decide
    exact ⟨_, hwritten e he, String.toList_ofList ▸ hp⟩
  · rw [stripHtml_escapeHtml, trim, String.toList_ofList]
  · rw [stripHtml_escapeHtml, squeeze_of_no_blank hblank, trimChars_of_no_blank hblank, String.ofList_toList]

/-- Texts that look like entities, one of them escaped already, and one with blanks of several kinds. -/
theorem entity_look_alikes_survive :
    (∃ entity ∈ ["&amp;", "&lt;", "&gt;", "&quot;"], entity.toList <+: (escapeHtml "&lt;").toList) ∧
    stripHtml (escapeHtml "&lt;") = "&lt;" ∧ stripHtml (escapeHtml "&amp;quot;") = "&amp;quot;" ∧
    stripHtml (escapeHtml " a\t\n&amp;  <b> ") = "a &amp; <b>" := by
  have hescaped : (escapeHtml "&lt;").toList = [] ++ '&' :: "amp;lt;".toList := by decide
  have hless : "&lt;".toList.all (isBlank · == false) = true := by decide
  have hquote : "&amp;quot;".toList.all (isBlank · == false) = true := by decide
  refine ⟨?_, (escaped_text_is_inert_and_decodes_back "&lt;").2.2.2 fun c hc => ?_,
    (escaped_text_is_inert_and_decodes_back "&amp;quot;").2.2.2 fun c hc => ?_, ?_⟩
  · rw [hescaped]
    exact (escaped_text_is_inert_and_decodes_back "&lt;").2.1 [] _ hescaped
  · exact beq_iff_eq.mp (List.all_eq_true.mp hless c hc)
  · exact beq_iff_eq.mp (List.all_eq_true.mp hquote c hc)
  · rw [(escaped_text_is_inert_and_decodes_back _).2.2.1]
    decide

end ScriptEngine.Text
