import Mathlib.Data.List.Flatten
import ScriptEngine.Proofs.Markup.Stretches
import ScriptEngine.Proofs.Text

/-!
# The text of an element

Of the stretches of character data directly inside an element its text joins those that are not blank, and
leaves out the blanks at both ends (`parse_texts`). Blank stretches at the ends would make no difference;
one between two others would. `trim_join_filled_iff` says exactly when the text is all the character data
that stands there.
-/

namespace ScriptEngine.Markup

open Grammar (Within)

theorem texts_pruneAll (nodes : List Node) :
    (Node.pruneAll nodes).filterMap Node.text? =
      (nodes.filterMap Node.text?).filter fun text => !Text.isBlankText text := by
  induction nodes with
  | nil => rw [Node.pruneAll]; rfl
  | cons node rest ih =>
    rw [Node.pruneAll]
    cases node with
    | element e =>
      rw [if_neg (by simp [Node.isBlank]), Node.prune]
      exact ih
    | text value span =>
      rw [Node.isBlank]
      show _ = List.filter _ (value :: rest.filterMap Node.text?)
      by_cases hb : Text.isBlankText value = true
      · rw [if_pos hb, List.filter_cons_of_neg (by simp [hb]), ih]
      · rw [if_neg hb, List.filter_cons_of_pos (by simp [hb]), ← ih, Node.prune]
        rfl

theorem elements_pruneAll (nodes : List Node) :
    (Node.pruneAll nodes).filterMap Node.element? =
      (nodes.filterMap Node.element?).map Element.prune := by
  induction nodes with
  | nil => rw [Node.pruneAll]; rfl
  | cons node rest ih =>
    rw [Node.pruneAll]
    cases node with
    | element e =>
      rw [if_neg (by simp [Node.isBlank]), Node.prune]
      exact congrArg (e.prune :: ·) ih
    | text value span =>
      split
      · exact ih
      · rw [Node.prune]
        exact ih

namespace Element

theorem texts_prune (e : Element) : e.prune.children.filterMap Node.text? =
    (e.children.filterMap Node.text?).filter fun text => !Text.isBlankText text := by
  cases e
  rw [prune]
  exact texts_pruneAll _

theorem elements_prune (e : Element) : e.prune.elements = e.elements.map prune := by
  cases e
  rw [prune]
  exact elements_pruneAll _

theorem name_prune (e : Element) : e.prune.name = e.name := by
  cases e
  rw [prune]
  rfl

theorem span_prune (e : Element) : e.prune.span = e.span := by
  cases e
  rw [prune]
  rfl

end Element

/-- Every element that is left comes of one of the whole tree. -/
theorem within_prune {e root : Element} (h : Within e root.prune) :
    ∃ whole, Within whole root ∧ e = whole.prune := by
  induction h using Relation.ReflTransGen.head_induction_on with
  | refl => exact ⟨root, .refl, rfl⟩
  | head hm _ ih =>
    obtain ⟨whole, hw, rfl⟩ := ih
    rw [Element.elements_prune] at hm
    obtain ⟨child, hc, rfl⟩ := List.mem_map.mp hm
    exact ⟨child, .head hc hw, rfl⟩

theorem Encloses.prune {tokens : List (Token × Span)} {e : Element} {inner : List Token}
    (h : Encloses tokens e inner) : Encloses tokens e.prune inner := by
  cases h with
  | alone written named =>
    exact .alone (by rwa [e.span_prune]) (e.name_prune.trans named)
  | pair written named spanned =>
    exact .pair written (e.name_prune.trans named) (e.span_prune.trans spanned)

/-! ## Stretches that are joined -/

/-- All the character data directly among tokens. -/
def dataOf (inner : List Token) : String :=
  String.join ((direct 0 inner).filterMap id)

/-- The stretches of character data directly among tokens. -/
def stretchesOf (inner : List Token) : List String :=
  stretches none (direct 0 inner)

theorem join_stretches (pending : Option String) (items : List (Option String)) :
    String.join (stretches pending items) = pending.getD "" ++ String.join (items.filterMap id) := by
  induction items generalizing pending with
  | nil => cases pending <;> simp [stretches]
  | cons item rest ih =>
    cases item with
    | none =>
      rw [stretches]
      cases pending <;> simp [ih]
    | some text =>
      rw [stretches, ih]
      simp [String.append_assoc]

theorem join_stretchesOf (inner : List Token) : String.join (stretchesOf inner) = dataOf inner := by
  rw [stretchesOf, join_stretches]
  simp [dataOf]

/-- The joined texts that are not blank. -/
def joinFilled (texts : List String) : String :=
  String.join (texts.filter fun text => !Text.isBlankText text)

/-- A blank text between two that are not blank has no characters at all. -/
def NoGapBetween (texts : List String) : Prop :=
  ∀ before blank after, [before, blank, after].Sublist texts → Text.isBlankText before = false →
    Text.isBlankText after = false → Text.isBlankText blank = true → blank = ""

section

variable {text : String} {texts : List String}

theorem joinFilled_blank (h : Text.isBlankText text = true) :
    joinFilled (text :: texts) = joinFilled texts := by
  rw [joinFilled, List.filter_cons_of_neg (by simp [h]), joinFilled]

theorem joinFilled_cons (h : Text.isBlankText text = false) :
    joinFilled (text :: texts) = text ++ joinFilled texts := by
  rw [joinFilled, List.filter_cons_of_pos (by simp [h]), String.join_cons, joinFilled]

theorem joinFilled_append (others : List String) :
    joinFilled (texts ++ others) = joinFilled texts ++ joinFilled others := by
  rw [joinFilled, List.filter_append, String.join_append]
  rfl

theorem join_singleton (text : String) : String.join [text] = text := by
  rw [String.join_cons, String.join_nil, String.append_empty]

theorem joinFilled_sublist (texts : List String) :
    (joinFilled texts).toList.Sublist (String.join texts).toList := by
  rw [joinFilled, String.toList_join, String.toList_join, List.flatMap, List.flatMap]
  exact (List.filter_sublist.map String.toList).flatten

/-- Nothing is lost exactly if what is left out is empty. -/
theorem joinFilled_eq_join_iff :
    joinFilled texts = String.join texts ↔ ∀ t ∈ texts, Text.isBlankText t = true → t = "" := by
  induction texts with
  | nil => exact iff_of_true rfl fun _ h => (List.not_mem_nil h).elim
  | cons text rest ih =>
    rw [List.forall_mem_cons]
    cases hb : Text.isBlankText text with
    | false =>
      rw [joinFilled_cons hb, String.join_cons, String.append_right_inj, and_iff_right (fun h => by cases h)]
      exact ih
    | true =>
      rw [joinFilled_blank hb, String.join_cons]
      constructor
      · intro h
        have hle := (joinFilled_sublist rest).length_le
        rw [h, String.toList_append, List.length_append] at hle
        have hempty : text = "" := String.toList_eq_nil_iff.mp (List.eq_nil_of_length_eq_zero (by omega))
        subst hempty
        rw [String.empty_append] at h
        exact ⟨fun _ => rfl, ih.mp h⟩
      · rintro ⟨hempty, h⟩
        rw [hempty rfl, String.empty_append]
        exact ih.mpr h

theorem trim_blank_append (h : Text.isBlankText text = true) (other : String) :
    Text.trim (text ++ other) = Text.trim other := by
  rw [Text.trim, String.toList_append,
    Text.trimChars_blank_append (Text.isBlankText_eq_true_iff.mp h), Text.trim]

theorem trim_append_blank (h : Text.isBlankText text = true) (other : String) :
    Text.trim (other ++ text) = Text.trim other := by
  rw [Text.trim, String.toList_append,
    Text.trimChars_append_blank (Text.isBlankText_eq_true_iff.mp h), Text.trim]

/-- Between two texts that are not blank trimming changes nothing. -/
theorem trim_between_inj {first last : String} (hf : Text.isBlankText first = false)
    (hl : Text.isBlankText last = false) {inner other : String} :
    Text.trim (first ++ (inner ++ last)) = Text.trim (first ++ (other ++ last)) ↔ inner = other := by
  have hfirst : ¬ ∀ c ∈ first.toList, Text.isBlank c = true := by
    rw [← Text.isBlankText_eq_true_iff, hf]
    decide
  have hlast : ¬ ∀ c ∈ last.toList, Text.isBlank c = true := by
    rw [← Text.isBlankText_eq_true_iff, hl]
    decide
  simp only [Text.trim, String.toList_append, Text.trimChars_between hfirst hlast]
  rw [String.ofList_inj, List.append_cancel_left_eq, List.append_cancel_right_eq, String.toList_inj]

theorem noGapBetween_blank_cons (h : Text.isBlankText text = true) :
    NoGapBetween (text :: texts) ↔ NoGapBetween texts := by
  constructor
  · intro hn before blank after hs
    exact hn before blank after (hs.cons text)
  · intro hn before blank after hs hb
    rcases List.sublist_cons_iff.mp hs with hs | ⟨rest, he, -⟩
    · exact hn before blank after hs hb
    · obtain rfl := (List.cons.inj he).1
      rw [h] at hb
      cases hb

theorem noGapBetween_append_blank (h : Text.isBlankText text = true) :
    NoGapBetween (texts ++ [text]) ↔ NoGapBetween texts := by
  constructor
  · intro hn before blank after hs
    exact hn before blank after (hs.trans (List.sublist_append_left ..))
  · intro hn before blank after hs hb ha
    obtain ⟨front, back, he, hf, hk⟩ := List.sublist_append_iff.mp hs
    rcases List.sublist_singleton.mp hk with rfl | rfl
    · rw [List.append_nil] at he
      exact hn before blank after (he ▸ hf) hb ha
    · have := congrArg List.getLast? he
      simp at this
      rw [this, h] at ha
      cases ha

theorem noGapBetween_ends {first last : String} (hf : Text.isBlankText first = false)
    (hl : Text.isBlankText last = false) :
    NoGapBetween (first :: (texts ++ [last])) ↔ ∀ t ∈ texts, Text.isBlankText t = true → t = "" := by
  constructor
  · intro hn t ht
    refine hn first t last ?_ hf hl
    exact ((List.singleton_sublist.mpr ht).append (.refl [last])).cons_cons first
  · intro h before blank after hs _ _ hb
    have hm : blank ∈ first :: (texts ++ [last]) := hs.subset (by simp)
    refine h blank ?_ hb
    rcases List.mem_cons.mp hm with rfl | hm
    · rw [hf] at hb
      cases hb
    · rcases List.mem_append.mp hm with hm | hm
      · exact hm
      · obtain rfl := List.mem_singleton.mp hm
        rw [hl] at hb
        cases hb

/-- A list that begins with a text that is not blank, by induction from its end. -/
theorem trim_join_filled_first {first : String} (hf : Text.isBlankText first = false) (rest : List String) :
    Text.trim (joinFilled (first :: rest)) = Text.trim (String.join (first :: rest)) ↔
      NoGapBetween (first :: rest) := by
  induction rest using List.reverseRecOn with
  | nil =>
    rw [joinFilled_cons hf, String.join_cons]
    refine iff_of_true rfl fun before blank after hs => ?_
    have := hs.length_le
    simp at this
  | append_singleton rest last ih =>
    cases hl : Text.isBlankText last with
    | true =>
      have hfilled : joinFilled (first :: rest ++ [last]) = joinFilled (first :: rest) := by
        rw [joinFilled_append, joinFilled_blank hl]
        exact String.append_empty
      rw [← List.cons_append, hfilled, String.join_append, join_singleton, trim_append_blank hl,
        noGapBetween_append_blank hl]
      exact ih
    | false =>
      have hlast : joinFilled [last] = last := by
        rw [joinFilled_cons hl]
        exact String.append_empty
      rw [noGapBetween_ends hf hl, joinFilled_cons hf, joinFilled_append, hlast, String.join_cons,
        String.join_append, join_singleton, trim_between_inj hf hl]
      exact joinFilled_eq_join_iff

/-- All that is lost are the blank texts between others. -/
theorem trim_join_filled_iff (texts : List String) :
    Text.trim (joinFilled texts) = Text.trim (String.join texts) ↔ NoGapBetween texts := by
  induction texts with
  | nil => exact iff_of_true rfl fun _ _ _ hs => by cases hs
  | cons text rest ih =>
    cases hb : Text.isBlankText text with
    | true =>
      rw [joinFilled_blank hb, String.join_cons, trim_blank_append hb, noGapBetween_blank_cons hb]
      exact ih
    | false => exact trim_join_filled_first hb rest

end

/-- The text of every element of a document, by what is written between its tags. -/
theorem parse_texts {source : String} {root : Element} (h : parse source = .ok root) :
    ∃ tokens, tokens? source = some tokens ∧ ∀ e, Within e root → ∃ inner, Encloses tokens e inner ∧
      e.text = Text.trim (joinFilled (stretchesOf inner)) := by
  unfold parse at h
  split at h
  · rename_i whole hr
    obtain rfl := Except.ok.inj h
    obtain ⟨tokens, ht, ha⟩ := readTree?_accounted hr
    refine ⟨tokens, ht, fun e he => ?_⟩
    obtain ⟨unpruned, hw, rfl⟩ := within_prune he
    obtain ⟨inner, hi, htexts⟩ := ha unpruned hw
    refine ⟨inner, hi.prune, ?_⟩
    rw [Element.text, Element.texts_prune, htexts]
    rfl
  · cases h

end ScriptEngine.Markup
