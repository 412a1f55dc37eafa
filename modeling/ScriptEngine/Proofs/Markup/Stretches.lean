import ScriptEngine.Proofs.Script.Grammar

/-!
# What stands directly inside an element

A document is written as tokens, and the tags of an element enclose some of them (`Encloses`). `direct`
leaves out what stands inside further elements there, and `stretches` joins the character data that is
left up to the next remark or element. `readTree?_accounted` shows that these stretches are the character
data among the children of the element in the tree that is read: `Built.add` does so for one token, with
`Inside` for what is known of an element that is still open.
-/

namespace ScriptEngine.Markup

open Grammar (Within)

/-- The tokens of a document with their places. -/
def tokens? (source : String) : Option (List (Token × Span)) := do
  let start ← prolog? source
  Token.readAll? (start.rest.length + 1) start

/-- The character data that a token stands for. -/
def Token.data? : Token → Option String
  | .text chars => (letters? none chars).map fun letters => String.ofList (lineEnds false letters)
  | .data chars => some (String.ofList (lineEnds false (chars.map .plain)))
  | _ => none

/-- The character data among tokens that stands at depth zero, with a gap for every remark and every element
there. The depth counts the elements around the first token. -/
def direct (depth : Nat) : List Token → List (Option String)
  | [] => []
  | .opening _ _ closed :: rest =>
    (if depth = 0 then [none] else []) ++ direct (if closed then depth else depth + 1) rest
  | .closing _ :: rest => direct (depth - 1) rest
  | token :: rest => (if depth = 0 then [token.data?] else []) ++ direct depth rest

theorem direct_data {token : Token} {data : String} (h : token.data? = some data) (depth : Nat)
    (rest : List Token) :
    direct depth (token :: rest) = (if depth = 0 then [some data] else []) ++ direct depth rest := by
  rw [← h]
  cases token with
  | text chars => rfl
  | data chars => rfl
  | remark => cases h
  | opening name attributes closed => cases h
  | closing name => cases h

/-- Character data joined up to the next gap, behind character data that it continues. -/
def stretches (pending : Option String) : List (Option String) → List String
  | [] => pending.toList
  | none :: rest => pending.toList ++ stretches none rest
  | some text :: rest => stretches (some (pending.getD "" ++ text)) rest

/-- The tags of an element enclose tokens of a document: none inside a tag that closes itself, or those
between two tags. -/
inductive Encloses (tokens : List (Token × Span)) (e : Element) : List Token → Prop
  | alone {before after : List (Token × Span)} {name : QualifiedName}
      {attributes : List (QualifiedName × List Char)}
      (written : tokens = before ++ (.opening name attributes true, e.span) :: after)
      (named : e.name = name.name) : Encloses tokens e []
  | pair {before inner after : List (Token × Span)} {name : QualifiedName}
      {attributes : List (QualifiedName × List Char)} {first last : Span}
      (written : tokens =
        before ++ (.opening name attributes false, first) :: (inner ++ (.closing name, last) :: after))
      (named : e.name = name.name) (spanned : e.span = ⟨first.start, last.stop⟩) :
      Encloses tokens e (inner.map (·.1))

theorem Encloses.append {tokens : List (Token × Span)} {e : Element} {inner : List Token}
    (h : Encloses tokens e inner) (more : List (Token × Span)) : Encloses (tokens ++ more) e inner := by
  cases h with
  | @alone before after name attributes written named =>
    refine @Encloses.alone _ _ before (after ++ more) name attributes ?_ named
    rw [written, List.append_assoc]
    rfl
  | @pair before inner after name attributes first last written named spanned =>
    refine @Encloses.pair _ _ before inner (after ++ more) name attributes first last ?_ named spanned
    rw [written, List.append_assoc, List.cons_append, List.append_assoc]
    rfl

/-! ## Open elements -/

/-- The character data that more of it would continue. -/
def OpenElement.pending (e : OpenElement) : Option String :=
  match e.inText, e.children with
  | true, .text value _ :: _ => some value
  | _, _ => none

/-- The stretches of character data that have come to an end. -/
def OpenElement.finished (e : OpenElement) : List String :=
  match e.inText, e.children with
  | true, .text _ _ :: earlier => earlier.reverse.filterMap Node.text?
  | _, earlier => earlier.reverse.filterMap Node.text?

/-- The finished stretches and the pending one are all there are. -/
theorem OpenElement.finished_pending (e : OpenElement) :
    e.finished ++ e.pending.toList = e.children.reverse.filterMap Node.text? := by
  unfold finished pending
  split
  · rename_i hc
    rw [hc, List.reverse_cons, List.filterMap_append]
    rfl
  · exact List.append_nil _

/-- The children of an open element account for the tokens behind its tag. Whatever follows is read on from
what is pending, and from further outside nothing of it is seen. -/
structure Inside (inner : List Token) (e : OpenElement) : Prop where
  here (more : List Token) : stretches none (direct 0 (inner ++ more)) =
    e.finished ++ stretches e.pending (direct 0 more)
  outside (depth : Nat) (more : List Token) : direct (depth + 1) (inner ++ more) = direct (depth + 1) more

/-- Tokens form a gap in the character data around them, as a remark and a whole element do. -/
def IsGap (written : List Token) : Prop :=
  ∀ depth more, direct depth (written ++ more) = (if depth = 0 then [none] else []) ++ direct depth more

theorem isGap_remark : IsGap [.remark] :=
  fun _ _ => rfl

theorem isGap_alone (name : QualifiedName) (attributes : List (QualifiedName × List Char)) :
    IsGap [.opening name attributes true] :=
  fun _ _ => rfl

namespace Inside

variable {inner : List Token} {e : OpenElement}

theorem start (h : e.children = []) : Inside [] e := by
  refine ⟨fun more => ?_, fun _ _ => rfl⟩
  have hp : e.pending = none := by
    unfold OpenElement.pending
    rw [h]
    split
    · rename_i hc
      cases hc
    · rfl
  have hf : e.finished = [] := by
    have := e.finished_pending
    rw [hp, h] at this
    simpa using this
  rw [hp, hf]
  rfl

/-- The stretches in the tokens so far. -/
theorem texts (h : Inside inner e) :
    e.children.reverse.filterMap Node.text? = stretches none (direct 0 inner) := by
  have := h.here []
  rw [List.append_nil] at this
  rw [this, ← e.finished_pending]
  rfl

/-- The tags around what stands inside make it an element. -/
theorem isGap (h : Inside inner e) (name : QualifiedName)
    (attributes : List (QualifiedName × List Char)) :
    IsGap (.opening name attributes false :: (inner ++ [.closing name])) := by
  intro depth more
  show _ ++ direct (depth + 1) (inner ++ [.closing name] ++ more) = _
  rw [List.append_assoc, h.outside]
  rfl

/-- What forms a gap ends the stretch that is pending. -/
theorem gap {written : List Token} {children : List Node} (h : Inside inner e) (hw : IsGap written)
    (hc : children.reverse.filterMap Node.text? = e.children.reverse.filterMap Node.text?) :
    Inside (inner ++ written) { e with children, inText := false } := by
  constructor
  · intro more
    rw [List.append_assoc, h.here, hw, if_pos rfl, List.singleton_append, stretches, ← List.append_assoc,
      e.finished_pending, ← hc]
    rfl
  · intro depth more
    rw [List.append_assoc, h.outside, hw]
    rfl

theorem element {written : List Token} (h : Inside inner e) (hw : IsGap written) (child : Element) :
    Inside (inner ++ written) { e with children := .element child :: e.children, inText := false } := by
  refine h.gap hw ?_
  rw [List.reverse_cons, List.filterMap_append]
  exact List.append_nil _

theorem remark (h : Inside inner e) : Inside (inner ++ [.remark]) { e with inText := false } :=
  h.gap isGap_remark rfl

/-- Character data continues the stretch that is pending, or begins one. -/
theorem text {token : Token} {data : String} (h : Inside inner e) (hd : token.data? = some data)
    {after : OpenElement} (hf : after.finished = e.finished)
    (hp : after.pending = some (e.pending.getD "" ++ data)) : Inside (inner ++ [token]) after := by
  constructor
  · intro more
    rw [List.append_assoc, h.here, List.singleton_append, direct_data hd, if_pos rfl,
      List.singleton_append, stretches, hf, hp]
  · intro depth more
    rw [List.append_assoc, h.outside, List.singleton_append, direct_data hd]
    rfl

end Inside

/-- What an opening tag begins. -/
theorem Builder.openElement?_eq {b : Builder} {name : QualifiedName}
    {attributes : List (QualifiedName × List Char)} {start : Position} {e : OpenElement}
    (h : b.openElement? name attributes start = some e) :
    e.name = name ∧ e.start = start ∧ e.children = [] := by
  obtain ⟨written, -, h⟩ := Option.bind_eq_some_iff.mp h
  obtain ⟨declared, -, h⟩ := Option.bind_eq_some_iff.mp h
  dsimp only at h
  split at h
  · cases h
  · obtain ⟨resolved, -, h⟩ := Option.bind_eq_some_iff.mp h
    obtain rfl := Option.some.inj h
    exact ⟨rfl, rfl, rfl⟩

/-- Tokens have left elements open, the innermost first. -/
inductive Standing : List (Token × Span) → List OpenElement → Prop
  | outside (tokens : List (Token × Span)) : Standing tokens []
  | inside {before inner : List (Token × Span)} {attributes : List (QualifiedName × List Char)} {span : Span}
      {e : OpenElement} {below : List OpenElement} (around : Standing before below)
      (begins : e.start = span.start) (holds : Inside (inner.map (·.1)) e) :
      Standing (before ++ (.opening e.name attributes false, span) :: inner) (e :: below)

/-- More tokens change the innermost open element only. -/
theorem Standing.top {tokens more : List (Token × Span)} {e after : OpenElement} {below : List OpenElement}
    (h : Standing tokens (e :: below)) (hn : after.name = e.name) (hs : after.start = e.start)
    (ha : ∀ inner, Inside inner e → Inside (inner ++ more.map (·.1)) after) :
    Standing (tokens ++ more) (after :: below) := by
  cases h with
  | @inside before inner attributes span _ _ around begins holds =>
    rw [List.append_assoc, List.cons_append, ← hn]
    refine .inside around (hs.trans begins) ?_
    rw [List.map_append]
    exact ha _ holds

theorem Standing.addElement {tokens written : List (Token × Span)} {b : Builder}
    (h : Standing tokens b.stack) (hw : IsGap (written.map (·.1))) (child : Element) :
    Standing (tokens ++ written) (b.addElement child).stack := by
  unfold Builder.addElement
  split
  · rename_i hstack
    rw [hstack]
    exact .outside _
  · rename_i e below hstack
    rw [hstack] at h
    exact h.top rfl rfl fun _ hi => hi.element hw child

/-! ## Finished elements -/

/-- Every element of a tree is written among tokens, and the character data among its children is what
stands directly between its tags. -/
def Accounted (tokens : List (Token × Span)) (root : Element) : Prop :=
  ∀ e, Within e root → ∃ inner, Encloses tokens e inner ∧
    e.children.filterMap Node.text? = stretches none (direct 0 inner)

theorem Accounted.append {tokens : List (Token × Span)} {root : Element} (h : Accounted tokens root)
    (more : List (Token × Span)) : Accounted (tokens ++ more) root := by
  intro e he
  obtain ⟨inner, hi, ht⟩ := h e he
  exact ⟨inner, hi.append more, ht⟩

theorem Accounted.node {tokens : List (Token × Span)} {e : Element} {inner : List Token}
    (hi : Encloses tokens e inner) (ht : e.children.filterMap Node.text? = stretches none (direct 0 inner))
    (hc : ∀ child ∈ e.elements, Accounted tokens child) : Accounted tokens e := by
  intro found hf
  rcases Relation.ReflTransGen.cases_tail hf with rfl | ⟨child, hw, hm⟩
  · exact ⟨inner, hi, ht⟩
  · exact hc child hm found hw

/-- What is built accounts for the tokens that it was built of. -/
structure Built (tokens : List (Token × Span)) (b : Builder) : Prop where
  standing : Standing tokens b.stack
  children : ∀ e ∈ b.stack, ∀ child ∈ e.children.filterMap Node.element?, Accounted tokens child
  root : ∀ e ∈ b.root, Accounted tokens e

namespace Built

variable {tokens more written : List (Token × Span)} {b after : Builder}

theorem start : Built [] {} :=
  ⟨.outside [], fun _ he => (List.not_mem_nil he).elim, fun _ he => by cases he⟩

/-- Outside of all elements tokens may leave everything as it is. -/
theorem idle (h : Built tokens b) (hb : b.stack = []) (more : List (Token × Span)) :
    Built (tokens ++ more) b := by
  refine ⟨hb ▸ .outside _, fun e he => ?_, fun e he => (h.root e he).append more⟩
  rw [hb] at he
  cases he

/-- Tokens may change the innermost open element only. -/
theorem top {e changed : OpenElement} {below : List OpenElement} (h : Built tokens b)
    (hb : b.stack = e :: below) (hn : changed.name = e.name) (hs : changed.start = e.start)
    (hi : ∀ inner, Inside inner e → Inside (inner ++ more.map (·.1)) changed)
    (hc : changed.children.filterMap Node.element? = e.children.filterMap Node.element?) :
    Built (tokens ++ more) { b with stack := changed :: below } := by
  have hchildren := h.children
  rw [hb, List.forall_mem_cons] at hchildren
  refine ⟨(hb ▸ h.standing).top hn hs hi, ?_, fun e he => (h.root e he).append more⟩
  rw [List.forall_mem_cons, hc]
  exact ⟨fun child hm => (hchildren.1 child hm).append more,
    fun e he child hm => (hchildren.2 e he child hm).append more⟩

theorem addRemark (h : Built tokens b) (span : Span) : Built (tokens ++ [(.remark, span)]) b.addRemark := by
  unfold Builder.addRemark
  split
  · rename_i hb
    exact h.idle hb _
  · rename_i hb
    exact h.top hb rfl rfl (fun _ hi => hi.remark) rfl

theorem addText {token : Token} {data : String} {span : Span} (h : Built tokens b)
    (hd : token.data? = some data) (ha : b.addText? data span = some after) :
    Built (tokens ++ [(token, span)]) after := by
  unfold Builder.addText? at ha
  split at ha
  · cases ha
  · rename_i e below hb
    obtain rfl := Option.some.inj ha
    split
    · rename_i value first others ht hc
      refine h.top hb rfl rfl (fun _ hi => hi.text hd ?_ ?_) ?_
      · simp only [OpenElement.finished, ht, hc]
      · simp only [OpenElement.pending, ht, hc, Option.getD_some]
      · rw [hc]
        rfl
    · rename_i others hno
      have hp : e.pending = none := by
        unfold OpenElement.pending
        split
        · rename_i ht hc
          exact absurd hc (hno _ _ _ ht)
        · rfl
      refine h.top hb rfl rfl (fun _ hi => hi.text hd ?_ ?_) rfl
      · have hf := e.finished_pending
        rw [hp, Option.toList_none, List.append_nil] at hf
        exact hf.symm
      · rw [hp, Option.getD_none, String.empty_append]
        rfl

theorem addElement {child : Element} (hs : Standing tokens b.stack) (hw : IsGap (written.map (·.1)))
    (hchildren : ∀ e ∈ b.stack, ∀ inner ∈ e.children.filterMap Node.element?,
      Accounted (tokens ++ written) inner)
    (hroot : ∀ e ∈ b.root, Accounted (tokens ++ written) e) (hc : Accounted (tokens ++ written) child) :
    Built (tokens ++ written) (b.addElement child) := by
  refine ⟨hs.addElement hw child, ?_, ?_⟩
  · unfold Builder.addElement
    split
    · rename_i hb
      rw [hb] at hchildren ⊢
      exact hchildren
    · rename_i hb
      rw [hb, List.forall_mem_cons] at hchildren
      exact List.forall_mem_cons.mpr ⟨List.forall_mem_cons.mpr ⟨hc, hchildren.1⟩, hchildren.2⟩
  · unfold Builder.addElement
    split
    · exact fun e he => Option.some.inj he ▸ hc
    · exact hroot

/-- A tag that closes itself. -/
theorem alone {name : QualifiedName} {attributes : List (QualifiedName × List Char)} {span : Span}
    {e : OpenElement} (h : Built tokens b) (ho : b.openElement? name attributes span.start = some e) :
    Built (tokens ++ [(.opening name attributes true, span)])
      (b.addElement (Builder.close e span.stop)) := by
  obtain ⟨hn, hs, hc⟩ := Builder.openElement?_eq ho
  have hnode : Accounted (tokens ++ [(.opening name attributes true, span)])
      (Builder.close e span.stop) := by
    refine .node (@Encloses.alone _ _ tokens [] name attributes ?_ (congrArg (·.name) hn)) ?_ ?_
    · rw [Builder.close, hs]
      rfl
    · show e.children.reverse.filterMap Node.text? = _
      rw [hc]
      rfl
    · show ∀ child ∈ e.children.reverse.filterMap Node.element?, _
      rw [hc]
      exact fun _ hm => (List.not_mem_nil hm).elim
  exact addElement h.standing (isGap_alone name attributes)
    (fun e he child hm => (h.children e he child hm).append _) (fun e he => (h.root e he).append _) hnode

/-- A tag that leaves its element open. -/
theorem opening {name : QualifiedName} {attributes : List (QualifiedName × List Char)} {span : Span}
    {e : OpenElement} (h : Built tokens b) (ho : b.openElement? name attributes span.start = some e) :
    Built (tokens ++ [(.opening name attributes false, span)]) { b with stack := e :: b.stack } := by
  obtain ⟨rfl, hs, hc⟩ := Builder.openElement?_eq ho
  refine ⟨@Standing.inside _ [] _ _ _ _ h.standing hs (.start hc), ?_, fun e he => (h.root e he).append _⟩
  rw [List.forall_mem_cons, hc]
  exact ⟨fun _ hm => (List.not_mem_nil hm).elim,
    fun e he child hm => (h.children e he child hm).append _⟩

/-- A tag that closes the innermost element. -/
theorem closing {e : OpenElement} {below : List OpenElement} (h : Built tokens b)
    (hb : b.stack = e :: below) (span : Span) :
    Built (tokens ++ [(.closing e.name, span)])
      ({ b with stack := below }.addElement (Builder.close e span.stop)) := by
  have hchildren := h.children
  have hstanding := h.standing
  rw [hb, List.forall_mem_cons] at hchildren
  rw [hb] at hstanding
  have hinner : ∀ child ∈ (Builder.close e span.stop).elements,
      Accounted (tokens ++ [(.closing e.name, span)]) child := by
    intro child hm
    refine (hchildren.1 child ?_).append _
    rwa [Element.elements, Builder.close, Element.children, List.filterMap_reverse, List.mem_reverse] at hm
  have hroot : ∀ r ∈ b.root, Accounted (tokens ++ [(.closing e.name, span)]) r :=
    fun r hr => (h.root r hr).append _
  have hbelow : ∀ outer ∈ below, ∀ child ∈ outer.children.filterMap Node.element?,
      Accounted (tokens ++ [(.closing e.name, span)]) child :=
    fun outer ho child hm => (hchildren.2 outer ho child hm).append _
  cases hstanding with
  | @inside before inner attributes first _ _ around begins holds =>
    -- The element is what has been read since its opening tag.
    rw [List.append_assoc, List.cons_append] at hinner hroot hbelow ⊢
    refine addElement around ?_ hbelow hroot ?_
    · rw [List.map_cons, List.map_append]
      exact holds.isGap e.name attributes
    · refine .node (@Encloses.pair _ _ before inner [] e.name attributes first span rfl rfl ?_)
        holds.texts hinner
      rw [← begins]
      rfl

/-- One more token. -/
theorem add {token : Token} {span : Span} (h : Built tokens b) (ha : b.add? token span = some after) :
    Built (tokens ++ [(token, span)]) after := by
  cases token with
  | remark =>
    obtain rfl := Option.some.inj ha
    exact h.addRemark span
  | text chars =>
    simp only [Builder.add?] at ha
    split at ha
    · rename_i hb
      split at ha
      · obtain rfl := Option.some.inj ha
        exact h.idle (List.isEmpty_iff.mp hb) _
      · cases ha
    · obtain ⟨letters, hl, ha⟩ := Option.bind_eq_some_iff.mp ha
      exact h.addText (congrArg (Option.map _) hl) ha
  | data chars => exact h.addText rfl ha
  | opening name attributes closed =>
    simp only [Builder.add?] at ha
    split at ha
    · cases ha
    · obtain ⟨e, ho, ha⟩ := Option.bind_eq_some_iff.mp ha
      split at ha
      · rename_i hclosed
        obtain rfl := Option.some.inj ha
        exact hclosed ▸ h.alone ho
      · rename_i hclosed
        obtain rfl := Option.some.inj ha
        exact Bool.eq_false_iff.mpr hclosed ▸ h.opening ho
  | closing name =>
    simp only [Builder.add?] at ha
    split at ha
    · cases ha
    · rename_i hb
      obtain ⟨hn, he⟩ := Option.ite_none_right_eq_some.mp ha
      rw [← Option.some.inj he, ← hn]
      exact h.closing hb span

/-- All tokens. -/
theorem foldlM (h : Built tokens b)
    (ha : more.foldlM (fun (b : Builder) written => b.add? written.1 written.2) b = some after) :
    Built (tokens ++ more) after := by
  induction more generalizing tokens b with
  | nil =>
    obtain rfl := Option.some.inj ha
    rwa [List.append_nil]
  | cons first rest ih =>
    rw [List.foldlM_cons] at ha
    obtain ⟨next, hn, ha⟩ := Option.bind_eq_some_iff.mp ha
    have := ih (h.add hn) ha
    rwa [List.append_assoc] at this

end Built

/-- The tree that is read accounts for what is written. -/
theorem readTree?_accounted {source : String} {root : Element} (h : readTree? source = some root) :
    ∃ tokens, tokens? source = some tokens ∧ Accounted tokens root := by
  obtain ⟨start, hs, h⟩ := Option.bind_eq_some_iff.mp h
  obtain ⟨tokens, ht, h⟩ := Option.bind_eq_some_iff.mp h
  obtain ⟨built, hb, h⟩ := Option.bind_eq_some_iff.mp h
  obtain ⟨-, hr⟩ := Option.ite_none_right_eq_some.mp h
  refine ⟨tokens, ?_, (Built.start.foldlM hb).root root hr⟩
  rw [tokens?, hs]
  exact ht

end ScriptEngine.Markup
