import Mathlib.Data.List.Basic
import ScriptEngine.Proofs.Direct.Interpretation

/-!
# Where instructions are written

An address leads from an element to one inside it, child by child. `StandsAt` says which elements stand
where an instruction can stand, and `Before` which of two addresses comes first: that of the element whose
tag opens first, save that an `<else>` comes behind the other children of its `<if>`. `positions` lists the
elements in instruction position: those and no others (`mem_positions_iff`), in this order
(`positions_ordered`), so each of them once (`positions_nodup`).
-/

namespace ScriptEngine.Layout

open Direct (isElse)
open Direct.Document (isParameter)
open Markup (Element Node)

/-- Which child element to go to, from one element to the next. -/
abbrev Address := List Nat

/-- Whether the children of an element stand in instruction position if it does itself. -/
def isBlock (e : Element) : Bool :=
  ["while", "if", "else"].contains e.name

/-- An element stands in instruction position inside another one: it is a child that is no parameter, or
stands so inside a child that is a loop, a choice or the other branch of a choice. -/
inductive StandsAt : Element → Address → Element → Prop
  | child {e c : Element} {i : Nat} (here : e.elements[i]? = some c) (statement : isParameter c = false) :
      StandsAt e [i] c
  | inside {e c inner : Element} {i : Nat} {address : Address} (here : e.elements[i]? = some c)
      (block : isBlock c = true) (deeper : StandsAt c address inner) : StandsAt e (i :: address) inner

/-- Whether a child is left until all other children of its parent, which has some name, are done. -/
def isPostponed (parent : String) (child : Element) : Bool :=
  parent == "if" && isElse child

/-- Of two children of an element one comes first: in the order of the document, save that an `<else>`
comes behind the other children of its `<if>`. -/
def ChildBefore (e : Element) (i j : Nat) : Prop :=
  ∃ c d, e.elements[i]? = some c ∧ e.elements[j]? = some d ∧
    (isPostponed e.name c = isPostponed e.name d ∧ i < j ∨
      isPostponed e.name c = false ∧ isPostponed e.name d = true)

/-- Of two addresses inside an element one comes first: an element comes before what is inside it, and
where two addresses part, the children that they lead to decide. -/
inductive Before : Element → Address → Address → Prop
  | outer {e : Element} {i : Nat} {address : Address} : Before e [] (i :: address)
  | parted {e : Element} {i j : Nat} {address address' : Address} (children : ChildBefore e i j) :
      Before e (i :: address) (j :: address')
  | inside {e c : Element} {i : Nat} {address address' : Address} (here : e.elements[i]? = some c)
      (deeper : Before c address address') : Before e (i :: address) (i :: address')

theorem ChildBefore.irrefl {e : Element} {i : Nat} : ¬ ChildBefore e i i := by
  rintro ⟨c, d, hc, hd, h⟩
  cases hc.symm.trans hd
  rcases h with ⟨-, h⟩ | ⟨hc, hd⟩
  · exact Nat.lt_irrefl i h
  · rw [hc] at hd
    cases hd

/-- No address comes before itself. -/
theorem Before.irrefl {address : Address} {e : Element} : ¬ Before e address address := by
  induction address generalizing e with
  | nil => exact nofun
  | cons i address ih =>
    intro h
    cases h with
    | parted children => exact children.irrefl
    | inside _ deeper => exact ih deeper

mutual

/-- The elements in instruction position inside an element, with their addresses. -/
def positions : Element → List (Address × Element)
  | .mk name _ children _ =>
    positionsAmong (fun c => !isPostponed name c) 0 children ++
      positionsAmong (isPostponed name) 0 children

/-- Those at or inside some of the children of an element, of which the first has an index. -/
def positionsAmong (chosen : Element → Bool) (i : Nat) : List Node → List (Address × Element)
  | [] => []
  | .text .. :: rest => positionsAmong chosen i rest
  | .element c :: rest =>
    if chosen c && !isParameter c then
      ([i], c) :: (if isBlock c then (positions c).map fun p => (i :: p.1, p.2) else []) ++
        positionsAmong chosen (i + 1) rest
    else
      positionsAmong chosen (i + 1) rest

end

/-- A child of an element and the positions inside it. -/
def positionsAt (child : Element × Nat) : List (Address × Element) :=
  ([child.2], child.1) ::
    if isBlock child.1 then (positions child.1).map fun p => (child.2 :: p.1, p.2) else []

/-- Some of the children of an element that are no parameters, with their indices. -/
def childrenWith (e : Element) (chosen : Element → Bool) : List (Element × Nat) :=
  e.elements.zipIdx.filter fun child => chosen child.1 && !isParameter child.1

/-- The children of an element in the order in which they come. -/
def ordered (e : Element) : List (Element × Nat) :=
  childrenWith e (fun c => !isPostponed e.name c) ++ childrenWith e (isPostponed e.name)

theorem elements_cons (c : Element) (rest : List Node) :
    (Node.element c :: rest).filterMap Node.element? = c :: rest.filterMap Node.element? := rfl

theorem positionsAmong_eq (chosen : Element → Bool) (i : Nat) (nodes : List Node) :
    positionsAmong chosen i nodes =
      (((nodes.filterMap Node.element?).zipIdx i).filter fun child =>
        chosen child.1 && !isParameter child.1).flatMap positionsAt := by
  induction nodes generalizing i with
  | nil => rw [positionsAmong]; rfl
  | cons node rest ih =>
    cases node with
    | text value span => rw [positionsAmong, ih]; rfl
    | element c =>
      rw [positionsAmong, ih, elements_cons, List.zipIdx_cons, List.filter_cons]
      split
      · rw [List.flatMap_cons, positionsAt]
      · rfl

/-- The positions inside an element are those of its children, one child after the other. -/
theorem positions_eq (e : Element) : positions e = (ordered e).flatMap positionsAt := by
  obtain ⟨name, attributes, children, span⟩ := e
  rw [positions, positionsAmong_eq, positionsAmong_eq, ← List.flatMap_append]
  rfl

/-! ## Which elements are listed -/

section

variable {e c inner : Element} {i : Nat} {address : Address}

theorem mem_childrenWith {chosen : Element → Bool} : (c, i) ∈ childrenWith e chosen ↔
    e.elements[i]? = some c ∧ chosen c = true ∧ isParameter c = false := by
  rw [childrenWith, List.mem_filter, List.mk_mem_zipIdx_iff_getElem?, Bool.and_eq_true,
    Bool.not_eq_true']

theorem mem_ordered :
    (c, i) ∈ ordered e ↔ e.elements[i]? = some c ∧ isParameter c = false := by
  rw [ordered, List.mem_append, mem_childrenWith, mem_childrenWith]
  cases isPostponed e.name c <;> simp

theorem mem_positionsAt {child : Element × Nat} : (address, inner) ∈ positionsAt child ↔
    (address = [child.2] ∧ inner = child.1) ∨
      isBlock child.1 = true ∧ ∃ rest, address = child.2 :: rest ∧ (rest, inner) ∈ positions child.1 := by
  rw [positionsAt, List.mem_cons, Prod.mk.injEq]
  refine or_congr_right ?_
  split
  · rename_i hb
    simp only [List.mem_map, Prod.mk.injEq, hb, true_and]
    constructor
    · rintro ⟨⟨rest, x⟩, hm, ha, rfl⟩
      exact ⟨rest, ha.symm, hm⟩
    · rintro ⟨rest, ha, hm⟩
      exact ⟨(rest, inner), hm, ha.symm, rfl⟩
  · rename_i hb
    exact iff_of_false List.not_mem_nil fun h => hb h.1

/-- The elements in instruction position are listed, and no others. -/
theorem mem_positions_iff : (address, inner) ∈ positions e ↔ StandsAt e address inner := by
  -- An address leads to one child, and the rest of it into this child.
  induction address generalizing e with
  | nil =>
    rw [positions_eq, List.mem_flatMap]
    refine iff_of_false ?_ nofun
    rintro ⟨child, -, hm⟩
    rcases mem_positionsAt.mp hm with ⟨ha, -⟩ | ⟨-, rest, ha, -⟩ <;> cases ha
  | cons i rest ih =>
    rw [positions_eq, List.mem_flatMap]
    constructor
    · rintro ⟨⟨c, j⟩, hc, hm⟩
      obtain ⟨here, statement⟩ := mem_ordered.mp hc
      rcases mem_positionsAt.mp hm with ⟨ha, rfl⟩ | ⟨block, rest', ha, hm⟩
      · cases ha
        exact .child here statement
      · cases ha
        exact .inside here block (ih.mp hm)
    · intro h
      cases h with
      | child here statement =>
        exact ⟨(inner, i), mem_ordered.mpr ⟨here, statement⟩, mem_positionsAt.mpr (.inl ⟨rfl, rfl⟩)⟩
      | @inside _ c _ _ _ here block deeper =>
        have statement : isParameter c = false := by
          rw [isParameter, beq_eq_false_iff_ne]
          intro hn
          rw [isBlock, hn] at block
          cases block
        exact ⟨(c, i), mem_ordered.mpr ⟨here, statement⟩,
          mem_positionsAt.mpr (.inr ⟨block, rest, rfl, ih.mpr deeper⟩)⟩

end

section

variable {e : Element}

theorem childrenWith_ascending (chosen : Element → Bool) :
    (childrenWith e chosen).Pairwise (·.2 < ·.2) := by
  refine List.Pairwise.filter _ ?_
  rw [← List.pairwise_map (f := Prod.snd), List.zipIdx_map_snd]
  exact List.pairwise_lt_range'

theorem ordered_pairwise : (ordered e).Pairwise fun c d => ChildBefore e c.2 d.2 := by
  -- Children that are all postponed, or all not, keep the order of the document.
  have halike {chosen : Element → Bool} (late : Bool)
      (hl : ∀ c, chosen c = true → isPostponed e.name c = late) :
      (childrenWith e chosen).Pairwise fun c d => ChildBefore e c.2 d.2 := by
    refine (childrenWith_ascending chosen).imp_of_mem fun {c d} hc hd hlt => ?_
    obtain ⟨hc, hcc, -⟩ := mem_childrenWith.mp hc
    obtain ⟨hd, hdc, -⟩ := mem_childrenWith.mp hd
    exact ⟨c.1, d.1, hc, hd, .inl ⟨(hl _ hcc).trans (hl _ hdc).symm, hlt⟩⟩
  refine List.pairwise_append.mpr ⟨halike false (by simp), halike true (by simp), ?_⟩
  intro c hc d hd
  obtain ⟨hc, hcc, -⟩ := mem_childrenWith.mp hc
  obtain ⟨hd, hdc, -⟩ := mem_childrenWith.mp hd
  exact ⟨c.1, d.1, hc, hd, .inr ⟨Bool.not_eq_true' _ ▸ hcc, hdc⟩⟩

theorem sizeOf_lt_of_mem_elements {c : Element} (h : c ∈ e.elements) : sizeOf c < sizeOf e := by
  obtain ⟨name, attributes, children, span⟩ := e
  obtain ⟨node, hm, hn⟩ := List.mem_filterMap.mp h
  change node ∈ children at hm
  cases node with
  | text value span => cases hn
  | element d =>
    cases hn
    have := List.sizeOf_lt_of_mem hm
    simp only [Node.element.sizeOf_spec, Element.mk.sizeOf_spec] at this ⊢
    omega

theorem positionsAt_ordered {c : Element} {i : Nat} (here : e.elements[i]? = some c)
    (h : (positions c).Pairwise fun p q => Before c p.1 q.1) :
    (positionsAt (c, i)).Pairwise fun p q => Before e p.1 q.1 := by
  rw [positionsAt]
  split
  · refine List.pairwise_cons.mpr ⟨?_, List.pairwise_map.mpr (h.imp fun hb => .inside here hb)⟩
    intro q hq
    obtain ⟨⟨address, inner⟩, hm, rfl⟩ := List.mem_map.mp hq
    have hs := mem_positions_iff.mp hm
    cases hs <;> exact .inside here .outer
  · exact List.pairwise_singleton ..

/-- The elements in instruction position are listed in their order. -/
theorem positions_ordered (e : Element) : (positions e).Pairwise fun p q => Before e p.1 q.1 := by
  rw [positions_eq, List.pairwise_flatMap]
  constructor
  · rintro ⟨c, i⟩ hc
    have here := (mem_ordered.mp hc).1
    have := sizeOf_lt_of_mem_elements (List.mem_of_getElem? here)
    exact positionsAt_ordered here (positions_ordered c)
  · refine ordered_pairwise.imp fun {c d} hcd p hp q hq => ?_
    -- The addresses part at once, so all that counts is which child comes first.
    have hhead {child : Element × Nat} {p : Address × Element} (hp : p ∈ positionsAt child) :
        ∃ rest, p.1 = child.2 :: rest := by
      rcases mem_positionsAt.mp hp with ⟨ha, -⟩ | ⟨-, rest, ha, -⟩
      · exact ⟨[], ha⟩
      · exact ⟨rest, ha⟩
    obtain ⟨address, hp⟩ := hhead hp
    obtain ⟨address', hq⟩ := hhead hq
    rw [hp, hq]
    exact .parted hcd
termination_by sizeOf e

/-- No address is listed twice. -/
theorem positions_nodup (e : Element) : ((positions e).map (·.1)).Nodup := by
  refine List.pairwise_map.mpr ((positions_ordered e).imp fun {p q} h he => ?_)
  rw [he] at h
  exact h.irrefl

end

end ScriptEngine.Layout
