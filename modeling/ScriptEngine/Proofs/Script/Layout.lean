import Mathlib.Data.List.Forall2
import ScriptEngine.Proofs.Direct.Reading
import ScriptEngine.Proofs.Loops.Nesting
import ScriptEngine.Proofs.Script.Positions

/-!
# How the code of a script is laid out

`Yields` compares elements with code: how many instructions there are, and which of them assign or use a
command. Reading an element and lowering what is read gives code that the element and those inside it yield
(`ofElement_renders`), by recursion over the tree in the way of the readers, and so for whole scripts
(`declaration_yields`). `JumpsEndBranches` says that a jump stands right in front of where a branch leads to.

`lowered_code_is_well_nested` is what this means, together with the nesting of the loops, for source texts.
-/

namespace ScriptEngine.Layout

open Direct (isElse shape Describes elseBlocks_elements)
open Direct.Document (isParameter)
open Markup (Element Node)

/-- Whether an instruction assigns or uses a command. The others lead the way. -/
def acts (i : Instruction) : Bool :=
  match i.operation with
  | .assign .. | .command _ => true
  | _ => false

/-- The instruction that a `<set>` or a `<command>` stands for. -/
def action? (e : Element) : Option Instruction :=
  match shape e with
  | .assign target expression => some ⟨.assign target expression, e.span⟩
  | .command use => some ⟨.command use, e.span⟩
  | _ => none

/-- Number of instructions that elements take: a loop has one at its beginning and one at its end. -/
def tally (elements : List Element) : Nat :=
  let count (name : String) := elements.countP (·.name == name)
  count "set" + count "command" + 2 * count "while" + count "if" + count "else"

/-- Code has the instructions of some elements, and those that act in the order of the elements. -/
structure Yields (elements : List Element) (code : List Instruction) : Prop where
  length : code.length = tally elements
  actions : code.filter acts = elements.filterMap action?

section

variable {e : Element} {elements others : List Element} {code code' : List Instruction}

theorem tally_append : tally (elements ++ others) = tally elements + tally others := by
  simp only [tally, List.countP_append]
  omega

theorem tally_cons : tally (e :: elements) = tally [e] + tally elements :=
  @tally_append [e] elements

/-- An element that leads the way has no instruction that acts. -/
theorem action?_eq_none (h : isBlock e = true) : action? e = none := by
  have hn : e.name = "while" ∨ e.name = "if" ∨ e.name = "else" := by
    simpa [isBlock] using h
  rcases hn with hn | hn | hn <;> simp [action?, shape, hn]

theorem Yields.nil : Yields [] [] := ⟨rfl, rfl⟩

theorem Yields.append (h : Yields elements code) (h' : Yields others code') :
    Yields (elements ++ others) (code ++ code') where
  length := by rw [List.length_append, h.length, h'.length, tally_append]
  actions := by rw [List.filter_append, h.actions, h'.actions, List.filterMap_append]

/-- One more element that leads the way, with its instruction in front of the code. -/
theorem Yields.lead {i : Instruction} (h : Yields elements code) (hb : isBlock e = true)
    (hi : acts i = false) (ht : tally [e] = 1) : Yields (e :: elements) (i :: code) where
  length := by rw [List.length_cons, h.length, tally_cons, ht, Nat.add_comm]
  actions := by
    rw [List.filter_cons_of_neg (Bool.eq_false_iff.mp hi), h.actions,
      List.filterMap_cons_none (action?_eq_none hb)]

theorem Yields.loop {start : Nat} {condition : String} {span span' : Span} (h : Yields elements code)
    (hn : e.name = "while") : Yields (e :: elements) (looped start condition code span span') where
  length := by
    have ht : tally [e] = 2 := by simp [tally, hn]
    rw [looped_length, h.length, tally_cons, ht, Nat.add_comm]
  actions := by
    rw [List.filterMap_cons_none (action?_eq_none (by simp [isBlock, hn])), ← h.actions, looped,
      List.cons_append, List.filter_cons_of_neg (by simp [acts]), List.filter_append,
      List.filter_cons_of_neg (by simp [acts]), List.filter_nil, List.append_nil]

end

/-- An element and those in instruction position inside it. -/
def unrolled (e : Element) : List Element :=
  e :: if isBlock e then (positions e).map (·.2) else []

theorem map_childrenWith (e : Element) (chosen : Element → Bool) :
    ((childrenWith e chosen).flatMap positionsAt).map (·.2) =
      (e.elements.filter fun c => chosen c && !isParameter c).flatMap unrolled := by
  have hat (child : Element × Nat) : (positionsAt child).map (·.2) = unrolled child.1 := by
    rw [positionsAt, unrolled, List.map_cons]
    split
    · rw [List.map_map]
      rfl
    · rfl
  have hfst : e.elements = e.elements.zipIdx.map (·.1) := (List.zipIdx_map_fst ..).symm
  conv_rhs => rw [hfst, List.filter_map, List.flatMap_map]
  rw [List.map_flatMap]
  simp only [hat]
  rfl

theorem map_positions (e : Element) : (positions e).map (·.2) =
    (e.elements.filter fun c => !isPostponed e.name c && !isParameter c).flatMap unrolled ++
      (e.elements.filter fun c => isPostponed e.name c && !isParameter c).flatMap unrolled := by
  rw [positions_eq, ordered, List.flatMap_append, List.map_append, map_childrenWith, map_childrenWith]

/-- Only in a choice some children come behind others. -/
theorem map_positions_plain {e : Element} (hn : e.name ≠ "if") :
    (positions e).map (·.2) = (e.elements.filter (!isParameter ·)).flatMap unrolled := by
  have hp (c : Element) : isPostponed e.name c = false := by
    rw [isPostponed, beq_eq_false_iff_ne.mpr hn, Bool.false_and]
  simp [map_positions, hp]

theorem map_positions_choice {e : Element} (hn : e.name = "if") :
    (positions e).map (·.2) =
      (e.elements.filter fun c => !isElse c && !isParameter c).flatMap unrolled ++
        (e.elements.filter isElse).flatMap unrolled := by
  have helse (c : Element) : (isElse c && !isParameter c) = isElse c := by
    rw [Bool.and_eq_left_iff_imp, isElse, isParameter, beq_iff_eq, Bool.not_eq_true', beq_eq_false_iff_ne]
    intro hc
    rw [hc]
    decide
  have hp (c : Element) : isPostponed e.name c = isElse c := by
    rw [isPostponed, hn]
    rfl
  simp only [map_positions, hp, helse]

theorem unrolled_block {e : Element} (h : isBlock e = true) :
    unrolled e = e :: (positions e).map (·.2) := by
  rw [unrolled, if_pos h]

/-! ## Statements -/

/-- Wherever the code of a statement starts, an element and those inside it yield it. -/
def Renders (statement : Statement) (e : Element) : Prop :=
  ∀ start, Yields (unrolled e) (statement.lower start)

theorem lowerAll_yields {statements : List Statement} {elements : List Element}
    (h : List.Forall₂ Renders statements elements) (start : Nat) :
    Yields (elements.flatMap unrolled) (Statement.lowerAll start statements) := by
  induction h generalizing start with
  | nil => exact .nil
  | cons hs _ ih => exact (hs start).append (ih _)

/-- A statement that acts. -/
theorem action_renders {statement : Statement} {e : Element} {i : Instruction}
    (hd : Describes statement e) (ha : action? e = some i) (ht : tally [e] = 1) :
    Renders statement e := by
  intro start
  have hb : isBlock e = false := by
    rw [← Bool.not_eq_true]
    intro hb
    rw [action?_eq_none hb] at ha
    cases ha
  have hcode : statement.lower start = [i] ∧ acts i = true := by
    cases hd with
    | assign shaped | command shaped =>
      rw [action?, shaped] at ha
      rw [← Option.some.inj ha]
      exact ⟨rfl, rfl⟩
    | loop shaped _ | guarded shaped _ | choice shaped _ _ =>
      rw [action?, shaped] at ha
      cases ha
  rw [unrolled, hb, hcode.1]
  refine ⟨ht.symm, ?_⟩
  rw [List.filter_cons_of_pos hcode.2, if_neg Bool.false_ne_true, List.filterMap_cons_some ha]
  rfl

/-- A choice whose branches are rendered by the children. -/
theorem choice_renders {e : Element} {condition : String} {body : List Statement} {statement : Statement}
    {elses : List (Element × Except Fault (List Statement))} (hn : e.name = "if")
    (hb : List.Forall₂ Renders body (e.elements.filter fun c => !isElse c && !isParameter c))
    (he : elses.map (·.1) = e.elements.filter isElse)
    (hblock : ∀ block alternatives, (block, .ok alternatives) ∈ elses →
      List.Forall₂ Renders alternatives (block.elements.filter (!isParameter ·)))
    (h : Statement.choiceOf condition body e.span elses = .ok statement) : Renders statement e := by
  intro start
  have hif : isBlock e = true := by simp [isBlock, hn]
  have htally : tally [e] = 1 := by simp [tally, hn]
  rw [unrolled_block hif, map_positions_choice hn, ← he]
  have hbody := lowerAll_yields hb (start + 1)
  unfold Statement.choiceOf at h
  split at h
  · rw [← Except.ok.inj h, List.map_nil, List.flatMap_nil, List.append_nil]
    exact hbody.lead hif rfl htally
  · rename_i block read
    cases read with
    | error fault => cases h
    | ok alternatives =>
      -- The one `<else>` takes the jump between the two branches, and its children the second branch.
      have hm : block ∈ e.elements.filter isElse := by
        rw [← he]
        exact List.mem_singleton_self _
      have hname : block.name = "else" := beq_iff_eq.mp (List.mem_filter.mp hm).2
      have helse : isBlock block = true := by simp [isBlock, hname]
      have hother := lowerAll_yields (hblock block alternatives (List.mem_singleton_self _))
        (start + (Statement.lowerAll (start + 1) body).length + 2)
      rw [← Except.ok.inj h, List.map_singleton, List.flatMap_singleton, unrolled_block helse,
        map_positions_plain (by rw [hname]; decide)]
      exact (hbody.append (hother.lead helse rfl (by simp [tally, hname]))).lead hif rfl htally
  · cases h

theorem not_isParameter_of_ofElement {e : Element} {statement : Statement}
    (h : Statement.ofElement e = .ok statement) : isParameter e = false := by
  obtain ⟨name, attributes, children, span⟩ := e
  rw [← Bool.not_eq_true]
  intro hp
  obtain rfl : name = "param" := beq_iff_eq.mp hp
  rw [Statement.ofElement] at h
  cases h

mutual

/-- An element that can be read renders what is read. -/
theorem ofElement_renders (e : Element) {statement : Statement}
    (h : Statement.ofElement e = .ok statement) : Renders statement e := by
  have hd := Direct.ofElement_describes e h
  match e with
  | .mk name attributes children span =>
    unfold Statement.ofElement at h
    split at h
    · exact action_renders hd rfl rfl
    · exact action_renders hd rfl rfl
    · obtain ⟨condition, -, h⟩ := ok_of_bind h
      obtain ⟨body, hb, h⟩ := ok_of_bind h
      rw [← Except.ok.inj h]
      intro start
      have hbody := lowerAll_yields (ofNodes_render false children hb) (start + 1)
      have hname : (Element.mk "while" attributes children span).name ≠ "if" :=
        show "while" ≠ "if" by decide
      rw [unrolled_block rfl, map_positions_plain hname]
      exact hbody.loop rfl
    · obtain ⟨condition, -, h⟩ := ok_of_bind h
      obtain ⟨body, hb, h⟩ := ok_of_bind h
      exact choice_renders rfl (ofNodes_render true children hb) (elseBlocks_elements children)
        (fun _ _ hm => elseBlocks_render children hm) h
    · cases h
    · cases h
    · cases h

theorem ofNodes_render (skipElse : Bool) (nodes : List Node) {statements : List Statement}
    (h : Statement.ofNodes skipElse nodes = .ok statements) :
    List.Forall₂ Renders statements ((nodes.filterMap Node.element?).filter fun c =>
      !(skipElse && isElse c) && !isParameter c) := by
  match nodes with
  | [] =>
    rw [Statement.ofNodes] at h
    rw [← Except.ok.inj h]
    exact .nil
  | .text .. :: rest =>
    rw [Statement.ofNodes] at h
    exact ofNodes_render skipElse rest h
  | .element e :: rest =>
    rw [Statement.ofNodes] at h
    rw [elements_cons]
    by_cases hs : (skipElse && isElse e) = true
    · rw [if_pos (show (skipElse && e.name == "else") = true from hs)] at h
      rw [List.filter_cons_of_neg (by rw [hs]; exact Bool.false_ne_true)]
      exact ofNodes_render skipElse rest h
    · rw [if_neg (show ¬ (skipElse && e.name == "else") = true from hs)] at h
      obtain ⟨statement, he, h⟩ := ok_of_bind h
      obtain ⟨others, ho, h⟩ := ok_of_bind h
      rw [← Except.ok.inj h, List.filter_cons_of_pos
        (by rw [Bool.eq_false_iff.mpr hs, not_isParameter_of_ofElement he]; rfl)]
      exact .cons (ofElement_renders e he) (ofNodes_render skipElse rest ho)

theorem elseBlocks_render (nodes : List Node) {e : Element} {statements : List Statement}
    (h : (e, .ok statements) ∈ Statement.elseBlocks nodes) :
    List.Forall₂ Renders statements (e.elements.filter (!isParameter ·)) := by
  match nodes with
  | [] => rw [Statement.elseBlocks] at h; cases h
  | .text .. :: rest =>
    rw [Statement.elseBlocks] at h
    exact elseBlocks_render rest h
  | .element (.mk name attributes children span) :: rest =>
    rw [Statement.elseBlocks] at h
    split at h
    · rcases List.mem_cons.mp h with h | h
      · obtain ⟨rfl, hb⟩ := Prod.mk.inj h
        exact ofNodes_render false children hb.symm
      · exact elseBlocks_render rest h
    · exact elseBlocks_render rest h

end

theorem children_render {elements read : List Element} {before after : ScriptBody}
    (hr : List.Forall₂ Renders before.statements read)
    (h : elements.foldlM ScriptBody.add before = .ok after) :
    List.Forall₂ Renders after.statements (read ++ elements.filter (!isParameter ·)) := by
  induction elements generalizing before read with
  | nil =>
    rw [← Except.ok.inj h, List.filter_nil, List.append_nil]
    exact hr
  | cons e rest ih =>
    rw [List.foldlM_cons] at h
    obtain ⟨next, hn, h⟩ := ok_of_bind h
    unfold ScriptBody.add at hn
    split at hn
    · rename_i hp
      split at hn
      · obtain ⟨parameter, -, hn⟩ := ok_of_bind hn
        rw [List.filter_cons_of_neg (by rw [isParameter, hp]; decide)]
        exact ih (Except.ok.inj hn ▸ hr) h
      · cases hn
    · rename_i hp
      obtain ⟨statement, hs, hn⟩ := ok_of_bind hn
      rw [List.filter_cons_of_pos (by rw [isParameter, Bool.eq_false_iff.mpr hp]; rfl),
        List.append_cons]
      refine ih ?_ h
      rw [← Except.ok.inj hn]
      exact List.rel_append hr (.cons (ofElement_renders e hs) .nil)

/-- The code of a script is what the elements in instruction position yield. -/
theorem declaration_yields {path : String} {root : Element} {declaration : Declaration}
    (h : Declaration.ofElement path root = .ok declaration) :
    Yields ((positions root).map (·.2)) declaration.toScript.instructions := by
  unfold Declaration.ofElement at h
  split at h
  · cases h
  · rename_i hn
    have hname : root.name ≠ "if" := by
      rw [show root.name = "script" by simpa using hn]
      decide
    obtain ⟨_, -, h⟩ := ok_of_bind h
    obtain ⟨_, -, h⟩ := ok_of_bind h
    obtain ⟨body, hb, h⟩ := ok_of_bind h
    split at h
    · cases h
    · rw [← Except.ok.inj h, map_positions_plain hname]
      exact lowerAll_yields (children_render .nil hb) 0

/-! ## Jumps -/

/-- Right behind every jump of some code that starts at an index is where a branch in front of it leads to. -/
def JumpsEndBranches (start : Nat) (code : List Instruction) : Prop :=
  ∀ source target, (.jump target, source) ∈ placed start code →
    ∃ earlier condition, earlier < source ∧ (.branch condition (source + 1), earlier) ∈ placed start code

section

variable {start : Nat} {code behind : List Instruction} {i : Instruction}

theorem JumpsEndBranches.single (hi : ∀ target, i.operation ≠ .jump target) :
    JumpsEndBranches start [i] := by
  intro source target hm
  rw [placed_cons, placed_nil, List.mem_singleton, Prod.mk.injEq] at hm
  exact absurd hm.1.symm (hi target)

theorem JumpsEndBranches.append (h : JumpsEndBranches start code)
    (h' : JumpsEndBranches (start + code.length) behind) : JumpsEndBranches start (code ++ behind) := by
  intro source target hm
  rw [placed_append, List.mem_append] at hm
  simp only [placed_append, List.mem_append]
  rcases hm with hm | hm
  · obtain ⟨earlier, condition, hlt, hb⟩ := h source target hm
    exact ⟨earlier, condition, hlt, .inl hb⟩
  · obtain ⟨earlier, condition, hlt, hb⟩ := h' source target hm
    exact ⟨earlier, condition, hlt, .inr hb⟩

theorem JumpsEndBranches.cons (hi : ∀ target, i.operation ≠ .jump target)
    (h : JumpsEndBranches (start + 1) code) : JumpsEndBranches start (i :: code) :=
  (JumpsEndBranches.single hi).append h

/-- Two stretches of code with a jump between them, and in front an instruction that leads to the second. -/
theorem JumpsEndBranches.choice {condition : String} {span span' : Span} {target : Nat}
    (h : JumpsEndBranches (start + 1) code) (h' : JumpsEndBranches (start + code.length + 2) behind) :
    JumpsEndBranches start (⟨.branch condition (start + code.length + 2), span⟩ :: code ++
      ⟨.jump target, span'⟩ :: behind) := by
  have hfirst : JumpsEndBranches start (⟨.branch condition (start + code.length + 2), span⟩ :: code) :=
    .cons nofun h
  have hs : start + (code.length + 1) + 1 = start + code.length + 2 := by omega
  intro source target' hm
  rw [placed_append, List.mem_append] at hm
  simp only [placed_append, List.mem_append]
  rcases hm with hm | hm
  · obtain ⟨earlier, condition', hlt, hb⟩ := hfirst source target' hm
    exact ⟨earlier, condition', hlt, .inl hb⟩
  · rw [placed_cons, List.mem_cons, Prod.mk.injEq, List.length_cons, hs] at hm
    rcases hm with ⟨-, rfl⟩ | hm
    · -- This is the jump itself, and the instruction in front leads to right behind it.
      refine ⟨start, condition, by omega, .inl ?_⟩
      rw [hs, placed_cons]
      exact List.mem_cons_self ..
    · obtain ⟨earlier, condition', hlt, hb⟩ := h' source target' hm
      refine ⟨earlier, condition', hlt, .inr ?_⟩
      rw [placed_cons, List.length_cons, hs]
      exact List.mem_cons_of_mem _ hb

end

mutual

theorem lower_jumpsEndBranches (start : Nat) (statement : Statement) :
    JumpsEndBranches start (statement.lower start) := by
  match statement with
  | .assign target expression span => exact .single nofun
  | .command use span => exact .single nofun
  | .loop condition body span =>
    rw [Statement.lower]
    exact .append (.cons nofun (lowerAll_jumpsEndBranches (start + 1) body)) (.single nofun)
  | .guarded condition body span =>
    rw [Statement.lower]
    exact .cons nofun (lowerAll_jumpsEndBranches (start + 1) body)
  | .choice condition body elseSpan otherwise span =>
    exact (lowerAll_jumpsEndBranches (start + 1) body).choice (lowerAll_jumpsEndBranches _ otherwise)

theorem lowerAll_jumpsEndBranches (start : Nat) (body : List Statement) :
    JumpsEndBranches start (Statement.lowerAll start body) := by
  match body with
  | [] =>
    intro source target hm
    exact absurd hm List.not_mem_nil
  | statement :: rest =>
    exact (lower_jumpsEndBranches start statement).append (lowerAll_jumpsEndBranches _ rest)

end

/-- A loop of some code begins at one index and goes back from another one, behind which it is left to. -/
def Paired (code : List Instruction) (first last : Nat) : Prop :=
  LoopIn 0 code first (last + 1) ∧ (.loopEnd first, last) ∈ placed 0 code

/-- The loops and jumps of the code of a script lie properly to each other. -/
structure ProperlyNested (code : List Instruction) : Prop where
  /-- A loop is left to behind the instruction that goes back to its beginning. -/
  exits : ∀ first exit, LoopIn 0 code first exit →
    first + 1 < exit ∧ exit ≤ code.length ∧ (.loopEnd first, exit - 1) ∈ placed 0 code
  /-- What begins a loop belongs to one instruction that goes back. -/
  begins : ∀ first exit, LoopIn 0 code first exit → ∃! last, Paired code first last
  /-- What goes back belongs to one instruction that begins a loop. -/
  ends : ∀ first last, (.loopEnd first, last) ∈ placed 0 code → ∃! start, Paired code start last
  /-- Two loops, each from its beginning to before its exit, lie apart or one inside the other. -/
  nests : ∀ first exit first' exit', LoopIn 0 code first exit → LoopIn 0 code first' exit' →
    (exit ≤ first' ∨ exit' ≤ first) ∨
      (first ≤ first' ∧ exit' ≤ exit) ∨ (first' ≤ first ∧ exit ≤ exit')
  /-- A jump or branch leads forward and to inside the same loops. -/
  jumps : ∀ source target, JumpIn 0 code source target →
    source < target ∧ target ≤ code.length ∧ ∀ first exit, LoopIn 0 code first exit →
      (first < source ∧ source < exit ↔ first < target ∧ target < exit)
  /-- Right behind a jump is where a branch in front of it leads to. -/
  branches : JumpsEndBranches 0 code

/-- The code of a script has the instructions of the elements in instruction position. -/
structure LaidOut (root : Element) (code : List Instruction) : Prop where
  /-- The elements in instruction position are listed, and no others. -/
  complete : ∀ address e, (address, e) ∈ positions root ↔ StandsAt root address e
  /-- Each of them is listed once. -/
  once : ((positions root).map (·.1)).Nodup
  /-- They are listed in the order of the document, save that an `<else>` comes behind the other children of
  its `<if>`. -/
  ordered : (positions root).Pairwise fun p q => Before root p.1 q.1
  /-- A loop takes two instructions, and all else one. -/
  length : let count (name : String) := (positions root).countP (·.2.name == name)
    code.length = count "set" + count "command" + 2 * count "while" + count "if" + count "else"
  /-- The instructions that act are those of the `<set>` and `<command>` elements, as they are listed. -/
  actions : code.filter acts = (positions root).filterMap fun p => action? p.2

theorem properlyNested_of_wellNested {code : List Instruction} (h : WellNested 0 code)
    (hb : JumpsEndBranches 0 code) : ProperlyNested code where
  exits first exit hl := by
    obtain ⟨hlt, hle, hm⟩ := h.begins hl
    exact ⟨hlt, by omega, hm⟩
  begins first exit hl := by
    obtain ⟨hlt, -, hm⟩ := h.begins hl
    refine ⟨exit - 1, ⟨h.ends hm, hm⟩, fun last hp => ?_⟩
    have := hl.exit_unique hp.1
    omega
  ends first last hm := by
    refine ⟨first, ⟨h.ends hm, hm⟩, fun start hp => ?_⟩
    cases placed_unique hp.2 hm
    rfl
  nests first exit first' exit' hl hl' := by
    rcases Nat.lt_trichotomy first first' with hlt | rfl | hlt
    · have := fun hin => h.nests hl hl' hlt hin
      omega
    · have := hl.exit_unique hl'
      omega
    · have := fun hin => h.nests hl' hl hlt hin
      omega
  jumps source target hj := by
    obtain ⟨hlt, hle, hin⟩ := h.jumps hj
    exact ⟨hlt, by omega, fun _ _ hl => hin hl⟩
  branches := hb

theorem laidOut_of_yields {root : Element} {code : List Instruction}
    (h : Yields ((positions root).map (·.2)) code) : LaidOut root code where
  complete _ _ := mem_positions_iff
  once := positions_nodup root
  ordered := positions_ordered root
  length := by
    rw [h.length, tally]
    simp only [List.countP_map]
    rfl
  actions := by
    rw [h.actions, List.filterMap_map]
    rfl

/-- Lowered code is well nested. For every script that can be read, what begins a loop and what goes back to
its beginning belong together one to one, the loop is left to right behind it, two loops lie apart or one
inside the other, jumps and branches lead forward and neither into a loop nor out of one, and right behind a
jump is where a branch in front of it leads to. The elements in instruction position take one instruction
each, and loops two; and the assignments and commands come in the order of the document, save that the content
of an `<else>` comes behind all other children of its `<if>`. -/
theorem lowered_code_is_well_nested {path source : String} {script : Script}
    (h : Script.parse path source = .ok script) :
    ProperlyNested script.instructions ∧
      ∃ root, Markup.parse source = .ok root ∧ LaidOut root script.instructions := by
  have hnested := Script.parse_wellNested h
  obtain ⟨declaration, hd, rfl⟩ := ok_of_map h
  obtain ⟨root, hr, hd⟩ := ok_of_bind hd
  exact ⟨properlyNested_of_wellNested hnested (lowerAll_jumpsEndBranches 0 declaration.body), root, hr,
    laidOut_of_yields (declaration_yields hd)⟩

/-- A loop that ends with a choice, whose `<else>` comes first, and behind it a loop without a body. The
`<while>` inside a `<set>` is no instruction. -/
def detourSource : String :=
  "<script name=\"main\"><while when=\"a\"><if when=\"b\"><else><set name=\"x\">1</set></else>" ++
    "<set name=\"x\">2<while/></set></if></while><while when=\"c\"/></script>"

theorem detour_is_well_nested : ∃ root script, Markup.parse detourSource = .ok root ∧
    Script.parse "main.script.xml" detourSource = .ok script ∧
    script.instructions.map (·.operation) =
      [.loopStart "a" 6, .branch "b" 4, .assign "x" "2", .jump 5, .assign "x" "1", .loopEnd 0,
        .loopStart "c" 8, .loopEnd 6] ∧
    (positions root).map (fun p => (p.1, p.2.name)) =
      [([0], "while"), ([0, 0], "if"), ([0, 0, 1], "set"), ([0, 0, 0], "else"), ([0, 0, 0, 0], "set"),
        ([1], "while")] ∧
    ProperlyNested script.instructions ∧ LaidOut root script.instructions := by
  have heval : (Script.parse "main.script.xml" detourSource).toOption.map
      (fun script => script.instructions.map (·.operation)) =
        some [.loopStart "a" 6, .branch "b" 4, .assign "x" "2", .jump 5, .assign "x" "1", .loopEnd 0,
          .loopStart "c" 8, .loopEnd 6] ∧
      (Markup.parse detourSource).toOption.map (fun root => (positions root).map fun p => (p.1, p.2.name)) =
        some [([0], "while"), ([0, 0], "if"), ([0, 0, 1], "set"), ([0, 0, 0], "else"),
          ([0, 0, 0, 0], "set"), ([1], "while")] := by
    decide +kernel
  obtain ⟨script, hs, hcode⟩ := ok_of_toOption_map heval.1
  obtain ⟨root, hr, hpositions⟩ := ok_of_toOption_map heval.2
  obtain ⟨hnested, root', hr', hlaid⟩ := lowered_code_is_well_nested hs
  cases hr.symm.trans hr'
  exact ⟨root, script, hr, hs, hcode, hpositions, hnested, hlaid⟩

end ScriptEngine.Layout
