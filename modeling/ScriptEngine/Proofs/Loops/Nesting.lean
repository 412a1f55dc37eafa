import Mathlib.Data.List.Sort
import ScriptEngine.Script.Reader

/-!
# Lowered code is well nested

`WellNested` says of code from some index on how its loops and jumps lie to each other: a loop ends
with the instruction that goes back to its beginning, two loops lie apart or one inside the other,
and no jump leads into a loop or out of one. The code of every list of statements is of this kind
(`lowerAll_wellNested`), which is shown along the statements: code that follows other code
(`WellNested.append`), code behind a jump over a part of it (`WellNested.forward`), and code inside
a loop (`WellNested.loop`).

`loopsAround` lists the loops around an index. The second half says how it changes from one
instruction to those that can follow it.
-/

namespace ScriptEngine

/-- Whether an operation begins or ends a loop. -/
def Operation.boundsLoop : Operation → Bool
  | .loopStart .. | .loopEnd _ => true
  | _ => false

/-- The operations of some code with their indices, of which the first one is `start`. -/
def placed (start : Nat) (code : List Instruction) : List (Operation × Nat) :=
  (code.map (·.operation)).zipIdx start

section

variable {start i j : Nat} {code before behind : List Instruction} {operation : Operation}

@[simp] theorem placed_nil : placed start [] = [] := rfl

@[simp] theorem placed_cons (instruction : Instruction) :
    placed start (instruction :: code) =
      (instruction.operation, start) :: placed (start + 1) code := rfl

@[simp] theorem placed_append : placed start (before ++ behind) =
    placed start before ++ placed (start + before.length) behind := by
  simp only [placed, List.map_append, List.zipIdx_append, List.length_map]

theorem placed_bounds (h : (operation, i) ∈ placed start code) :
    start ≤ i ∧ i < start + code.length := by
  have h₁ := List.le_snd_of_mem_zipIdx h
  have h₂ := List.snd_lt_add_of_mem_zipIdx h
  simp only [List.length_map] at h₂
  omega

theorem mem_placed_zero :
    (operation, i) ∈ placed 0 code ↔ (code[i]?).map (·.operation) = some operation := by
  rw [placed, List.mk_mem_zipIdx_iff_getElem?, List.getElem?_map]

theorem placed_ascending : (placed start code).Pairwise (·.2 < ·.2) := by
  induction code generalizing start with
  | nil => exact .nil
  | cons instruction code ih =>
    refine .cons (fun ⟨operation, i⟩ hm => ?_) ih
    have := (placed_bounds hm).1
    simp only
    omega

/-- An index holds one operation. -/
theorem placed_unique {other : Operation} (h : (operation, i) ∈ placed start code)
    (h' : (other, i) ∈ placed start code) : operation = other := by
  rw [placed, List.mk_mem_zipIdx_iff_le_and_getElem?_sub] at h h'
  exact Option.some.inj (h.2.symm.trans h'.2)

end

/-- A loop of some code that starts at an index: where it begins and where it is left to. -/
def LoopIn (start : Nat) (code : List Instruction) (first exit : Nat) : Prop :=
  ∃ condition, (.loopStart condition exit, first) ∈ placed start code

/-- A jump of some code that starts at an index: from where and to where. -/
def JumpIn (start : Nat) (code : List Instruction) (source target : Nat) : Prop :=
  (.jump target, source) ∈ placed start code ∨
    ∃ condition, (.branch condition target, source) ∈ placed start code

/-- The loops and jumps of some code that starts at an index lie properly to each other. -/
structure WellNested (start : Nat) (code : List Instruction) : Prop where
  /-- A loop is left to behind the instruction that goes back to its beginning. -/
  begins {first exit : Nat} : LoopIn start code first exit →
    first + 1 < exit ∧ exit ≤ start + code.length ∧
      (.loopEnd first, exit - 1) ∈ placed start code
  /-- What goes back, goes back to the loop that is left to behind it. -/
  ends {first last : Nat} : (.loopEnd first, last) ∈ placed start code →
    LoopIn start code first (last + 1)
  /-- A loop that begins inside another one ends inside it. -/
  nests {first exit first' exit' : Nat} : LoopIn start code first exit →
    LoopIn start code first' exit' → first < first' → first' < exit → exit' < exit
  /-- A jump leads forward and to inside the same loops. -/
  jumps {source target : Nat} : JumpIn start code source target →
    source < target ∧ target ≤ start + code.length ∧
      ∀ {first exit : Nat}, LoopIn start code first exit →
        (first < source ∧ source < exit ↔ first < target ∧ target < exit)

section

variable {start first exit source target : Nat} {code before behind : List Instruction}
  {instruction : Instruction}

theorem loopIn_append : LoopIn start (before ++ behind) first exit ↔
    LoopIn start before first exit ∨ LoopIn (start + before.length) behind first exit := by
  simp only [LoopIn, placed_append, List.mem_append, exists_or]

theorem loopIn_cons : LoopIn start (instruction :: code) first exit ↔
    (∃ condition, instruction.operation = .loopStart condition exit ∧ first = start) ∨
      LoopIn (start + 1) code first exit := by
  simp only [LoopIn, placed_cons, List.mem_cons, Prod.mk.injEq, exists_or]
  exact or_congr_left (exists_congr fun _ => and_congr_left' eq_comm)

theorem jumpIn_append : JumpIn start (before ++ behind) source target ↔
    JumpIn start before source target ∨ JumpIn (start + before.length) behind source target := by
  simp only [JumpIn, placed_append, List.mem_append, exists_or]
  exact or_or_or_comm

theorem jumpIn_cons : JumpIn start (instruction :: code) source target ↔
    ((instruction.operation = .jump target ∨
        ∃ condition, instruction.operation = .branch condition target) ∧ source = start) ∨
      JumpIn (start + 1) code source target := by
  simp only [JumpIn, placed_cons, List.mem_cons, Prod.mk.injEq, exists_or, exists_and_right,
    or_and_right, @eq_comm _ instruction.operation]
  exact or_or_or_comm

/-- The instructions of a loop around some code. -/
def looped (start : Nat) (condition : String) (code : List Instruction) (span span' : Span) :
    List Instruction :=
  ⟨.loopStart condition (start + code.length + 2), span⟩ :: code ++ [⟨.loopEnd start, span'⟩]

section

variable {condition : String} {span span' : Span} {last : Nat}

theorem looped_length : (looped start condition code span span').length = code.length + 2 := by
  simp [looped]

theorem loopIn_looped : LoopIn start (looped start condition code span span') first exit ↔
    (first = start ∧ exit = start + code.length + 2) ∨ LoopIn (start + 1) code first exit := by
  rw [looped, List.cons_append, loopIn_cons, loopIn_append]
  simp only [Operation.loopStart.injEq, LoopIn, placed_cons, placed_nil, List.mem_singleton,
    Prod.mk.injEq, reduceCtorEq, false_and, exists_false, or_false]
  refine or_congr_left ⟨?_, ?_⟩
  · rintro ⟨_, ⟨-, he⟩, hf⟩
    exact ⟨hf, he.symm⟩
  · rintro ⟨hf, he⟩
    exact ⟨condition, ⟨rfl, he.symm⟩, hf⟩

theorem loopEnd_looped :
    (.loopEnd first, last) ∈ placed start (looped start condition code span span') ↔
      (first = start ∧ last = start + code.length + 1) ∨
        (.loopEnd first, last) ∈ placed (start + 1) code := by
  simp only [looped, List.cons_append, placed_cons, placed_append, placed_nil, List.mem_cons,
    List.mem_append, List.not_mem_nil, Prod.mk.injEq, Operation.loopEnd.injEq, reduceCtorEq,
    false_and, false_or, or_false, Nat.add_right_comm start 1]
  exact or_comm

theorem jumpIn_looped : JumpIn start (looped start condition code span span') source target ↔
    JumpIn (start + 1) code source target := by
  rw [looped, List.cons_append, jumpIn_cons, jumpIn_append]
  simp [JumpIn]

end

theorem LoopIn.bounds (h : LoopIn start code first exit) :
    start ≤ first ∧ first < start + code.length := by
  obtain ⟨condition, h⟩ := h
  exact placed_bounds h

theorem JumpIn.bounds (h : JumpIn start code source target) :
    start ≤ source ∧ source < start + code.length := by
  rcases h with h | ⟨condition, h⟩ <;> exact placed_bounds h

end

namespace WellNested

variable {start : Nat} {code before behind : List Instruction}

/-- Code without loops and jumps. -/
theorem of_none (hl : ∀ {first exit}, ¬ LoopIn start code first exit)
    (he : ∀ {first last}, (.loopEnd first, last) ∉ placed start code)
    (hj : ∀ {source target}, ¬ JumpIn start code source target) : WellNested start code where
  begins h := absurd h hl
  ends h := absurd h he
  nests h := absurd h hl
  jumps h := absurd h hj

theorem nil : WellNested start [] :=
  of_none (by simp [LoopIn]) (by simp) (by simp [JumpIn])

theorem assign (target expression : String) (span : Span) :
    WellNested start [⟨.assign target expression, span⟩] :=
  of_none (by simp [LoopIn]) (by simp) (by simp [JumpIn])

theorem command (use : CommandUse) (span : Span) : WellNested start [⟨.command use, span⟩] :=
  of_none (by simp [LoopIn]) (by simp) (by simp [JumpIn])

theorem append (h₁ : WellNested start before)
    (h₂ : WellNested (start + before.length) behind) : WellNested start (before ++ behind) where
  begins h := by
    simp only [placed_append, List.mem_append, List.length_append]
    rcases loopIn_append.mp h with h | h
    · obtain ⟨hs, he, hm⟩ := h₁.begins h
      exact ⟨hs, by omega, .inl hm⟩
    · obtain ⟨hs, he, hm⟩ := h₂.begins h
      exact ⟨hs, by omega, .inr hm⟩
  ends h := by
    rw [placed_append, List.mem_append] at h
    rw [loopIn_append]
    exact h.imp h₁.ends h₂.ends
  nests h h' hlt hin := by
    rcases loopIn_append.mp h with h | h <;> rcases loopIn_append.mp h' with h' | h'
    · exact h₁.nests h h' hlt hin
    · have := (h₁.begins h).2.1
      have := h'.bounds
      omega
    · have := h.bounds
      have := h'.bounds
      omega
    · exact h₂.nests h h' hlt hin
  jumps h := by
    rw [List.length_append]
    rcases jumpIn_append.mp h with h | h
    · obtain ⟨hlt, hle, hin⟩ := h₁.jumps h
      refine ⟨hlt, by omega, fun hl => ?_⟩
      rcases loopIn_append.mp hl with hl | hl
      · exact hin hl
      · have := hl.bounds
        omega
    · obtain ⟨hlt, hle, hin⟩ := h₂.jumps h
      refine ⟨hlt, by omega, fun hl => ?_⟩
      rcases loopIn_append.mp hl with hl | hl
      · have := (h₁.begins hl).2.1
        have := h.bounds
        omega
      · exact hin hl

/-- Code behind an instruction that jumps over a part of it, to outside of its loops. -/
theorem forward {operation : Operation} {span : Span} {target : Nat}
    (h : WellNested (start + 1) code)
    (ho : operation = .jump target ∨ ∃ condition, operation = .branch condition target)
    (hlt : start < target) (hle : target ≤ start + 1 + code.length)
    (hout : ∀ {first exit}, LoopIn (start + 1) code first exit → target ≤ first ∨ exit ≤ target) :
    WellNested start (⟨operation, span⟩ :: code) := by
  have hcons : ∀ {first exit}, LoopIn start (⟨operation, span⟩ :: code) first exit ↔
      LoopIn (start + 1) code first exit := fun {first exit} => by
    rw [loopIn_cons, or_iff_right]
    rintro ⟨c, he, -⟩
    rcases ho with rfl | ⟨_, rfl⟩ <;> cases he
  constructor
  · intro first exit hl
    obtain ⟨hs, he, hm⟩ := h.begins (hcons.mp hl)
    exact ⟨hs, by rw [List.length_cons]; omega, by rw [placed_cons]; exact .tail _ hm⟩
  · intro first last hm
    rw [placed_cons, List.mem_cons, Prod.mk.injEq] at hm
    rcases hm with ⟨he, -⟩ | hm
    · rcases ho with rfl | ⟨_, rfl⟩ <;> cases he
    · exact hcons.mpr (h.ends hm)
  · intro first exit first' exit' hl hl' hlt hin
    exact h.nests (hcons.mp hl) (hcons.mp hl') hlt hin
  · intro source target' hj
    rw [List.length_cons]
    rcases jumpIn_cons.mp hj with ⟨he, rfl⟩ | hj
    · have : target' = target := by
        rcases ho with rfl | ⟨_, rfl⟩ <;> rcases he with he | ⟨_, he⟩ <;> cases he <;> rfl
      subst this
      refine ⟨hlt, by omega, fun hl => ?_⟩
      have := (hcons.mp hl).bounds
      have := hout (hcons.mp hl)
      omega
    · obtain ⟨hlt', hle', hin⟩ := h.jumps hj
      exact ⟨hlt', by omega, fun hl => hin (hcons.mp hl)⟩

/-- Code inside a loop. -/
theorem loop {condition : String} {span span' : Span} (h : WellNested (start + 1) code) :
    WellNested start (looped start condition code span span') := by
  constructor
  · intro first exit hl
    rw [looped_length, loopEnd_looped]
    rcases loopIn_looped.mp hl with ⟨rfl, rfl⟩ | hl
    · exact ⟨by omega, by omega, .inl ⟨rfl, by omega⟩⟩
    · obtain ⟨hs, he, hm⟩ := h.begins hl
      exact ⟨hs, by omega, .inr hm⟩
  · intro first last hm
    rw [loopIn_looped]
    rcases loopEnd_looped.mp hm with ⟨rfl, rfl⟩ | hm
    · exact .inl ⟨rfl, by omega⟩
    · exact .inr (h.ends hm)
  · intro first exit first' exit' hl hl' hlt hin
    rcases loopIn_looped.mp hl with ⟨rfl, rfl⟩ | hl <;>
      rcases loopIn_looped.mp hl' with ⟨rfl, rfl⟩ | hl'
    · omega
    · have := (h.begins hl').2.1
      omega
    · have := hl.bounds
      omega
    · exact h.nests hl hl' hlt hin
  · intro source target hj
    have hj := jumpIn_looped.mp hj
    rw [looped_length]
    obtain ⟨hlt, hle, hin⟩ := h.jumps hj
    refine ⟨hlt, by omega, fun hl => ?_⟩
    rcases loopIn_looped.mp hl with ⟨rfl, rfl⟩ | hl
    · have := hj.bounds
      omega
    · exact hin hl

end WellNested

/-! ## Statements -/

mutual

/-- The code of a statement is well nested. -/
theorem lower_wellNested (start : Nat) (statement : Statement) :
    WellNested start (statement.lower start) := by
  match statement with
  | .assign target expression span => exact .assign target expression span
  | .command use span => exact .command use span
  | .loop condition body span =>
    exact .loop (lowerAll_wellNested (start + 1) body)
  | .guarded condition body span =>
    have hb := lowerAll_wellNested (start + 1) body
    refine hb.forward (.inr ⟨condition, rfl⟩) (by omega) (by omega) fun hl => ?_
    have := (hb.begins hl).2.1
    omega
  | .choice condition body elseSpan otherwise span =>
    have hb := lowerAll_wellNested (start + 1) body
    have ho := lowerAll_wellNested
      (start + (Statement.lowerAll (start + 1) body).length + 2) otherwise
    simp only [Statement.lower]
    generalize Statement.lowerAll (start + 1) body = code at hb ho ⊢
    generalize Statement.lowerAll (start + code.length + 2) otherwise = elseCode at ho ⊢
    have hs : start + 1 + code.length + 1 = start + code.length + 2 := by omega
    -- The jump at the end of the body leads behind the other branch, where no loop of it reaches.
    have hj : WellNested (start + 1 + code.length)
        (⟨.jump (start + code.length + 2 + elseCode.length), elseSpan⟩ :: elseCode) := by
      refine WellNested.forward (by rwa [hs]) (.inl rfl) (by omega) (by omega) fun hl => ?_
      rw [hs] at hl
      have := (ho.begins hl).2.1
      omega
    -- The branch in front leads between the two, where no loop of either reaches.
    refine (hb.append hj).forward (.inr ⟨condition, rfl⟩) (by omega) (by simp; omega) fun hl => ?_
    rcases loopIn_append.mp hl with hl | hl
    · have := (hb.begins hl).2.1
      omega
    · rw [loopIn_cons] at hl
      rcases hl with ⟨_, he, -⟩ | hl
      · cases he
      · have := hl.bounds
        omega

/-- The code of statements is well nested. -/
theorem lowerAll_wellNested (start : Nat) (body : List Statement) :
    WellNested start (Statement.lowerAll start body) := by
  match body with
  | [] => exact .nil
  | statement :: rest =>
    exact (lower_wellNested start statement).append (lowerAll_wellNested _ rest)

end

/-- The code of a script that was read is well nested. -/
theorem Script.parse_wellNested {path source : String} {script : Script}
    (h : Script.parse path source = .ok script) : WellNested 0 script.instructions := by
  unfold Script.parse at h
  cases hd : Declaration.parse path source with
  | error fault => simp [hd, Except.map] at h
  | ok declaration =>
    simp only [hd, Except.map, Except.ok.injEq] at h
    rw [← h]
    exact lowerAll_wellNested 0 declaration.body

/-! ## The loops around an index -/

/-- The loops of some code in their order: where each begins and where it is left to. -/
def loopsOf (code : List Instruction) : List (Nat × Nat) :=
  (placed 0 code).filterMap fun entry =>
    match entry.1 with
    | .loopStart _ exit => some (entry.2, exit)
    | _ => none

/-- The loops around an index, the outermost one first. -/
def loopsAround (code : List Instruction) (ip : Nat) : List (Nat × Nat) :=
  (loopsOf code).filter fun loop => loop.1 < ip && ip < loop.2

section

variable {code : List Instruction} {ip first exit : Nat}

theorem mem_loopsOf : (first, exit) ∈ loopsOf code ↔ LoopIn 0 code first exit := by
  simp only [loopsOf, List.mem_filterMap, LoopIn]
  constructor
  · rintro ⟨⟨operation, i⟩, hm, he⟩
    cases operation <;> simp only [reduceCtorEq, Option.some.injEq, Prod.mk.injEq] at he
    obtain ⟨rfl, rfl⟩ := he
    exact ⟨_, hm⟩
  · rintro ⟨condition, hm⟩
    exact ⟨_, hm, rfl⟩

theorem mem_loopsAround : (first, exit) ∈ loopsAround code ip ↔
    LoopIn 0 code first exit ∧ first < ip ∧ ip < exit := by
  simp only [loopsAround, List.mem_filter, mem_loopsOf, Bool.and_eq_true, decide_eq_true_eq]

theorem loopsAround_zero : loopsAround code 0 = [] :=
  List.filter_eq_nil_iff.mpr fun _ _ => by simp

theorem loopsOf_ascending : (loopsOf code).Pairwise (·.1 < ·.1) := by
  refine List.Pairwise.filterMap _ (fun a a' hlt b hb b' hb' => ?_) placed_ascending
  obtain ⟨operation, i⟩ := a
  obtain ⟨operation', i'⟩ := a'
  cases operation <;> simp only [reduceCtorEq, Option.some.injEq] at hb
  cases operation' <;> simp only [reduceCtorEq, Option.some.injEq] at hb'
  rw [← hb, ← hb']
  exact hlt

theorem loopsAround_ascending : (loopsAround code ip).Pairwise (·.1 < ·.1) :=
  loopsOf_ascending.filter _

/-- Loops in ascending order are given by which ones they are. -/
theorem eq_of_ascending {loops loops' : List (Nat × Nat)} (h : loops.Pairwise (·.1 < ·.1))
    (h' : loops'.Pairwise (·.1 < ·.1)) (hm : ∀ first exit,
      (first, exit) ∈ loops ↔ (first, exit) ∈ loops') : loops = loops' := by
  have : Std.Antisymm fun a b : Nat × Nat => a.1 < b.1 :=
    ⟨fun _ _ hab hba => absurd hab (Nat.lt_asymm hba)⟩
  have : Std.Irrefl fun a b : Nat × Nat => a.1 < b.1 := ⟨fun _ => Nat.lt_irrefl _⟩
  exact h.eq_of_mem_iff h' fun loop => hm loop.1 loop.2

end

theorem loopsAround_congr {code : List Instruction} {i j : Nat}
    (h : ∀ {first exit}, LoopIn 0 code first exit →
      (first < i ∧ i < exit ↔ first < j ∧ j < exit)) : loopsAround code i = loopsAround code j := by
  refine List.filter_congr fun loop hm => ?_
  have := h (mem_loopsOf.mp hm)
  simpa only [← Bool.decide_and, decide_eq_decide] using this

/-- A loop has one exit. -/
theorem LoopIn.exit_unique {start first exit exit' : Nat} {code : List Instruction}
    (h : LoopIn start code first exit) (h' : LoopIn start code first exit') : exit = exit' := by
  obtain ⟨_, h⟩ := h
  obtain ⟨_, h'⟩ := h'
  cases placed_unique h h'
  rfl

namespace WellNested

variable {code : List Instruction} {ip first exit : Nat}

/-- Behind an instruction that does not belong to a loop. -/
theorem around_next (h : WellNested 0 code) {operation : Operation}
    (hm : (operation, ip) ∈ placed 0 code) (hp : operation.boundsLoop = false) :
    loopsAround code (ip + 1) = loopsAround code ip := by
  refine loopsAround_congr fun {first exit} hl => ?_
  have hfirst : first ≠ ip := by
    rintro rfl
    obtain ⟨condition, hl⟩ := hl
    rw [placed_unique hm hl] at hp
    cases hp
  have hexit : exit ≠ ip + 1 := by
    rintro rfl
    rw [placed_unique hm (h.begins hl).2.2] at hp
    cases hp
  omega

/-- At the target of a jump. -/
theorem around_jump (h : WellNested 0 code) {source target : Nat} (hj : JumpIn 0 code source target) :
    loopsAround code target = loopsAround code source :=
  loopsAround_congr fun hl => ((h.jumps hj).2.2 hl).symm

/-- Behind a loop. -/
theorem around_exit (h : WellNested 0 code) (hl : LoopIn 0 code first exit) :
    loopsAround code exit = loopsAround code first := by
  have hb := h.begins hl
  refine loopsAround_congr fun {first' exit'} hl' => ?_
  rcases Nat.lt_trichotomy first' first with hlt | rfl | hlt
  · have := fun hin => h.nests hl' hl hlt hin
    omega
  · have := hl.exit_unique hl'
    omega
  · have := fun hin => h.nests hl hl' hlt hin
    omega

/-- Inside a loop and no loop inside it. -/
theorem around_innermost (h : WellNested 0 code) (hl : LoopIn 0 code first exit)
    (hin : first < ip ∧ ip < exit) (hinner : ∀ {first' exit'}, LoopIn 0 code first' exit' →
      first < first' → first' < ip → exit' ≤ ip) :
    loopsAround code ip = loopsAround code first ++ [(first, exit)] := by
  refine eq_of_ascending loopsAround_ascending ?_ fun first' exit' => ?_
  · refine List.pairwise_append.mpr ⟨loopsAround_ascending, List.pairwise_singleton .., ?_⟩
    rintro ⟨first', exit'⟩ hm loop hs
    rw [List.mem_singleton.mp hs]
    exact (mem_loopsAround.mp hm).2.1
  · rw [List.mem_append, List.mem_singleton, mem_loopsAround, mem_loopsAround, Prod.mk.injEq]
    constructor
    · rintro ⟨hl', hin'⟩
      rcases Nat.lt_trichotomy first' first with hlt | rfl | hlt
      · exact .inl ⟨hl', hlt, by omega⟩
      · exact .inr ⟨rfl, hl'.exit_unique hl⟩
      · have := hinner hl' hlt hin'.1
        omega
    · rintro (⟨hl', hlt, hlt'⟩ | ⟨rfl, rfl⟩)
      · have := h.nests hl' hl hlt hlt'
        exact ⟨hl', by omega⟩
      · exact ⟨hl, hin⟩

/-- Behind the beginning of a loop. -/
theorem around_inside (h : WellNested 0 code) (hl : LoopIn 0 code first exit) :
    loopsAround code (first + 1) = loopsAround code first ++ [(first, exit)] := by
  have := h.begins hl
  exact h.around_innermost hl (by omega) fun _ _ _ => by omega

/-- At the instruction that goes back to the beginning of a loop. -/
theorem around_end (h : WellNested 0 code) {last : Nat}
    (hm : (.loopEnd first, last) ∈ placed 0 code) :
    loopsAround code last = loopsAround code first ++ [(first, last + 1)] := by
  have hl := h.ends hm
  have := h.begins hl
  refine h.around_innermost hl (by omega) fun hl' hlt hlt' => ?_
  have := h.nests hl hl' hlt (by omega)
  omega

/-- The loops around an index without the innermost one are those around its beginning. -/
theorem around_outer (h : WellNested 0 code) {outer : List (Nat × Nat)}
    (ha : loopsAround code ip = outer ++ [(first, exit)]) :
    LoopIn 0 code first exit ∧ loopsAround code first = outer := by
  have hm : (first, exit) ∈ loopsAround code ip := by simp [ha]
  obtain ⟨hl, hin⟩ := mem_loopsAround.mp hm
  refine ⟨hl, ?_⟩
  have hinner : loopsAround code ip = loopsAround code first ++ [(first, exit)] := by
    refine h.around_innermost hl hin fun {first' exit'} hl' hlt hlt' => ?_
    by_contra hlt''
    have hm' : (first', exit') ∈ loopsAround code ip := mem_loopsAround.mpr ⟨hl', by omega⟩
    rw [ha, List.mem_append, List.mem_singleton, Prod.mk.injEq] at hm'
    have hasc : (loopsAround code ip).Pairwise (·.1 < ·.1) := loopsAround_ascending
    rw [ha, List.pairwise_append] at hasc
    rcases hm' with hm' | ⟨rfl, -⟩
    · have := hasc.2.2 _ hm' _ (List.mem_singleton_self _)
      omega
    · omega
  exact List.append_cancel_right (hinner.symm.trans ha)

/-- Of the loops around an index the outer ones come first. -/
theorem around_nested (h : WellNested 0 code) (ip : Nat) :
    (loopsAround code ip).Pairwise fun outer inner => outer.1 < inner.1 ∧ inner.2 < outer.2 := by
  refine loopsAround_ascending.imp_of_mem fun {outer inner} ho hi hlt => ⟨hlt, ?_⟩
  obtain ⟨hlo, hino⟩ := mem_loopsAround.mp ho
  obtain ⟨hli, hini⟩ := mem_loopsAround.mp hi
  exact h.nests hlo hli hlt (by omega)

end WellNested

end ScriptEngine
