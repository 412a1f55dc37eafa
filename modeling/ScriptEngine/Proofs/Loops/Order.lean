import Mathlib.Data.List.Chain
import ScriptEngine.Proofs.Machine.Equations

/-!
# The loop stack is ordered by frame

One stack holds the loops of all frames. Whatever is done to a context, and whether it fails or not, the
loops of a frame lie next to each other, above those of its callers. `ContextOperation` lists what can be
done, `Context.Changes` says once what any of it can do to the frames and the loops
(`Context.changes_apply`), and `Context.LoopsOrdered` is kept by each of these changes
(`Context.LoopsOrdered.changes`). So the loops of the innermost frame are the top of the stack
(`Context.LoopsOrdered.segments`), and only they can be touched (`loops_stay_ordered_by_frame`).
-/

namespace ScriptEngine

/-- What can be done to a context. -/
inductive ContextOperation
  | enterLoop (recheck exit : Nat)
  | exitLoop
  | breakLoop
  | continueLoop
  | pushFrame (script : Script) (locals : Dictionary Value) (resume : ResumePoint)
  | finishFrame
  | setIp (ip : Nat)
  | advance
  | setLocal (name : String) (value : Value)
  | setPending (value : Value)
  /-- Any change of the innermost frame. -/
  | updateFrame (change : Frame → Frame)
  | timePassed (now : Nat)

/-- The context that an operation leaves, whether it fails or not. -/
def ContextOperation.apply (operation : ContextOperation) (context : Context) : Context :=
  match operation with
  | .enterLoop recheck exit => (context.enterLoop recheck exit).toOption.getD context
  | .exitLoop => (context.exitLoop.toOption.map (·.2)).getD context
  | .breakLoop => context.breakOut.2
  | .continueLoop => context.continueLoop.toOption.getD context
  | .pushFrame script locals resume => context.pushFrame script locals resume
  | .finishFrame => context.finishFrame.2
  | .setIp ip => (context.setIp ip).toOption.getD context
  | .advance => context.advance.toOption.getD context
  | .setLocal name value => (context.setLocal name value).toOption.getD context
  | .setPending value => (context.setPending value).toOption.getD context
  | .updateFrame change => (context.updateFrame change).toOption.getD context
  | .timePassed now => ((context.timePassed now).toOption.map (·.2)).getD context

namespace Context

/-- The context that a sequence of operations leaves. -/
def applyAll (context : Context) (operations : List ContextOperation) : Context :=
  operations.foldl (fun context operation => operation.apply context) context

/-- What an operation can do to the number of frames and to the loops. -/
inductive Changes (before after : Context) : Prop
  | keeps (depth : after.depth = before.depth) (loops : after.loops = before.loops)
  | enters {recheck exit : Nat} (active : 0 < before.depth) (outside : before.isInLoop recheck = false)
      (depth : after.depth = before.depth)
      (loops : after.loops = ⟨recheck, exit, before.depth⟩ :: before.loops)
  | leaves {loop : LoopContext} (own : loop.depth = before.depth) (depth : after.depth = before.depth)
      (loops : before.loops = loop :: after.loops)
  | calls (depth : after.depth = before.depth + 1) (loops : after.loops = before.loops)
  | finishes (depth : before.depth = after.depth + 1)
      (loops : after.loops = before.loops.filter (·.depth ≤ after.depth))

variable {context before after : Context}

theorem Changes.refl (context : Context) : Changes context context :=
  .keeps rfl rfl

theorem updateFrame_keeps (context : Context) (change : Frame → Frame) :
    ((context.updateFrame change).toOption.getD context).depth = context.depth ∧
      ((context.updateFrame change).toOption.getD context).loops = context.loops := by
  unfold updateFrame depth
  split
  · exact ⟨rfl, rfl⟩
  · rename_i frame callers hframes
    rw [hframes]
    exact ⟨rfl, rfl⟩

theorem changes_updateFrame (context : Context) (change : Frame → Frame) :
    Changes context ((context.updateFrame change).toOption.getD context) :=
  .keeps (context.updateFrame_keeps change).1 (context.updateFrame_keeps change).2

theorem changes_enterLoop (context : Context) (recheck exit : Nat) :
    Changes context ((context.enterLoop recheck exit).toOption.getD context) := by
  unfold enterLoop
  split
  · exact .refl context
  · rename_i hdepth
    split
    · exact .refl context
    · rename_i houtside
      exact .enters (Nat.pos_of_ne_zero hdepth) (by simpa using houtside) rfl rfl

theorem currentLoop?_eq_some {loop : LoopContext} :
    context.currentLoop? = some loop ↔ ∃ rest, context.loops = loop :: rest ∧ loop.depth = context.depth :=
  ownLoop?_eq_some

/-- Removing the innermost loop fails, or takes it from the top. -/
theorem popLoop_cases (context : Context) (request : LoopRequest) :
    context.popLoop request = .error (.outsideLoop request) ∨
      ∃ loop rest, context.loops = loop :: rest ∧ loop.depth = context.depth ∧
        context.popLoop request = .ok (loop, { context with loops := rest }) := by
  unfold popLoop
  split
  · rename_i loop hloop
    obtain ⟨rest, hloops, hdepth⟩ := currentLoop?_eq_some.mp hloop
    exact .inr ⟨loop, rest, hloops, hdepth, by rw [hloops]; rfl⟩
  · exact .inl rfl

theorem changes_exitLoop (context : Context) :
    Changes context ((context.exitLoop.toOption.map (·.2)).getD context) := by
  unfold exitLoop
  rcases context.popLoop_cases .leave with hnone | ⟨loop, rest, hloops, hdepth, hpop⟩
  · rw [hnone]
    exact .refl context
  · rw [hpop]
    exact .leaves hdepth rfl hloops

theorem changes_breakLoop (context : Context) : Changes context context.breakOut.2 := by
  unfold breakOut
  rcases context.popLoop_cases .breakOut with hnone | ⟨loop, rest, hloops, hdepth, hpop⟩
  · rw [hnone]
    exact .refl context
  · -- The loop is gone even if there is no frame to go on in.
    have hkeeps := updateFrame_keeps { context with loops := rest } fun frame =>
      { frame with ip := loop.exit }
    rw [hpop]
    dsimp only
    unfold setIp
    split
    · exact .leaves hdepth rfl hloops
    · rename_i behind hset
      rw [hset] at hkeeps
      exact .leaves hdepth hkeeps.1 (by rw [hloops, show behind.loops = rest from hkeeps.2])

theorem changes_continueLoop (context : Context) :
    Changes context (context.continueLoop.toOption.getD context) := by
  unfold continueLoop
  split
  · exact changes_updateFrame context _
  · exact .refl context

theorem finishFrame_active {frame : Frame} {callers : List Frame} (h : context.frames = frame :: callers) :
    context.finishFrame.2.depth = callers.length ∧
      context.finishFrame.2.loops = context.loops.filter (·.depth ≤ callers.length) := by
  unfold finishFrame
  rw [h]
  dsimp only
  split <;> exact ⟨rfl, rfl⟩

theorem finishFrame_idle (h : context.frames = []) : context.finishFrame.2 = context := by
  rw [finishFrame, h]

theorem changes_finishFrame (context : Context) : Changes context context.finishFrame.2 := by
  cases hframes : context.frames with
  | nil =>
    rw [finishFrame_idle hframes]
    exact .refl context
  | cons frame callers =>
    obtain ⟨hdepth, hloops⟩ := finishFrame_active hframes
    have hbefore : context.depth = callers.length + 1 := congrArg List.length hframes
    refine .finishes (by rw [hbefore, hdepth]) ?_
    rw [hloops, hdepth]

theorem changes_timePassed (context : Context) (now : Nat) :
    Changes context (((context.timePassed now).toOption.map (·.2)).getD context) := by
  unfold timePassed
  cases context.currentFrame with
  | error cause => exact .refl context
  | ok frame => exact .keeps rfl rfl

theorem changes_apply (operation : ContextOperation) (context : Context) :
    Changes context (operation.apply context) := by
  cases operation with
  | enterLoop recheck exit => exact changes_enterLoop context recheck exit
  | exitLoop => exact changes_exitLoop context
  | breakLoop => exact changes_breakLoop context
  | continueLoop => exact changes_continueLoop context
  | pushFrame script locals resume => exact .calls rfl rfl
  | finishFrame => exact changes_finishFrame context
  | setIp | advance | setLocal | setPending | updateFrame => exact changes_updateFrame context _
  | timePassed now => exact changes_timePassed context now

/-! ## Order -/

/-- The loops of inner frames lie above those of outer ones, every loop belongs to a frame, and no loop
lies directly on itself. The innermost loop comes first. -/
structure LoopsOrdered (context : Context) : Prop where
  ordered : context.loops.Pairwise fun inner outer => outer.depth ≤ inner.depth
  owned : ∀ loop ∈ context.loops, 1 ≤ loop.depth ∧ loop.depth ≤ context.depth
  distinct : context.loops.IsChain fun inner outer =>
    ¬ (inner.depth = outer.depth ∧ inner.recheck = outer.recheck)

/-- There are no loops without a frame. -/
theorem LoopsOrdered.loops_eq_nil (h : context.LoopsOrdered) (hnone : context.frames = []) :
    context.loops = [] := by
  refine List.eq_nil_iff_forall_not_mem.mpr fun loop hm => ?_
  have howned := h.owned loop hm
  rw [depth, hnone, List.length_nil] at howned
  omega

/-- The loops of the innermost frame are the top of the stack. -/
theorem LoopsOrdered.segments (h : context.LoopsOrdered) :
    ∃ own rest, context.loops = own ++ rest ∧ (∀ loop ∈ own, loop.depth = context.depth) ∧
      ∀ loop ∈ rest, loop.depth < context.depth := by
  have hordered := h.ordered
  have howned : ∀ loop ∈ context.loops, loop.depth ≤ context.depth := fun loop hm => (h.owned loop hm).2
  generalize context.loops = loops at hordered howned
  induction loops with
  | nil => exact ⟨[], [], rfl, fun _ hm => absurd hm List.not_mem_nil, fun _ hm => absurd hm List.not_mem_nil⟩
  | cons first loops ih =>
    obtain ⟨hfirst, hlater⟩ := List.pairwise_cons.mp hordered
    by_cases hown : first.depth = context.depth
    · obtain ⟨own, rest, rfl, ho, hr⟩ := ih hlater fun loop hm => howned loop (List.mem_cons_of_mem _ hm)
      exact ⟨first :: own, rest, rfl, List.forall_mem_cons.mpr ⟨hown, ho⟩, hr⟩
    · -- What lies below a loop of a caller belongs to callers too.
      have hlt : first.depth < context.depth := by
        have := howned first (List.mem_cons_self ..)
        omega
      exact ⟨[], first :: loops, rfl, fun _ hm => absurd hm List.not_mem_nil,
        List.forall_mem_cons.mpr ⟨hlt, fun loop hm => Nat.lt_of_le_of_lt (hfirst loop hm) hlt⟩⟩

/-- Loops on the top that belong to the innermost frame are cut off when it ends, and no others. -/
theorem filter_segments {own rest : List LoopContext} {depth : Nat}
    (ho : ∀ loop ∈ own, loop.depth = depth + 1)
    (hr : ∀ loop ∈ rest, loop.depth < depth + 1) : (own ++ rest).filter (·.depth ≤ depth) = rest :=
  filter_above (fun loop hm => Nat.le_of_lt_succ (hr loop hm)) fun loop hm => by rw [ho loop hm]; omega

/-- What is left when loops are taken from the top is ordered, if no frame is gone that it belongs to. -/
theorem LoopsOrdered.suffix (h : before.LoopsOrdered) (hs : after.loops <:+ before.loops)
    (howned : ∀ loop ∈ after.loops, loop.depth ≤ after.depth) : after.LoopsOrdered where
  ordered := h.ordered.sublist hs.sublist
  owned loop hm := ⟨(h.owned loop (hs.mem hm)).1, howned loop hm⟩
  distinct := h.distinct.suffix hs

theorem LoopsOrdered.changes (h : before.LoopsOrdered) (hc : Changes before after) :
    after.LoopsOrdered := by
  cases hc with
  | keeps depth loops =>
    refine h.suffix (loops ▸ List.suffix_rfl) fun loop hm => ?_
    rw [depth]
    exact (h.owned loop (loops ▸ hm)).2
  | @enters recheck exit active outside depth loops =>
    obtain ⟨hordered, howned, hdistinct⟩ := h
    refine ⟨?_, ?_, ?_⟩
    · rw [loops, List.pairwise_cons]
      exact ⟨fun loop hm => (howned loop hm).2, hordered⟩
    · rw [loops, depth]
      exact List.forall_mem_cons.mpr ⟨⟨active, Nat.le_refl _⟩, howned⟩
    · rw [loops, List.isChain_cons]
      refine ⟨fun top htop heq => ?_, hdistinct⟩
      have hinside : before.isInLoop recheck = true := by
        obtain ⟨rest, hrest⟩ := List.head?_eq_some_iff.mp htop
        rw [isInLoop, currentLoop?_eq_some.mpr ⟨rest, hrest, heq.1.symm⟩]
        exact beq_iff_eq.mpr heq.2.symm
      exact Bool.false_ne_true (outside.symm.trans hinside)
  | @leaves loop own depth loops =>
    refine h.suffix ⟨[loop], loops.symm⟩ fun other hm => ?_
    rw [depth]
    exact (h.owned other (loops ▸ List.mem_cons_of_mem loop hm)).2
  | calls depth loops =>
    refine h.suffix (loops ▸ List.suffix_rfl) fun loop hm => ?_
    have := (h.owned loop (loops ▸ hm)).2
    omega
  | finishes depth loops =>
    obtain ⟨own, rest, hsplit, ho, hr⟩ := h.segments
    rw [depth] at ho hr
    rw [hsplit, filter_segments ho hr] at loops
    exact h.suffix ⟨own, by rw [hsplit, loops]⟩ fun loop hm => Nat.le_of_lt_succ (hr loop (loops ▸ hm))

/-- Whatever is done, the loops of the callers stay where they are. -/
theorem Changes.keeps_below (hc : Changes before after) {own rest : List LoopContext}
    (hsplit : before.loops = own ++ rest) (ho : ∀ loop ∈ own, loop.depth = before.depth)
    (hr : ∀ loop ∈ rest, loop.depth < before.depth) : rest <:+ after.loops := by
  cases hc with
  | keeps depth loops => exact ⟨own, (loops.trans hsplit).symm⟩
  | enters active outside depth loops => exact ⟨_ :: own, by rw [loops, hsplit, List.cons_append]⟩
  | @leaves loop hown depth loops =>
    cases own with
    | nil =>
      -- A loop of a caller cannot be left.
      have hm : loop ∈ rest := by
        rw [List.nil_append] at hsplit
        rw [← hsplit, loops]
        exact List.mem_cons_self ..
      exact absurd hown (Nat.ne_of_lt (hr loop hm))
    | cons first own =>
      rw [loops, List.cons_append, List.cons.injEq] at hsplit
      exact ⟨own, hsplit.2.symm⟩
  | calls depth loops => exact ⟨own, (loops.trans hsplit).symm⟩
  | finishes depth loops =>
    rw [depth] at ho hr
    rw [hsplit, filter_segments ho hr] at loops
    exact loops ▸ List.suffix_rfl

theorem loopsOrdered_start (entry : Script) (locals : Dictionary Value) (timers : Dictionary Timer) :
    ((Context.start entry locals).withTimers timers).LoopsOrdered :=
  ⟨.nil, fun _ hm => absurd hm List.not_mem_nil, .nil⟩

theorem LoopsOrdered.applyAll (h : context.LoopsOrdered) (operations : List ContextOperation) :
    (context.applyAll operations).LoopsOrdered := by
  induction operations generalizing context with
  | nil => exact h
  | cons operation operations ih => exact ih (h.changes (changes_apply operation context))

/-- The end of a frame removes its loops from the top, and no others. -/
theorem LoopsOrdered.finishFrame (h : context.LoopsOrdered) {own rest : List LoopContext}
    (hsplit : context.loops = own ++ rest) (ho : ∀ loop ∈ own, loop.depth = context.depth)
    (hr : ∀ loop ∈ rest, loop.depth < context.depth) : context.finishFrame.2.loops = rest := by
  cases hframes : context.frames with
  | nil =>
    have hnone := h.loops_eq_nil hframes
    rw [finishFrame_idle hframes, hnone]
    rw [hsplit] at hnone
    exact (List.append_eq_nil_iff.mp hnone).2.symm
  | cons frame callers =>
    have hdepth : context.depth = callers.length + 1 := congrArg List.length hframes
    rw [hdepth] at ho hr
    rw [(finishFrame_active hframes).2, hsplit, filter_segments ho hr]

/-- The loops stay ordered by frame under any operations. Whatever is done to a context from the start of a
script on, and whether it fails or not, the depths of the loops do not decrease from the bottom of the stack
to its top, each lies between one and the number of frames, so that there are no loops without a frame, and
two loops that lie on each other differ in their depth or their beginning. So the stack divides into the
loops of the innermost frame, on top, and those of the frames below it: the end of the frame removes exactly
the former, and nothing that is done next removes or changes one of the latter. -/
theorem loops_stay_ordered_by_frame (entry : Script) (locals : Dictionary Value)
    (timers : Dictionary Timer) (operations : List ContextOperation) :
    let context := ((Context.start entry locals).withTimers timers).applyAll operations
    context.loops.Pairwise (fun inner outer => outer.depth ≤ inner.depth) ∧
    (∀ loop ∈ context.loops, 1 ≤ loop.depth ∧ loop.depth ≤ context.frames.length) ∧
    (context.frames = [] → context.loops = []) ∧
    context.loops.IsChain (fun inner outer =>
      ¬ (inner.depth = outer.depth ∧ inner.recheck = outer.recheck)) ∧
    ∃ own below, context.loops = own ++ below ∧
      (∀ loop ∈ own, loop.depth = context.frames.length) ∧
      (∀ loop ∈ below, loop.depth < context.frames.length) ∧
      context.finishFrame.2.loops = below ∧
      ∀ operation : ContextOperation, below <:+ (operation.apply context).loops := by
  intro context
  have h : context.LoopsOrdered := (loopsOrdered_start entry locals timers).applyAll operations
  obtain ⟨own, below, hsplit, ho, hb⟩ := h.segments
  exact ⟨h.ordered, h.owned, h.loops_eq_nil, h.distinct, own, below, hsplit, ho, hb,
    h.finishFrame hsplit ho hb, fun operation => (changes_apply operation context).keeps_below hsplit ho hb⟩

/-- A frame that does not know where to go on fails to end, and takes its loop with it all the same. -/
example (script : Script) (resume : ResumePoint) :
    ((Context.start script .empty).applyAll
      [.enterLoop 0 3, .pushFrame script .empty resume, .enterLoop 0 3, .enterLoop 0 3,
        .updateFrame fun frame => { frame with resume := none }, .finishFrame]).loops = [⟨0, 3, 1⟩] := rfl

end Context

end ScriptEngine
