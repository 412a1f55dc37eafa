import ScriptEngine.Proofs.Command.General
import ScriptEngine.Proofs.Machine.Events

/-!
# Contexts on top of other frames

A script that was called runs on top of the frame that called it, of the callers of that frame and of
their loops: a `Base`. `Base.lift` puts a context of its own on top of a base: the outermost frame goes
on in the base when it has ended, and every loop is owned that many frames higher up. The operations of
the machine commute with this, apart from the limit on the number of frames (`Base.startOf_lift`).
-/

namespace ScriptEngine

/-- What lies below a script that was called. -/
structure Base where
  /-- The name of the script that was started. -/
  identity : String
  /-- Where and how the caller goes on. -/
  resume : ResumePoint
  caller : Frame
  /-- The callers of the caller. -/
  others : List Frame
  loops : List LoopContext
  owned : ∀ loop ∈ loops, loop.depth ≤ (caller :: others).length

namespace Base

variable (base : Base)

/-- The number of frames. -/
def height : Nat :=
  (base.caller :: base.others).length

/-- Where a frame goes on that has these callers above the base. -/
def resumeOf (callers : List Frame) (resume : Option ResumePoint) : Option ResumePoint :=
  match callers with
  | [] => some base.resume
  | _ :: _ => resume

/-- Frames on top of those of the base. -/
def frames : List Frame → List Frame
  | [] => base.caller :: base.others
  | frame :: callers =>
    { frame with resume := base.resumeOf callers frame.resume } :: frames callers

/-- A loop of a frame on top of the base. -/
def raise (loop : LoopContext) : LoopContext :=
  { loop with depth := loop.depth + base.height }

/-- Loops on top of those of the base. -/
def stacked (loops : List LoopContext) : List LoopContext :=
  loops.map base.raise ++ base.loops

/-- A context on top of the base. -/
def lift (context : Context) : Context :=
  ⟨base.identity, base.frames context.frames, base.stacked context.loops, context.timers⟩

/-- A state on top of the base. -/
def liftState (state : State) : State :=
  ⟨base.lift state.context, state.world⟩

variable {identity : String} {frame : Frame} {callers : List Frame} {loops : List LoopContext}
  {timers : Dictionary Timer} {world : World} {machine : Machine}

theorem frames_length (callers : List Frame) :
    (base.frames callers).length = callers.length + base.height := by
  induction callers with
  | nil => exact (Nat.zero_add _).symm
  | cons frame callers ih => rw [frames, List.length_cons, List.length_cons, ih, Nat.add_right_comm]

theorem depth_le : ∀ loop ∈ base.loops, loop.depth ≤ base.height :=
  base.owned

/-- The innermost loop is a frame's own on top of the base if it is without the base. -/
theorem ownLoop?_stacked {depth : Nat} (hd : 0 < depth) (loops : List LoopContext) :
    ownLoop? (depth + base.height) (base.stacked loops) = (ownLoop? depth loops).map base.raise := by
  cases loops with
  | nil =>
    have hn : ownLoop? (depth + base.height) base.loops = none :=
      ownLoop?_eq_none fun loop hm => by
        have := base.depth_le loop hm
        omega
    exact hn
  | cons loop rest =>
    by_cases h : loop.depth = depth
    · have h' : (base.raise loop).depth = depth + base.height := congrArg (· + base.height) h
      rw [ownLoop?_cons h]
      exact ownLoop?_cons h'
    · have h' : ¬ (base.raise loop).depth = depth + base.height := fun h' =>
        h (Nat.add_right_cancel h')
      simp only [ownLoop?, stacked, List.map_cons, List.cons_append, List.head?_cons, Option.filter_some,
        beq_iff_eq, h, h', if_false, Option.map_none]

theorem filter_stacked (bound : Nat) (loops : List LoopContext) :
    (base.stacked loops).filter (·.depth ≤ bound + base.height) =
      base.stacked (loops.filter (·.depth ≤ bound)) := by
  have hl : (loops.map base.raise).filter (·.depth ≤ bound + base.height) =
      (loops.filter (·.depth ≤ bound)).map base.raise := by
    rw [List.filter_map]
    refine congrArg _ (List.filter_congr fun loop _ => ?_)
    simp only [Function.comp_apply, raise, Nat.add_le_add_iff_right]
  rw [stacked, filter_keeps _ base.depth_le (Nat.le_add_left ..), hl, stacked]

/-! ## Instructions other than commands -/

theorem assign_lift (target expression : String) :
    machine.assign target expression (base.lift ⟨identity, frame :: callers, loops, timers⟩) =
      (machine.assign target expression ⟨identity, frame :: callers, loops, timers⟩).map base.lift := by
  rw [Machine.assign_eq, lift, frames, Machine.assign_eq]
  cases machine.evaluate expression frame.locals <;> rfl

theorem branch_lift (condition : String) (otherwise : Nat) :
    machine.branch condition otherwise (base.lift ⟨identity, frame :: callers, loops, timers⟩) =
      (machine.branch condition otherwise ⟨identity, frame :: callers, loops, timers⟩).map
        base.lift := by
  rw [Machine.branch_eq, lift, frames, Machine.branch_eq]
  cases machine.evaluate condition frame.locals <;> rfl

theorem setIp_lift (target : Nat) :
    (base.lift ⟨identity, frame :: callers, loops, timers⟩).setIp target =
      ((⟨identity, frame :: callers, loops, timers⟩ : Context).setIp target).map base.lift := rfl

theorem store_lift (slot : Option String) (value : Value) :
    Machine.store slot value (base.lift ⟨identity, frame :: callers, loops, timers⟩) =
      (Machine.store slot value ⟨identity, frame :: callers, loops, timers⟩).map base.lift := by
  rw [Machine.store_eq, lift, frames, Machine.store_eq]
  rfl

/-- The innermost loop of a frame on top of the base. -/
theorem ownLoop?_lift (callers : List Frame) (loops : List LoopContext) :
    ownLoop? ((base.frames callers).length + 1) (base.stacked loops) =
      (ownLoop? (callers.length + 1) loops).map base.raise := by
  rw [frames_length, Nat.add_right_comm]
  exact base.ownLoop?_stacked (Nat.succ_pos _) loops

theorem raise_depth {loop : LoopContext} (h : loop.depth = callers.length + 1) :
    (base.raise loop).depth = (base.frames callers).length + 1 := by
  rw [frames_length, Nat.add_right_comm, ← h]
  rfl

theorem loopStart_lift (condition : String) (exit : Nat) :
    machine.loopStart condition exit (base.lift ⟨identity, frame :: callers, loops, timers⟩) =
      (machine.loopStart condition exit ⟨identity, frame :: callers, loops, timers⟩).map
        base.lift := by
  have hin : inOwnLoop ((base.frames callers).length + 1) frame.ip (base.stacked loops) =
      inOwnLoop (callers.length + 1) frame.ip loops := by
    rw [inOwnLoop, ownLoop?_lift, Option.any_map]
    rfl
  cases hv : machine.evaluate condition frame.locals with
  | error cause =>
    rw [Machine.loopStart_error machine hv]
    exact Machine.loopStart_error machine hv
  | ok value =>
    cases ht : value.isTruthy with
    | true =>
      cases hl : inOwnLoop (callers.length + 1) frame.ip loops with
      | true =>
        rw [Machine.loopStart_repeat machine hv ht hl]
        exact Machine.loopStart_repeat machine hv ht (hin.trans hl)
      | false =>
        rw [Machine.loopStart_enter machine hv ht hl]
        have he : machine.loopStart condition exit
            (base.lift ⟨identity, frame :: callers, loops, timers⟩) =
            .ok ⟨base.identity, { frame with
                ip := frame.ip + 1
                resume := base.resumeOf callers frame.resume } :: base.frames callers,
              ⟨frame.ip, exit, (base.frames callers).length + 1⟩ :: base.stacked loops, timers⟩ :=
          Machine.loopStart_enter machine hv ht (hin.trans hl)
        rw [he, frames_length, Nat.add_right_comm]
        rfl
    | false =>
      cases hl : inOwnLoop (callers.length + 1) frame.ip loops with
      | true =>
        obtain ⟨loop, outer, rfl, hd, hr⟩ := inOwnLoop_iff.mp hl
        rw [Machine.loopStart_leave machine hv ht hd hr]
        exact Machine.loopStart_leave machine hv ht (base.raise_depth hd) hr
      | false =>
        rw [Machine.loopStart_skip machine hv ht hl]
        exact Machine.loopStart_skip machine hv ht (hin.trans hl)

theorem perform_breakLoop_lift (site : CallSite) (now : Nat) :
    machine.perform site now .breakLoop
        (base.liftState ⟨⟨identity, frame :: callers, loops, timers⟩, world⟩) =
      Prod.map id base.liftState (machine.perform site now .breakLoop
        ⟨⟨identity, frame :: callers, loops, timers⟩, world⟩) := by
  have ho := base.ownLoop?_lift callers loops
  rw [liftState, lift, frames, Machine.perform_breakLoop, Machine.perform_breakLoop, ho]
  cases h : ownLoop? (callers.length + 1) loops with
  | none => rfl
  | some loop =>
    obtain ⟨outer, rfl, -⟩ := ownLoop?_eq_some.mp h
    rfl

theorem continueLoop_lift :
    (base.lift ⟨identity, frame :: callers, loops, timers⟩).continueLoop =
      (⟨identity, frame :: callers, loops, timers⟩ : Context).continueLoop.map base.lift := by
  have ho := base.ownLoop?_lift callers loops
  cases h : ownLoop? (callers.length + 1) loops with
  | none =>
    rw [h] at ho
    rw [Context.continueLoop_outside h]
    exact Context.continueLoop_outside ho
  | some loop =>
    obtain ⟨outer, rfl, hd⟩ := ownLoop?_eq_some.mp h
    rw [Context.continueLoop_own hd]
    exact Context.continueLoop_own (base.raise_depth hd)

/-- A call starts on top of the base as it does without it, unless the number of frames is limited. -/
theorem startOf_lift (machine : Machine) (site : CallSite) (target : String) (arguments : List Value)
    (depth : Nat) :
    (∃ value, machine.startOf site target arguments (depth + base.height) =
      .inl (value, .tooDeep target machine.depthLimit)) ∨
    machine.startOf site target arguments (depth + base.height) =
      machine.startOf site target arguments depth := by
  unfold Machine.startOf
  cases machine.scripts.get? target with
  | none => exact .inr rfl
  | some script =>
    by_cases h : machine.depthLimit ≤ depth + base.height
    · simp only [h, if_true]
      exact .inl ⟨_, rfl⟩
    · have h' : ¬ machine.depthLimit ≤ depth := fun h' => h (Nat.le_add_right_of_le h')
      refine .inr ?_
      simp only [h, h', if_false]

end Base

end ScriptEngine
