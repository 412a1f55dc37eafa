import ScriptEngine.Proofs.Machine.Moves

/-!
# Calls and their callers

A call touches its caller only through the result. `Beneath` describes the states between the start
of a call and its end: the frames and loops of the call lie on top of those that were there when it
started. A step either keeps this (`Beneath.step`) or ends the call (`Beneath.finish`), which gives
`call_touches_caller_only_through_result` for whole calls with all the calls they make.

That no loop is owned above the innermost frame (`Engine.Reachable.owned`) is what keeps the loops of
the caller apart from those of the callee.
-/

namespace ScriptEngine

variable {machine : Machine} {frame : Frame} {callers frames' : List Frame}
  {loops loops' : List LoopContext}

/-- The changes of the loops that a frame makes while it stays the innermost one. -/
inductive LoopsChange (depth : Nat) : List LoopContext → List LoopContext → Prop
  | same (loops : List LoopContext) : LoopsChange depth loops loops
  | entered {loops : List LoopContext} {loop : LoopContext} (owned : loop.depth = depth) :
      LoopsChange depth loops (loop :: loops)
  | left {loops : List LoopContext} {loop : LoopContext} (owned : loop.depth = depth) :
      LoopsChange depth (loop :: loops) loops

/-- A move changes the innermost frame and its loops, or starts a call, or ends one. -/
theorem Move.cases_on_depth (h : Move machine frame callers loops frames' loops') :
    (∃ frame', frames' = frame' :: callers ∧ frame'.resume = frame.resume ∧
      LoopsChange (callers.length + 1) loops loops') ∨
    (∃ callee use expected, frames' = callee :: frame :: callers ∧ loops' = loops ∧
      frame.operation? = some (.command use) ∧
      callee.resume = some ⟨frame.ip + 1, use.result, expected⟩) ∨
    (∃ caller others resume value, callers = caller :: others ∧ frame.resume = some resume ∧
      frames' = caller.deliver resume value :: others ∧
      loops' = loops.filter (·.depth ≤ callers.length)) := by
  cases h with
  | next locals => exact .inl ⟨_, rfl, rfl, .same _⟩
  | jump => exact .inl ⟨_, rfl, rfl, .same _⟩
  | enterLoop => exact .inl ⟨_, rfl, rfl, .entered rfl⟩
  | repeatLoop => exact .inl ⟨_, rfl, rfl, .same _⟩
  | skipLoop => exact .inl ⟨_, rfl, rfl, .same _⟩
  | leaveLoop stands split owned =>
    subst split
    exact .inl ⟨_, rfl, rfl, .left owned⟩
  | endLoop => exact .inl ⟨_, rfl, rfl, .same _⟩
  | breakLoop stands split owned =>
    subst split
    exact .inl ⟨_, rfl, rfl, .left owned⟩
  | continueLoop => exact .inl ⟨_, rfl, rfl, .same _⟩
  | call locals expected stands => exact .inr (.inl ⟨_, _, expected, rfl, rfl, stands, rfl⟩)
  | finish value called resumes =>
    exact .inr (.inr ⟨_, _, _, value, called, resumes, rfl, rfl⟩)

/-- Every loop belongs to one of the frames. -/
def Context.LoopsOwned (context : Context) : Prop :=
  ∀ loop ∈ context.loops, loop.depth ≤ context.frames.length

theorem LoopsChange.le {depth : Nat} (h : LoopsChange depth loops loops')
    (hl : ∀ loop ∈ loops, loop.depth ≤ depth) : ∀ loop ∈ loops', loop.depth ≤ depth := by
  cases h with
  | same => exact hl
  | entered owned =>
    intro loop hm
    rcases List.mem_cons.mp hm with rfl | hm
    · exact Nat.le_of_eq owned
    · exact hl loop hm
  | left => exact fun loop hm => hl loop (List.mem_cons_of_mem _ hm)

theorem Machine.Goes.owned {before after : State} (h : machine.Goes before after)
    (ho : before.context.LoopsOwned) : after.context.LoopsOwned := by
  obtain ⟨frame, callers, hf⟩ := h.frames
  have hl : ∀ loop ∈ before.context.loops, loop.depth ≤ callers.length + 1 := by
    simpa [Context.LoopsOwned, hf] using ho
  intro loop hm
  rcases (h.move hf).cases_on_depth with ⟨frame', hf', -, hc⟩ |
      ⟨callee, use, expected, hf', hl', -⟩ | ⟨caller, others, resume, value, hcs, -, hf', hl'⟩
  · rw [hf', List.length_cons]
    exact hc.le hl loop hm
  · rw [hf', List.length_cons, List.length_cons]
    have := hl loop (hl' ▸ hm)
    omega
  · rw [hl', List.mem_filter] at hm
    simpa [hf', hcs] using hm.2

/-- In every state of a run the loops belong to the frames. -/
theorem Engine.Reachable.owned {engine : Engine} {state : State} (h : engine.Reachable state) :
    state.context.LoopsOwned :=
  h.keeps (fun _ _ _ _ _ _ _ hm => absurd hm List.not_mem_nil) fun _ _ ho hg => hg.owned ho

/-! ## States during a call -/

/-- A state during the call of a frame: below the callee lie the frames and the loops that were
there when the call started, and the callee knows where the caller goes on. -/
def Beneath (caller : Frame) (callers : List Frame) (loops : List LoopContext)
    (resume : ResumePoint) (state : State) : Prop :=
  ∃ inner callee own, state.context.frames = inner ++ callee :: caller :: callers ∧
    callee.resume = some resume ∧ state.context.loops = own ++ loops ∧
    ∀ loop ∈ own, (caller :: callers).length < loop.depth

variable {caller : Frame} {resume : ResumePoint} {before after : State}

/-- The loops that an inner frame enters and leaves lie above those of the caller. -/
theorem LoopsChange.above {depth floor : Nat} {own : List LoopContext}
    (h : LoopsChange depth (own ++ loops) loops') (hd : floor < depth)
    (hl : ∀ loop ∈ loops, loop.depth ≤ floor) (ho : ∀ loop ∈ own, floor < loop.depth) :
    ∃ own', loops' = own' ++ loops ∧ ∀ loop ∈ own', floor < loop.depth := by
  generalize hs : own ++ loops = stack at h
  cases h with
  | same => exact ⟨own, hs.symm, ho⟩
  | @entered _ loop owned =>
    refine ⟨loop :: own, by rw [← hs, List.cons_append], fun l hm => ?_⟩
    rcases List.mem_cons.mp hm with rfl | hm
    · omega
    · exact ho l hm
  | @left _ loop owned =>
    cases own with
    | nil =>
      -- The loop that is left would be one of the caller's.
      have := hl loop (by simp [show loops = loop :: loops' from hs])
      omega
    | cons first rest =>
      simp only [List.cons_append, List.cons.injEq] at hs
      exact ⟨rest, hs.2.symm, fun l hm => ho l (List.mem_cons_of_mem _ hm)⟩

/-- A step after which the callee is still there. -/
theorem Beneath.step (h : Beneath caller callers loops resume before)
    (hl : ∀ loop ∈ loops, loop.depth ≤ (caller :: callers).length)
    (hg : machine.Goes before after)
    (hd : (caller :: callers).length < after.context.frames.length) :
    Beneath caller callers loops resume after := by
  obtain ⟨inner, callee, own, hf, hr, hs, ho⟩ := h
  cases inner with
  | nil =>
    rcases (hg.move hf).cases_on_depth with ⟨callee', hf', hr', hc⟩ |
        ⟨next, use, expected, hf', hs', -⟩ | ⟨_, _, _, _, hcs, -, hf', -⟩
    · rw [hs] at hc
      obtain ⟨own', hs', ho'⟩ := hc.above (Nat.lt_succ_self _) hl ho
      exact ⟨[], callee', own', hf', hr'.trans hr, hs', ho'⟩
    · exact ⟨[next], callee, own, hf', hr, hs'.trans hs, ho⟩
    · rw [hcs, hf'] at hd
      simp at hd
  | cons frame inner =>
    rw [List.cons_append] at hf
    rcases (hg.move hf).cases_on_depth with ⟨frame', hf', -, hc⟩ |
        ⟨next, use, expected, hf', hs', -⟩ | ⟨under, others, back, value, hcs, -, hf', hs'⟩
    · rw [hs] at hc
      obtain ⟨own', hs', ho'⟩ := hc.above (by simp; omega) hl ho
      exact ⟨frame' :: inner, callee, own', hf', hr, hs', ho'⟩
    · exact ⟨next :: frame :: inner, callee, own, hf', hr, hs'.trans hs, ho⟩
    · -- A frame above the callee ends, which may be one that the callee called itself.
      rw [hs, filter_keeps own hl (by simp; omega)] at hs'
      have ho' : ∀ loop ∈ own.filter (·.depth ≤ (inner ++ callee :: caller :: callers).length),
          (caller :: callers).length < loop.depth :=
        fun loop hm => ho loop (List.mem_filter.mp hm).1
      cases inner with
      | nil =>
        obtain ⟨rfl, rfl⟩ := List.cons.inj hcs
        exact ⟨[], callee.deliver back value, _, hf', hr, hs', ho'⟩
      | cons first inner =>
        obtain ⟨rfl, rfl⟩ := List.cons.inj hcs
        exact ⟨first.deliver back value :: inner, callee, _, hf', hr, hs', ho'⟩

/-- The callee is the innermost frame before a step after which it is no longer there. -/
theorem Beneath.innermost (h : Beneath caller callers loops resume before)
    (hg : machine.Goes before after)
    (hd : after.context.frames.length ≤ (caller :: callers).length) :
    ∃ callee, before.context.frames = callee :: caller :: callers ∧ callee.resume = some resume := by
  obtain ⟨inner, callee, own, hf, hr, -⟩ := h
  cases inner with
  | nil => exact ⟨callee, hf, hr⟩
  | cons frame inner =>
    -- A frame above the callee ends at most.
    exfalso
    rw [List.cons_append] at hf
    rcases (hg.move hf).cases_on_depth with ⟨_, hf', -⟩ | ⟨_, _, _, hf', -⟩ |
        ⟨_, _, _, _, hcs, -, hf', -⟩
    · rw [hf'] at hd
      simp only [List.length_cons, List.length_append] at hd
      omega
    · rw [hf'] at hd
      simp only [List.length_cons, List.length_append] at hd
      omega
    · have := congrArg List.length hcs
      rw [hf'] at hd
      simp only [List.length_append, List.length_cons] at this hd
      omega

/-- A step after which the callee is no longer there. -/
theorem Beneath.finish (h : Beneath caller callers loops resume before)
    (hl : ∀ loop ∈ loops, loop.depth ≤ (caller :: callers).length)
    (hg : machine.Goes before after)
    (hd : after.context.frames.length ≤ (caller :: callers).length) :
    ∃ value, after.context.frames = caller.deliver resume value :: callers ∧
      after.context.loops = loops := by
  obtain ⟨callee, hf, hr⟩ := h.innermost hg hd
  obtain ⟨-, -, own, -, -, hs, ho⟩ := h
  rcases (hg.move hf).cases_on_depth with ⟨_, hf', -⟩ | ⟨_, _, _, hf', -⟩ |
      ⟨_, _, _, value, hcs, hr', hf', hs'⟩
  · rw [hf'] at hd
    simp only [List.length_cons] at hd
    omega
  · rw [hf'] at hd
    simp only [List.length_cons] at hd
    omega
  · obtain ⟨rfl, rfl⟩ := List.cons.inj hcs
    rw [hr, Option.some.injEq] at hr'
    subst hr'
    exact ⟨value, hf', by rw [hs', hs, filter_above hl ho]⟩

/-- A step after which the run goes on with more than some number of frames. -/
def Machine.GoesAbove (machine : Machine) (floor : Nat) (before after : State) : Prop :=
  machine.Goes before after ∧ floor < after.context.depth

/-- The start of a call: the operation is a command, and everything stays below the callee. -/
theorem Machine.Goes.beneath (hg : machine.Goes before after)
    (hf : before.context.frames = caller :: callers)
    (hp : after.context.depth = before.context.depth + 1) :
    ∃ use expected, caller.operation? = some (.command use) ∧
      Beneath caller callers before.context.loops ⟨caller.ip + 1, use.result, expected⟩ after := by
  simp only [Context.depth, hf] at hp
  rcases (hg.move hf).cases_on_depth with ⟨_, hf', -⟩ | ⟨callee, use, expected, hf', hs, ho, hr⟩ |
      ⟨_, _, _, _, hcs, -, hf', -⟩
  · rw [hf'] at hp
    simp at hp
  · exact ⟨use, expected, ho, [], callee, [], hf', hr, hs, fun _ hm => absurd hm List.not_mem_nil⟩
  · rw [hf', hcs] at hp
    simp only [List.length_cons] at hp
    omega

/-- As long as the callee is there, all that was there before the call lies unchanged below it. -/
theorem Beneath.reaches {later : State} (h : Beneath caller callers loops resume before)
    (hl : ∀ loop ∈ loops, loop.depth ≤ (caller :: callers).length)
    (hr : Relation.ReflTransGen (machine.GoesAbove (caller :: callers).length) before later) :
    Beneath caller callers loops resume later := by
  induction hr with
  | refl => exact h
  | tail _ hg ih => exact ih.step hl hg.1 hg.2

/-- A call touches its caller only through the result. In every state from the start of a call up
to its end the frames of the caller and of its callers, and their loops, are those at the start. At
the end the caller goes on behind the call, with the result in the local that takes it, if there is
one, and no loop of the callee or of a script that it called is left. -/
theorem call_touches_caller_only_through_result {engine : Engine} {called started : State}
    {caller : Frame} {callers : List Frame} (hreach : engine.Reachable called)
    (hframes : called.context.frames = caller :: callers)
    (hcall : engine.machine.Goes called started)
    (hpushed : started.context.depth = called.context.depth + 1) :
    ∃ use, caller.operation? = some (.command use) ∧
      ∀ later, Relation.ReflTransGen (engine.machine.GoesAbove called.context.depth)
          started later →
        (∃ inner, inner ≠ [] ∧ later.context.frames = inner ++ caller :: callers) ∧
        later.context.loops.filter (·.depth ≤ called.context.depth) = called.context.loops ∧
        ∀ after, engine.machine.Goes later after → after.context.depth ≤ called.context.depth →
          after.context.loops = called.context.loops ∧
          ∃ value, after.context.frames =
            { caller with
              ip := caller.ip + 1
              locals := match use.result with
                | some slot => caller.locals.insert slot value
                | none => caller.locals } :: callers := by
  have hdepth : called.context.depth = (caller :: callers).length := by
    rw [Context.depth, hframes]
  have hl : ∀ loop ∈ called.context.loops, loop.depth ≤ (caller :: callers).length := by
    simpa only [Context.LoopsOwned, hframes] using hreach.owned
  obtain ⟨use, expected, hu, hb⟩ := hcall.beneath hframes hpushed
  rw [hdepth]
  refine ⟨use, hu, fun later hlater => ?_⟩
  have hb' := hb.reaches hl hlater
  refine ⟨?_, ?_, fun after hg hd => ?_⟩
  · obtain ⟨inner, callee, -, hf, -⟩ := hb'
    exact ⟨inner ++ [callee], by simp, by rw [hf, List.append_assoc]; rfl⟩
  · obtain ⟨-, -, own, -, -, hs, ho⟩ := hb'
    rw [hs, filter_above hl ho]
  · obtain ⟨value, hf, hs⟩ := hb'.finish hl hg hd
    exact ⟨hs, value.coerce expected, hf⟩

/-- An engine with a script that calls another one inside a loop. -/
def relay : Engine where
  machine :=
    { commands := .general
      scripts := .ofList
        [("main", ⟨"main", "main.script.xml", [], .multi,
          [⟨.loopStart "on" 3, .atLine 1⟩, ⟨.command ⟨"Call", ["sub"], some "x", none⟩, .atLine 2⟩,
            ⟨.loopEnd 0, .atLine 3⟩]⟩),
          ("sub", ⟨"sub", "sub.script.xml", [], .multi, [⟨.loopStart "on" 2, .atLine 1⟩,
            ⟨.loopEnd 0, .atLine 2⟩]⟩)]
      evaluate := fun expression _ => .ok (.string expression) }
  stepLimit := 10

/-- The state of `relay` at its start. -/
def relayStart : State :=
  ⟨Context.start ((relay.machine.scripts.get? "main").getD ⟨"", "", [], .multi, []⟩) .empty, {}⟩

theorem call_touches_caller_relay :
    let called := (relay.machine.step relayStart).2
    let started := (relay.machine.step called).2
    relay.Reachable called ∧ relay.machine.Goes called started ∧
      called.context.loops = [⟨0, 3, 1⟩] ∧ started.context.depth = 2 ∧
      ∃ caller use, called.context.frames = [caller] ∧ caller.operation? = some (.command use) ∧
        ∀ later, Relation.ReflTransGen (relay.machine.GoesAbove called.context.depth)
            started later →
          (∃ inner, inner ≠ [] ∧ later.context.frames = inner ++ [caller]) ∧
          later.context.loops.filter (·.depth ≤ called.context.depth) = called.context.loops ∧
          ∀ after, relay.machine.Goes later after → after.context.depth ≤ called.context.depth →
            after.context.loops = called.context.loops ∧
            ∃ value, after.context.frames =
              [{ caller with
                ip := caller.ip + 1
                locals := match use.result with
                  | some slot => caller.locals.insert slot value
                  | none => caller.locals }] := by
  intro called started
  have hp : relay.prepare "main" [] = .ok relayStart.context := rfl
  have h₁ : (relay.machine.step relayStart).1 = .running none := by decide +kernel
  have h₂ : (relay.machine.step called).1 = .running none := by decide +kernel
  have hr : relay.Reachable called :=
    ⟨"main", [], relayStart.context, .empty, {}, hp, .single ⟨none, Prod.ext h₁ rfl⟩⟩
  have hg : relay.machine.Goes called started := ⟨none, Prod.ext h₂ rfl⟩
  have hd : started.context.depth = called.context.depth + 1 := by decide +kernel
  have hf : ∃ caller, called.context.frames = [caller] := by
    refine ⟨called.context.frames.headD ⟨⟨"", "", [], .multi, []⟩, 0, .empty, none, none⟩, ?_⟩
    decide +kernel
  obtain ⟨caller, hf⟩ := hf
  obtain ⟨use, hu, hk⟩ := call_touches_caller_only_through_result hr hf hg hd
  exact ⟨hr, hg, by decide +kernel, by decide +kernel, caller, use, hf, hu, hk⟩

end ScriptEngine
