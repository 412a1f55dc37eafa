import ScriptEngine.Proofs.Machine.Moves

/-!
# What can be seen of a run

A run evaluates expressions, dispatches commands, writes messages and updates timers. `Machine.observe`
lists the events of the next step, `Machine.trace` those of a run up to a number of steps.
`Machine.Takes` relates two states between which a run takes a number of steps, together with the
log of events and degraded results. `Machine.runWithin_takes` and its companions say how a run ends that
starts with such steps.
-/

namespace ScriptEngine

/-- Something that can be seen of a run. -/
inductive Event
  | evaluated (expression : String) (locals : Dictionary Value)
  | dispatched (command : String) (arguments : List Value)
  | printed (message : String)
  | ticked (script : String) (timer : Timer)
  deriving DecidableEq, Repr

/-- The time since a script last asked for it and its timer afterwards. -/
def tickOf (timers : Dictionary Timer) (script : String) (now : Nat) : Nat × Timer :=
  ((timers.get? script).getD {}).tick now

/-- The events of what a command asks for, apart from those of a call. -/
def Action.events (action : Action) (script : String) (timers : Dictionary Timer) (now : Nat) :
    List Event :=
  match action with
  | .print message => [.printed message]
  | .secondsPassed => [.ticked script (tickOf timers script now).2]
  | _ => []

namespace Machine

variable (machine : Machine)

/-- The evaluations of arguments in order, up to the first one that fails. -/
def evaluations (locals : Dictionary Value) : List String → List Event
  | [] => []
  | expression :: rest =>
    .evaluated expression locals ::
      match machine.evaluate expression locals with
      | .ok _ => evaluations locals rest
      | .error _ => []

/-- The events of a command that is used in a frame. -/
def commandEvents (identity : String) (frame : Frame) (timers : Dictionary Timer) (world : World)
    (use : CommandUse) : List Event :=
  machine.evaluations frame.locals use.arguments ++
    match use.arguments.mapM (machine.evaluate · frame.locals) with
    | .error _ => []
    | .ok arguments =>
      .dispatched use.name arguments ::
        match machine.commands.request identity use.name arguments world with
        | (.error _, _) => []
        | (.ok action, _) => action.events frame.script.name timers world.readClock.1

/-- The events of an operation in a frame. -/
def operationEvents (identity : String) (frame : Frame) (timers : Dictionary Timer) (world : World) :
    Operation → List Event
  | .assign _ expression => [.evaluated expression frame.locals]
  | .branch condition _ | .loopStart condition _ => [.evaluated condition frame.locals]
  | .command use => machine.commandEvents identity frame timers world use
  | .jump _ | .loopEnd _ => []

/-- The events of the next step. -/
def observe (state : State) : List Event :=
  match state.context.frames with
  | [] => []
  | frame :: _ =>
    match frame.operation? with
    | none => []
    | some operation =>
      machine.operationEvents state.context.identity frame state.context.timers state.world operation

/-- The events of a run up to a number of steps. -/
def trace : Nat → State → List Event
  | 0, _ => []
  | limit + 1, state =>
    machine.observe state ++
      match machine.step state with
      | (.running _, after) => trace limit after
      | _ => []

end Machine

/-- The events of a run of a script. -/
def Engine.trace (engine : Engine) (name : String) (arguments : List Value) (world : World) :
    List Event :=
  match engine.prepare name arguments with
  | .error _ => []
  | .ok context => engine.machine.trace engine.stepLimit ⟨context, world⟩

/-! ## Steps with what is seen of them -/

/-- What was seen of a run so far: events, and results that were replaced by zero values, both in the
order of execution. -/
structure Log where
  events : List Event := []
  degraded : List Fault := []

/-- A log with what was seen of one more step. -/
def Log.add (log : Log) (events : List Event) (degraded : Option Fault) : Log :=
  ⟨log.events ++ events, log.degraded ++ degraded.toList⟩

theorem Log.add_nil (log : Log) : log.add [] none = log := by
  simp [add]

theorem Log.add_add (log : Log) (events events' : List Event) (degraded : Option Fault) :
    (log.add events none).add events' degraded = log.add (events ++ events') degraded := by
  simp [add]

/-- A number of steps after all of which the run goes on, and what was seen before and after them. -/
inductive Machine.Takes (machine : Machine) : Nat → State × Log → State × Log → Prop
  | stay {here : State × Log} : Takes machine 0 here here
  | step {steps : Nat} {before after : State} {log : Log} {last : State × Log}
      {degraded : Option Fault} (goes : machine.step before = (.running degraded, after))
      (rest : Takes machine steps (after, log.add (machine.observe before) degraded) last) :
      Takes machine (steps + 1) (before, log) last

namespace Machine.Takes

variable {machine : Machine} {first next last : State × Log} {steps more : Nat}

theorem single {before after : State} {log : Log} {degraded : Option Fault}
    (goes : machine.step before = (.running degraded, after)) :
    machine.Takes 1 (before, log) (after, log.add (machine.observe before) degraded) :=
  .step goes .stay

theorem trans (h : machine.Takes steps first next) (h' : machine.Takes more next last) :
    machine.Takes (steps + more) first last := by
  induction h with
  | stay => rwa [Nat.zero_add]
  | step goes _ ih => rw [Nat.add_right_comm]; exact .step goes (ih h')

theorem split (h : machine.Takes (steps + more) first last) :
    ∃ next, machine.Takes steps first next ∧ machine.Takes more next last := by
  induction steps generalizing first with
  | zero => rw [Nat.zero_add] at h; exact ⟨first, .stay, h⟩
  | succ steps ih =>
    rw [Nat.add_right_comm] at h
    cases h with
    | step goes rest =>
      obtain ⟨next, h₁, h₂⟩ := ih rest
      exact ⟨next, .step goes h₁, h₂⟩

/-- The run that is under way after some steps. -/
theorem runWithin (h : machine.Takes steps first last) {run : Run} (hs : run.state = first.1)
    (hd : run.degraded.reverse = first.2.degraded) (limit remaining : Nat) :
    ∃ run', run'.state = last.1 ∧ run'.steps = run.steps + steps ∧
      run'.degraded.reverse = last.2.degraded ∧
      machine.runWithin limit (steps + remaining) run =
        machine.runWithin limit remaining run' := by
  induction h generalizing run with
  | stay => exact ⟨run, hs, rfl, hd, by rw [Nat.zero_add]⟩
  | @step steps before after log last degraded goes _ ih =>
    have ha : machine.advance run =
        .inl ⟨after, run.steps + 1, degraded.toList ++ run.degraded⟩ := by
      simp only [advance, hs, goes]
    have hd' : (degraded.toList ++ run.degraded).reverse =
        (log.add (machine.observe before) degraded).degraded := by
      rw [List.reverse_append, hd]
      cases degraded <;> rfl
    obtain ⟨run', hs', hn', hd'', hr⟩ :=
      @ih ⟨after, run.steps + 1, degraded.toList ++ run.degraded⟩ rfl hd'
    refine ⟨run', hs', by simp only at hn'; omega, hd'', ?_⟩
    rw [← hr, Nat.add_right_comm, Machine.runWithin, ha]

theorem trace (h : machine.Takes steps first last) (remaining : Nat) :
    first.2.events ++ machine.trace (steps + remaining) first.1 =
      last.2.events ++ machine.trace remaining last.1 := by
  induction h with
  | stay => rw [Nat.zero_add]
  | step goes _ ih =>
    rw [Nat.add_right_comm, Machine.trace, goes, ← ih, Log.add, List.append_assoc]

variable {state : State} {log : Log} {limit : Nat}

/-- A run that is under way after some of its steps. -/
theorem run (h : machine.Takes steps (state, {}) last) (remaining : Nat) :
    ∃ run', run'.state = last.1 ∧ run'.steps = steps ∧ run'.degraded.reverse = last.2.degraded ∧
      machine.run (steps + remaining) state =
        machine.runWithin (steps + remaining) remaining run' := by
  obtain ⟨run', hs, hn, hd, hr⟩ :=
    @runWithin _ _ _ _ h ⟨state, 0, []⟩ rfl rfl (steps + remaining) remaining
  exact ⟨run', hs, by rw [hn, Nat.zero_add], hd, hr⟩

/-- A run that goes on after as many steps as are allowed is cut off. -/
theorem cut (h : machine.Takes limit (state, {}) last) :
    machine.run limit state = (.error ⟨.stepLimit last.1.context.identity limit, none⟩, last.1) := by
  obtain ⟨run', hs, -, -, hr⟩ := h.run 0
  rw [Nat.add_zero] at hr
  rw [hr, Machine.runWithin, Run.overrun, hs]

theorem overrun (h : machine.Takes steps (state, {}) last) (hl : limit ≤ steps) :
    ∃ identity, (machine.run limit state).1 = .error ⟨.stepLimit identity limit, .none⟩ := by
  obtain ⟨more, rfl⟩ := Nat.exists_eq_add_of_le hl
  obtain ⟨next, h, -⟩ := h.split
  exact ⟨_, congrArg Prod.fst h.cut⟩

variable {final : State}

theorem finished {value : Value} (h : machine.Takes steps (state, {}) last)
    (hs : machine.step last.1 = (.finished value, final)) (hl : steps < limit) :
    machine.run limit state = (.ok ⟨value, steps + 1, last.2.degraded⟩, final) := by
  obtain ⟨more, rfl⟩ := Nat.exists_eq_add_of_le hl
  obtain ⟨run', hs', hn, hd, hr⟩ := h.run (more + 1)
  rw [Nat.succ_add_eq_add_succ, hr, Machine.runWithin, advance, hs', hs, hn, hd]

theorem failed {fault : Fault} (h : machine.Takes steps (state, {}) last)
    (hs : machine.step last.1 = (.failed fault, final)) (hl : steps < limit) :
    machine.run limit state = (.error fault, final) := by
  obtain ⟨more, rfl⟩ := Nat.exists_eq_add_of_le hl
  obtain ⟨run', hs', -, -, hr⟩ := h.run (more + 1)
  rw [Nat.succ_add_eq_add_succ, hr, Machine.runWithin, advance, hs', hs]

/-- The events of a run that ends with the next step. -/
theorem trace_last {progress : Progress} (h : machine.Takes steps (state, {}) last)
    (hs : machine.step last.1 = (progress, final)) (hp : ∀ degraded, progress ≠ .running degraded)
    (hl : steps < limit) :
    machine.trace limit state = last.2.events ++ machine.observe last.1 := by
  obtain ⟨more, rfl⟩ := Nat.exists_eq_add_of_le hl
  have ht := h.trace (more + 1)
  rw [Machine.trace, hs, List.nil_append] at ht
  rw [Nat.succ_add_eq_add_succ, ht]
  cases progress with
  | running degraded => exact absurd rfl (hp degraded)
  | finished value => rw [List.append_nil]
  | failed fault => rw [List.append_nil]

end Machine.Takes

end ScriptEngine
