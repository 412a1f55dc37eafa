import ScriptEngine.Proofs.Machine.Effects

/-!
# The limit on the number of steps

The limit on the number of steps cuts runs off and does nothing else. `Machine.takes_or_ends` goes on
for a number of steps or up to an earlier end, and `Machine.runEnds` says of a run under a limit how it
ended: with its last step, or because it was cut off. A run that ends with some step ends in the same
way under every limit that lets it take that step (`Machine.Takes.finished`, `Machine.Takes.failed`).
Under a smaller limit it is cut off, and what it has written by then is the beginning of what it writes
in all (`Machine.Takes.cut_within`).

`step_limit_only_cuts_runs_off` puts these together for runs of an engine, which has another limit if it is
built with one (`Engine.build_withStepLimit`). Nothing is assumed about the clock: it shows the same times at
the same readings in both runs.
-/

namespace ScriptEngine

namespace Machine

variable {machine : Machine} {state final : State} {steps limit : Nat} {first last : State × Log}

/-- Whether a run ends with a step. -/
def Ends (machine : Machine) (state : State) : Prop :=
  ∀ degraded, (machine.step state).1 ≠ .running degraded

theorem takes_or_ends (machine : Machine) (limit : Nat) (here : State × Log) :
    (∃ steps last, steps < limit ∧ machine.Takes steps here last ∧ machine.Ends last.1) ∨
      ∃ last, machine.Takes limit here last := by
  induction limit generalizing here with
  | zero => exact .inr ⟨here, .stay⟩
  | succ limit ih =>
    obtain ⟨before, log⟩ := here
    cases hs : machine.step before with
    | mk progress after =>
      cases progress with
      | running degraded =>
        rcases ih (after, log.add (machine.observe before) degraded) with
          ⟨steps, last, hl, ht, he⟩ | ⟨last, ht⟩
        · exact .inl ⟨steps + 1, last, by omega, .step hs ht, he⟩
        · exact .inr ⟨last, .step hs ht⟩
      | finished value => exact .inl ⟨0, _, by omega, .stay, fun _ => by simp [hs]⟩
      | failed fault => exact .inl ⟨0, _, by omega, .stay, fun _ => by simp [hs]⟩

/-- How a run can end under a limit on the number of its steps. -/
inductive RunEnds (machine : Machine) (limit : Nat) (state : State) :
    Except Fault Outcome × State → Prop
  | finished {steps : Nat} {last : State × Log} {value : Value} {final : State}
      (taken : machine.Takes steps (state, {}) last)
      (ends : machine.step last.1 = (.finished value, final)) (within : steps < limit) :
      RunEnds machine limit state (.ok ⟨value, steps + 1, last.2.degraded⟩, final)
  | failed {steps : Nat} {last : State × Log} {fault : Fault} {final : State}
      (taken : machine.Takes steps (state, {}) last)
      (ends : machine.step last.1 = (.failed fault, final)) (within : steps < limit) :
      RunEnds machine limit state (.error fault, final)
  | cut {last : State × Log} (taken : machine.Takes limit (state, {}) last) :
      RunEnds machine limit state
        (.error ⟨.stepLimit last.1.context.identity limit, none⟩, last.1)

theorem runEnds (machine : Machine) (limit : Nat) (state : State) :
    machine.RunEnds limit state (machine.run limit state) := by
  rcases machine.takes_or_ends limit (state, {}) with ⟨steps, last, hl, ht, he⟩ | ⟨last, ht⟩
  · cases hs : machine.step last.1 with
    | mk progress final =>
      cases progress with
      | running degraded => exact absurd (by rw [hs]) (he degraded)
      | finished value => rw [ht.finished hs hl]; exact .finished ht hs hl
      | failed fault => rw [ht.failed hs hl]; exact .failed ht hs hl
  · rw [ht.cut]
    exact .cut ht

theorem Takes.identity (h : machine.Takes steps first last) :
    last.1.context.identity = first.1.context.identity := by
  obtain ⟨events, -, ho⟩ := h.outward
  have hi := congrArg Outward.identity ho
  rwa [Outward.identity_replay] at hi

theorem Takes.console (h : machine.Takes steps first last) :
    first.1.world.console.IsPrefix last.1.world.console := by
  obtain ⟨events, -, ho⟩ := h.outward
  have hc := first.1.outward.console_replay events
  rwa [← ho] at hc

theorem step_console (machine : Machine) (state : State) :
    state.world.console.IsPrefix (machine.step state).2.world.console := by
  have hc := state.outward.console_replay (machine.observe state)
  rwa [← machine.step_outward] at hc

/-- A run is cut off by every limit that does not let it take its last step, and has written by then
the beginning of what it writes in all. -/
theorem Takes.cut_within {progress : Progress} (h : machine.Takes steps (state, {}) last)
    (hs : machine.step last.1 = (progress, final)) (hl : limit ≤ steps) :
    (machine.run limit state).1 = .error ⟨.stepLimit state.context.identity limit, none⟩ ∧
      (machine.run limit state).2.world.console.IsPrefix final.world.console := by
  obtain ⟨more, rfl⟩ := Nat.exists_eq_add_of_le hl
  obtain ⟨next, ht, hrest⟩ := h.split
  have hlast := machine.step_console last.1
  rw [hs] at hlast
  rw [ht.cut, ht.identity]
  exact ⟨rfl, hrest.console.trans hlast⟩

/-- The step of a number, counted from one, is the one with which a run fails. -/
def FailsAt (machine : Machine) (state : State) (number : Nat) (fault : Fault) : Prop :=
  ∃ steps last final, number = steps + 1 ∧ machine.Takes steps (state, {}) last ∧
    machine.step last.1 = (.failed fault, final)

end Machine

/-! ## Runs of an engine -/

namespace Engine

variable {engine : Engine} {name : String} {arguments : List Value} {world : World}
  {context : Context}

/-- The engine with another limit on the number of steps. A limit of zero counts as one. -/
def withStepLimit (engine : Engine) (limit : Nat) : Engine :=
  { engine with stepLimit := max 1 limit }

/-- It is the engine that is built with this limit. -/
theorem build_withStepLimit (scripts : Dictionary Script) (options : EngineOptions) (limit : Nat) :
    Engine.build scripts { options with steps := limit } =
      (Engine.build scripts options).map (·.withStepLimit limit) := by
  simp only [build]
  cases scripts.values.findSome? (unknownCommand? options.commands) <;> rfl

theorem run_withStepLimit (hp : engine.prepare name arguments = .ok context) (limit : Nat)
    (world : World) :
    (engine.withStepLimit limit).run name arguments world =
      ((engine.machine.run (max 1 limit) ⟨context, world⟩).1,
        (engine.machine.run (max 1 limit) ⟨context, world⟩).2.world) := by
  have hp' : (engine.withStepLimit limit).prepare name arguments = .ok context := hp
  simp only [run, hp']
  rfl

/-- A run that takes a number of steps and ends in some way: it does so under every limit that allows
for that many steps. Under a smaller limit it fails because it exceeds the limit, and has written by
then the beginning of what it writes in all. -/
structure EndsAfter (engine : Engine) (name : String) (arguments : List Value) (world : World)
    (identity : String) (steps : Nat) (ending : Except Fault Outcome × World) : Prop where
  same : ∀ limit, steps ≤ limit → (engine.withStepLimit limit).run name arguments world = ending
  cut : ∀ limit, 1 ≤ limit → limit < steps →
    ((engine.withStepLimit limit).run name arguments world).1 =
        .error ⟨.stepLimit identity limit, none⟩ ∧
      ((engine.withStepLimit limit).run name arguments world).2.console.IsPrefix ending.2.console

theorem endsAfter (hp : engine.prepare name arguments = .ok context) {steps : Nat}
    {last : State × Log} {progress : Progress} {final : State} {result : Except Fault Outcome}
    (taken : engine.machine.Takes steps (⟨context, world⟩, {}) last)
    (ends : engine.machine.step last.1 = (progress, final))
    (same : ∀ limit, steps < limit → engine.machine.run limit ⟨context, world⟩ = (result, final)) :
    engine.EndsAfter name arguments world context.identity (steps + 1) (result, final.world) where
  same limit hl := by
    have hm : steps < max 1 limit := by omega
    rw [run_withStepLimit hp, same _ hm]
  cut limit hpos hl := by
    have hm : max 1 limit = limit := by omega
    rw [run_withStepLimit hp, hm]
    exact taken.cut_within ends (by omega)

end Engine

/-- The limit on the number of steps only cuts runs off. If a run under a limit ends with a result after
some number of steps, then this number is positive and within the limit; under every limit that is not
smaller than it the run ends in the same way, with the same outcome and console, and under every smaller
limit it fails with the fault of the limit and has written the beginning of the same messages. If it
fails with another fault, it does so with a step of some number, for which the same holds. -/
theorem step_limit_only_cuts_runs_off (engine : Engine) {name : String} {arguments : List Value}
    {context : Context} (hprepared : engine.prepare name arguments = .ok context) (world : World)
    (limit : Nat) :
    let ending := (engine.withStepLimit limit).run name arguments world
    (∀ outcome, ending.1 = .ok outcome →
      1 ≤ outcome.steps ∧ outcome.steps ≤ max 1 limit ∧
      engine.EndsAfter name arguments world context.identity outcome.steps ending) ∧
    (∀ fault, ending.1 = .error fault →
      fault ≠ ⟨.stepLimit context.identity (max 1 limit), none⟩ →
      ∃ number, 1 ≤ number ∧ number ≤ max 1 limit ∧
        engine.machine.FailsAt ⟨context, world⟩ number fault ∧
        engine.EndsAfter name arguments world context.identity number ending) := by
  intro ending
  have hending : ending = _ := Engine.run_withStepLimit hprepared limit world
  have hends := engine.machine.runEnds (max 1 limit) ⟨context, world⟩
  generalize engine.machine.run (max 1 limit) ⟨context, world⟩ = result at hending hends
  rw [hending]
  cases hends with
  | @finished steps last value final taken ends within =>
    refine ⟨?_, nofun⟩
    rintro outcome ⟨⟩
    refine ⟨Nat.succ_pos _, within, Engine.endsAfter hprepared taken ends fun other hl => ?_⟩
    exact taken.finished ends hl
  | @failed steps last fault final taken ends within =>
    refine ⟨nofun, ?_⟩
    rintro _ ⟨⟩ -
    refine ⟨steps + 1, Nat.succ_pos _, within, ⟨steps, last, final, rfl, taken, ends⟩, ?_⟩
    exact Engine.endsAfter hprepared taken ends fun other hl => taken.failed ends hl
  | @cut last taken =>
    refine ⟨nofun, ?_⟩
    rintro _ ⟨⟩ hne
    rw [taken.identity] at hne
    exact absurd rfl hne

/-- A script that writes a message and calls another one, which writes one too and then leaves a loop
that is not there. -/
def chatter : Engine where
  machine :=
    { commands := .general
      scripts := .ofList
        [("main", ⟨"main", "main.script.xml", [], .multi,
          [⟨.command ⟨"PrintToConsole", ["one"], none, none⟩, .atLine 1⟩,
            ⟨.command ⟨"Call", ["sub"], none, none⟩, .atLine 2⟩]⟩),
          ("sub", ⟨"sub", "sub.script.xml", [], .multi,
            [⟨.command ⟨"PrintToConsole", ["two"], none, none⟩, .atLine 1⟩]⟩),
          ("stray", ⟨"stray", "stray.script.xml", [], .multi,
            [⟨.command ⟨"Call", ["sub"], none, none⟩, .atLine 1⟩,
              ⟨.command ⟨"Break", [], none, none⟩, .atLine 2⟩]⟩)]
      evaluate := fun expression _ => .ok (.string expression) }
  stepLimit := 100

theorem chatter_cut_off :
    (∃ context, chatter.prepare "main" [] = .ok context) ∧
    (∃ outcome, ((chatter.withStepLimit 7).run "main" [] {}).1 = .ok outcome ∧ outcome.steps = 5 ∧
      chatter.EndsAfter "main" [] {} "main" 5 ((chatter.withStepLimit 7).run "main" [] {})) ∧
    (∃ number, ((chatter.withStepLimit 4).run "stray" [] {}).1 =
        .error ⟨.outsideLoop .breakOut, some (.atLine 2)⟩ ∧ number ≤ 4 ∧
      chatter.EndsAfter "stray" [] {} "stray" number ((chatter.withStepLimit 4).run "stray" [] {})) := by
  have hmain : chatter.prepare "main" [] = .ok (Context.start
      ((chatter.machine.scripts.get? "main").getD ⟨"", "", [], .multi, []⟩) .empty) := rfl
  have hstray : chatter.prepare "stray" [] = .ok (Context.start
      ((chatter.machine.scripts.get? "stray").getD ⟨"", "", [], .multi, []⟩) .empty) := rfl
  have hok : ((chatter.withStepLimit 7).run "main" [] {}).1 = .ok ⟨.invalid, 5, []⟩ := by
    rfl
  have hfault : ((chatter.withStepLimit 4).run "stray" [] {}).1 =
      .error ⟨.outsideLoop .breakOut, some (.atLine 2)⟩ := rfl
  obtain ⟨-, -, hends⟩ := (step_limit_only_cuts_runs_off chatter hmain {} 7).1 _ hok
  obtain ⟨number, -, hle, -, hfails⟩ :=
    (step_limit_only_cuts_runs_off chatter hstray {} 4).2 _ hfault (by decide)
  exact ⟨⟨_, hmain⟩, ⟨_, hok, rfl, hends⟩, ⟨number, hfault, hle, hfails⟩⟩

end ScriptEngine
