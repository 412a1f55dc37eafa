import ScriptEngine.Proofs.Direct.Simulation

/-!
# Lowering preserves meaning

An engine runs the instructions that scripts are lowered to. `lowering_preserves_meaning` compares its
runs with the interpretation of the scripts as they are written: if the number of steps is not exceeded,
both end in the same way, with the same degraded results, the same surroundings and the same events.
-/

namespace ScriptEngine.Direct

variable {machine : Machine} {program : Program}

/-- The last step of a run whose script ended in a certain way. -/
def Flow.progress : Flow → Progress
  | .failed fault => .failed fault
  | .returned value _ => .finished value
  | .next | .broken | .continued => .finished .invalid

/-- The run of a script that nobody called ends with one more step. -/
theorem Follows.outermost {place : Place} {fuel : Nat} {before : State × Log} {flow : Flow}
    {store : Store}
    (h : Follows machine place fuel before place.script.instructions.length [] (some (flow, store)))
    (hw : place.waiting = none) :
    ∃ steps last final, machine.Takes steps before last ∧
      machine.step last.1 = (flow.progress, final) ∧ final.world = store.world ∧
      last.2.add (machine.observe last.1) none = store.log := by
  have hleft : ∀ value span, place.left value span store =
      (.finished value, ⟨⟨place.identity, [], place.outer, store.timers⟩, store.world⟩) :=
    fun value span => by rw [Place.left, hw]
  cases flow with
  | next =>
    obtain ⟨steps, ht⟩ := h
    obtain ⟨hstep, hlog⟩ := @step_end machine place store
    exact ⟨steps, _, _, ht, hstep.trans (hleft ..), rfl, hlog⟩
  | returned value span =>
    obtain ⟨steps, last, ht, hl, hlog⟩ := h
    exact ⟨steps, last, _, ht, hl.trans (hleft ..), rfl, hlog⟩
  | failed fault => exact h
  | broken => obtain ⟨_, _, _, ⟨⟩, _⟩ := h
  | continued => obtain ⟨_, _, _, ⟨⟩, _⟩ := h

theorem ending_of_failed {flow : Flow} {store : Store} {fault : Fault}
    (h : flow.progress = .failed fault) :
    Program.Ending.of (flow, store) = ⟨.error fault, store.world, store.log.events⟩ := by
  cases flow <;> simp only [Flow.progress, Progress.failed.injEq, reduceCtorEq] at h
  rw [← h]
  rfl

theorem ending_of_finished {flow : Flow} {store : Store} {value : Value}
    (h : flow.progress = .finished value) : Program.Ending.of (flow, store) =
      ⟨.ok (value, store.log.degraded), store.world, store.log.events⟩ := by
  cases flow <;> simp only [Flow.progress, Progress.finished.injEq, reduceCtorEq] at h <;>
    rw [← h] <;> rfl

/-- A run whose last step is known ends as the interpretation does that was followed up to it. -/
theorem run_ends {state final : State} {steps limit : Nat} {last : State × Log} {flow : Flow}
    {store : Store} (ht : machine.Takes steps (state, {}) last) (hlimit : steps < limit)
    (hs : machine.step last.1 = (flow.progress, final)) (hw : final.world = store.world)
    (hl : last.2.add (machine.observe last.1) none = store.log) :
    (machine.run limit state).1.map (fun outcome => (outcome.value, outcome.degraded)) =
        (Program.Ending.of (flow, store)).result ∧
      (machine.run limit state).2.world = (Program.Ending.of (flow, store)).world ∧
      machine.trace limit state = (Program.Ending.of (flow, store)).events := by
  have hdegraded : last.2.degraded = store.log.degraded := by
    rw [← hl]
    exact (List.append_nil _).symm
  have htrace : (∀ degraded, flow.progress ≠ .running degraded) →
      machine.trace limit state = store.log.events := fun hp => by
    rw [ht.trace_last hs hp hlimit, ← hl]
    rfl
  cases hp : flow.progress with
  | running degraded => cases flow <;> cases hp
  | finished value =>
    rw [hp] at hs htrace
    rw [ht.finished hs hlimit, ending_of_finished hp, hdegraded]
    exact ⟨rfl, hw, htrace (by simp)⟩
  | failed fault =>
    rw [hp] at hs htrace
    rw [ht.failed hs hlimit, ending_of_failed hp]
    exact ⟨rfl, hw, htrace (by simp)⟩

/-- A run of a script from its beginning, step by step and as it is written. -/
theorem run_as_written (hl : Loads machine program) {script : Script} {document : Document}
    (hc : Compiled script document) (locals : Dictionary Value) (world : World) {limit fuel : Nat}
    (hfuel : limit ≤ fuel)
    (hlimit : ∀ identity, (machine.run limit ⟨Context.start script locals, world⟩).1 ≠
      .error ⟨.stepLimit identity limit, none⟩) :
    ∃ ended, sequence (program.exec fuel ⟨document.name, document.name, 1, false⟩) document.body
        ⟨locals, Dictionary.empty.insert document.name {}, world, {}⟩ = some ended ∧
      (machine.run limit ⟨Context.start script locals, world⟩).1.map
        (fun outcome => (outcome.value, outcome.degraded)) = (Program.Ending.of ended).result ∧
      (machine.run limit ⟨Context.start script locals, world⟩).2.world =
        (Program.Ending.of ended).world ∧
      machine.trace limit ⟨Context.start script locals, world⟩ =
        (Program.Ending.of ended).events := by
  have hname := hc.name_eq
  let place : Place := ⟨document.name, script, none, [], fun _ hm => absurd hm List.not_mem_nil⟩
  let store : Store := ⟨locals, Dictionary.empty.insert document.name {}, world, {}⟩
  have hstart : (⟨Context.start script locals, world⟩ : State) = place.state 0 [] store := by
    rw [Context.start, hname]
    rfl
  rw [hstart] at hlimit ⊢
  -- A run that goes on for as many steps as are allowed would be cut off.
  have hshort : ∀ {steps last}, machine.Takes steps (place.state 0 [] store, {}) last →
      steps < limit := fun {steps last} ht => by
    by_contra hle
    obtain ⟨identity, ho⟩ := ht.overrun (Nat.le_of_not_lt hle)
    exact hlimit identity ho
  have hf : Follows machine place fuel (place.state 0 [] store, {})
      place.script.instructions.length []
      (sequence (program.exec fuel ⟨document.name, document.name, 1, false⟩) document.body store) :=
    follows_script (follows_exec hl fuel) hc store
  cases hr : sequence (program.exec fuel ⟨document.name, document.name, 1, false⟩) document.body
      store with
  | none =>
    rw [hr] at hf
    obtain ⟨steps, last, hle, ht⟩ := hf
    exact absurd (hshort ht) (by omega)
  | some result =>
    obtain ⟨flow, after⟩ := result
    rw [hr] at hf
    obtain ⟨steps, last, final, ht, hs, hw, hlog⟩ := hf.outermost rfl
    exact ⟨_, rfl, run_ends ht (hshort ht) hs hw hlog⟩

/-- Lowering preserves meaning. For every set of files that can be read and every table of commands,
evaluator and limits, every script to start with, every list of arguments and all surroundings: if the
run of the engine is not cut off, the interpretation of the scripts as they are written ends with the
same result and degraded calls or with the same fault, leaves the same clock and console behind, and
evaluates the same expressions, dispatches the same commands with the same arguments, prints the same
messages and updates the same timers in the same order. -/
theorem lowering_preserves_meaning {files : Dictionary String} {options : EngineOptions}
    {engine : Engine} (hbuilt : Engine.ofSources files options = .ok engine) (entry : String)
    (arguments : List Value) (world : World)
    (hlimit : ∀ script, (engine.run entry arguments world).1 ≠
      .error ⟨.stepLimit script engine.stepLimit, none⟩)
    {fuel : Nat} (hfuel : engine.stepLimit ≤ fuel) :
    ∃ ending, (Program.ofSources files options).run fuel entry arguments world = some ending ∧
      (engine.run entry arguments world).1.map (fun outcome => (outcome.value, outcome.degraded)) =
        ending.result ∧
      (engine.run entry arguments world).2 = ending.world ∧
      engine.trace entry arguments world = ending.events := by
  have hl := loads_of_ofSources hbuilt
  have hr := hl.scripts entry
  unfold Engine.run Engine.trace Engine.prepare at *
  unfold Program.run
  generalize engine.machine.scripts.get? entry = script at hr hlimit ⊢
  generalize (Program.ofSources files options).find? entry = document at hr ⊢
  cases hr with
  | none => exact ⟨_, rfl, rfl, rfl, rfl⟩
  | @some script document hc =>
    simp only [hc.name_eq, hc.arity_eq] at hlimit ⊢
    cases hm : matchArguments document.name document.arity arguments with
    | error cause => exact ⟨_, rfl, rfl, rfl, rfl⟩
    | ok bindings =>
      rw [hm] at hlimit
      simp only [bind, Except.bind, pure, Except.pure, hc.bind_eq] at hlimit ⊢
      obtain ⟨ended, hended, hrest⟩ :=
        run_as_written hl hc (document.bind bindings) world hfuel hlimit
      exact ⟨_, by rw [hended]; rfl, hrest⟩

/-- A script that asks another one in a loop until it has an answer, and the other one. -/
def askingFiles : Dictionary String := .ofList
  [("a.script.xml", "<script name=\"ask\"><while when=\"x\"><if when=\"y\"><command name=\"Break\"/>" ++
      "</if><command name=\"Call\" into=\"y\"><arg>reply</arg></command></while>" ++
      "<command name=\"Return\"><arg>y</arg></command></script>"),
    ("b.script.xml", "<script name=\"reply\"><command name=\"Return\"><arg>yes</arg></command></script>")]

/-- A local has its value, `y` is an empty text at first, and all else stands for itself. -/
def askingOptions : EngineOptions where
  evaluate expression locals :=
    .ok ((locals.get? expression).getD (.string (if expression = "y" then "" else expression)))

theorem lowering_preserves_meaning_asking :
    ∃ engine, Engine.ofSources askingFiles askingOptions = .ok engine ∧
      (engine.run "ask" [] {}).1.map (fun outcome => (outcome.value, outcome.degraded)) =
        .ok (.string "yes", []) ∧
      ∃ ending, (Program.ofSources askingFiles askingOptions).run engine.stepLimit "ask" [] {} =
          some ending ∧
        ending.result = .ok (.string "yes", []) ∧ ending.world = (engine.run "ask" [] {}).2 ∧
        ending.events = engine.trace "ask" [] {} := by
  have hends : (Engine.ofSources askingFiles askingOptions).toOption.map
      (fun engine => (engine.run "ask" [] {}).1.toOption.map
        fun outcome => (outcome.value, outcome.degraded)) =
      some (some (.string "yes", [])) := by decide +kernel
  cases he : Engine.ofSources askingFiles askingOptions with
  | error fault => rw [he] at hends; cases hends
  | ok engine =>
    rw [he] at hends
    have hvalue : (engine.run "ask" [] {}).1.toOption.map
        (fun outcome => (outcome.value, outcome.degraded)) = some (.string "yes", []) :=
      Option.some.inj hends
    cases hr : (engine.run "ask" [] {}).1 with
    | error fault => rw [hr] at hvalue; cases hvalue
    | ok outcome =>
      rw [hr] at hvalue
      have hresult : (engine.run "ask" [] {}).1.map
          (fun outcome => (outcome.value, outcome.degraded)) = .ok (.string "yes", []) := by
        rw [hr]
        exact congrArg Except.ok (Option.some.inj hvalue)
      obtain ⟨ending, h₁, h₂, h₃, h₄⟩ := lowering_preserves_meaning he "ask" [] {}
        (fun script => by rw [hr]; exact nofun) (Nat.le_refl _)
      rw [hresult] at h₂
      exact ⟨engine, rfl, hresult, ending, h₁, h₂.symm, h₃.symm, h₄.symm⟩

end ScriptEngine.Direct
