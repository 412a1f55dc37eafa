import ScriptEngine.Proofs.Machine.Surroundings
import ScriptEngine.Proofs.Timers.Background
import ScriptEngine.Trial.Run

/-!
# Repeated runs

While the clock stands still all that a script can learn of the time is that none has passed: its timers
are either fresh or have ticked at this very time (`Surroundings.StandsStill`). So surroundings in which
the time stands still at different times are indistinct, and what a plain run does depends on neither the
time nor what the engine was used for before (`Engine.run_anytime`). A trial whose runs are plain sees the
same in all of them (`Trial.observe_plain`). `plain_runs_are_repeatable` says both.
-/

namespace ScriptEngine

/-- The clock shows the same time at all readings to come. -/
def World.StandsStill (world : World) (now : Nat) : Prop :=
  ∀ reading, world.readings ≤ reading → world.clock reading = now

theorem World.still_standsStill (now : Nat) (console : Console) :
    (World.still now console).StandsStill now :=
  fun _ _ => rfl

theorem World.StandsStill.readClock {world : World} {now : Nat} (h : world.StandsStill now) :
    world.readClock.1 = now ∧ world.readClock.2.StandsStill now :=
  ⟨h _ (Nat.le_refl _), fun reading hr => h reading (Nat.le_of_succ_le hr)⟩

/-- A timer that has not ticked before or did so at this very time. -/
theorem Timer.tick_still {timer : Timer} {now : Nat}
    (h : timer.lastTick = none ∨ timer.lastTick = some now) : timer.tick now = (0, ⟨some now⟩) := by
  rcases h with h | h
  · rw [tick, h]
  · rw [tick, h]
    simp only [Nat.sub_self, Nat.max_self]

namespace Surroundings

/-- The time stands still, and no script has ticked at another time. -/
structure StandsStill (now : Nat) (here : Surroundings) : Prop where
  world : here.world.StandsStill now
  timers : ∀ script, lastTick here.timers script = none ∨ lastTick here.timers script = some now

variable {now now' : Nat} {here there : Surroundings}

theorem standsStill_fresh {world : World} (h : world.StandsStill now) (entry : String) :
    StandsStill now ⟨freshTimers entry, world⟩ :=
  ⟨h, fun script => .inl (lastTick_fresh entry script)⟩

/-- A tick measures no time. -/
theorem StandsStill.tickOf_eq (h : StandsStill now here) (script : String) :
    tickOf here.timers script here.world.readClock.1 = (0, ⟨some now⟩) := by
  rw [h.world.readClock.1]
  refine Timer.tick_still ?_
  have ht := h.timers script
  rw [lastTick] at ht
  cases hs : here.timers.get? script with
  | none => exact .inl rfl
  | some timer => rwa [hs] at ht

theorem StandsStill.tick (h : StandsStill now here) (script : String) :
    StandsStill now (here.tick script) := by
  refine ⟨h.world.readClock.2, fun other => ?_⟩
  simp only [Surroundings.tick, h.tickOf_eq script]
  by_cases ho : other = script
  · rw [ho, lastTick_insert_self]
    exact .inr rfl
  · rw [lastTick_insert_other _ ho]
    exact h.timers other

/-- The time stands still in both surroundings, at two times, and the same messages have been offered to
their consoles. -/
structure BothStandStill (now now' : Nat) (first first' : Console) (here there : Surroundings) :
    Prop where
  console : Console.SameOffers first first' here.world.console there.world.console
  here : StandsStill now here
  there : StandsStill now' there

theorem indistinct_bothStandStill (now now' : Nat) (first first' : Console) :
    Indistinct (BothStandStill now now' first first') where
  read h := ⟨h.console, ⟨h.here.world.readClock.2, h.here.timers⟩,
    ⟨h.there.world.readClock.2, h.there.timers⟩⟩
  print h message := ⟨h.console.print message, ⟨h.here.world, h.here.timers⟩,
    ⟨h.there.world, h.there.timers⟩⟩
  tick h script := ⟨h.console, h.here.tick script, h.there.tick script⟩
  elapsed h script := by rw [elapsed, elapsed, h.here.tickOf_eq, h.there.tickOf_eq]

end Surroundings

/-! ## Plain runs -/

/-- While the clock stands still a plain run has one outcome and writes the same messages at any time. -/
theorem Engine.run_anytime {engine : Engine} (hgeneral : engine.machine.commands = .general)
    (name : String) (arguments : List Value) :
    ∃ outcome messages, ∀ world now, world.StandsStill now →
      (engine.run name arguments world).1 = outcome ∧
        (engine.run name arguments world).2.console = world.console.printAll messages := by
  -- All runs are compared with one at time zero.
  let first := engine.run name arguments (.still 0 {})
  refine ⟨first.1, first.2.console.offered.toList, fun world now hworld => ?_⟩
  have hstart (script : String) : Surroundings.BothStandStill 0 now {} world.console
      ⟨freshTimers script, .still 0 {}⟩ ⟨freshTimers script, world⟩ :=
    ⟨Console.sameOffers_refl, Surroundings.standsStill_fresh (World.still_standsStill 0 {}) script,
      Surroundings.standsStill_fresh hworld script⟩
  obtain ⟨houtcome, _, _, hrelated⟩ := Engine.run_parallel
    (Surroundings.indistinct_bothStandStill 0 now {} world.console) hgeneral hstart name arguments
  obtain ⟨messages, hfirst, hconsole⟩ := hrelated.console
  have hmessages : first.2.console.offered.toList = messages := by
    rw [hfirst, Console.offered_printAll]
    rfl
  exact ⟨houtcome.symm, hmessages ▸ hconsole⟩

namespace Session

theorem serve_engine (session : Session) (request : Request) :
    ∃ timers, (session.serve request).engine = { session.engine with timers } := by
  cases request with
  | setClock clock => exact ⟨_, rfl⟩
  | run name arguments => exact ⟨_, rfl⟩
  | background name arguments =>
    rw [serve, Engine.runBackground]
    cases session.engine.prepare name arguments with
    | error cause => exact ⟨_, rfl⟩
    | ok context => exact ⟨_, rfl⟩

/-- An engine does not change while it is used, apart from its timers. -/
theorem serveAll_engine (session : Session) (requests : List Request) :
    ∃ timers, (session.serveAll requests).engine = { session.engine with timers } := by
  induction requests generalizing session with
  | nil => exact ⟨_, rfl⟩
  | cons request rest ih =>
    obtain ⟨timers, hserve⟩ := session.serve_engine request
    obtain ⟨timers', hrest⟩ := ih (session.serve request)
    rw [hserve] at hrest
    exact ⟨timers', hrest⟩

end Session

/-- Plain runs do not see the timers of an engine. -/
theorem Engine.run_withTimers (engine : Engine) (timers : Dictionary Timer) (name : String)
    (arguments : List Value) (world : World) :
    { engine with timers }.run name arguments world = engine.run name arguments world :=
  rfl

/-- Of the surroundings of a run only the console is seen. -/
theorem Observation.ofRun_congr (outcome : Except Fault Outcome) {world world' : World}
    (h : world.console = world'.console) : ofRun outcome world = ofRun outcome world' := by
  cases outcome with
  | error fault => rw [ofRun, ofRun, h]
  | ok value => rw [ofRun, ofRun, h]

theorem length_advances {run : Nat} {expected : List Expectation} {nanos : List Nat}
    (h : advances run expected = .ok nanos) : nanos.length = expected.length := by
  induction expected generalizing run nanos with
  | nil =>
    cases h
    rfl
  | cons first rest ih =>
    rw [advances] at h
    cases hn : nanosOf? first.advance with
    | none => rw [hn] at h; cases h
    | some advance =>
      rw [hn] at h
      obtain ⟨others, ho, rfl⟩ := ok_of_map h
      rw [List.length_cons, List.length_cons, ih ho]

/-- The clock shows one time after each of its advances. -/
theorem length_clockTimes {now : Nat} {nanos times : List Nat} (h : clockTimes? now nanos = some times) :
    times.length = nanos.length := by
  induction nanos generalizing now times with
  | nil =>
    cases h
    rfl
  | cons advance rest ih =>
    rw [clockTimes?] at h
    split at h
    · obtain ⟨later, hl, rfl⟩ := Option.map_eq_some_iff.mp h
      rw [List.length_cons, List.length_cons, ih hl]
    · cases h

namespace Trial

/-- The runs of a trial are all alike if a run is the same at any time. -/
theorem observe_plain {trial : Trial} (hplain : trial.background = false) {engine : Engine}
    {observation : Observation}
    (h : ∀ now, let ended := engine.run trial.entry trial.arguments (.still now {})
      Observation.ofRun ended.1 ended.2 = observation) (times : List Nat) :
    trial.observe engine times = List.replicate times.length observation := by
  induction times with
  | nil => rfl
  | cons now later ih =>
    have honce (world : World) : trial.runOnce engine world =
        ((engine.run trial.entry trial.arguments world).1, engine,
          (engine.run trial.entry trial.arguments world).2) := by
      rw [runOnce, hplain]
      rfl
    rw [observe, honce]
    exact congr (congrArg List.cons (h now)) ih

/-- A trial of scripts that can be built. -/
theorem run_built {trial : Trial} (hruns : trial.runs ≠ []) {path : String} {folder : Folder}
    {files : Dictionary String} (hfiles : sources path folder = .ok files) {engine : Engine}
    (hbuilt : Engine.ofSources files { steps := stepLimit } = .ok engine) :
    trial.run path folder = (do
      let nanos ← advances 0 trial.runs
      return trial.observe engine (← clockTimes? 0 nanos)) := by
  have hsome : trial.runs.isEmpty = false := List.isEmpty_eq_false_iff.mpr hruns
  have hengine : (Engine.ofSources files { steps := stepLimit }).mapError TrialFault.engine =
      .ok engine := by
    rw [hbuilt]
    rfl
  rw [run, hsome, hfiles]
  cases advances 0 trial.runs with
  | error fault => rfl
  | ok nanos =>
    have hrest := congrArg (fun built : Except TrialFault Engine =>
      (do return trial.observe (← built) (← clockTimes? 0 nanos) :
        ExceptT TrialFault Option (List Observation))) hengine
    exact hrest

end Trial

theorem Engine.ofSources_commands {files : Dictionary String} {options : EngineOptions}
    {engine : Engine} (h : Engine.ofSources files options = .ok engine) :
    engine.machine.commands = options.commands := by
  rw [ofSources] at h
  cases hp : Script.parseAll files with
  | error fault => rw [hp] at h; cases h
  | ok scripts =>
    rw [hp] at h
    obtain ⟨-, rfl⟩ := Engine.build_ok h
    rfl

/-- Plain runs depend on neither the time nor each other. Consider scripts that can be built, a script to
start with and its arguments. In all trials whose runs are plain, whatever the advances of the clock that
can be made and that keep it in its range, all runs are observed to be the same: console, result, codes of
degraded results and code of the fault. More generally, an engine with the general commands that has
served any requests, among them background runs, gives the same outcome and offers the same messages to
the console in a run during which the clock stands still, whatever time it shows. -/
theorem plain_runs_are_repeatable :
    (∀ path folder files engine, Trial.sources path folder = .ok files →
      Engine.ofSources files { steps := Trial.stepLimit } = .ok engine → ∀ entry arguments,
      ∃ observation, ∀ version runs, runs ≠ [] →
        Trial.run ⟨version, entry, arguments, false, runs⟩ path folder = do
          let nanos ← advances 0 runs
          let _ ← clockTimes? 0 nanos
          return List.replicate runs.length observation) ∧
    ∀ engine : Engine, engine.machine.commands = .general → ∀ name arguments,
      ∃ outcome messages, ∀ world requests now,
        let session := Session.serveAll ⟨engine, world⟩ requests
        let ended := session.engine.run name arguments session.world
        session.world.StandsStill now →
          ended.1 = outcome ∧ ended.2.console = session.world.console.printAll messages := by
  refine ⟨fun path folder files engine hfiles hbuilt entry arguments => ?_,
    fun engine hgeneral name arguments => ?_⟩
  · obtain ⟨outcome, messages, hrun⟩ :=
      Engine.run_anytime (Engine.ofSources_commands hbuilt) entry arguments
    refine ⟨.ofRun outcome { console := ({} : Console).printAll messages }, fun version runs hruns => ?_⟩
    refine Eq.trans (Trial.run_built hruns hfiles hbuilt) ?_
    cases ha : advances 0 runs with
    | error fault => rfl
    | ok nanos =>
      show (do return Trial.observe _ engine (← clockTimes? 0 nanos) :
          ExceptT TrialFault Option (List Observation)) = do
        let _ ← clockTimes? 0 nanos
        return List.replicate runs.length _
      cases ht : clockTimes? 0 nanos with
      | none => rfl
      | some times =>
        refine congrArg (pure (f := ExceptT TrialFault Option)) ?_
        rw [← length_advances ha, ← length_clockTimes ht]
        refine Trial.observe_plain rfl (fun now => ?_) times
        obtain ⟨houtcome, hconsole⟩ := hrun _ now (World.still_standsStill now {})
        exact (congrArg (Observation.ofRun · _) houtcome).trans (Observation.ofRun_congr outcome hconsole)
  · obtain ⟨outcome, messages, hrun⟩ := Engine.run_anytime hgeneral name arguments
    refine ⟨outcome, messages, fun world requests now => ?_⟩
    intro session ended hstill
    obtain ⟨timers, hengine⟩ := Session.serveAll_engine ⟨engine, world⟩ requests
    have hended : ended = engine.run name arguments session.world := by
      rw [← Engine.run_withTimers engine timers, ← hengine]
    rw [hended]
    exact hrun session.world now hstill

/-- A folder with a script that asks for the time before it writes a message. -/
def wakeful : Folder := .ofList
  [("wake.script.xml", .text ("<script name=\"wake\"><command name=\"GetSecondsPassed\" into=\"t\"/>" ++
    "<command name=\"PrintC\"><arg>\"awake\"</arg></command></script>"))]

/-- Requests after which the timer of the script has ticked at another time than the clock shows. -/
def waking : List Session.Request :=
  [.setClock fun _ => 5, .background "wake" [], .run "wake" [], .setClock fun _ => 9]

theorem wakeful_runs_alike :
    ∃ files engine, Trial.sources "cases" wakeful = .ok files ∧
      Engine.ofSources files { steps := Trial.stepLimit } = .ok engine ∧
      (∃ observation, ∀ expected expected',
        Trial.run ⟨Trial.currentVersion, "wake", [], false, [expected, expected']⟩ "cases" wakeful = do
          let nanos ← advances 0 [expected, expected']
          let _ ← clockTimes? 0 nanos
          return [observation, observation]) ∧
      let session := Session.serveAll ⟨engine, {}⟩ waking
      lastTick session.engine.timers "wake" = some 5 ∧
        (session.engine.run "wake" [] session.world).1 = (engine.run "wake" [] {}).1 ∧
        (engine.run "wake" [] {}).2.console.offered.toList = ["awake"] ∧
        (session.engine.run "wake" [] session.world).2.console =
          session.world.console.printAll ["awake"] := by
  have hcomputed : (Trial.sources "cases" wakeful).toOption.map (fun files =>
      (Engine.ofSources files { steps := Trial.stepLimit }).toOption.map fun engine =>
        (lastTick (Session.serveAll ⟨engine, {}⟩ waking).engine.timers "wake",
          (engine.run "wake" [] {}).2.console.offered.toList)) = some (some (some 5, ["awake"])) := by
    decide +kernel
  cases hfiles : Trial.sources "cases" wakeful with
  | error fault => rw [hfiles] at hcomputed; cases hcomputed
  | ok files =>
    rw [hfiles] at hcomputed
    replace hcomputed := Option.some.inj hcomputed
    beta_reduce at hcomputed
    cases hbuilt : Engine.ofSources files { steps := Trial.stepLimit } with
    | error fault => rw [hbuilt] at hcomputed; cases hcomputed
    | ok engine =>
      rw [hbuilt] at hcomputed
      obtain ⟨htick, hoffered⟩ := Prod.mk.inj (Option.some.inj hcomputed)
      obtain ⟨htrials, hsessions⟩ := plain_runs_are_repeatable
      obtain ⟨observation, htrial⟩ := htrials "cases" wakeful files engine hfiles hbuilt "wake" []
      obtain ⟨outcome, messages, hrun⟩ :=
        hsessions engine (Engine.ofSources_commands hbuilt) "wake" []
      obtain ⟨hlater, hconsole⟩ := hrun {} waking 9 fun _ _ => rfl
      obtain ⟨hfirst, hfresh⟩ := hrun {} [] 0 fun _ _ => rfl
      have hmessages : messages = ["awake"] := by
        rw [← hoffered]
        exact (congrArg (·.offered.toList) hfresh).trans (Console.offered_printAll {} messages) |>.symm
      exact ⟨files, engine, rfl, hbuilt, ⟨observation, fun _ _ => htrial _ _ (List.cons_ne_nil _ _)⟩,
        htick, hlater.trans hfirst.symm, hoffered, hmessages ▸ hconsole⟩

end ScriptEngine
