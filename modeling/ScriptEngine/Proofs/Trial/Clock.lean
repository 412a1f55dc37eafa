import Mathlib.Algebra.GroupWithZero.Nat
import ScriptEngine.Proofs.Trial.Repetition

/-!
# The range of the clock in a trial

Each advance of the clock that a trial asks for is looked at alone, and one that no clock could show is
refused (`lt_clockLimit_of_nanosOf?`). The clock adds the advances up, and nothing is said of their sum: it
is within the range of the clock at each run exactly if it is so at the last one
(`clockTimes?_eq_none_iff`). A trial that is set up and has its advances accepted runs to its end or
breaks off with the clock (`Trial.Ready.run_eq`); any other comes to a fault (`Trial.run_of_not_ready`).
`trial_breaks_off_iff_clock_overruns` puts these together.
-/

namespace ScriptEngine

/-- An advance that is accepted is one that a clock can show. -/
theorem lt_clockLimit_of_nanosOf? {seconds : Float} {nanos : Nat} (h : nanosOf? seconds = some nanos) :
    nanos < clockLimit := by
  unfold nanosOf? at h
  split at h
  · cases h
  · obtain ⟨hlt, he⟩ := Option.ite_none_right_eq_some.mp h
    exact Option.some.inj he ▸ hlt

theorem lt_clockLimit_of_advances {run : Nat} {expected : List Expectation} {nanos : List Nat}
    (h : advances run expected = .ok nanos) : ∀ n ∈ nanos, n < clockLimit := by
  induction expected generalizing run nanos with
  | nil =>
    cases h
    exact fun n hn => absurd hn List.not_mem_nil
  | cons first rest ih =>
    rw [advances] at h
    cases hn : nanosOf? first.advance with
    | none => rw [hn] at h; cases h
    | some advance =>
      rw [hn] at h
      obtain ⟨others, ho, rfl⟩ := ok_of_map h
      exact List.forall_mem_cons.mpr ⟨lt_clockLimit_of_nanosOf? hn, ih ho⟩

/-- The clock leaves its range exactly if all its advances together do. -/
theorem clockTimes?_eq_none_iff {now : Nat} {nanos : List Nat} :
    clockTimes? now nanos = none ↔ nanos ≠ [] ∧ clockLimit ≤ now + nanos.sum := by
  induction nanos generalizing now with
  | nil => simp [clockTimes?]
  | cons advance rest ih =>
    rw [clockTimes?, List.sum_cons]
    by_cases hlt : now + advance < clockLimit
    · rw [if_pos hlt, Option.map_eq_none_iff, ih, and_iff_right (List.cons_ne_nil _ _)]
      constructor
      · rintro ⟨-, hle⟩
        omega
      · intro hle
        -- With no further advance the clock would show the time at which it is now.
        refine ⟨?_, by omega⟩
        rintro rfl
        rw [List.sum_nil] at hle
        omega
    · rw [if_neg hlt]
      exact iff_of_true rfl ⟨List.cons_ne_nil _ _, by omega⟩

/-- At each run the clock shows the sum of the advances so far. -/
theorem getElem?_clockTimes {now : Nat} {nanos times : List Nat} (h : clockTimes? now nanos = some times)
    {i t : Nat} (hi : times[i]? = some t) : t = now + (nanos.take (i + 1)).sum ∧ t < clockLimit := by
  induction nanos generalizing now times i with
  | nil =>
    cases h
    cases hi
  | cons advance rest ih =>
    rw [clockTimes?] at h
    split at h
    · rename_i hlt
      obtain ⟨later, hl, rfl⟩ := Option.map_eq_some_iff.mp h
      rw [List.take_succ_cons, List.sum_cons]
      cases i with
      | zero =>
        obtain rfl := Option.some.inj hi
        exact ⟨by simp, hlt⟩
      | succ i =>
        obtain ⟨ht, hrange⟩ := ih hl hi
        exact ⟨by omega, hrange⟩
    · cases h

/-! ## What a trial comes to -/

namespace Trial

variable {trial : Trial} {path : String} {folder : Folder}

/-- A trial can be carried out: it has runs, the clock can make each of its advances, and the scripts in the
folder can be built. -/
structure Ready (trial : Trial) (path : String) (folder : Folder) (nanos : List Nat) (engine : Engine) :
    Prop where
  runs : trial.runs ≠ []
  advances : advances 0 trial.runs = .ok nanos
  built : ∃ files, sources path folder = .ok files ∧
    Engine.ofSources files { steps := stepLimit } = .ok engine

/-- The clock alone decides what becomes of a trial that can be carried out. -/
theorem Ready.run_eq {nanos : List Nat} {engine : Engine} (h : trial.Ready path folder nanos engine) :
    trial.run path folder = (clockTimes? 0 nanos).map fun times => .ok (trial.observe engine times) := by
  obtain ⟨hruns, ha, files, hf, hb⟩ := h
  rw [run_built hruns hf hb, ha]
  show (do return trial.observe engine (← clockTimes? 0 nanos) :
    ExceptT TrialFault Option (List Observation)) = _
  cases clockTimes? 0 nanos <;> rfl

/-- A trial that cannot be carried out fails before its first run. -/
theorem run_of_not_ready (h : ∀ nanos engine, ¬ trial.Ready path folder nanos engine) :
    ∃ fault, trial.run path folder = some (.error fault) := by
  by_cases hruns : trial.runs = []
  · refine ⟨.noRuns, ?_⟩
    rw [run, hruns]
    rfl
  have hsome : trial.runs.isEmpty = false := List.isEmpty_eq_false_iff.mpr hruns
  cases ha : advances 0 trial.runs with
  | error fault =>
    refine ⟨fault, ?_⟩
    rw [run, hsome, ha]
    rfl
  | ok nanos =>
    cases hf : sources path folder with
    | error fault =>
      refine ⟨fault, ?_⟩
      rw [run, hsome, ha, hf]
      rfl
    | ok files =>
      cases hb : Engine.ofSources files { steps := stepLimit } with
      | error fault =>
        refine ⟨.engine fault, ?_⟩
        rw [run, hsome, ha, hf]
        show (do
          let engine ← (Engine.ofSources files { steps := stepLimit }).mapError TrialFault.engine
          return trial.observe engine (← clockTimes? 0 nanos) :
            ExceptT TrialFault Option (List Observation)) = _
        rw [hb]
        rfl
      | ok engine => exact absurd ⟨hruns, ha, files, hf, hb⟩ (h nanos engine)

theorem Ready.run_eq_none_iff {nanos : List Nat} {engine : Engine}
    (h : trial.Ready path folder nanos engine) :
    trial.run path folder = none ↔ clockLimit ≤ nanos.sum := by
  have hne : nanos ≠ [] := by
    rw [← List.length_pos_iff, length_advances h.advances]
    exact List.length_pos_iff.mpr h.runs
  rw [h.run_eq, Option.map_eq_none_iff, clockTimes?_eq_none_iff, and_iff_right hne, Nat.zero_add]

end Trial

/-- A trial comes to nothing exactly if it overruns the clock. Each advance that is accepted is one that a
clock can show. If a trial can be carried out and its advances together are within the range of the clock,
the clock shows at each run the sum of the advances so far, and there is a report. If they are not within
its range, there is neither a report nor a fault. -/
theorem trial_breaks_off_iff_clock_overruns (trial : Trial) (path : String) (folder : Folder) :
    (trial.run path folder = none ↔
      ∃ nanos engine, trial.Ready path folder nanos engine ∧ clockLimit ≤ nanos.sum) ∧
    (∀ nanos, advances 0 trial.runs = .ok nanos → ∀ n ∈ nanos, n < clockLimit) ∧
    ∀ nanos engine, trial.Ready path folder nanos engine → nanos.sum < clockLimit →
      ∃ times, times.length = trial.runs.length ∧
        (∀ i t, times[i]? = some t → t = (nanos.take (i + 1)).sum ∧ t < clockLimit) ∧
        trial.run path folder = some (.ok (trial.observe engine times)) := by
  refine ⟨⟨fun hnone => ?_, ?_⟩, fun nanos ha => lt_clockLimit_of_advances ha,
    fun nanos engine hready hsum => ?_⟩
  · by_cases hready : ∃ nanos engine, trial.Ready path folder nanos engine
    · obtain ⟨nanos, engine, hready⟩ := hready
      exact ⟨nanos, engine, hready, hready.run_eq_none_iff.mp hnone⟩
    · obtain ⟨fault, hfault⟩ := Trial.run_of_not_ready fun nanos engine h => hready ⟨nanos, engine, h⟩
      cases hnone.symm.trans hfault
  · rintro ⟨nanos, engine, hready, hle⟩
    exact hready.run_eq_none_iff.mpr hle
  · have hrun := hready.run_eq
    cases ht : clockTimes? 0 nanos with
    | none =>
      rw [ht] at hrun
      exact absurd (hready.run_eq_none_iff.mp hrun) (Nat.not_le.mpr hsum)
    | some times =>
      rw [ht] at hrun
      refine ⟨times, (length_clockTimes ht).trans (length_advances hready.advances), ?_, hrun⟩
      intro i t hi
      obtain ⟨hsum, hlt⟩ := getElem?_clockTimes ht hi
      exact ⟨hsum.trans (Nat.zero_add _), hlt⟩

/-- A folder with a script and a trial of it that waits twice for ten quintillion seconds. -/
def longWaits : Folder := .ofList
  [("main.script.xml", .text
      "<script name=\"main\"><command name=\"Return\"><arg>1</arg></command></script>"),
    ("case.json", .text ("\x7b\"schemaVersion\": \"coda-tool-case.v1\", \"runs\": " ++
      "[\x7b\"advanceSeconds\": 1e19\x7d, \x7b\"advanceSeconds\": 1e19\x7d]\x7d"))]

/-- Both waits are accepted, but the clock cannot show their sum, and there is no report. -/
theorem long_waits_overrun_clock :
    ∃ trial, Trial.read "cases" longWaits "case.json" = .ok trial ∧
      advances 0 trial.runs = .ok [Nat.pow 10 28, Nat.pow 10 28] ∧
      trial.run "cases" longWaits = none := by
  have hcomputed : (Trial.read "cases" longWaits "case.json").toOption.map (fun trial =>
      ((advances 0 trial.runs).toOption, (trial.run "cases" longWaits).run.isNone)) =
        some (some [Nat.pow 10 28, Nat.pow 10 28], true) := by
    decide +kernel
  obtain ⟨trial, hread, hparts⟩ := ok_of_toOption_map hcomputed
  obtain ⟨hadvances, hnone⟩ := Prod.mk.inj hparts
  refine ⟨trial, hread, ?_, Option.isNone_iff_eq_none.mp hnone⟩
  cases ha : advances 0 trial.runs with
  | error fault => rw [ha] at hadvances; cases hadvances
  | ok nanos =>
    rw [ha] at hadvances
    rw [← Option.some.inj hadvances]

end ScriptEngine
