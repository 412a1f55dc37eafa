import ScriptEngine.Proofs.Trial.Clock

/-!
# What a trial compares

The parts of an observation are compared with what is expected of them in a fixed order
(`ObservedField.place`), and what is reported of a run is the first one that is not as expected
(`Expectation.firstMismatch?_cases`). The runs are compared one after the other, and what is reported of a
trial is the first run that is not as expected (`Trial.firstMismatch?_cases`). No run escapes, since there is
an observation for each expectation: each of them is made at its own time by the engine that the runs before
have left (`Trial.getElem?_observe`).
-/

namespace ScriptEngine

/-- Two values are of one kind and equal, numbers as numbers: the two zeros are equal, and what is not a
number equals nothing. -/
inductive Value.Same : Value → Value → Prop
  | invalid : Same .invalid .invalid
  | numeric {x y : Float} : (x == y) = true → Same (.numeric x) (.numeric y)
  | string (text : String) : Same (.string text) (.string text)
  | reference (id : UInt32) : Same (.reference id) (.reference id)

theorem Value.agrees_iff {v w : Value} : v.agrees w = true ↔ v.Same w := by
  constructor
  · intro h
    cases v with
    | numeric x =>
      cases w with
      | numeric y => exact .numeric h
      | _ => simp [agrees] at h
    | _ =>
      obtain rfl := of_decide_eq_true h
      constructor
  · rintro (_ | h | _ | _)
    · rfl
    · exact h
    · simp [agrees]
    · simp [agrees]

example : Value.agrees (.numeric 0.0) (.numeric (-0.0)) = true ∧
    Value.agrees (.numeric (0.0 / 0.0)) (.numeric (0.0 / 0.0)) = false := by decide +kernel

/-- Where a part of an observation stands in the order of comparison. -/
def ObservedField.place : ObservedField → Nat
  | .errorCode => 0
  | .console => 1
  | .result => 2
  | .degraded => 3

/-- A part of an observation as it is reported. -/
def Observation.part (actual : Observation) : ObservedField → Json
  | .errorCode => .ofString? actual.errorCode
  | .console => .ofStrings actual.console
  | .result => .ofValue? actual.result
  | .degraded => .ofStrings actual.degraded

namespace Expectation

/-- What is expected of a part of an observation as it is reported. -/
def part (expected : Expectation) : ObservedField → Json
  | .errorCode => .ofString? expected.errorCode
  | .console => .ofStrings expected.console
  | .result => .ofValue? expected.result
  | .degraded => .ofStrings expected.degraded

/-- A part of an observation is as expected. Only where no fault is expected do the replaced results matter,
and the result, if one is expected. -/
def Met (expected : Expectation) (actual : Observation) : ObservedField → Prop
  | .errorCode => expected.errorCode = actual.errorCode
  | .console => expected.console = actual.console
  | .result => expected.errorCode = none →
      ∀ value ∈ expected.result, ∃ found ∈ actual.result, value.Same found
  | .degraded => expected.errorCode = none → expected.degraded = actual.degraded

/-- The first part of an observation, in the order of comparison, that is not as expected. -/
structure FirstUnmet (expected : Expectation) (actual : Observation) (field : ObservedField) : Prop where
  unmet : ¬ expected.Met actual field
  before : ∀ other : ObservedField, other.place < field.place → expected.Met actual other

/-- How a part of a run that is not as expected is reported. -/
inductive Reported (run : Nat) (expected : Expectation) (actual : Observation) :
    ObservedField → TrialFault → Prop
  | success {code : String} : expected.errorCode = some code → actual.errorCode = none →
      Reported run expected actual .errorCode (.unexpectedSuccess run code)
  | mismatch {field : ObservedField} :
      (field = .errorCode → expected.errorCode = none ∨ actual.errorCode ≠ none) →
      Reported run expected actual field (.mismatch run field (expected.part field) (actual.part field))

variable {run : Nat} {expected : Expectation} {actual : Observation}

theorem admitsResult_iff : expected.admitsResult actual.result = true ↔
    ∀ value ∈ expected.result, ∃ found ∈ actual.result, value.Same found := by
  unfold admitsResult
  cases expected.result with
  | none => simp
  | some value =>
    cases actual.result with
    | none => simp
    | some found => simp [Value.agrees_iff]

/-- Codes of faults that differ are reported. -/
theorem reported_errorCode (run : Nat) (h : expected.errorCode ≠ actual.errorCode) :
    ∃ fault, expected.firstMismatch? run actual = some fault ∧
      Reported run expected actual .errorCode fault := by
  unfold firstMismatch?
  rw [if_pos h]
  split
  · rename_i code hexpected hactual
    exact ⟨_, rfl, .success hexpected hactual⟩
  · rename_i hother
    refine ⟨_, rfl, .mismatch fun _ => ?_⟩
    cases hexpected : expected.errorCode with
    | none => exact .inl rfl
    | some code => exact .inr fun hactual => hother code hexpected hactual

theorem met_below_succ {field : ObservedField} (hfield : expected.Met actual field)
    (h : ∀ other : ObservedField, other.place < field.place → expected.Met actual other) :
    ∀ other : ObservedField, other.place < field.place + 1 → expected.Met actual other := by
  intro other ho
  rcases Nat.lt_succ_iff_lt_or_eq.mp ho with hlt | heq
  · exact h other hlt
  · have hsame : other = field := by
      cases other <;> cases field <;> first | rfl | exact absurd heq (by decide)
    rwa [hsame]

/-- What is reported of a run is the first part that is not as expected, and nothing if there is none. -/
theorem firstMismatch?_cases (run : Nat) (expected : Expectation) (actual : Observation) :
    (expected.firstMismatch? run actual = none ∧ ∀ field, expected.Met actual field) ∨
    ∃ field fault, expected.firstMismatch? run actual = some fault ∧ expected.FirstUnmet actual field ∧
      Reported run expected actual field fault := by
  have hfirst (other : ObservedField) (ho : other.place < ObservedField.errorCode.place) :
      expected.Met actual other := absurd ho (Nat.not_lt_zero _)
  by_cases hcode : expected.Met actual .errorCode
  swap
  · obtain ⟨fault, hfault, hreported⟩ := reported_errorCode run hcode
    exact .inr ⟨.errorCode, fault, hfault, ⟨hcode, hfirst⟩, hreported⟩
  unfold firstMismatch?
  rw [if_neg fun h => h hcode]
  have hsecond := met_below_succ hcode hfirst
  by_cases hconsole : expected.Met actual .console
  swap
  · exact .inr ⟨.console, _, if_pos hconsole, ⟨hconsole, hsecond⟩, .mismatch fun h => by cases h⟩
  rw [if_neg fun h => h hconsole]
  have hthird := met_below_succ hconsole hsecond
  have hall (hresult : expected.Met actual .result) (hdegraded : expected.Met actual .degraded)
      (field : ObservedField) : expected.Met actual field :=
    met_below_succ hdegraded (met_below_succ hresult hthird) field (by cases field <;> decide)
  by_cases hfails : expected.errorCode.isSome = true
  · -- Where a fault is expected nothing else is compared.
    have hsome : expected.errorCode ≠ none := Option.isSome_iff_ne_none.mp hfails
    exact .inl ⟨if_pos hfails, hall (fun h => absurd h hsome) fun h => absurd h hsome⟩
  have hnone : expected.errorCode = none := Option.not_isSome_iff_eq_none.mp hfails
  rw [if_neg hfails]
  by_cases hresult : expected.Met actual .result
  swap
  · have hrefused : (!expected.admitsResult actual.result) = true := by
      rw [Bool.not_eq_true', Bool.eq_false_iff]
      exact fun h => hresult fun _ => admitsResult_iff.mp h
    exact .inr ⟨.result, _, if_pos hrefused, ⟨hresult, hthird⟩, .mismatch fun h => by cases h⟩
  have hadmitted : ¬ (!expected.admitsResult actual.result) = true := by
    rw [admitsResult_iff.mpr (hresult hnone)]
    decide
  rw [if_neg hadmitted]
  by_cases hdegraded : expected.degraded = actual.degraded
  · exact .inl ⟨if_neg fun h => h hdegraded, hall hresult fun _ => hdegraded⟩
  · have hunmet : ¬ expected.Met actual .degraded := fun h => hdegraded (h hnone)
    exact .inr ⟨.degraded, _, if_pos hdegraded, ⟨hunmet, met_below_succ hresult hthird⟩,
      .mismatch fun h => by cases h⟩

end Expectation

/-! ## All runs -/

namespace Trial

/-- A run, if it was observed, is as expected. -/
def MetAt (expectations : List Expectation) (observations : List Observation) (run : Nat) : Prop :=
  ∀ expected actual, expectations[run]? = some expected → observations[run]? = some actual →
    ∀ field, expected.Met actual field

/-- What is reported is the first run that is not as expected, and nothing if there is none. The runs are
counted from `start`. -/
theorem firstMismatch?_cases (start : Nat) (expectations : List Expectation)
    (observations : List Observation) :
    (firstMismatch? start expectations observations = none ∧
      ∀ run, MetAt expectations observations run) ∨
    ∃ run expected actual field fault, firstMismatch? start expectations observations = some fault ∧
      expectations[run]? = some expected ∧ observations[run]? = some actual ∧
      (∀ earlier < run, MetAt expectations observations earlier) ∧ expected.FirstUnmet actual field ∧
      Expectation.Reported (start + run) expected actual field fault := by
  induction expectations generalizing start observations with
  | nil => exact .inl ⟨rfl, fun run expected actual he => by cases he⟩
  | cons first rest ih =>
    cases observations with
    | nil => exact .inl ⟨rfl, fun run expected actual _ ha => by cases ha⟩
    | cons seen later =>
      rw [firstMismatch?]
      rcases first.firstMismatch?_cases start seen with ⟨hnone, hmet⟩ | ⟨field, fault, hsome, hunmet, hrep⟩
      · have hzero : MetAt (first :: rest) (seen :: later) 0 := by
          rintro expected actual ⟨⟩ ⟨⟩
          exact hmet
        rw [hnone]
        rcases ih (start + 1) later with ⟨hrest, hall⟩ |
          ⟨run, expected, actual, field, fault, hrest, he, ha, hbefore, hunmet, hrep⟩
        · refine .inl ⟨hrest, fun run => ?_⟩
          cases run with
          | zero => exact hzero
          | succ run => exact hall run
        · refine .inr ⟨run + 1, expected, actual, field, fault, hrest, he, ha, fun earlier hlt => ?_, hunmet,
            ?_⟩
          · cases earlier with
            | zero => exact hzero
            | succ earlier => exact hbefore earlier (Nat.lt_of_succ_lt_succ hlt)
          · rwa [Nat.add_right_comm, Nat.add_assoc] at hrep
      · rw [hsome]
        exact .inr ⟨0, first, seen, field, fault, rfl, rfl, rfl,
          fun earlier hlt => absurd hlt (Nat.not_lt_zero _),
          hunmet, hrep⟩

/-- What is seen of one run at a time. -/
def seen (trial : Trial) (engine : Engine) (now : Nat) : Observation :=
  let ended := trial.runOnce engine (.still now {})
  .ofRun ended.1 ended.2.2

/-- The engine after a run at each of some times. -/
def engineAfter (trial : Trial) (engine : Engine) (times : List Nat) : Engine :=
  times.foldl (fun engine now => (trial.runOnce engine (.still now {})).2.1) engine

/-- Each run is seen at its own time, by the engine that the runs before have left. -/
theorem getElem?_observe (trial : Trial) (engine : Engine) (times : List Nat) (run : Nat) :
    (trial.observe engine times)[run]? =
      times[run]?.map (trial.seen (trial.engineAfter engine (times.take run))) := by
  induction times generalizing engine run with
  | nil => rfl
  | cons now later ih =>
    cases run with
    | zero => rfl
    | succ run => exact ih _ run

theorem length_observe (trial : Trial) (engine : Engine) (times : List Nat) :
    (trial.observe engine times).length = times.length := by
  induction times generalizing engine with
  | nil => rfl
  | cons now later ih => exact congrArg (· + 1) (ih _)

variable {trial : Trial} {path : String} {folder : Folder}

/-- A report comes from a trial that can be carried out with the clock in its range. -/
theorem observe_of_run {observations : List Observation}
    (h : trial.run path folder = some (.ok observations)) :
    ∃ nanos engine times, trial.Ready path folder nanos engine ∧ clockTimes? 0 nanos = some times ∧
      observations = trial.observe engine times := by
  by_cases hready : ∃ nanos engine, trial.Ready path folder nanos engine
  · obtain ⟨nanos, engine, hready⟩ := hready
    rw [hready.run_eq] at h
    obtain ⟨times, ht, ho⟩ := Option.map_eq_some_iff.mp h
    exact ⟨nanos, engine, times, hready, ht, (Except.ok.inj ho).symm⟩
  · obtain ⟨fault, hfault⟩ := run_of_not_ready fun nanos engine h => hready ⟨nanos, engine, h⟩
    cases Option.some.inj (h.symm.trans hfault)

/-- A trial with a report passes or fails by the comparison of its runs. -/
theorem check_eq {file casePath : String} {caseFolder : Folder}
    (hread : Trial.read casePath caseFolder file = .ok trial) {observations : List Observation}
    (hrun : trial.run path folder = some (.ok observations)) :
    (firstMismatch? 0 trial.runs observations = none →
      check path folder file casePath caseFolder = some (.ok ())) ∧
    ∀ fault, firstMismatch? 0 trial.runs observations = some fault →
      check path folder file casePath caseFolder = some (.error fault) := by
  have hlift : (liftM (Trial.read casePath caseFolder file) : ExceptT TrialFault Option Trial) =
      some (.ok trial) := by
    rw [hread]
    rfl
  rw [check, bind_of_ok hlift, bind_of_ok hrun]
  refine ⟨fun hnone => ?_, fun fault hsome => ?_⟩
  · rw [hnone]
    rfl
  · rw [hsome]
    rfl

end Trial

/-- A trial passes exactly if its runs are as expected. Consider a trial that can be read, from any folder,
and for which there is a report. The report has an observation for each expected run, in their order: that of
a run at the time that is the sum of the advances up to it, by the engine that the runs before have left. The
trial passes exactly if in each run the code of the fault, if any, and the console are as expected, and, where
no fault is expected, also the codes of the replaced results and the result, if one is expected. Otherwise it
fails with the first run in which a part is not as expected and the first such part in the order of
comparison; where a fault was expected and none occurred, this is reported as an unexpected success. -/
theorem trial_passes_exactly_on_matching_runs {path file casePath : String} {folder caseFolder : Folder}
    {trial : Trial} (hread : Trial.read casePath caseFolder file = .ok trial)
    {observations : List Observation} (hrun : trial.run path folder = some (.ok observations)) :
    let outcome := Trial.check path folder file casePath caseFolder
    observations.length = trial.runs.length ∧
    (∃ nanos engine, ∃ times : List Nat, trial.Ready path folder nanos engine ∧
      times.length = trial.runs.length ∧ ∀ run now, times[run]? = some now →
        now = (nanos.take (run + 1)).sum ∧
        observations[run]? = some (trial.seen (trial.engineAfter engine (times.take run)) now)) ∧
    (outcome = some (.ok ()) ↔ ∀ run, Trial.MetAt trial.runs observations run) ∧
    (outcome ≠ some (.ok ()) →
      ∃ run expected actual field fault, outcome = some (.error fault) ∧
        trial.runs[run]? = some expected ∧ observations[run]? = some actual ∧
        (∀ earlier < run, Trial.MetAt trial.runs observations earlier) ∧
        expected.FirstUnmet actual field ∧ Expectation.Reported run expected actual field fault) := by
  intro outcome
  obtain ⟨nanos, engine, times, hready, htimes, rfl⟩ := Trial.observe_of_run hrun
  have hlength : times.length = trial.runs.length :=
    (length_clockTimes htimes).trans (length_advances hready.advances)
  refine ⟨(Trial.length_observe ..).trans hlength, ⟨nanos, engine, times, hready, hlength, ?_⟩, ?_⟩
  · intro run now hnow
    refine ⟨(getElem?_clockTimes htimes hnow).1.trans (Nat.zero_add _), ?_⟩
    rw [Trial.getElem?_observe, hnow]
    rfl
  obtain ⟨hpass, hfail⟩ := Trial.check_eq hread hrun
  rcases Trial.firstMismatch?_cases 0 trial.runs (trial.observe engine times) with ⟨hnone, hmet⟩ |
    ⟨run, expected, actual, field, fault, hsome, he, ha, hbefore, hunmet, hreported⟩
  · exact ⟨iff_of_true (hpass hnone) hmet, fun hne => absurd (hpass hnone) hne⟩
  · have hcheck := hfail fault hsome
    refine ⟨iff_of_false (fun h => ?_) fun hmet => ?_, fun _ => ?_⟩
    · cases Option.some.inj (hcheck.symm.trans h)
    · exact hunmet.unmet (hmet run expected actual he ha field)
    · exact ⟨run, expected, actual, field, fault, hcheck, he, ha, hbefore, hunmet,
        Nat.zero_add run ▸ hreported⟩

/-- A folder with a script that returns zero, and a trial of it that expects the other zero first and then a
fault and a message. -/
def zeros : Folder := .ofList
  [("main.script.xml", .text
      "<script name=\"main\"><command name=\"Return\"><arg>0.0</arg></command></script>"),
    ("case.json", .text ("\x7b\"schemaVersion\": \"coda-tool-case.v1\", \"runs\": [" ++
      "\x7b\"result\": \x7b\"type\": \"numeric\", \"value\": -0.0\x7d\x7d, " ++
      "\x7b\"console\": [\"bye\"], \"errorCode\": \"CONTEXT_ERROR\"\x7d]\x7d"))]

/-- The trial fails with its second run, and it is the missing fault that is reported and not the console. -/
theorem zeros_fail_without_fault :
    ∃ trial observations, Trial.read "cases" zeros "case.json" = .ok trial ∧
      trial.run "cases" zeros = some (.ok observations) ∧ observations.length = trial.runs.length ∧
      ∃ run expected actual field fault, Trial.check "cases" zeros "case.json" = some (.error fault) ∧
        fault.message = "Run 1 expected error CONTEXT_ERROR, but it succeeded." ∧
        trial.runs[run]? = some expected ∧ observations[run]? = some actual ∧
        expected.FirstUnmet actual field ∧ Expectation.Reported run expected actual field fault := by
  have hcomputed : (Trial.read "cases" zeros "case.json").toOption.map (fun trial =>
      (trial.run "cases" zeros).run.map fun report => report.toOption.map fun observations =>
        (Trial.firstMismatch? 0 trial.runs observations).map (·.message)) =
      some (some (some (some "Run 1 expected error CONTEXT_ERROR, but it succeeded."))) := by
    decide +kernel
  obtain ⟨trial, hread, hrun⟩ := ok_of_toOption_map hcomputed
  obtain ⟨report, hrun, hreport⟩ := Option.map_eq_some_iff.mp hrun
  obtain ⟨observations, rfl, hfirst⟩ := ok_of_toOption_map hreport
  obtain ⟨fault, hfault, hmessage⟩ := Option.map_eq_some_iff.mp hfirst
  have hcheck : Trial.check "cases" zeros "case.json" = some (.error fault) :=
    (Trial.check_eq hread hrun).2 fault hfault
  obtain ⟨hlength, -, -, hfails⟩ := trial_passes_exactly_on_matching_runs hread hrun
  have hne : Trial.check "cases" zeros "case.json" ≠ some (.ok ()) := fun h => by
    cases Option.some.inj (hcheck.symm.trans h)
  obtain ⟨run, expected, actual, field, fault', hcheck', he, ha, -, hunmet, hreported⟩ := hfails hne
  obtain rfl : fault = fault' := Except.error.inj (Option.some.inj (hcheck.symm.trans hcheck'))
  exact ⟨trial, observations, hread, hrun, hlength, run, expected, actual, field, fault, hcheck, hmessage,
    he, ha, hunmet, hreported⟩

end ScriptEngine
