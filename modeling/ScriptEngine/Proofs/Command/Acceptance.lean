import ScriptEngine.Proofs.Command.Matching

/-!
# Which calls are matched

`Arity.AdmitsCount` says how many arguments an arity takes, `Arity.InForce` which parameters stand against
them, and `Misfit` that an argument is not of the type declared at its index. None of the three refers to
the matching, and none of them asks that the declaration is in order.

* `firstMismatch?_cases`: of several misfits the leftmost one is found;
* `Arity.bind_cases`: the number of arguments is checked first, and then their types against the parameters
  in force;
* `matching_accepts_declared_calls`: so exactly the calls without a fault of either kind are matched, and
  bound to their arguments and the defaults behind them.
-/

namespace ScriptEngine

/-- A list of parameters takes a number of arguments: none is missing but for optional ones, and there are
not too many. -/
def TakesCount (parameters : List Parameter) (count : Nat) : Prop :=
  requiredCount parameters ≤ count ∧ count ≤ parameters.length

/-- A parameter set is the first one, in the order of declaration, whose bounds a number of arguments
keeps. -/
structure ParameterSet.IsFirst (sets : List ParameterSet) (count : Nat) (set : ParameterSet) : Prop where
  bounds : set.least ≤ count ∧ count ≤ set.most
  first : ∃ before after, sets = before ++ set :: after ∧
    ∀ earlier ∈ before, ¬ (earlier.least ≤ count ∧ count ≤ earlier.most)

/-- The numbers of arguments that an arity takes. -/
def Arity.AdmitsCount (arity : Arity) (count : Nat) : Prop :=
  match arity with
  | .simple fixed => count = fixed
  | .standard parameters => TakesCount parameters count
  | .parametric sets => ∃ set, ParameterSet.IsFirst sets count set ∧ TakesCount set.parameters count
  | .variadic leading _ => requiredCount leading ≤ count

/-- The parameters that stand against a number of arguments, the type of those beyond them, and the name of
the set that the parameters are from. -/
inductive Arity.InForce (count : Nat) :
    Arity → List Parameter → Option DataType → Option String → Prop
  | simple (fixed : Nat) : InForce count (.simple fixed) [] none none
  | standard (parameters : List Parameter) : InForce count (.standard parameters) parameters none none
  | parametric {sets : List ParameterSet} {set : ParameterSet}
      (first : ParameterSet.IsFirst sets count set) :
      InForce count (.parametric sets) set.parameters none (some set.name)
  | variadic (leading : List Parameter) (rest : DataType) :
      InForce count (.variadic leading rest) leading (some rest) none

/-- How the argument at an index is described, and its type. -/
def declaredAt? (parameters : List Parameter) (rest : Option DataType) (i : Nat) :
    Option (String × DataType) :=
  match parameters[i]? with
  | some p => some (p.description, p.dataType)
  | none => rest.map fun type => ("variadic tail", type)

/-- The argument at an index is not of the type that is declared there. -/
structure Misfit (parameters : List Parameter) (rest : Option DataType) (arguments : List Value) (i : Nat)
    (description : String) (type : DataType) (v : Value) : Prop where
  declared : declaredAt? parameters rest i = some (description, type)
  given : arguments[i]? = some v
  refused : type.accepts v = false

/-- An arity declares another type for the argument at an index than it has. -/
def Arity.MisfitAt (arity : Arity) (arguments : List Value) (i : Nat) (description : String)
    (type : DataType) (v : Value) : Prop :=
  ∃ parameters rest set, arity.InForce arguments.length parameters rest set ∧
    Misfit parameters rest arguments i description type v

/-! ## The leftmost misfit -/

variable {parameters : List Parameter} {rest : Option DataType} {arguments : List Value} {v w : Value}
  {i : Nat} {description : String} {type : DataType}

theorem misfit_zero :
    Misfit parameters rest (v :: arguments) 0 description type w ↔
      declaredAt? parameters rest 0 = some (description, type) ∧ v = w ∧ type.accepts w = false := by
  constructor
  · rintro ⟨hd, hg, hr⟩
    exact ⟨hd, Option.some.inj hg, hr⟩
  · rintro ⟨hd, rfl, hr⟩
    exact ⟨hd, rfl, hr⟩

theorem misfit_cons_succ {p : Parameter} :
    Misfit (p :: parameters) rest (v :: arguments) (i + 1) description type w ↔
      Misfit parameters rest arguments i description type w :=
  ⟨fun h => ⟨h.declared, h.given, h.refused⟩, fun h => ⟨h.declared, h.given, h.refused⟩⟩

theorem misfit_nil_succ :
    Misfit [] rest (v :: arguments) (i + 1) description type w ↔
      Misfit [] rest arguments i description type w :=
  ⟨fun h => ⟨h.declared, h.given, h.refused⟩, fun h => ⟨h.declared, h.given, h.refused⟩⟩

/-- What is found when arguments are compared with their declared types from left to right. -/
def Finds (found : Option MatchFault) (index : Nat) (parameters : List Parameter)
    (rest : Option DataType) (arguments : List Value) : Prop :=
  (found = none ∧ ∀ i description type v, ¬ Misfit parameters rest arguments i description type v) ∨
  ∃ i description type v, Misfit parameters rest arguments i description type v ∧
    (∀ j < i, ∀ description type v, ¬ Misfit parameters rest arguments j description type v) ∧
    found = some (.wrongType (index + i) description type v.dataType)

/-- A first argument that fits is passed over. -/
theorem Finds.cons {found : Option MatchFault} {index : Nat} {parameters' : List Parameter}
    (h : Finds found (index + 1) parameters' rest arguments)
    (hfirst : ∀ description type w, ¬ Misfit parameters rest (v :: arguments) 0 description type w)
    (hlater : ∀ i description type w, Misfit parameters rest (v :: arguments) (i + 1) description type w ↔
      Misfit parameters' rest arguments i description type w) :
    Finds found index parameters rest (v :: arguments) := by
  rcases h with ⟨hnone, hfits⟩ | ⟨i, description, type, w, hmisfit, hbefore, hfound⟩
  · refine .inl ⟨hnone, fun i description type w => ?_⟩
    cases i with
    | zero => exact hfirst description type w
    | succ i => exact mt (hlater i description type w).mp (hfits i description type w)
  · refine .inr ⟨i + 1, description, type, w, (hlater i description type w).mpr hmisfit,
      fun j hj description type w => ?_, ?_⟩
    · cases j with
      | zero => exact hfirst description type w
      | succ j => exact mt (hlater j description type w).mp (hbefore j (by omega) description type w)
    · rw [hfound]
      congr 2
      omega

/-- A first argument that does not fit is found. -/
theorem Finds.first {index : Nat} (h : declaredAt? parameters rest 0 = some (description, type))
    (hr : type.accepts v = false) :
    Finds (some (.wrongType index description type v.dataType)) index parameters rest (v :: arguments) :=
  .inr ⟨0, description, type, v, misfit_zero.mpr ⟨h, rfl, hr⟩, fun _ hj => absurd hj (Nat.not_lt_zero _),
    rfl⟩

theorem not_misfit_zero {declared : DataType}
    (h : ∀ description type, declaredAt? parameters rest 0 = some (description, type) → type = declared)
    (ha : declared.accepts v = true) (description : String) (type : DataType) (w : Value) :
    ¬ Misfit parameters rest (v :: arguments) 0 description type w := by
  rw [misfit_zero]
  rintro ⟨hd, rfl, hr⟩
  rw [h description type hd, ha] at hr
  cases hr

theorem firstMismatch?_cases (index : Nat) (rest : Option DataType) (parameters : List Parameter)
    (arguments : List Value) :
    Finds (firstMismatch? index rest parameters arguments) index parameters rest arguments := by
  fun_induction firstMismatch? index rest parameters arguments with
  | case1 => exact .inl ⟨rfl, fun _ _ _ _ h => by cases h.given⟩
  | case2 index p parameters v arguments ha ih =>
    exact ih.cons (not_misfit_zero (by rintro _ _ ⟨⟩; rfl) ha) fun _ _ _ _ => misfit_cons_succ
  | case3 index p parameters v arguments ha => exact .first rfl (by simpa using ha)
  | case4 index v arguments type hr ha ih =>
    subst hr
    exact ih.cons (not_misfit_zero (by rintro _ _ ⟨⟩; rfl) ha) fun _ _ _ _ => misfit_nil_succ
  | case5 index v arguments type hr ha =>
    subst hr
    exact .first rfl (by simpa using ha)
  | case6 index v arguments hr =>
    subst hr
    exact .inl ⟨rfl, fun _ _ _ _ h => by cases h.declared⟩

variable {arity : Arity} {sets : List ParameterSet} {set set' : ParameterSet} {count : Nat}

theorem ParameterSet.isFirst_iff :
    IsFirst sets count set ↔ sets.find? (·.admits count) = some set := by
  have hadmits (s : ParameterSet) : s.admits count = true ↔ s.least ≤ count ∧ count ≤ s.most := by
    simp [admits]
  rw [List.find?_eq_some_iff_append, hadmits]
  simp only [Bool.not_eq_true', ← Bool.not_eq_true, hadmits]
  exact ⟨fun h => ⟨h.bounds, h.first⟩, fun h => ⟨h.1, h.2⟩⟩

theorem ParameterSet.IsFirst.unique (h : IsFirst sets count set) (h' : IsFirst sets count set') :
    set = set' :=
  Option.some.inj ((isFirst_iff.mp h).symm.trans (isFirst_iff.mp h'))

theorem Arity.InForce.unique {parameters' : List Parameter} {rest' : Option DataType}
    {name name' : Option String} (h : arity.InForce count parameters rest name)
    (h' : arity.InForce count parameters' rest' name') :
    parameters' = parameters ∧ rest' = rest ∧ name' = name := by
  cases h with
  | simple | standard | variadic =>
    cases h'
    exact ⟨rfl, rfl, rfl⟩
  | parametric first =>
    cases h' with
    | parametric first' =>
      rw [first.unique first']
      exact ⟨rfl, rfl, rfl⟩

theorem Arity.misfitAt_iff {name : Option String}
    (h : arity.InForce arguments.length parameters rest name) :
    arity.MisfitAt arguments i description type v ↔
      Misfit parameters rest arguments i description type v := by
  constructor
  · rintro ⟨parameters', rest', name', h', hm⟩
    obtain ⟨rfl, rfl, -⟩ := h.unique h'
    exact hm
  · exact fun hm => ⟨_, _, _, h, hm⟩

/-! ## Matching -/

/-- A list of parameters checks the number of arguments, and then their types. -/
theorem bindParameters_cases (parameters : List Parameter) (name : Option String)
    (arguments : List Value) :
    (¬ TakesCount parameters arguments.length ∧
      bindParameters parameters name arguments =
        .error (.between (requiredCount parameters) parameters.length arguments.length)) ∨
    (TakesCount parameters arguments.length ∧
      bindParameters parameters name arguments = bindTyped parameters none name arguments) := by
  unfold bindParameters TakesCount
  by_cases h : arguments.length < requiredCount parameters ∨ parameters.length < arguments.length
  · exact .inl ⟨by omega, if_pos h⟩
  · exact .inr ⟨by omega, if_neg h⟩

/-- The number of arguments decides alone whether there is a fault of the first kind. If there is none, the
arguments are compared with the parameters in force. -/
theorem Arity.bind_cases (arity : Arity) (arguments : List Value) :
    (¬ arity.AdmitsCount arguments.length ∧
      ∃ fault, arity.bind arguments = .error fault ∧ fault.kind = .arityMismatch) ∨
    (arity.AdmitsCount arguments.length ∧
      ∃ parameters rest name, arity.InForce arguments.length parameters rest name ∧
        arity.bind arguments = bindTyped parameters rest name arguments) := by
  cases arity with
  | simple fixed =>
    by_cases h : arguments.length = fixed
    · refine .inr ⟨h, [], none, none, .simple fixed, ?_⟩
      cases arguments <;> simp [bind, bindTyped, firstMismatch?, h]
    · exact .inl ⟨h, _, if_neg h, rfl⟩
  | standard parameters =>
    rcases bindParameters_cases parameters none arguments with ⟨hcount, hbind⟩ | ⟨hcount, hbind⟩
    · exact .inl ⟨hcount, _, hbind, rfl⟩
    · exact .inr ⟨hcount, parameters, none, none, .standard parameters, hbind⟩
  | parametric sets =>
    cases hset : sets.find? (·.admits arguments.length) with
    | none =>
      have hnone : ¬ (Arity.parametric sets).AdmitsCount arguments.length := by
        rintro ⟨set, hfirst, -⟩
        rw [ParameterSet.isFirst_iff.mp hfirst] at hset
        cases hset
      refine .inl ⟨hnone, .noSet (sets.map fun s => (s.name, s.least, s.most)) arguments.length, ?_, rfl⟩
      simp only [bind, hset]
    | some set =>
      have hfirst : ParameterSet.IsFirst sets arguments.length set := ParameterSet.isFirst_iff.mpr hset
      have hbind : (Arity.parametric sets).bind arguments =
          bindParameters set.parameters (some set.name) arguments := by
        simp only [bind, hset]
      rw [hbind]
      rcases bindParameters_cases set.parameters (some set.name) arguments with
        ⟨hcount, herror⟩ | ⟨hcount, htyped⟩
      · refine .inl ⟨?_, _, herror, rfl⟩
        rintro ⟨set', hfirst', hcount'⟩
        exact hcount (hfirst'.unique hfirst ▸ hcount')
      · exact .inr ⟨⟨set, hfirst, hcount⟩, _, _, _, .parametric hfirst, htyped⟩
  | variadic leading rest =>
    by_cases h : arguments.length < requiredCount leading
    · exact .inl ⟨Nat.not_le.mpr h, _, if_pos h, rfl⟩
    · exact .inr ⟨Nat.le_of_not_lt h, leading, some rest, none, .variadic leading rest, if_neg h⟩

/-- What matching comes to: a fault of the number, a fault at the leftmost misfit, or bindings. -/
inductive Arity.Outcome (name : String) (arity : Arity) (arguments : List Value) :
    Except Cause Bindings → Prop
  | count {fault : MatchFault} (number : ¬ arity.AdmitsCount arguments.length)
      (kind : fault.kind = .arityMismatch) : Outcome name arity arguments (.error (.mismatch name fault))
  | misfit {i : Nat} {description : String} {type : DataType} {v : Value}
      (number : arity.AdmitsCount arguments.length)
      (misfit : arity.MisfitAt arguments i description type v)
      (leftmost : ∀ j < i, ∀ description type v, ¬ arity.MisfitAt arguments j description type v) :
      Outcome name arity arguments (.error (.mismatch name (.wrongType i description type v.dataType)))
  | bound {parameters : List Parameter} {rest : Option DataType} {set : Option String}
      (number : arity.AdmitsCount arguments.length)
      (inForce : arity.InForce arguments.length parameters rest set)
      (fits : ∀ i description type v, ¬ arity.MisfitAt arguments i description type v) :
      Outcome name arity arguments (.ok ⟨filled parameters arguments, arguments.length, set⟩)

theorem Arity.outcome (name : String) (arity : Arity) (arguments : List Value) :
    arity.Outcome name arguments (matchArguments name arity arguments) := by
  rw [matchArguments]
  rcases arity.bind_cases arguments with ⟨hn, fault, hbind, hk⟩ | ⟨hn, parameters, rest, set, hf, hbind⟩
  · rw [hbind]
    exact .count hn hk
  · rw [hbind, bindTyped]
    rcases firstMismatch?_cases 0 rest parameters arguments with
      ⟨hnone, hfits⟩ | ⟨i, description, type, v, hmisfit, hleft, hfound⟩
    · rw [hnone]
      exact .bound hn hf fun i description type v => mt (misfitAt_iff hf).mp (hfits i description type v)
    · rw [hfound, Nat.zero_add]
      refine .misfit hn ((misfitAt_iff hf).mpr hmisfit) fun j hj description type v => ?_
      exact mt (misfitAt_iff hf).mp (hleft j hj description type v)

/-- An argument misfits in one way only. -/
theorem Arity.MisfitAt.unique {description' : String} {type' : DataType}
    (h : arity.MisfitAt arguments i description type v)
    (h' : arity.MisfitAt arguments i description' type' w) :
    description' = description ∧ type' = type ∧ w = v := by
  obtain ⟨parameters, rest, set, hf, hm⟩ := h
  have hm' := (misfitAt_iff hf).mp h'
  have hdeclared := hm.declared.symm.trans hm'.declared
  have hgiven := hm.given.symm.trans hm'.given
  simp only [Option.some.injEq, Prod.mk.injEq] at hdeclared hgiven
  exact ⟨hdeclared.1.symm, hdeclared.2.symm, hgiven.symm⟩

/-- The first set that takes the number of arguments is the only one that counts. -/
theorem bind_first (hfirst : ParameterSet.IsFirst sets arguments.length set) :
    (Arity.parametric sets).bind arguments = (Arity.parametric [set]).bind arguments := by
  have halone : ParameterSet.IsFirst [set] arguments.length set :=
    ⟨hfirst.bounds, [], [], rfl, fun _ hm => absurd hm List.not_mem_nil⟩
  simp only [Arity.bind, ParameterSet.isFirst_iff.mp hfirst, ParameterSet.isFirst_iff.mp halone]

namespace Arity.Outcome

variable {name : String} {outcome : Except Cause Bindings} (h : arity.Outcome name arguments outcome)
include h

theorem count_iff : (∃ cause, outcome = .error cause ∧ cause.kind = .arityMismatch) ↔
    ¬ arity.AdmitsCount arguments.length := by
  cases h with
  | count number kind => exact iff_of_true ⟨_, rfl, kind⟩ number
  | misfit number misfit leftmost =>
    refine iff_of_false ?_ fun h => h number
    rintro ⟨_, ⟨⟩, hkind⟩
    cases hkind
  | bound number inForce fits =>
    refine iff_of_false ?_ fun h => h number
    rintro ⟨_, ⟨⟩, -⟩

theorem type_iff : (∃ cause, outcome = .error cause ∧ cause.kind = .typeMismatch) ↔
    arity.AdmitsCount arguments.length ∧
      ∃ i description type v, arity.MisfitAt arguments i description type v := by
  cases h with
  | count number kind =>
    refine iff_of_false ?_ fun h => number h.1
    rintro ⟨_, ⟨⟩, hkind⟩
    cases kind.symm.trans hkind
  | @misfit i description type v number misfit leftmost =>
    exact iff_of_true ⟨_, rfl, rfl⟩ ⟨number, i, description, type, v, misfit⟩
  | bound number inForce fits =>
    refine iff_of_false ?_ ?_
    · rintro ⟨_, ⟨⟩, -⟩
    · rintro ⟨-, i, description, type, v, hmisfit⟩
      exact fits i description type v hmisfit

theorem ok_iff : (∃ bindings, outcome = .ok bindings) ↔
    arity.AdmitsCount arguments.length ∧
      ∀ i description type v, ¬ arity.MisfitAt arguments i description type v := by
  cases h with
  | count number kind =>
    refine iff_of_false ?_ fun h => number h.1
    rintro ⟨_, ⟨⟩⟩
  | @misfit i description type v number misfit leftmost =>
    refine iff_of_false ?_ fun h => h.2 i description type v misfit
    rintro ⟨_, ⟨⟩⟩
  | bound number inForce fits => exact iff_of_true ⟨_, rfl⟩ ⟨number, fits⟩

theorem eq_of_leftmost (hn : arity.AdmitsCount arguments.length)
    (hm : arity.MisfitAt arguments i description type v)
    (hl : ∀ j < i, ∀ description type v, ¬ arity.MisfitAt arguments j description type v) :
    outcome = .error (.mismatch name (.wrongType i description type v.dataType)) := by
  cases h with
  | count number kind => exact absurd hn number
  | @misfit j description' type' w number misfit leftmost =>
    -- Neither of the two misfits stands to the left of the other.
    rcases Nat.lt_trichotomy i j with hlt | rfl | hlt
    · exact absurd hm (leftmost i hlt description type v)
    · obtain ⟨rfl, rfl, rfl⟩ := hm.unique misfit
      rfl
    · exact absurd misfit (hl j hlt description' type' w)
  | bound number inForce fits => exact absurd hm (fits i description type v)

theorem bindings_eq {bindings : Bindings} (ho : outcome = .ok bindings) :
    ∃ parameters rest set, arity.InForce arguments.length parameters rest set ∧
      bindings = ⟨filled parameters arguments, arguments.length, set⟩ := by
  cases h with
  | count | misfit => cases ho
  | bound number inForce fits =>
    cases ho
    exact ⟨_, _, _, inForce, rfl⟩

end Arity.Outcome

/-- Exactly the declared calls are matched, whether the declaration is in order or not. There is a fault of
the number of arguments exactly if the arity does not take that number, whatever the types are. If it does,
there is a fault of a type exactly if some argument is not of the type declared at its index, and the fault
names the leftmost one. Otherwise the arguments are bound as they are, and behind them the defaults of the
parameters that are left, or nothing for a parameter without a default. Of several sets the first one that
takes the number gives the parameters and the name, and the others do not matter. -/
theorem matching_accepts_declared_calls (name : String) (arity : Arity) (arguments : List Value) :
    let count := arguments.length
    let outcome := matchArguments name arity arguments
    ((∃ cause, outcome = .error cause ∧ cause.kind = .arityMismatch) ↔ ¬ arity.AdmitsCount count) ∧
    ((∃ cause, outcome = .error cause ∧ cause.kind = .typeMismatch) ↔
      arity.AdmitsCount count ∧ ∃ i description type v, arity.MisfitAt arguments i description type v) ∧
    (∀ i description type v, arity.AdmitsCount count → arity.MisfitAt arguments i description type v →
      (∀ j < i, ∀ description type v, ¬ arity.MisfitAt arguments j description type v) →
      outcome = .error (.mismatch name (.wrongType i description type v.dataType))) ∧
    ((∃ bindings, outcome = .ok bindings) ↔
      arity.AdmitsCount count ∧ ∀ i description type v, ¬ arity.MisfitAt arguments i description type v) ∧
    (∀ bindings, outcome = .ok bindings →
      ∃ parameters rest set, arity.InForce count parameters rest set ∧
        bindings.values = arguments ++ (parameters.drop count).map (fun p => p.default.getD .invalid) ∧
        bindings.supplied = count ∧ bindings.set = set) ∧
    (∀ sets set, arity = .parametric sets → ParameterSet.IsFirst sets count set →
      outcome = matchArguments name (.parametric [set]) arguments) := by
  intro count outcome
  have houtcome : arity.Outcome name arguments outcome := arity.outcome name arguments
  refine ⟨houtcome.count_iff, houtcome.type_iff, fun i description type v => houtcome.eq_of_leftmost,
    houtcome.ok_iff, fun bindings hok => ?_, ?_⟩
  · obtain ⟨parameters, rest, set, hforce, rfl⟩ := houtcome.bindings_eq hok
    exact ⟨parameters, rest, set, hforce, rfl, rfl, rfl⟩
  · rintro sets set rfl hfirst
    show (Arity.bind _ _).mapError _ = (Arity.bind _ _).mapError _
    rw [bind_first hfirst]

/-- A number is refused by the first set that takes one argument, though the second set would match it. -/
theorem second_set_not_tried :
    let text : ParameterSet := ⟨"Text", 0, 1, [⟨"Message", .string, some (.string "")⟩]⟩
    let any : ParameterSet := ⟨"Any", 1, 1, [⟨"Value", .multi, none⟩]⟩
    let arity : Arity := .parametric [text, any]
    arity.AdmitsCount 1 ∧ arity.MisfitAt [.numeric 1] 0 "Message" .string (.numeric 1) ∧
      matchArguments "Show" arity [.numeric 1] =
        .error (.mismatch "Show" (.wrongType 0 "Message" .string .numeric)) ∧
      matchArguments "Show" arity [.numeric 1] = matchArguments "Show" (.parametric [text]) [.numeric 1] ∧
      (matchArguments "Show" (.parametric [any]) [.numeric 1]).isOk = true := by
  intro text any arity
  have hfirst : ParameterSet.IsFirst [text, any] 1 text :=
    ⟨by decide, [], [any], rfl, fun _ hm => absurd hm List.not_mem_nil⟩
  have hcount : arity.AdmitsCount 1 := ⟨text, hfirst, by decide, by decide⟩
  have hmisfit : arity.MisfitAt [.numeric 1] 0 "Message" .string (.numeric 1) :=
    ⟨_, _, _, .parametric hfirst, rfl, rfl, rfl⟩
  obtain ⟨-, -, hfault, -, -, hlater⟩ := matching_accepts_declared_calls "Show" arity [.numeric 1]
  exact ⟨hcount, hmisfit,
    hfault 0 "Message" .string (.numeric 1) hcount hmisfit fun _ hj => absurd hj (Nat.not_lt_zero _),
    hlater _ text rfl hfirst, rfl⟩

end ScriptEngine
