import ScriptEngine.Command.Reference
import ScriptEngine.Proofs.Command.Acceptance

/-!
# The bounds that the reference shows

The reference shows the fewest and the most arguments of a command. They are computed from the declaration
alone, apart from the matching of arguments.

* `Arity.takes_iff`: since every type has a value, an arity matches some arguments of a number exactly if
  it admits that number;
* `Arity.admitsCount_parametric`: in a declaration in order the bounds of a parameter set are those of its
  parameters, so the set that is tried first takes every number within its bounds;
* `documented_bounds_are_exact`: so the bounds of a registered command are reached and never passed.
-/

namespace ScriptEngine

variable {arity : Arity} {count : Nat}

/-- Every type has a value. -/
theorem DataType.accepts_zero (type : DataType) : type.accepts (.zero type) = true := by
  cases type <;> rfl

/-- As many arguments as wanted, each of the type that is declared at its index. -/
def sampleArguments (parameters : List Parameter) (rest : Option DataType) (count : Nat) : List Value :=
  (List.range count).map fun i => ((declaredAt? parameters rest i).map fun p => .zero p.2).getD .invalid

theorem length_sampleArguments (parameters : List Parameter) (rest : Option DataType) (count : Nat) :
    (sampleArguments parameters rest count).length = count := by
  rw [sampleArguments, List.length_map, List.length_range]

theorem not_misfit_sampleArguments (parameters : List Parameter) (rest : Option DataType) (count i : Nat)
    (description : String) (type : DataType) (v : Value) :
    ¬ Misfit parameters rest (sampleArguments parameters rest count) i description type v := by
  rintro ⟨hdeclared, hgiven, hrefused⟩
  have hi : i < count := by
    rw [← length_sampleArguments parameters rest count]
    exact (List.getElem?_eq_some_iff.mp hgiven).1
  rw [sampleArguments, List.getElem?_map, List.getElem?_range hi, Option.map_some, hdeclared] at hgiven
  obtain rfl := Option.some.inj hgiven
  exact Bool.eq_false_iff.mp hrefused type.accepts_zero

/-- Parameters are in force for every number of arguments that an arity admits. -/
theorem Arity.exists_inForce (h : arity.AdmitsCount count) :
    ∃ parameters rest set, arity.InForce count parameters rest set := by
  cases arity with
  | simple fixed => exact ⟨_, _, _, .simple fixed⟩
  | standard parameters => exact ⟨_, _, _, .standard parameters⟩
  | parametric sets =>
    obtain ⟨set, hfirst, -⟩ := h
    exact ⟨_, _, _, .parametric hfirst⟩
  | variadic leading rest => exact ⟨_, _, _, .variadic leading rest⟩

/-- Some arguments of a number are matched. -/
def Arity.Takes (arity : Arity) (name : String) (count : Nat) : Prop :=
  ∃ arguments bindings, arguments.length = count ∧ matchArguments name arity arguments = .ok bindings

theorem Arity.takes_iff (arity : Arity) (name : String) (count : Nat) :
    arity.Takes name count ↔ arity.AdmitsCount count := by
  constructor
  · rintro ⟨arguments, bindings, rfl, hm⟩
    exact ((arity.outcome name arguments).ok_iff.mp ⟨bindings, hm⟩).1
  · intro h
    obtain ⟨parameters, rest, set, hforce⟩ := exists_inForce h
    have hl := length_sampleArguments parameters rest count
    generalize hs : sampleArguments parameters rest count = arguments at hl
    subst hl
    have hfits (i : Nat) (description : String) (type : DataType) (v : Value) :
        ¬ arity.MisfitAt arguments i description type v := by
      rw [misfitAt_iff hforce]
      have hn := not_misfit_sampleArguments parameters rest arguments.length i description type v
      rwa [hs] at hn
    obtain ⟨bindings, hm⟩ := (arity.outcome name arguments).ok_iff.mpr ⟨h, hfits⟩
    exact ⟨arguments, bindings, rfl, hm⟩

/-- The bounds of a parameter set are those of its parameters. -/
structure ParameterSet.Bounded (set : ParameterSet) : Prop where
  least : set.least = requiredCount set.parameters
  most : set.most = set.parameters.length

theorem requiredCount_le (parameters : List Parameter) : requiredCount parameters ≤ parameters.length :=
  (List.takeWhile_prefix _).length_le

theorem ParameterSet.Bounded.takesCount_iff {set : ParameterSet} (h : set.Bounded) :
    TakesCount set.parameters count ↔ set.least ≤ count ∧ count ≤ set.most := by
  rw [TakesCount, h.least, h.most]

theorem ParameterSet.Bounded.least_le_most {set : ParameterSet} (h : set.Bounded) :
    set.least ≤ set.most := by
  rw [h.least, h.most]
  exact requiredCount_le set.parameters

theorem ParameterSet.bounded_of_fault? {set : ParameterSet} (h : set.fault? = none) : set.Bounded := by
  rw [fault?] at h
  split at h
  · cases h
  · rename_i hbounds
    split at h
    · cases h
    · split at h
      · cases h
      · rename_i hrequired
        exact ⟨(Decidable.of_not_not hrequired).symm, by omega⟩

/-- Sets in order: there is one at least, and the bounds of all are those of their parameters. -/
theorem Arity.bounded_of_fault? {sets : List ParameterSet} (h : (Arity.parametric sets).fault? = none) :
    sets ≠ [] ∧ ∀ set ∈ sets, set.Bounded := by
  rw [fault?] at h
  split at h
  · cases h
  · rename_i hempty
    exact ⟨fun he => hempty (List.isEmpty_iff.mpr he),
      fun set hm => ParameterSet.bounded_of_fault? (setsFault?_eq_none h set hm)⟩

/-- Of the sets whose bounds a number keeps one is the first. -/
theorem ParameterSet.exists_isFirst {sets : List ParameterSet} {set : ParameterSet} (hm : set ∈ sets)
    (hb : set.least ≤ count ∧ count ≤ set.most) : ∃ first ∈ sets, IsFirst sets count first := by
  have hsome : (sets.find? (·.admits count)).isSome = true := by
    refine List.find?_isSome.mpr ⟨set, hm, ?_⟩
    simpa [admits] using hb
  obtain ⟨first, hf⟩ := Option.isSome_iff_exists.mp hsome
  exact ⟨first, List.mem_of_find?_eq_some hf, isFirst_iff.mpr hf⟩

theorem Arity.admitsCount_parametric {sets : List ParameterSet} (h : ∀ set ∈ sets, set.Bounded) :
    (Arity.parametric sets).AdmitsCount count ↔ ∃ set ∈ sets, set.least ≤ count ∧ count ≤ set.most := by
  constructor
  · rintro ⟨set, hfirst, -⟩
    exact ⟨set, List.mem_of_find?_eq_some (ParameterSet.isFirst_iff.mp hfirst), hfirst.bounds⟩
  · rintro ⟨set, hm, hb⟩
    -- The set that is tried may be another one, whose bounds the number keeps as well.
    obtain ⟨first, hf, hfirst⟩ := ParameterSet.exists_isFirst hm hb
    exact ⟨first, hfirst, (h first hf).takesCount_iff.mpr hfirst.bounds⟩

/-! ## Least and greatest numbers -/

/-- The least of the least numbers of sets. -/
theorem leastArguments_parametric {sets : List ParameterSet} (hne : sets ≠ []) :
    (∃ set ∈ sets, set.least = (Arity.parametric sets).leastArguments) ∧
      ∀ set ∈ sets, (Arity.parametric sets).leastArguments ≤ set.least := by
  rw [Arity.leastArguments]
  cases hmin : (sets.map (·.least)).min? with
  | none => exact absurd (List.map_eq_nil_iff.mp (List.min?_eq_none_iff.mp hmin)) hne
  | some least =>
    obtain ⟨hmem, hle⟩ := List.min?_eq_some_iff.mp hmin
    exact ⟨List.mem_map.mp hmem, fun set hm => hle _ (List.mem_map_of_mem hm)⟩

/-- The greatest of the greatest numbers of sets. -/
theorem mostArguments_parametric {sets : List ParameterSet} (hne : sets ≠ []) :
    ∃ most, (Arity.parametric sets).mostArguments = some most ∧ (∃ set ∈ sets, set.most = most) ∧
      ∀ set ∈ sets, set.most ≤ most := by
  rw [Arity.mostArguments]
  cases hmax : (sets.map (·.most)).max? with
  | none => exact absurd (List.map_eq_nil_iff.mp (List.max?_eq_none_iff.mp hmax)) hne
  | some most =>
    obtain ⟨hmem, hle⟩ := List.max?_eq_some_iff.mp hmax
    exact ⟨most, rfl, List.mem_map.mp hmem, fun set hm => hle _ (List.mem_map_of_mem hm)⟩

/-- A number of arguments lies within the bounds of an arity. -/
structure Arity.Within (arity : Arity) (count : Nat) : Prop where
  enough : arity.leastArguments ≤ count
  atMost : ∀ most, arity.mostArguments = some most → count ≤ most

/-- What an arity with one signature admits is all that lies within its bounds. -/
theorem Arity.admitsCount_single (h : ∀ sets, arity ≠ .parametric sets) :
    arity.AdmitsCount count ↔ arity.Within count := by
  cases arity with
  | simple fixed =>
    constructor
    · rintro rfl
      exact ⟨Nat.le_refl _, by rintro _ ⟨⟩; exact Nat.le_refl _⟩
    · exact fun h => Nat.le_antisymm (h.atMost fixed rfl) h.enough
  | standard parameters =>
    constructor
    · exact fun h => ⟨h.1, by rintro _ ⟨⟩; exact h.2⟩
    · exact fun h => ⟨h.enough, h.atMost _ rfl⟩
  | parametric sets => exact absurd rfl (h sets)
  | variadic leading rest => exact ⟨fun h => ⟨h, nofun⟩, fun h => h.enough⟩

/-- The bounds of an arity in order are numbers that it admits, and it admits none beyond them. -/
structure Arity.Exact (arity : Arity) : Prop where
  within : ∀ count, arity.AdmitsCount count → arity.Within count
  least : arity.AdmitsCount arity.leastArguments
  most : ∀ most, arity.mostArguments = some most → arity.AdmitsCount most

theorem Arity.exact_of_fault? (h : arity.fault? = none) : arity.Exact := by
  by_cases hp : ∃ sets, arity = .parametric sets
  · obtain ⟨sets, rfl⟩ := hp
    obtain ⟨hne, hbounded⟩ := bounded_of_fault? h
    obtain ⟨⟨lowest, hlowest, hleast⟩, hbelow⟩ := leastArguments_parametric hne
    obtain ⟨most, hmost, ⟨highest, hhighest, rfl⟩, habove⟩ := mostArguments_parametric hne
    have hadmits (count : Nat) := @admitsCount_parametric count sets hbounded
    refine ⟨fun count hc => ?_, ?_, ?_⟩
    · obtain ⟨set, hm, hb⟩ := (hadmits count).mp hc
      refine ⟨Nat.le_trans (hbelow set hm) hb.1, fun limit hl => ?_⟩
      obtain rfl := Option.some.inj (hmost.symm.trans hl)
      exact Nat.le_trans hb.2 (habove set hm)
    · rw [hadmits, ← hleast]
      exact ⟨lowest, hlowest, Nat.le_refl _, (hbounded lowest hlowest).least_le_most⟩
    · intro limit hl
      obtain rfl := Option.some.inj (hmost.symm.trans hl)
      rw [hadmits]
      exact ⟨highest, hhighest, (hbounded highest hhighest).least_le_most, Nat.le_refl _⟩
  · have hsingle (count : Nat) := @admitsCount_single arity count (not_exists.mp hp)
    have hbounds (most : Nat) (hm : arity.mostArguments = some most) : arity.leastArguments ≤ most := by
      cases arity with
      | simple fixed =>
        cases hm
        exact Nat.le_refl _
      | standard parameters =>
        cases hm
        exact requiredCount_le parameters
      | parametric sets => exact absurd ⟨sets, rfl⟩ hp
      | variadic leading rest => cases hm
    refine ⟨fun count => (hsingle count).mp, (hsingle _).mpr ⟨Nat.le_refl _, hbounds⟩, fun most hm => ?_⟩
    refine (hsingle most).mpr ⟨hbounds most hm, fun limit hl => ?_⟩
    exact Nat.le_of_eq (Option.some.inj (hm.symm.trans hl))

/-- The bounds that the reference shows of a registered command are exact. It takes no number of arguments
outside of them, and it takes the fewest and, if there is a limit, the most arguments. A command with one
signature takes every number between; one with several parameter sets takes exactly the numbers that lie
within the bounds of some set. -/
theorem documented_bounds_are_exact {table after : CommandTable} {command : Command}
    (h : table.register command = .ok after) :
    let takes := command.arity.Takes command.name
    let least := command.entry.leastArguments
    let most := command.entry.mostArguments
    (∀ count, takes count → least ≤ count ∧ ∀ limit, most = some limit → count ≤ limit) ∧
    takes least ∧
    (∀ limit, most = some limit → takes limit) ∧
    ((∀ sets, command.arity ≠ .parametric sets) →
      ∀ count, least ≤ count → (∀ limit, most = some limit → count ≤ limit) → takes count) ∧
    ∀ sets, command.arity = .parametric sets →
      ∀ count, takes count ↔ ∃ set ∈ sets, set.least ≤ count ∧ count ≤ set.most := by
  intro takes least most
  have htakes (count : Nat) : takes count ↔ command.arity.AdmitsCount count :=
    command.arity.takes_iff command.name count
  have hfault : command.arity.fault? = none := CommandTable.fault?_of_register h
  have hexact := Arity.exact_of_fault? hfault
  refine ⟨fun count hc => ?_, (htakes least).mpr hexact.least,
    fun limit hl => (htakes limit).mpr (hexact.most limit hl), fun hsingle count hl hm => ?_,
    fun sets hs count => ?_⟩
  · have hwithin := hexact.within count ((htakes count).mp hc)
    exact ⟨hwithin.enough, hwithin.atMost⟩
  · exact (htakes count).mpr ((Arity.admitsCount_single hsingle).mpr ⟨hl, hm⟩)
  · rw [htakes, hs]
    rw [hs] at hfault
    exact Arity.admitsCount_parametric (Arity.bounded_of_fault? hfault).2

/-- A command with two parameter sets, between whose bounds lies a gap. -/
def gapCommand : Command where
  name := "Gap"
  arity := .parametric
    [⟨"Short", 0, 1, [⟨"Text", .string, some (.string "")⟩]⟩,
      ⟨"Long", 3, 4, [⟨"X", .numeric, none⟩, ⟨"Y", .numeric, none⟩, ⟨"Target", .reference, none⟩,
        ⟨"Note", .multi, some (.numeric 0)⟩]⟩]
  returnType := .invalid
  handler _ := .ok (.value .invalid)

/-- The command takes none and four arguments, as the reference says, but not two. -/
theorem gap_bounds_are_exact :
    ∃ after, CommandTable.empty.register gapCommand = .ok after ∧
      gapCommand.entry.leastArguments = 0 ∧ gapCommand.entry.mostArguments = some 4 ∧
      gapCommand.arity.Takes "Gap" 0 ∧ gapCommand.arity.Takes "Gap" 4 ∧
      ¬ gapCommand.arity.Takes "Gap" 2 := by
  have hr : CommandTable.empty.rejects? gapCommand = none := by decide +kernel
  obtain ⟨after, ha⟩ : ∃ after, CommandTable.empty.register gapCommand = .ok after := by
    rw [CommandTable.register, hr]
    exact ⟨_, rfl⟩
  obtain ⟨-, hleast, hmost, -, hsets⟩ := documented_bounds_are_exact ha
  refine ⟨after, ha, rfl, rfl, hleast, hmost 4 rfl, fun htwo => ?_⟩
  obtain ⟨set, hm, hb⟩ := (hsets _ rfl 2).mp htwo
  rcases List.mem_cons.mp hm with rfl | hm
  · exact absurd hb (by decide)
  · obtain rfl := List.mem_singleton.mp hm
    exact absurd hb (by decide)

end ScriptEngine
