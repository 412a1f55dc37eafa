/-!
# Computations that may fail

What follows for the parts of a computation from how the whole of it has ended: both steps of one that
succeeds have succeeded (`ok_of_bind`), a fault comes from one of them (`error_of_bind`), and a fold that
fails has got through the items before the one it fails at (`foldlM_eq_error`).
-/

namespace ScriptEngine

section

variable {ε α β : Type} {tried : Except ε α}

theorem ok_of_bind {next : α → Except ε β} {result : β} (h : tried >>= next = .ok result) :
    ∃ value, tried = .ok value ∧ next value = .ok result := by
  cases tried with
  | error cause => cases h
  | ok value => exact ⟨value, rfl, h⟩

theorem error_of_bind {next : α → Except ε β} {cause : ε} (h : tried >>= next = .error cause) :
    tried = .error cause ∨ ∃ value, tried = .ok value ∧ next value = .error cause := by
  cases tried with
  | error other => exact .inl (congrArg Except.error (Except.error.inj h))
  | ok value => exact .inr ⟨value, rfl, h⟩

theorem ok_of_map {use : α → β} {result : β} (h : tried.map use = .ok result) :
    ∃ value, tried = .ok value ∧ result = use value := by
  cases tried with
  | error cause => cases h
  | ok value => cases h; exact ⟨value, rfl, rfl⟩

theorem ok_of_toOption {value : α} (h : tried.toOption = some value) : tried = .ok value := by
  cases tried with
  | error cause => cases h
  | ok other => exact congrArg Except.ok (Option.some.inj h)

/-- What is known of a result is known of a value. -/
theorem ok_of_toOption_map {use : α → β} {result : β} (h : tried.toOption.map use = some result) :
    ∃ value, tried = .ok value ∧ use value = result := by
  obtain ⟨value, hvalue, hresult⟩ := Option.map_eq_some_iff.mp h
  exact ⟨value, ok_of_toOption hvalue, hresult⟩

end

/-- Where a fold fails it has got through what stands before. -/
theorem foldlM_eq_error {ε σ α : Type} {step : σ → α → Except ε σ} {items : List α} {start : σ}
    {cause : ε} (h : items.foldlM step start = .error cause) :
    ∃ before item after state, items = before ++ item :: after ∧
      before.foldlM step start = .ok state ∧ step state item = .error cause := by
  induction items generalizing start with
  | nil => cases h
  | cons item rest ih =>
    rw [List.foldlM_cons] at h
    rcases error_of_bind h with hfail | ⟨next, hnext, h⟩
    · exact ⟨[], item, rest, start, rfl, rfl, hfail⟩
    · obtain ⟨before, failing, after, state, rfl, hstate, hfail⟩ := ih h
      refine ⟨item :: before, failing, after, state, rfl, ?_, hfail⟩
      rw [List.foldlM_cons, hnext]
      exact hstate

/-- A computation that may also break off goes on with the value that it has. -/
theorem bind_of_ok {ε α β : Type} {x : ExceptT ε Option α} {a : α} (h : x = some (.ok a))
    (f : α → ExceptT ε Option β) : (x >>= f) = f a := by
  rw [h]
  rfl

end ScriptEngine
