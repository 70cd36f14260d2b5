import RecordGraph.Resolve.Handler
/-! Computations of a host that may fail, run from a state. A run of one after the other that gives something is a run
of both that give something; one that only looks at a result leaves the state alone. -/

namespace RecordGraph.Hosted

variable {σ α β : Type} {x : Hosted σ α} {f : α → Hosted σ β} {r : Except FieldError α} {a a' : α} {b : β}
  {before after : σ}

/-- A step that answers passes its answer and the state on. -/
theorem run_bind (h : x.run before = (.ok a, after)) : (x >>= f).run before = (f a).run after := by
  rw [ExceptT.run_bind]
  simp only [bind, StateT.bind, h]

theorem run_bind_eq_ok : (x >>= f).run before = (.ok b, after) ↔
    ∃ a between, x.run before = (.ok a, between) ∧ (f a).run between = (.ok b, after) := by
  rcases hx : x.run before with ⟨e | a, between⟩
  · have hfail : (x >>= f).run before = (.error e, between) := by
      rw [ExceptT.run_bind]
      simp only [bind, StateT.bind, hx]
      rfl
    rw [hfail]
    constructor
    · intro h
      cases h
    · rintro ⟨_, _, h, _⟩
      cases h
  · rw [run_bind hx]
    constructor
    · intro h
      exact ⟨a, between, rfl, h⟩
    · rintro ⟨_, _, ⟨⟩, h⟩
      exact h

theorem lift_ok_bind (a : α) (k : α → Hosted σ β) :
    (liftM (Except.ok a : Except FieldError α) >>= k) = k a := rfl

theorem run_lift_eq_ok : (liftM r : Hosted σ α).run before = (.ok a, after) ↔ r = .ok a ∧ before = after := by
  cases r with
  | error e => exact iff_of_false nofun nofun
  | ok a' =>
    change ((Except.ok a', before) : Except FieldError α × σ) = _ ↔ _
    simp

theorem run_pure_eq_ok : (pure a : Hosted σ α).run before = (.ok a', after) ↔ a = a' ∧ before = after := by
  change ((Except.ok a, before) : Except FieldError α × σ) = _ ↔ _
  simp

end RecordGraph.Hosted
