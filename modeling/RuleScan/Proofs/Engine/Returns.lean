import RuleScan.Engine.Evaluate

/-!
# Runs that end well

A step of a run takes a state to a value or a failure and a new state.  `x.Yields s a s'` says that
`x` takes the state `s` to the value `a` and the state `s'`; `x.Returns a` that it gives `a` from
EVERY state, which is how a computation that starts no program behaves; `x.Fails P` that whatever
`x` fails with has the property `P`.  The composition rules below are all that later modules know
about the monad.
-/

namespace RuleScan.RunM

variable {α β : Type}

/-- From a state, a step ends well with a value and leaves another state. -/
def Yields (x : RunM α) (s : Run) (a : α) (s' : Run) : Prop := x.run.run s = (.ok a, s')

/-- From every state, a step ends well with a value. -/
def Returns (x : RunM α) (a : α) : Prop := ∀ s, ∃ s', x.Yields s a s'

theorem Yields.pure (a : α) (s : Run) : Yields (Pure.pure a) s a s := rfl

theorem run_bind (x : RunM α) (f : α → RunM β) (s : Run) :
    (x >>= f).run.run s = match x.run.run s with
      | (.ok a, s') => (f a).run.run s'
      | (.error e, s') => (.error e, s') := by
  show ExceptT.bindCont f (x.run.run s).1 (x.run.run s).2 = _
  rcases x.run.run s with ⟨e | a, s'⟩ <;> rfl

theorem run_tryCatch (x : RunM α) (handle : Failure → RunM α) (s : Run) :
    (tryCatch x handle).run.run s = match x.run.run s with
      | (.ok a, s') => (.ok a, s')
      | (.error e, s') => (handle e).run.run s' := by
  rw [ExceptT.run_tryCatch, StateT.run_bind]
  rcases x.run.run s with ⟨e | a, s'⟩ <;> rfl

theorem Yields.bind {x : RunM α} {f : α → RunM β} {s s' s'' : Run} {a : α} {b : β}
    (hx : x.Yields s a s') (hf : (f a).Yields s' b s'') : (x >>= f).Yields s b s'' := by
  rw [Yields, run_bind, hx]
  exact hf

/-- A value that comes out of two steps comes out of the second, after the first. -/
theorem Yields.of_bind {x : RunM α} {f : α → RunM β} {s s'' : Run} {b : β}
    (h : (x >>= f).Yields s b s'') : ∃ a s', x.Yields s a s' ∧ (f a).Yields s' b s'' := by
  rw [Yields, run_bind] at h
  split at h
  · next a s' hx => exact ⟨a, s', hx, h⟩
  · cases h

/-- A handler is not asked when nothing fails. -/
theorem Yields.tryCatch {x : RunM α} {handle : Failure → RunM α} {s s' : Run} {a : α}
    (hx : x.Yields s a s') : Yields (MonadExcept.tryCatch x handle) s a s' := by
  rw [Yields, run_tryCatch, hx]

/-- Where no handler ends well, what comes out was not handled. -/
theorem Yields.of_tryCatch {x : RunM α} {handle : Failure → RunM α} {s s' : Run} {a : α}
    (hhandle : ∀ f s₁, ¬ (handle f).Yields s₁ a s')
    (h : Yields (MonadExcept.tryCatch x handle) s a s') : x.Yields s a s' := by
  rw [Yields, run_tryCatch] at h
  split at h
  · next b s₁ hx =>
      cases h
      exact hx
  · next f s₁ hx => exact absurd h (hhandle f s₁)

theorem Yields.unique {x : RunM α} {s s₁ s₂ : Run} {a b : α} (ha : x.Yields s a s₁)
    (hb : x.Yields s b s₂) : a = b ∧ s₁ = s₂ := by
  have h : ((Except.ok a : Except Failure α), s₁) = (.ok b, s₂) := ha.symm.trans hb
  simpa using h

/-! ## From every state -/

theorem Returns.pure (a : α) : Returns (Pure.pure a) a := fun s => ⟨s, Yields.pure a s⟩

theorem Returns.bind {x : RunM α} {f : α → RunM β} {a : α} {b : β} (hx : x.Returns a)
    (hf : (f a).Returns b) : (x >>= f).Returns b := by
  intro s
  obtain ⟨s', hx'⟩ := hx s
  obtain ⟨s'', hf'⟩ := hf s'
  exact ⟨s'', hx'.bind hf'⟩

theorem Returns.tryCatch {x : RunM α} {handle : Failure → RunM α} {a : α} (hx : x.Returns a) :
    Returns (MonadExcept.tryCatch x handle) a := by
  intro s
  obtain ⟨s', hx'⟩ := hx s
  exact ⟨s', hx'.tryCatch⟩

theorem Returns.unique {x : RunM α} {a b : α} (ha : x.Returns a) (hb : x.Returns b) : a = b := by
  obtain ⟨s₁, h₁⟩ := ha {}
  obtain ⟨s₂, h₂⟩ := hb {}
  exact (h₁.unique h₂).1

/-! ## Looking at a signal that says nothing -/

theorem yields_look_quiet (s : Run) :
    (look Signal.quiet).Yields s none { s with moment := s.moment + 1 } := rfl

theorem yields_check_quiet (s : Run) :
    (check Signal.quiet).Yields s () { s with moment := s.moment + 1 } := rfl

theorem returns_check_quiet : (check Signal.quiet).Returns () :=
  fun s => ⟨_, yields_check_quiet s⟩

/-! ## Failures -/

/-- Whatever a step fails with has a property. -/
def Fails (P : Failure → Prop) (x : RunM α) : Prop :=
  ∀ s f s', x.run.run s = (.error f, s') → P f

variable {P Q : Failure → Prop}

theorem fails_true (x : RunM α) : Fails (fun _ => True) x := fun _ _ _ _ => trivial

theorem fails_pure (a : α) : Fails P (Pure.pure a : RunM α) := fun _ _ _ h => by cases h

theorem fails_throw {f : Failure} (hf : P f) : Fails P (throw f : RunM α) := by
  intro s f' s' h
  cases h
  exact hf

theorem fails_look (signal : Signal) : Fails P (look signal) := fun _ _ _ h => by cases h

/-- What comes after a step may count on what the step gives. -/
theorem Fails.bind_of {x : RunM α} {f : α → RunM β} (hx : Fails P x)
    (hf : ∀ s a s', x.Yields s a s' → Fails P (f a)) : Fails P (x >>= f) := by
  intro s e s' h
  rw [run_bind] at h
  split at h
  · next a s₁ hrun => exact hf s a s₁ hrun s₁ e s' h
  · next e' s₁ hrun =>
      cases h
      exact hx s e s' hrun

theorem Fails.bind {x : RunM α} {f : α → RunM β} (hx : Fails P x) (hf : ∀ a, Fails P (f a)) :
    Fails P (x >>= f) :=
  hx.bind_of fun _ a _ _ => hf a

/-- A handler tells of the failures it is given in its own way. -/
theorem Fails.tryCatch {x : RunM α} {handle : Failure → RunM α} (hx : Fails P x)
    (hhandle : ∀ f, P f → Fails Q (handle f)) : Fails Q (MonadExcept.tryCatch x handle) := by
  intro s e s' h
  rw [run_tryCatch] at h
  split at h
  · cases h
  · next e' s₁ hrun => exact hhandle e' (hx s e' s₁ hrun) s₁ e s' h

end RuleScan.RunM
