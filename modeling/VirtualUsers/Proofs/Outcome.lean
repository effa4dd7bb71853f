import VirtualUsers.Failure
/-!
# What comes of attempts

One equation for each way in which attempts are put together: its result, and the state after it.
Everything that is shown about the operations of a bridge is read off these equations.
-/

namespace VirtualUsers

variable {σ τ ε α β : Type}

/-! ## Results -/

/-- If a result is got in two stages then both succeed. -/
theorem bind_eq_ok {r : Except ε α} {f : α → Except ε β} {c : β}
    (h : r >>= f = .ok c) : ∃ a, r = .ok a ∧ f a = .ok c := by
  cases r with
  | error e => cases h
  | ok a => exact ⟨a, rfl, h⟩

theorem map_eq_ok {r : Except Failure α} {f : α → β} {c : β} (h : r.map f = .ok c) :
    ∃ a, r = .ok a ∧ f a = c := by
  cases r with
  | error e => cases h
  | ok a => exact ⟨a, rfl, Except.ok.inj h⟩

theorem ok_bind {r : Except Failure α} {f : α → Except Failure β}
    (hr : ∃ a, r = .ok a) (hf : ∀ a, ∃ c, f a = .ok c) : ∃ c, r >>= f = .ok c := by
  obtain ⟨a, rfl⟩ := hr
  exact hf a

/-! ## Attempts -/

namespace Attempt

theorem mapError_error (name : Failure → Failure) (e : Failure) :
    (.error e : Except Failure α).mapError name = .error (name e) := rfl

/-- Goes on with the result of a first attempt, or ends with its failure. -/
def follow (f : α → Attempt σ β) : Except Failure α × σ → Except Failure β × σ
  | (.ok a, t) => (f a).outcome t
  | (.error e, t) => (.error e, t)

@[simp] theorem follow_ok (f : α → Attempt σ β) (a : α) (t : σ) :
    follow f (.ok a, t) = (f a).outcome t := rfl

@[simp] theorem follow_error (f : α → Attempt σ β) (e : Failure) (t : σ) :
    follow f (.error e, t) = (.error e, t) := rfl

@[simp] theorem outcome_pure (a : α) (s : σ) : (pure a : Attempt σ α).outcome s = (.ok a, s) := rfl

@[simp] theorem outcome_throw (e : Failure) (s : σ) :
    (throw e : Attempt σ α).outcome s = (.error e, s) := rfl

@[simp] theorem outcome_bind (x : Attempt σ α) (f : α → Attempt σ β) (s : σ) :
    (x >>= f).outcome s = follow f (x.outcome s) := by
  change (ExceptT.bindCont f (x.outcome s).1).run (x.outcome s).2 = _
  rcases x.outcome s with ⟨_ | _, t⟩ <;> rfl

@[simp] theorem outcome_map (g : α → β) (x : Attempt σ α) (s : σ) :
    (g <$> x).outcome s = ((x.outcome s).1.map g, (x.outcome s).2) := by
  rw [map_eq_pure_bind, outcome_bind]
  rcases x.outcome s with ⟨_ | _, t⟩ <;> rfl

/-- What is returned does not matter for the state. -/
theorem state_return (x : Attempt σ α) (g : α → β) (s : σ) :
    ((x >>= fun a => pure (g a)).outcome s).2 = (x.outcome s).2 := by
  rw [outcome_bind]
  rcases x.outcome s with ⟨_ | _, t⟩ <;> rfl

@[simp] theorem outcome_get (s : σ) : (get : Attempt σ σ).outcome s = (.ok s, s) := rfl

@[simp] theorem outcome_modify (f : σ → σ) (s : σ) :
    (modify f : Attempt σ Unit).outcome s = (.ok (), f s) := rfl

@[simp] theorem outcome_set (s t : σ) : (set t : Attempt σ Unit).outcome s = (.ok (), t) := rfl

@[simp] theorem outcome_ofResult (r : Except Failure α) (s : σ) :
    (ofResult r : Attempt σ α).outcome s = (r, s) := by
  cases r <;> rfl

/-- Something is checked first. What holds before, and after the rest, holds in any case. -/
theorem state_check {P : σ → Prop} {r : Except Failure α} {f : α → Attempt σ β} {s : σ} (hs : P s)
    (hf : ∀ a, r = .ok a → P ((f a).outcome s).2) : P ((ofResult r >>= f).outcome s).2 := by
  rw [outcome_bind, outcome_ofResult]
  cases r with
  | error e => exact hs
  | ok a => exact hf a rfl

/-- What is read does not matter for the state. -/
theorem state_reading (x : Attempt σ α) (g : α → Except Failure β) (s : σ) :
    ((x >>= fun a => ofResult (g a)).outcome s).2 = (x.outcome s).2 := by
  rw [outcome_bind]
  rcases x.outcome s with ⟨_ | a, t⟩
  · rfl
  · rw [follow_ok, outcome_ofResult]

theorem outcome_tryCatch (x : Attempt σ α) (f : Failure → Attempt σ α) (s : σ) :
    (tryCatch x f).outcome s =
      match x.outcome s with
      | (.ok a, t) => (.ok a, t)
      | (.error e, t) => (f e).outcome t := by
  unfold outcome
  simp only [tryCatch, tryCatchThe, MonadExceptOf.tryCatch, ExceptT.tryCatch, ExceptT.run,
    ExceptT.mk, StateT.run, bind, StateT.bind]
  rcases x s with ⟨_ | _, t⟩ <;> rfl

@[simp] theorem outcome_result (x : Attempt σ α) (s : σ) :
    (result x).outcome s = (.ok (x.outcome s).1, (x.outcome s).2) := by
  rw [result, outcome_tryCatch, outcome_map]
  rcases x.outcome s with ⟨_ | _, t⟩ <;> rfl

theorem outcome_bind_result (x : Attempt σ α) (f : α → Attempt σ β) (s : σ) :
    (x >>= f).outcome s = (result x >>= fun r => ofResult r >>= f).outcome s := by
  rw [outcome_bind, outcome_bind, outcome_result, follow_ok, outcome_bind, outcome_ofResult]

@[simp] theorem outcome_within (read : σ → τ) (write : τ → σ → σ) (x : Attempt τ α) (s : σ) :
    (within read write x).outcome s =
      ((x.outcome (read s)).1, write (x.outcome (read s)).2 s) := by
  simp only [within, outcome_bind, outcome_get, follow_ok, outcome_modify, outcome_ofResult]

end Attempt

end VirtualUsers
