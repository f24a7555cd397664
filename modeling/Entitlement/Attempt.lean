import Entitlement.Failure

/-!
# Attempts

An attempt changes a state step by step and may fail on the way; what the steps before the failure
did remains. A single step (`Attempt.step`) changes the state only if it succeeds, and a look at the
state (`Attempt.look`) never does. `bind_eq_ok` takes a run of two steps apart.
-/

namespace Entitlement

/-- A run over a state that ends in a value or a failure, and in either case in a state. -/
def Attempt (σ α : Type) : Type := σ → Except Failure α × σ

namespace Attempt

variable {σ α β : Type}

def done (a : α) : Attempt σ α := fun s => (.ok a, s)

def fail (failure : Failure) : Attempt σ α := fun s => (.error failure, s)

/-- Runs an attempt, and then the next one unless it failed. -/
def andThen (first : Attempt σ α) (next : α → Attempt σ β) : Attempt σ β := fun s =>
  match first s with
  | (.ok a, s) => next a s
  | (.error failure, s) => (.error failure, s)

instance : Monad (Attempt σ) where
  pure := done
  bind := andThen

/-- Reads something off the state. -/
def look (f : σ → Except Failure α) : Attempt σ α := fun s => (f s, s)

/-- Goes from the state to another one, or fails in it. -/
def step (f : σ → Except Failure (α × σ)) : Attempt σ α := fun s =>
  match f s with
  | .ok (a, s) => (.ok a, s)
  | .error failure => (.error failure, s)

/-- As `step`, without a value. -/
def advance (f : σ → Except Failure σ) : Attempt σ Unit := step fun s => (f s).map ((), ·)

/-- Goes on with a value, or fails for want of it. -/
def given (value : Except Failure α) : Attempt σ α := look fun _ => value

/-! ### Runs taken apart -/

theorem look_apply (f : σ → Except Failure α) (s : σ) : look f s = (f s, s) := rfl

theorem look_ok {f : σ → Except Failure α} {a : α} {s t : σ} (looked : look f s = (.ok a, t)) :
    f s = .ok a ∧ s = t :=
  ⟨congrArg Prod.fst looked, congrArg Prod.snd looked⟩

theorem bind_apply (first : Attempt σ α) (next : α → Attempt σ β) (s : σ) :
    (first >>= next) s =
      match first s with
      | (.ok a, t) => next a t
      | (.error failure, t) => (.error failure, t) := rfl

/-- A run of two that succeeds is a run of each that does. -/
theorem bind_eq_ok {first : Attempt σ α} {next : α → Attempt σ β} {s u : σ} {b : β} :
    (first >>= next) s = (.ok b, u) ↔ ∃ a t, first s = (.ok a, t) ∧ next a t = (.ok b, u) := by
  rw [bind_apply]
  rcases first s with ⟨_ | a, t⟩
  · simp
  · refine ⟨fun h => ⟨a, t, rfl, h⟩, ?_⟩
    rintro ⟨_, _, same, h⟩
    cases same
    exact h

theorem look_bind (f : σ → Except Failure α) (next : α → Attempt σ β) (s : σ) :
    (look f >>= next) s =
      match f s with
      | .ok a => next a s
      | .error failure => (.error failure, s) := by
  rw [bind_apply, look]
  cases f s <;> rfl

theorem fail_bind (failure : Failure) (next : α → Attempt σ β) (s : σ) :
    (fail failure >>= next) s = (.error failure, s) := rfl

theorem advance_apply (f : σ → Except Failure σ) (s : σ) :
    advance f s =
      match f s with
      | .ok t => (.ok (), t)
      | .error failure => (.error failure, s) := by
  rw [advance, step]
  cases f s <;> rfl

end Attempt

end Entitlement
