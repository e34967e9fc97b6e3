import Mathlib.Logic.Basic

/-!
# Computations that raise

A computation over a state that may raise keeps, when it does, whatever it had written
by then: that is what an exception leaves in a language with mutable objects.  The
rules below say when raising leaves a view of the state as it was, and when it does not.
-/

namespace AioMoqt.Lib

/-- A computation over `σ` that may raise an `ε`. -/
abbrev Raising (ε σ : Type) : Type → Type := ExceptT ε (StateM σ)

namespace Raising

variable {ε σ τ α β : Type}

/-- How a computation ends, and the state it leaves. -/
def outcome (x : Raising ε σ α) (s : σ) : Except ε α × σ := x s

/-- A computation that neither reads nor writes. -/
def ofExcept (x : Except ε α) : Raising ε σ α := fun s => (x, s)

@[simp] theorem outcome_pure (a : α) (s : σ) :
    outcome (pure a : Raising ε σ α) s = (.ok a, s) := rfl

@[simp] theorem outcome_ofExcept (x : Except ε α) (s : σ) :
    outcome (ofExcept x : Raising ε σ α) s = (x, s) := rfl

@[simp] theorem outcome_throw (e : ε) (s : σ) :
    outcome (throw e : Raising ε σ α) s = (.error e, s) := rfl

@[simp] theorem outcome_get (s : σ) : outcome (get : Raising ε σ σ) s = (.ok s, s) := rfl

@[simp] theorem outcome_modify (f : σ → σ) (s : σ) :
    outcome (modify f : Raising ε σ Unit) s = (.ok (), f s) := rfl

theorem outcome_bind (x : Raising ε σ α) (f : α → Raising ε σ β) (s : σ) :
    outcome (x >>= f) s = match outcome x s with
      | (.ok a, next) => outcome (f a) next
      | (.error e, next) => (.error e, next) := by
  unfold outcome
  simp only [bind, ExceptT.bind, ExceptT.mk, StateT.bind]
  cases h : x s with
  | mk result next => cases result <;> rfl

theorem outcome_bind_ok {x : Raising ε σ α} {s next : σ} {a : α}
    (h : outcome x s = (.ok a, next)) (f : α → Raising ε σ β) :
    outcome (x >>= f) s = outcome (f a) next := by
  rw [outcome_bind, h]

theorem outcome_bind_error {x : Raising ε σ α} {s next : σ} {e : ε}
    (h : outcome x s = (.error e, next)) (f : α → Raising ε σ β) :
    outcome (x >>= f) s = (.error e, next) := by
  rw [outcome_bind, h]

theorem outcome_get_bind (f : σ → Raising ε σ β) (s : σ) :
    outcome (get >>= f) s = outcome (f s) s := outcome_bind_ok (outcome_get s) f

theorem outcome_modify_bind (g : σ → σ) (f : Unit → Raising ε σ β) (s : σ) :
    outcome (modify g >>= f) s = outcome (f ()) (g s) := outcome_bind_ok (outcome_modify g s) f

/-! ## Raising -/

def Raises (x : Raising ε σ α) (s : σ) : Prop := ∃ e, (outcome x s).1 = .error e

/-- If the computation raises at `s`, the view is what it was. -/
def Kept (view : σ → τ) (x : Raising ε σ α) (s : σ) : Prop :=
  Raises x s → view (outcome x s).2 = view s

/-- However the computation ends, the view is what it was. -/
def Still (view : σ → τ) (x : Raising ε σ α) : Prop := ∀ s, view (outcome x s).2 = view s

variable {view : σ → τ}

theorem Still.kept {x : Raising ε σ α} (h : Still view x) (s : σ) : Kept view x s :=
  fun _ => h s

theorem Still.ofExcept (x : Except ε α) : Still view (Raising.ofExcept x : Raising ε σ α) :=
  fun _ => rfl

theorem Still.throw (e : ε) : Still view (throw e : Raising ε σ α) := fun _ => rfl

theorem Still.pure (a : α) : Still view (pure a : Raising ε σ α) := fun _ => rfl

theorem Still.modify {f : σ → σ} (h : ∀ s, view (f s) = view s) :
    Still view (modify f : Raising ε σ Unit) := h

theorem Still.bind {x : Raising ε σ α} {f : α → Raising ε σ β} (hx : Still view x)
    (hf : ∀ a, Still view (f a)) : Still view (x >>= f) := by
  intro s
  rw [outcome_bind]
  cases h : outcome x s with
  | mk result next =>
      have hnext : view next = view s := by simpa [h] using hx s
      cases result with
      | ok a => exact (hf a next).trans hnext
      | error e => exact hnext

/-- What sees less than a view that stays, stays. -/
theorem Still.factor {ρ : Type} {x : Raising ε σ α} {less : σ → ρ} (g : τ → ρ) (h : Still view x)
    (hless : ∀ s, less s = g (view s)) : Still less x := by
  intro s
  calc
    less (outcome x s).2 = g (view (outcome x s).2) := hless _
    _ = g (view s) := by rw [h s]
    _ = less s := (hless s).symm

/-- What follows a part that leaves the view as it is from then on. -/
theorem Still.after (view : σ → τ) {x : Raising ε σ α} {f : α → Raising ε σ β} {s next : σ}
    {a : α} (h : outcome x s = (.ok a, next)) (hf : Still view (f a)) :
    view (outcome (x >>= f) s).2 = view next := by
  rw [outcome_bind_ok h]
  exact hf next

/-- However the computation ends, an invariant that held before holds after it. -/
def Maintains (p : σ → Prop) (x : Raising ε σ α) : Prop := ∀ s, p s → p (outcome x s).2

variable {p : σ → Prop}

theorem Maintains.throw (e : ε) : Maintains p (throw e : Raising ε σ α) := fun _ h => h

theorem Maintains.pure (a : α) : Maintains p (pure a : Raising ε σ α) := fun _ h => h

theorem Maintains.bind {x : Raising ε σ α} {f : α → Raising ε σ β} (hx : Maintains p x)
    (hf : ∀ a, Maintains p (f a)) : Maintains p (x >>= f) := by
  intro s hs
  have hnext := hx s hs
  rw [outcome_bind]
  cases h : outcome x s with
  | mk result next =>
      rw [h] at hnext
      cases result with
      | ok a => exact hf a next hnext
      | error e => exact hnext

/-- What is done with the state that was read is done at that state. -/
theorem Maintains.get_bind {f : σ → Raising ε σ α} (h : ∀ s, p s → p (outcome (f s) s).2) :
    Maintains p (get >>= f) := by
  intro s hs
  rw [outcome_get_bind]
  exact h s hs

/-- An invariant over what a view shows is maintained by what leaves the view alone. -/
theorem Still.maintains {x : Raising ε σ α} (h : Still view x)
    (hp : ∀ s s', view s = view s' → p s → p s') : Maintains p x :=
  fun s hs => hp s _ (h s).symm hs

end Raising

end AioMoqt.Lib
