import Mathlib.Data.List.Basic

/-!
# Changes in place

Steps that may fail, applied to one state in place: what was done before a failure stays.  The
same steps over values give the state only where all succeed.
-/

namespace AioMoqt.Lib.InPlace

variable {σ α ε : Type} (f : σ → α → Except ε σ)

/-- The state as the steps leave it, and the failure. -/
def run : σ → List α → σ × Option ε
  | s, [] => (s, none)
  | s, a :: rest =>
      match f s a with
      | .ok s => run s rest
      | .error e => (s, some e)

/-- The steps that are tried, each with the state before it. -/
def tried : σ → List α → List (σ × α)
  | _, [] => []
  | s, a :: rest => (s, a) :: match f s a with
      | .ok s => tried s rest
      | .error _ => []

theorem run_append (s : σ) (first second : List α) :
    run f s (first ++ second) = match run f s first with
      | (s, none) => run f s second
      | (s, some e) => (s, some e) := by
  induction first generalizing s with
  | nil => rfl
  | cons a first ih =>
      simp only [List.cons_append, run]
      cases f s a with
      | ok s => exact ih s
      | error e => rfl

/-- Without a failure the state is that of the steps over values. -/
theorem run_eq_none (s : σ) (steps : List α) :
    (run f s steps).2 = none ↔ steps.foldlM f s = .ok (run f s steps).1 := by
  induction steps generalizing s with
  | nil => simp [run, pure, Except.pure]
  | cons a steps ih =>
      simp only [run, List.foldlM_cons]
      cases f s a with
      | ok s => exact ih s
      | error e => simp [bind, Except.bind]

/-- What a run over one state has to keep: a property at its end, or the state it began with. -/
def Kept (Good : σ → Prop) (start : σ) : σ × Option ε → Prop
  | (s, none) => Good s
  | (s, some _) => s = start

/-- **Where a run is as good as all or nothing**: no step fails behind a change, and no step
spoils the state, when a spoilt state stays spoilt. -/
theorem kept_iff {Good : σ → Prop} {Fails Spoils : σ → α → Prop}
    (hfails : ∀ s a, (∃ e, f s a = .error e) ↔ Fails s a)
    (hspoils : ∀ {s a s'}, f s a = .ok s' → (Good s' ↔ Good s ∧ ¬ Spoils s a))
    (hdone : ∀ {s a}, Spoils s a → ¬ Fails s a)
    {start : σ} (hstart : Good start) (steps : List α) :
    Kept Good start (run f start steps) ↔
      ∀ p ∈ tried f start steps, (Fails p.1 p.2 → p.1 = start) ∧ ¬ Spoils p.1 p.2 := by
  suffices h : ∀ s, Kept Good start (run f s steps) ↔ Good s ∧
      ∀ p ∈ tried f s steps, (Fails p.1 p.2 → p.1 = start) ∧ ¬ Spoils p.1 p.2 by
    rw [h start, and_iff_right hstart]
  intro s
  induction steps generalizing s with
  | nil => simp [run, tried, Kept]
  | cons a steps ih =>
      simp only [run, tried, List.forall_mem_cons]
      cases hstep : f s a with
      | error e =>
          have hfail : Fails s a := (hfails s a).mp ⟨e, hstep⟩
          have hsound : ¬ Spoils s a := fun h => hdone h hfail
          simp only [hfail, hsound, true_implies, not_false_iff, and_true, List.not_mem_nil,
            false_implies, implies_true]
          exact ⟨fun h => ⟨by rw [show s = start from h]; exact hstart, h⟩, And.right⟩
      | ok s' =>
          have hfail : ¬ Fails s a := fun h => by
            obtain ⟨e, he⟩ := (hfails s a).mpr h
            rw [hstep] at he
            exact absurd he (by simp)
          simp only [hfail, false_implies, true_and, ih s', hspoils hstep, and_assoc]

end AioMoqt.Lib.InPlace
