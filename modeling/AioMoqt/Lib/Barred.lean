import Mathlib.Data.List.Induction

/-!
# Logs in which keys are barred

A log of events, some of which bar a key, free it again, or act on it.  The log is silent if
nothing acts on a key while it is barred.
-/

namespace AioMoqt.Lib.Barred

variable {ε κ : Type} [DecidableEq κ]

/-- What an event does to the keys. -/
inductive Effect (κ : Type) where
  | bars (k : κ)
  | frees (k : κ)
  | acts (k : κ)
  | none
deriving DecidableEq

/-- Whether a key is barred after an event. -/
def Effect.next (effect : Effect κ) (k : κ) (before : Bool) : Bool :=
  match effect with
  | .bars j => before || j = k
  | .frees j => before && j ≠ k
  | _ => before

variable (effect : ε → Effect κ)

/-- Whether a key is barred after a log. -/
def barred (log : List ε) (k : κ) : Bool :=
  log.foldl (fun before event => (effect event).next k before) false

/-- No event acts on a key that is barred. -/
def Silent (log : List ε) : Prop :=
  ∀ earlier event later k, log = earlier ++ event :: later → effect event = .acts k →
    barred effect earlier k = false

variable {effect}

theorem barred_append (log : List ε) (event : ε) (k : κ) :
    barred effect (log ++ [event]) k = (effect event).next k (barred effect log k) := by
  rw [barred, List.foldl_append]
  rfl

theorem Silent.nil : Silent effect ([] : List ε) := by
  intro earlier event later k h
  simp at h

/-- One more event: one that acts needs its key free. -/
theorem Silent.append {log : List ε} (h : Silent effect log) {event : ε}
    (hfree : ∀ k, effect event = .acts k → barred effect log k = false) :
    Silent effect (log ++ [event]) := by
  intro earlier event' later k hsplit hacts
  rcases List.eq_nil_or_concat later with rfl | ⟨front, last, rfl⟩
  · have hlast := List.append_inj' hsplit rfl
    obtain ⟨rfl, hevent⟩ := hlast
    rw [List.singleton_inj] at hevent
    subst hevent
    exact hfree k hacts
  · have hassoc : log ++ [event] = (earlier ++ event' :: front) ++ [last] := by
      rw [hsplit, List.append_assoc, List.cons_append, List.concat_eq_append]
    have hlast := List.append_inj' hassoc rfl
    exact h earlier event' front k hlast.1 hacts

/-- Events that do nothing to the keys. -/
theorem quiet_append (log : List ε) {events : List ε} (hquiet : ∀ event ∈ events, effect event = .none) :
    (∀ k, barred effect (log ++ events) k = barred effect log k) ∧
      (Silent effect log → Silent effect (log ++ events)) := by
  induction events using List.reverseRecOn with
  | nil => simp
  | append_singleton events event ih =>
      have hearlier := ih fun e he => hquiet e (List.mem_append_left _ he)
      have hevent : effect event = .none := hquiet event (by simp)
      rw [← List.append_assoc]
      constructor
      · intro k
        rw [barred_append, hevent]
        exact hearlier.1 k
      · intro hsilent
        apply (hearlier.2 hsilent).append
        intro k hacts
        rw [hevent] at hacts
        cases hacts

/-- What the events do to the keys is all that counts. -/
theorem Silent.effects {log : List ε} (h : Silent effect log) : Silent id (log.map effect) := by
  intro earlier event later k hsplit hacts
  obtain ⟨before, rest, rfl, rfl, hrest⟩ := List.map_eq_append_iff.mp hsplit
  obtain ⟨acting, after, rfl, rfl, -⟩ := List.map_eq_cons_iff.mp hrest
  have hfree := h before acting after k rfl hacts
  rw [barred, List.foldl_map]
  exact hfree

end AioMoqt.Lib.Barred
