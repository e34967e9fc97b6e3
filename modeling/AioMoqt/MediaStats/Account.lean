import Mathlib.Algebra.BigOperators.Group.Finset.Basic
import Mathlib.Order.Interval.Finset.Nat
import AioMoqt.MediaStats.Analysis

/-!
# What the accounting of a track is for

A ledger of the objects and group ends that come while their groups are tracked: which ids were
observed, how far each group reaches, and when a group was last heard of or noticed to be missing.
-/

namespace AioMoqt.MediaStats

open AioMoqt.Lib

/-- An object that was observed, or the end of a group that was announced. -/
inductive Report where
  | object (gid oid : Nat) (now : Int)
  | groupEnd (gid eogOid : Nat) (now : Int)
  deriving DecidableEq, Repr

namespace Report

def gid : Report → Nat
  | object gid _ _ => gid
  | groupEnd gid _ _ => gid

def now : Report → Int
  | object _ _ now => now
  | groupEnd _ _ now => now

/-- The ids below this one are passed. -/
def upTo : Report → Nat
  | object _ oid _ => oid
  | groupEnd _ eogOid _ => eogOid

/-- The ids below this one belong to the group. -/
def reach : Report → Nat
  | object _ oid _ => oid + 1
  | groupEnd _ eogOid _ => eogOid

end Report

structure Ledger where
  first : Option Nat := none
  greatest : Nat := 0
  opened : Finset Nat := ∅
  extent : Nat → Nat := fun _ => 0
  word : Nat → Option Int := fun _ => none
  observed : Finset (Nat × Nat) := ∅
  repeats : Nat := 0
  outside : Nat := 0

namespace Ledger

/-- A group is heard of; one that is greater than all before it shows that those between are
missing. -/
def hear (l : Ledger) (gid : Nat) (now : Int) : Ledger :=
  { l with
    first := some (l.first.getD gid)
    greatest := max l.greatest gid
    opened := insert gid l.opened
    word := fun g =>
      if g = gid ∨ (l.first ≠ none ∧ l.greatest < g ∧ g < gid) then some now else l.word g }

/-- The group of a report reaches as far as it says. -/
def extend (l : Ledger) (gid reach : Nat) : Ledger :=
  { l with extent := fun g => if g = gid then max (l.extent g) reach else l.extent g }

/-- An object is observed, for the first time or again. -/
def observe (l : Ledger) (gid oid : Nat) : Ledger :=
  { l with
    observed := insert (gid, oid) l.observed
    repeats := if (gid, oid) ∈ l.observed then l.repeats + 1 else l.repeats }

/-- A report of a group that is tracked. -/
def enter (l : Ledger) (r : Report) : Ledger :=
  let l := (l.hear r.gid r.now).extend r.gid r.reach
  match r with
  | .object gid oid _ => l.observe gid oid
  | .groupEnd .. => l

/-- A report outside the tracked range: an object is counted, and not judged. -/
def passBy (l : Ledger) : Report → Ledger
  | .object .. => { l with outside := l.outside + 1 }
  | .groupEnd .. => l

/-- The ids of a group that were not observed. -/
def missing (l : Ledger) (gid : Nat) : Finset Nat :=
  (Finset.range (l.extent gid)).filter fun oid => (gid, oid) ∉ l.observed

/-- How many ids were not observed, over all groups opened. -/
def missingIds (l : Ledger) : Nat := ∑ gid ∈ l.opened, (l.missing gid).card

/-- The groups between the first and the greatest that were never opened. -/
def absent (l : Ledger) : Finset Nat := Finset.Ioo (l.first.getD 0) l.greatest \ l.opened

end Ledger

/-- A call of the analysis. -/
inductive Event where
  | observe (o : Observed)
  | endGroup (gid eogOid : Nat) (recvUs : Int)
  | streamEnd (gid : Nat) (clean : Bool) (resetCode : Nat)
  | interval (nowUs : Int)
  | summary (nowUs : Int)
  deriving DecidableEq, Repr

namespace Event

def now : Event → Option Int
  | observe o => some o.recvUs
  | endGroup _ _ recvUs => some recvUs
  | streamEnd .. => none
  | interval nowUs => some nowUs
  | summary nowUs => some nowUs

def report : Event → Option Report
  | observe o => some (.object o.gid o.oid o.recvUs)
  | endGroup gid eogOid recvUs => some (.groupEnd gid eogOid recvUs)
  | _ => none

end Event

namespace TrackAnalysis

def apply (t : TrackAnalysis) : Event → TrackAnalysis
  | .observe o => t.observe o
  | .endGroup gid eogOid recvUs => t.endGroup gid eogOid recvUs
  | .streamEnd gid clean resetCode => t.streamEnd gid clean resetCode
  | .interval nowUs => (t.interval nowUs).1
  | .summary nowUs => t.summary nowUs

/-- The group is tracked, or may be opened. -/
def tracks (t : TrackAnalysis) (gid : Nat) : Bool :=
  gid ∈ t.groupOf.keys ∨ gid ∈ t.gaps.keys ∨ ∀ maxGid ∈ t.maxGid, maxGid < gid

/-- A report is judged when it comes. -/
def judges (t : TrackAnalysis) (r : Report) : Bool := (t.tick r.now).tracks r.gid

/-- Holes that are not declared lost. -/
def undeclaredHoles (t : TrackAnalysis) : Nat := t.groupOf.total fun g => g.holes.undeclared

/-- Gaps that are not declared lost. -/
def undeclaredGaps (t : TrackAnalysis) : Nat := t.gaps.undeclared

end TrackAnalysis

/-- An analysis and the ledger of what it judged. -/
structure Audit where
  t : TrackAnalysis
  ledger : Ledger

namespace Audit

def step (a : Audit) (e : Event) : Audit where
  t := a.t.apply e
  ledger :=
    match e.report with
    | none => a.ledger
    | some r => if a.t.judges r then a.ledger.enter r else a.ledger.passBy r

def run (cushionUs : Int) (events : List Event) : Audit :=
  events.foldl step ⟨.start cushionUs, {}⟩

/-- A report passes at most `_HOLE_CAP` ids of its group, and at most as many groups. -/
def Steady (a : Audit) (r : Report) : Prop :=
  a.t.judges r = true → r.upTo - a.ledger.extent r.gid ≤ holeCap ∧
    (a.ledger.first ≠ none → r.gid - a.ledger.greatest - 1 ≤ holeCap)

instance (a : Audit) (r : Report) : Decidable (a.Steady r) :=
  inferInstanceAs (Decidable (_ → _))

/-- The group of a report is before the first, or it was last heard of or noticed to be missing
more than four cushions ago. -/
def LetGo (a : Audit) (r : Report) : Prop :=
  (∃ first ∈ a.ledger.first, r.gid < first) ∨
    ∃ word ∈ a.ledger.word r.gid, word + 4 * a.t.cushionUs < r.now

end Audit

/-- Calls in the order of their times: the first object or group end is object 0 of a group, none
comes with a Prior Group ID Gap, and none passes more than `_HOLE_CAP` ids. -/
structure Plays (cushionUs : Int) (events : List Event) : Prop where
  timed : (events.filterMap Event.now).Pairwise (· ≤ ·)
  first : ∀ r ∈ (events.filterMap Event.report).head?, ∃ gid now, r = .object gid 0 now
  noGap : ∀ o, Event.observe o ∈ events → o.priorGap = 0
  steady : ∀ i < events.length, ∀ e ∈ events[i]?, ∀ r ∈ e.report,
    (Audit.run cushionUs (events.take i)).Steady r

end AioMoqt.MediaStats
