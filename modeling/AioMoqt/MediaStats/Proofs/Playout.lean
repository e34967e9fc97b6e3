import Mathlib.Algebra.Order.Group.Int
import AioMoqt.MediaStats.Playout

/-!
# The playout model answers as the full history would

The fastest transits are a sliding minimum and the arrivals a history of running maxima, of which
the youngest entries are kept.
-/

namespace AioMoqt.MediaStats

open AioMoqt.Lib.Sliding

namespace Played

variable {cushionUs : Int} {objects : List Played} {o : Played}

/-- The transits of objects, with the times of their arrival. -/
def transits (objects : List Played) : List (Int × Int) :=
  objects.map fun o => (o.recvUs, o.transit)

/-- The media times of objects, with the times of their arrival. -/
def medias (objects : List Played) : List (Int × Int) := objects.map fun o => (o.recvUs, o.mUs)

theorem transits_concat (objects : List Played) (o : Played) :
    transits (objects ++ [o]) = transits objects ++ [(o.recvUs, o.transit)] := List.map_append

theorem medias_concat (objects : List Played) (o : Played) :
    medias (objects ++ [o]) = medias objects ++ [(o.recvUs, o.mUs)] := List.map_append

theorem exists_transits {P : Int × Int → Prop} :
    (∃ e ∈ transits objects, P e) ↔ ∃ o ∈ objects, P (o.recvUs, o.transit) := by
  simp only [transits, List.mem_map, exists_exists_and_eq_and]

theorem exists_medias {P : Int × Int → Prop} :
    (∃ e ∈ medias objects, P e) ↔ ∃ o ∈ objects, P (o.recvUs, o.mUs) := by
  simp only [medias, List.mem_map, exists_exists_and_eq_and]

/-- When the last object arrived, or the given time. -/
def lastRecv (objects : List Played) (r : Int) : Int := (objects.getLast?.map recvUs).getD r

/-- The model behind objects: its queues tell of the windows that end with the last of them. -/
structure Follows (cushionUs : Int) (objects : List Played) (p : Playout) : Prop where
  cushionUs : p.cushionUs = cushionUs
  keyed : objects ≠ [] → p.keyed = true
  base : ∀ r, Covers (lastRecv objects r - baseWindowUs) (transits objects) p.base
  maxM : p.maxM = crest (medias objects)
  arrivals : ∀ r, p.arrivals =
    (crests none (medias objects)).filter fun e => lastRecv objects r - arrivalKeepUs ≤ e.1

theorem Arrive.init (h : Arrive (objects ++ [o])) : Arrive objects where
  timed := (List.pairwise_append.mp h.timed).1
  keyed := by
    intro first hfirst
    refine h.keyed first ?_
    rw [List.head?_append, Option.mem_def.mp hfirst]
    rfl

/-- No object arrived later than the next one. -/
theorem Arrive.lastRecv_le (h : Arrive (objects ++ [o])) : lastRecv objects o.recvUs ≤ o.recvUs := by
  unfold lastRecv
  cases hlast : objects.getLast? with
  | none => exact le_rfl
  | some last =>
      exact (List.pairwise_append.mp h.timed).2.2 last (List.mem_of_getLast? hlast) o
        (List.mem_singleton_self o)

theorem timed_transits (h : objects.Pairwise fun a b => a.recvUs ≤ b.recvUs) :
    Timed (transits objects) := List.pairwise_map.mpr h

theorem timed_medias (h : objects.Pairwise fun a b => a.recvUs ≤ b.recvUs) :
    Timed (medias objects) := List.pairwise_map.mpr h

/-- The fastest transits with one more object. -/
theorem Follows.withTransit {p : Playout} (h : Follows cushionUs objects p)
    (harrive : Arrive (objects ++ [o])) :
    Covers (o.recvUs - baseWindowUs) (transits (objects ++ [o])) (p.withTransit o.mUs o.recvUs) := by
  have htimed := timed_transits harrive.timed
  have hle := harrive.lastRecv_le
  have hwindow : (0 : Int) ≤ baseWindowUs := by decide
  rw [transits_concat] at htimed ⊢
  refine (h.base o.recvUs).slide htimed ?_ ?_
  · omega
  · show o.recvUs - baseWindowUs ≤ o.recvUs
    omega

/-- What the buffer level and lateness are counted in is no part of the queues. -/
theorem noteLate_queues (p : Playout) (target mUs deadline recvUs : Int) :
    let p' := (p.noteBuffer target recvUs).noteLate mUs deadline recvUs
    p'.cushionUs = p.cushionUs ∧ p'.keyed = p.keyed ∧ p'.base = p.base ∧ p'.maxM = p.maxM ∧
      p'.arrivals = p.arrivals := by
  have hbuffer : ∃ ivBuf bufMin, p.noteBuffer target recvUs =
      { p with ivBuf := ivBuf, bufMin := bufMin } := by
    unfold Playout.noteBuffer
    split
    · exact ⟨p.ivBuf, p.bufMin, rfl⟩
    · exact ⟨_, _, rfl⟩
  obtain ⟨ivBuf, bufMin, hbuffer⟩ := hbuffer
  rw [hbuffer]
  unfold Playout.noteLate
  dsimp only
  split_ifs <;> exact ⟨rfl, rfl, rfl, rfl, rfl⟩

/-- One more object. -/
theorem Follows.playout {p : Playout} (h : Follows cushionUs objects p)
    (harrive : Arrive (objects ++ [o])) :
    Follows cushionUs (objects ++ [o]) (p.playout o.oid o.mUs o.recvUs) := by
  have hkey : ¬ (p.keyed = false ∧ o.oid ≠ 0) := by
    rintro ⟨hkeyed, hoid⟩
    cases objects with
    | nil => exact hoid (harrive.keyed o rfl)
    | cons first rest =>
        rw [h.keyed (List.cons_ne_nil _ _)] at hkeyed
        exact Bool.noConfusion hkeyed
  have hlast : ∀ r, lastRecv (objects ++ [o]) r = o.recvUs := by
    intro r
    rw [lastRecv, List.getLast?_concat]
    rfl
  unfold Playout.playout
  rw [if_neg hkey]
  dsimp only
  obtain ⟨hcushion, hkeyed, hbase, hmaxM, harrivals⟩ := noteLate_queues
    { p with keyed := true, base := p.withTransit o.mUs o.recvUs } (p.target o.mUs o.recvUs) o.mUs
    (o.mUs + p.target o.mUs o.recvUs) o.recvUs
  unfold Playout.noteArrival
  constructor
  case cushionUs => exact hcushion.trans h.cushionUs
  case keyed => exact fun _ => hkeyed
  case base =>
    intro r
    rw [hlast]
    exact hbase ▸ h.withTransit harrive
  case maxM =>
    dsimp only
    rw [hmaxM, medias_concat, crest_concat, ← h.maxM]
  case arrivals =>
    intro r
    have htimed := timed_medias harrive.timed
    have hle := harrive.lastRecv_le
    have hkeep : (0 : Int) ≤ arrivalKeepUs := by decide
    dsimp only
    rw [hmaxM, harrivals, hlast, h.maxM, h.arrivals o.recvUs]
    rw [medias_concat] at htimed ⊢
    refine expire_crests htimed ?_ ?_
    · omega
    · show o.recvUs - arrivalKeepUs ≤ o.recvUs
      omega

theorem run_concat (cushionUs : Int) (objects : List Played) (o : Played) :
    run cushionUs (objects ++ [o]) = (run cushionUs objects).playout o.oid o.mUs o.recvUs :=
  List.foldl_concat _ _ _ _

/-- Behind every sequence of objects. -/
theorem follows_run (cushionUs : Int) (h : Arrive objects) :
    Follows cushionUs objects (run cushionUs objects) := by
  induction objects using List.reverseRecOn with
  | nil =>
      constructor
      case cushionUs => rfl
      case keyed => exact fun hne => absurd rfl hne
      case base => exact fun r => Covers.nil _
      case maxM => rfl
      case arrivals => exact fun r => rfl
  | append_singleton objects o ih =>
      rw [run_concat]
      exact (ih h.init).playout h

/-- The target is the least transit in the window plus the cushion. -/
theorem Follows.target {p : Playout} (h : Follows cushionUs objects p)
    (harrive : Arrive (objects ++ [o])) :
    IsLeast {transit | ∃ e ∈ objects ++ [o], o.recvUs - baseWindowUs ≤ e.recvUs ∧
      e.transit = transit} (p.target o.mUs o.recvUs - cushionUs) := by
  have hcovers := h.withTransit harrive
  have hset : {transit | ∃ e ∈ transits (objects ++ [o]), o.recvUs - baseWindowUs ≤ e.1 ∧
      e.2 = transit} = {transit | ∃ e ∈ objects ++ [o], o.recvUs - baseWindowUs ≤ e.recvUs ∧
        e.transit = transit} := by
    ext transit
    exact exists_transits
  unfold Playout.target
  cases hqueue : p.withTransit o.mUs o.recvUs with
  | nil =>
      -- the new object is in its own window
      have hwindow : (0 : Int) ≤ baseWindowUs := by decide
      have hown : (o.recvUs, o.transit) ∈ transits (objects ++ [o]) :=
        List.mem_map_of_mem (List.mem_append_right _ (List.mem_singleton_self o))
      obtain ⟨least, hleast, -⟩ := hcovers.below _ hown (by
        show o.recvUs - baseWindowUs ≤ o.recvUs
        omega)
      rw [hqueue] at hleast
      cases hleast
  | cons first rest =>
      rw [hqueue] at hcovers
      have hleast := hcovers.isLeast
      rw [hset] at hleast
      rw [h.cushionUs]
      dsimp only
      rwa [Int.add_sub_cancel]

/-- What is kept of the arrivals answers where the last object by that time is kept. -/
theorem Follows.newerBy {p : Playout} (h : Follows cushionUs objects p)
    (htimed : objects.Pairwise fun a b => a.recvUs ≤ b.recvUs) (mUs tUs : Int) :
    (p.newerBy mUs tUs = true ↔ Newer objects mUs tUs) ↔ Told objects mUs tUs := by
  have hanswer := exceededBy_iff (timed_medias htimed)
    (lastRecv objects 0 - arrivalKeepUs) mUs tUs
  rw [← h.arrivals 0] at hanswer
  have hnewer : (∃ e ∈ medias objects, e.1 ≤ tUs ∧ mUs < e.2) ↔ Newer objects mUs tUs := by
    rw [exists_medias]
    exact exists_congr fun e => and_congr_right fun _ => and_comm
  have hkept : (∃ e ∈ medias objects, lastRecv objects 0 - arrivalKeepUs ≤ e.1 ∧ e.1 ≤ tUs) ↔
      ∃ last ∈ objects.getLast?, ∃ e ∈ objects,
        last.recvUs - arrivalKeepUs ≤ e.recvUs ∧ e.recvUs ≤ tUs := by
    rw [exists_medias, lastRecv]
    cases hlast : objects.getLast? with
    | none => simp [List.getLast?_eq_none_iff.mp hlast]
    | some last => simp
  unfold Playout.newerBy Told
  rw [hanswer, hnewer, hkept]
  tauto

/-- For every sequence of objects in the order of their arrival, a key frame first, the target of
the next one is the least transit in the window plus the cushion; and whether a newer object had
arrived by its deadline is answered rightly exactly where the kept arrivals tell. -/
theorem playout_windows (cushionUs : Int) (objects : List Played) (o : Played)
    (h : Arrive (objects ++ [o])) :
    let p := run cushionUs objects
    let deadline := o.mUs + p.target o.mUs o.recvUs
    IsLeast {transit | ∃ e ∈ objects ++ [o], o.recvUs - baseWindowUs ≤ e.recvUs ∧
        e.transit = transit} (p.target o.mUs o.recvUs - cushionUs) ∧
      ((p.newerBy o.mUs deadline = true ↔ Newer objects o.mUs deadline) ↔
        Told objects o.mUs deadline) := by
  intro p deadline
  have hfollows := follows_run cushionUs h.init
  exact ⟨hfollows.target h, hfollows.newerBy h.init.timed o.mUs deadline⟩

/-- A late object behind one that arrived in time. -/
theorem playout_windows_late :
    let objects : List Played := [⟨0, 0, 1000⟩, ⟨1, 40000, 41000⟩]
    let p := run 0 objects
    IsLeast {transit | ∃ e ∈ objects ++ [⟨2, 20000, 60000⟩], (60000 : Int) - baseWindowUs ≤ e.recvUs ∧
        e.transit = transit} (p.target 20000 60000 - 0) ∧
      ((p.newerBy 20000 (20000 + p.target 20000 60000) = true ↔
        Newer objects 20000 (20000 + p.target 20000 60000)) ↔
          Told objects 20000 (20000 + p.target 20000 60000)) :=
  playout_windows 0 [⟨0, 0, 1000⟩, ⟨1, 40000, 41000⟩] ⟨2, 20000, 60000⟩ ⟨by decide, by simp⟩

/-- Behind a silence of more than `_ARRIVAL_KEEP_US` the object that was received before it is
gone: the last one is 50 s late, a newer object was there by its deadline, and the answer is no. -/
theorem playout_forgets :
    let objects : List Played := [⟨0, 1000000, 0⟩, ⟨1, 50500000, 100000000⟩]
    let o : Played := ⟨2, 0, 100000000⟩
    let p := run 500000 objects
    let deadline := o.mUs + p.target o.mUs o.recvUs
    Arrive (objects ++ [o]) ∧ o.recvUs - deadline ≤ arrivalKeepUs ∧
      Newer objects o.mUs deadline ∧ p.newerBy o.mUs deadline = false := by
  refine ⟨⟨by decide, by simp⟩, ?_, ?_, ?_⟩
  · decide +kernel
  · decide +kernel
  · decide +kernel

end Played

end AioMoqt.MediaStats
