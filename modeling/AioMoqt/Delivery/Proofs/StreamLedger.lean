import AioMoqt.Delivery.WholeGroups

/-!
# The streams of a delivery

Each stream has one header, each object the stream of its group, and a stream that is not
open ended: by a FIN, by a reset, or as the peer stopped it.
-/

namespace AioMoqt.Delivery

open AioMoqt.Messages SubgroupDelivery

variable {d : SubgroupDelivery} {x : DeliveryItem} {sid : Nat}

/-! ## How streams end -/

theorem endGroup_none (h : d.stream = none) : d.endGroup = d := by
  simp only [endGroup, h]

theorem endGroup_some {st : OpenStream} (h : d.stream = some st) :
    ∃ marker, d.endGroup = d.finStream st marker := by
  simp only [endGroup, h]
  split_ifs
  · exact ⟨none, rfl⟩
  · exact ⟨_, rfl⟩

/-- A stream has ended. -/
def SubgroupDelivery.Ended (d : SubgroupDelivery) (sid : Nat) : Prop :=
  sid ∈ d.fins.map Prod.fst ∨ sid ∈ d.resets.map Prod.fst ∨ sid ∈ d.stops

/-- What holds of the records of a delivery. -/
structure Ledger (d : SubgroupDelivery) : Prop where
  own : ∀ e ∈ d.objects, ∃ h ∈ d.headers, h.sid = e.1 ∧ h.groupId = e.2.groupId
  header : ∀ st ∈ d.stream, ⟨st.sid, st.groupId, some st.opener⟩ ∈ d.headers
  sids : (d.headers.map (·.sid)).Nodup
  below : ∀ h ∈ d.headers, h.sid < d.streamCount
  ends : ∀ sid < d.streamCount, (∃ st ∈ d.stream, st.sid = sid) ∨ d.Ended sid

namespace Ledger

/-- The open stream ends, and nothing else changes of the streams. -/
theorem close (h : Ledger d) {e : SubgroupDelivery} (hobjects : e.objects = d.objects)
    (hheaders : e.headers = d.headers) (hcount : e.streamCount = d.streamCount)
    (hstream : e.stream = none) (hended : ∀ sid, d.Ended sid → e.Ended sid)
    (hopen : ∀ st ∈ d.stream, e.Ended st.sid) : Ledger e where
  own := by
    rw [hobjects, hheaders]
    exact h.own
  header st hst := by
    rw [hstream] at hst
    simp at hst
  sids := hheaders ▸ h.sids
  below := by
    rw [hheaders, hcount]
    exact h.below
  ends sid hsid := by
    rw [hcount] at hsid
    rcases h.ends sid hsid with ⟨st, hst, rfl⟩ | hend
    · exact Or.inr (hopen st hst)
    · exact Or.inr (hended sid hend)

theorem finStream (h : Ledger d) {st : OpenStream} (hst : d.stream = some st)
    (marker : Option (Nat × ObjectStatus)) : Ledger (d.finStream st marker) := by
  refine h.close rfl rfl rfl rfl ?_ ?_
  · rintro sid (hfin | hend)
    · exact Or.inl (by simp only [SubgroupDelivery.finStream, List.map_append, List.mem_append, hfin,
        true_or])
    · exact Or.inr hend
  · intro st' hst'
    obtain rfl := Option.some.inj (hst.symm.trans hst')
    exact Or.inl (by simp [SubgroupDelivery.finStream])

theorem resetGroup (h : Ledger d) (code : ResetCode) : Ledger (d.resetGroup code) := by
  refine h.close rfl rfl rfl rfl ?_ ?_
  · rintro sid (hfin | hreset | hstop)
    · exact Or.inl hfin
    · exact Or.inr (Or.inl (by simp only [SubgroupDelivery.resetGroup, List.map_append,
        List.mem_append, hreset, true_or]))
    · exact Or.inr (Or.inr hstop)
  · intro st hst
    have hsome : d.stream = some st := hst
    exact Or.inr (Or.inl (by simp [SubgroupDelivery.resetGroup, hsome]))

/-- The session has reset the stream that the peer stopped. -/
theorem stop (h : Ledger d) (group : Nat) : Ledger { d with
    stoppedGroup := some group, stops := d.stops ++ (d.stream.map (·.sid)).toList,
    stream := none } := by
  refine h.close rfl rfl rfl rfl ?_ ?_
  · rintro sid (hfin | hreset | hstop)
    · exact Or.inl hfin
    · exact Or.inr (Or.inl hreset)
    · exact Or.inr (Or.inr (List.mem_append_left _ hstop))
  · intro st hst
    have hsome : d.stream = some st := hst
    exact Or.inr (Or.inr (by simp [hsome]))

/-- An object goes to the open stream, which is that of its group. -/
theorem putObject (h : Ledger d) {st : OpenStream} (hst : d.stream = some st)
    (hgroup : st.groupId = x.groupId) : Ledger (d.putObject st x) where
  __ := h
  own e he := by
    rcases List.mem_append.mp he with he | he
    · exact h.own e he
    · rw [List.mem_singleton.mp he]
      exact ⟨_, h.header st hst, rfl, hgroup⟩
  header st' hst' := by
    obtain rfl := Option.some.inj hst'
    exact h.header st hst
  ends sid hsid := by
    rcases h.ends sid hsid with ⟨st', hst', rfl⟩ | hend
    · obtain rfl := Option.some.inj (hst.symm.trans hst')
      exact Or.inl ⟨_, rfl, rfl⟩
    · exact Or.inr hend

theorem sid_notMem (h : Ledger d) : d.streamCount ∉ d.headers.map (·.sid) := by
  intro hmem
  obtain ⟨header, hheader, hsid⟩ := List.mem_map.mp hmem
  exact absurd hsid (h.below header hheader).ne

/-- A stream is opened where none is open. -/
theorem openStream (h : Ledger d) (hnone : d.stream = none) {e : SubgroupDelivery} {group : Nat}
    {opener : Option Nat} (hobjects : e.objects = d.objects)
    (hheaders : e.headers = d.headers ++ [⟨d.streamCount, group, opener⟩])
    (hcount : e.streamCount = d.streamCount + 1) (hended : ∀ sid, d.Ended sid → e.Ended sid)
    (hheader : ∀ st ∈ e.stream, ⟨st.sid, st.groupId, some st.opener⟩ ∈ e.headers)
    (hnew : (∃ st ∈ e.stream, st.sid = d.streamCount) ∨ e.Ended d.streamCount) : Ledger e where
  own entry hentry := by
    rw [hobjects] at hentry
    obtain ⟨header, hmem, hsame⟩ := h.own entry hentry
    exact ⟨header, by rw [hheaders]; exact List.mem_append_left _ hmem, hsame⟩
  header := hheader
  sids := by
    rw [hheaders, List.map_append, List.nodup_append]
    refine ⟨h.sids, List.nodup_singleton _, fun sid hsid other hother heq => ?_⟩
    rw [List.map_singleton, List.mem_singleton] at hother
    subst hother heq
    exact h.sid_notMem hsid
  below header hmem := by
    rw [hheaders] at hmem
    rw [hcount]
    rcases List.mem_append.mp hmem with hmem | hmem
    · exact (h.below header hmem).trans (Nat.lt_succ_self _)
    · rw [List.mem_singleton.mp hmem]
      exact Nat.lt_succ_self _
  ends sid hsid := by
    rw [hcount] at hsid
    rcases Nat.lt_succ_iff_lt_or_eq.mp hsid with hlt | rfl
    · rcases h.ends sid hlt with ⟨st, hst, -⟩ | hend
      · rw [hnone] at hst
        simp at hst
      · exact Or.inr (hended sid hend)
    · exact hnew

theorem groupOpened (h : Ledger d) (hnone : d.stream = none) (x : DeliveryItem) (epoch : Nat) :
    Ledger (d.groupOpened x epoch).2 := by
  unfold SubgroupDelivery.groupOpened
  split_ifs with hepoch
  · -- The stream of an older epoch is reset without a header.
    refine { h with below := fun header hmem => (h.below header hmem).trans (Nat.lt_succ_self _),
                    ends := fun sid hsid => ?_ }
    rcases Nat.lt_succ_iff_lt_or_eq.mp hsid with hlt | rfl
    · rcases h.ends sid hlt with hopen | hfin | hreset | hstop
      · exact Or.inl hopen
      · exact Or.inr (Or.inl hfin)
      · exact Or.inr (Or.inr (Or.inl (by
          simp only [List.map_append, List.mem_append, hreset, true_or])))
      · exact Or.inr (Or.inr (Or.inr hstop))
    · exact Or.inr (Or.inr (Or.inl (by simp)))
  · refine h.openStream hnone rfl rfl rfl (fun _ hend => hend) ?_ (Or.inl ⟨_, rfl, rfl⟩)
    intro st hst
    obtain rfl := Option.some.inj hst
    exact List.mem_append_right _ List.mem_cons_self

/-- The end of the track on a stream of its own. -/
theorem endOpening (h : Ledger d) (hnone : d.stream = none) (groupId : Nat) (t : Transport) :
    Ledger (d.awaited t (.endOpening groupId)).2 := by
  refine h.openStream hnone rfl rfl rfl ?_ (fun st hst => ?_) (Or.inr (Or.inl ?_))
  · rintro sid (hfin | hend)
    · exact Or.inl (by simp only [SubgroupDelivery.awaited, SubgroupDelivery.openStream,
        List.map_append, List.mem_append, hfin, true_or])
    · exact Or.inr hend
  · have hsome : d.stream = some st := hst
    rw [hnone] at hsome
    simp at hsome
  · simp [SubgroupDelivery.awaited, SubgroupDelivery.openStream]

theorem resetBelow (h : Ledger d) (floor : Nat) (t : Transport) : Ledger (d.resetBelow floor t) := by
  unfold SubgroupDelivery.resetBelow
  have hcut : Ledger (if d.stream.any (·.groupId < floor) then d.resetGroup .cancelled else d) := by
    split_ifs
    · exact h.resetGroup _
    · exact h
  refine { hcut with ends := fun sid hsid => ?_ }
  rcases hcut.ends sid hsid with hopen | hfin | hreset | hstop
  · exact Or.inl hopen
  · exact Or.inr (Or.inl hfin)
  · exact Or.inr (Or.inr (Or.inl (by
      simp only [List.map_append, List.mem_append, hreset, true_or])))
  · exact Or.inr (Or.inr (Or.inr hstop))

end Ledger

end AioMoqt.Delivery
