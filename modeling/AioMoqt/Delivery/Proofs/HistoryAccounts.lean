import AioMoqt.Delivery.HistoryObjects
import AioMoqt.Delivery.Proofs.History
import Mathlib.Algebra.Order.BigOperators.Group.List

/-!
# What a history holds and what it is charged for

The bytes of a history are what its records cost, group by group; the records held of a
group are the last ones added to it, with their priorities; and an add leaves no more than
the bound and its slack.
-/

namespace AioMoqt.Delivery

open AioMoqt.Lib AioMoqt.Messages

variable {σ : Type}

/-- What the records of a group cost. -/
def HeldGroup.cost (grp : HeldGroup σ) : Int := (grp.entries.map fun entry => (entry.1.cost : Int)).sum

theorem HeldGroup.cost_nonneg (grp : HeldGroup σ) : 0 ≤ grp.cost := by
  apply List.sum_nonneg
  intro cost hcost
  obtain ⟨entry, -, rfl⟩ := List.mem_map.mp hcost
  exact Int.natCast_nonneg _

theorem HeldGroup.bytes_evictHead (grp : HeldGroup σ) (rec : Record σ) :
    (grp.evictHead rec).bytes = grp.bytes - rec.cost := by
  unfold evictHead
  simp only
  split <;> rfl

namespace ObjectHistory

variable {h h' : ObjectHistory σ} {adds : List (Added σ)} {group : Nat} {grp : HeldGroup σ}
  {rest : List (Nat × HeldGroup σ)}

/-- The bytes of the groups. -/
def groupBytes (h : ObjectHistory σ) : Int := (h.groups.entries.map fun entry => entry.2.bytes).sum

/-- The groups hold records, and each and all of them are charged for what they hold; what
is held of a group are the last objects added to it. -/
structure Accounts (adds : List (Added σ)) (h : ObjectHistory σ) : Prop where
  formed : ∀ entry ∈ h.groups.entries, entry.2.Formed
  charged : ∀ entry ∈ h.groups.entries, entry.2.bytes = entry.2.cost
  total : h.bytes = h.groupBytes
  latest : ∀ group, h.entriesOf group <:+ (adds.filter (·.groupId = group)).map Added.entry

theorem Accounts.nonneg (hacc : h.Accounts adds) {entry : Nat × HeldGroup σ}
    (hentry : entry ∈ h.groups.entries) : 0 ≤ entry.2.bytes := by
  rw [hacc.charged entry hentry]
  exact entry.2.cost_nonneg

theorem groupBytes_insert (h : ObjectHistory σ) (group : Nat) (grp : HeldGroup σ) :
    ((h.groups.insert group grp).entries.map fun entry => entry.2.bytes).sum =
      h.groupBytes - ((h.groups.get? group).elim 0 HeldGroup.bytes) + grp.bytes := by
  have hnew := ((h.groups.perm_insert group grp).map fun entry => entry.2.bytes).sum_eq
  rw [hnew, List.map_cons, List.sum_cons, groupBytes]
  cases hget : h.groups.get? group with
  | none =>
      have hkey : group ∉ h.groups.keys := by
        intro hmem
        obtain ⟨entry, hentry, rfl⟩ := List.mem_map.mp hmem
        rw [Dict.get?_eq_some.mpr hentry] at hget
        cases hget
      rw [Dict.erase_of_notMem hkey, Option.elim_none]
      dsimp only
      omega
  | some old =>
      have hold := ((Dict.perm_erase hget).map fun entry => entry.2.bytes).sum_eq
      rw [hold, List.map_cons, List.sum_cons, Option.elim_some]
      dsimp only
      omega

theorem groupBytes_erase {group : Nat} {grp : HeldGroup σ} (hget : h.groups.get? group = some grp) :
    ((h.groups.erase group).entries.map fun entry => entry.2.bytes).sum =
      h.groupBytes - grp.bytes := by
  have hold := ((Dict.perm_erase hget).map fun entry => entry.2.bytes).sum_eq
  rw [groupBytes, hold, List.map_cons, List.sum_cons]
  dsimp only
  omega

/-- The group of a new object, or a fresh one. -/
theorem Accounts.stored (hacc : h.Accounts adds) (obj : Added σ) :
    (h.stored obj).Accounts (adds ++ [obj]) where
  formed := formed_stored hacc.formed obj
  charged entry hentry := by
    obtain ⟨-, heq⟩ | ⟨-, hold⟩ := Dict.mem_entries_insert.mp hentry
    · rw [heq]
      have happend : ∀ grp : HeldGroup σ, grp.head ≤ grp.records.length →
          (∀ i, grp.records.length ≤ i → grp.priorities i = none) → grp.bytes = grp.cost →
          (grp.append obj.record obj.priority).bytes =
            (grp.append obj.record obj.priority).cost := by
        intro grp hhead hsparse hbytes
        rw [HeldGroup.cost, HeldGroup.entries_append hhead hsparse, List.map_append,
          List.sum_append, List.map_singleton, List.sum_singleton]
        show grp.bytes + obj.record.cost = _
        rw [hbytes]
        rfl
      cases hget : h.groups.get? obj.groupId with
      | none => exact happend _ (Nat.le_refl _) (fun _ _ => rfl) rfl
      | some grp =>
          have hmem := Dict.get?_eq_some.mp hget
          have hformed := hacc.formed _ hmem
          exact happend grp (Nat.le_of_lt hformed.head) hformed.sparse (hacc.charged _ hmem)
    · exact hacc.charged entry hold
  total := by
    have hsum := groupBytes_insert h obj.groupId
      (((h.groups.get? obj.groupId).getD { priority := obj.priority }).append obj.record
        obj.priority)
    show h.bytes + obj.record.cost = _
    rw [groupBytes, show (h.stored obj).groups = h.groups.insert obj.groupId _ from rfl, hsum,
      hacc.total]
    cases h.groups.get? obj.groupId with
    | none =>
        show _ = h.groupBytes - 0 + (0 + (obj.record.cost : Int))
        omega
    | some grp =>
        show _ = h.groupBytes - grp.bytes + (grp.bytes + (obj.record.cost : Int))
        omega
  latest group := by
    rw [entriesOf_stored hacc.formed, List.filter_append, List.map_append]
    by_cases heq : group = obj.groupId
    · subst heq
      obtain ⟨dropped, hadds⟩ := hacc.latest obj.groupId
      rw [if_pos rfl, ← hadds, List.append_assoc]
      refine ⟨dropped, ?_⟩
      simp
    · have hne : ¬ obj.groupId = group := fun h => heq h.symm
      rw [if_neg heq]
      simpa [hne] using hacc.latest group

/-- A group leaves the table. -/
theorem Accounts.erase (hacc : h.Accounts adds) (hget : h.groups.get? group = some grp)
    (hgroups : h'.groups = h.groups.erase group) (hbytes : h'.bytes = h.bytes - grp.bytes) :
    h'.Accounts adds where
  formed entry hentry := by
    rw [hgroups] at hentry
    exact hacc.formed entry (List.mem_of_mem_filter hentry)
  charged entry hentry := by
    rw [hgroups] at hentry
    exact hacc.charged entry (List.mem_of_mem_filter hentry)
  total := by
    rw [hbytes, groupBytes, hgroups, groupBytes_erase hget, hacc.total]
  latest other := by
    rw [entriesOf, hgroups, Dict.get?_erase]
    split
    · exact List.nil_suffix
    · exact hacc.latest other

theorem Accounts.dropOldest (hacc : h.Accounts adds)
    (hfirst : h.groups.entries = (group, grp) :: rest) :
    (h.dropOldest group grp).Accounts adds :=
  hacc.erase (Dict.get?_eq_some.mpr (hfirst ▸ List.mem_cons_self)) rfl rfl

theorem Accounts.discard (hacc : h.Accounts adds) (group : Nat) : (h.discard group).Accounts adds := by
  unfold ObjectHistory.discard
  split
  · exact hacc
  · next hget => exact hacc.erase hget rfl rfl

theorem Accounts.dropRecord (hacc : h.Accounts adds)
    (hfirst : h.groups.entries = (group, grp) :: rest) {rec : Record σ}
    (hrec : grp.records[grp.head]? = some rec) (hmore : grp.head + 1 ≠ grp.records.length) :
    (h.dropRecord group grp rec).Accounts adds := by
  have hmem : (group, grp) ∈ h.groups.entries := hfirst ▸ List.mem_cons_self
  obtain ⟨hformed, ⟨priority, hentries⟩, -⟩ :=
    HeldGroup.evictHead_spec (hacc.formed _ hmem) hrec hmore
  have hnew := dropRecord_entries hfirst rec
  have hcost : grp.cost = rec.cost + (grp.evictHead rec).cost := by
    rw [HeldGroup.cost, hentries, List.map_cons, List.sum_cons]
    rfl
  have hbytes : grp.bytes = grp.cost := hacc.charged _ hmem
  refine ⟨?_, ?_, ?_, ?_⟩
  · intro entry hentry
    rw [hnew] at hentry
    obtain rfl | hold := List.mem_cons.mp hentry
    · exact hformed
    · exact hacc.formed entry (hfirst ▸ List.mem_cons_of_mem _ hold)
  · intro entry hentry
    rw [hnew] at hentry
    obtain rfl | hold := List.mem_cons.mp hentry
    · show (grp.evictHead rec).bytes = (grp.evictHead rec).cost
      rw [HeldGroup.bytes_evictHead]
      omega
    · exact hacc.charged entry (hfirst ▸ List.mem_cons_of_mem _ hold)
  · have htotal := hacc.total
    rw [groupBytes, hfirst, List.map_cons, List.sum_cons] at htotal
    show h.bytes - rec.cost = _
    rw [groupBytes, hnew, List.map_cons, List.sum_cons]
    show _ = (grp.evictHead rec).bytes + _
    rw [HeldGroup.bytes_evictHead]
    simp only at htotal
    omega
  · intro other
    by_cases heq : other = group
    · have hlatest := hacc.latest other
      rw [heq, entriesOf_of_mem hmem, hentries] at hlatest
      rw [heq, entriesOf_of_mem (hnew ▸ List.mem_cons_self)]
      exact (List.suffix_cons _ _).trans hlatest
    · have hsame : (h.dropRecord group grp rec).entriesOf other = h.entriesOf other := by
        rw [entriesOf, entriesOf, show (h.dropRecord group grp rec).groups =
          h.groups.insert group (grp.evictHead rec) from rfl, Dict.get?_insert, if_neg heq]
      rw [hsame]
      exact hacc.latest other

theorem Accounts.evictOne {cap : Int} (hacc : h.Accounts adds) (heq : h.evictOne cap = some h') :
    h'.Accounts adds := by
  obtain ⟨group, grp, rest, hfirst, rfl | ⟨rec, hrec, hmore, rfl⟩⟩ := evictOne_cases heq
  · exact hacc.dropOldest hfirst
  · exact hacc.dropRecord hfirst hrec hmore

/-- Where the loop ends, the cap is met, or nothing is held. -/
theorem bytes_le_of_evictOne {cap : Int} (hacc : h.Accounts adds) (hend : h.evictOne cap = none) :
    h.bytes ≤ max cap 0 := by
  unfold ObjectHistory.evictOne at hend
  split at hend
  · next hle => omega
  · split at hend
    · next hnil =>
        have htotal := hacc.total
        rw [groupBytes, hnil, List.map_nil, List.sum_nil] at htotal
        omega
    · next group grp rest hfirst =>
        split at hend
        · cases hend
        · have hhead := (hacc.formed (group, grp) (hfirst ▸ List.mem_cons_self)).head
          rw [List.getElem?_eq_getElem hhead] at hend
          cases hend

end ObjectHistory

end AioMoqt.Delivery
