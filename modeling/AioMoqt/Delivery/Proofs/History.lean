import AioMoqt.Delivery.History
import Mathlib.Data.List.Induction

/-!
# What a history still knows

Of every group a history holds the latest objects, in the order they were added, and what
it dropped lies at or below the Location it reports as lost.
-/

namespace AioMoqt.Delivery

open AioMoqt.Lib AioMoqt.Messages

variable {σ : Type}

def Added.location (obj : Added σ) : Location := .mk obj.groupId obj.objectId

/-- An object as it is held: its record and its priority. -/
def Added.entry (obj : Added σ) : Record σ × Nat := (obj.record, obj.priority)

/-! ## Groups -/

namespace HeldGroup

/-- A group that holds a record, and priorities for its records only. -/
structure Formed (grp : HeldGroup σ) : Prop where
  head : grp.head < grp.records.length
  sparse : ∀ i, grp.records.length ≤ i → grp.priorities i = none

/-- The records held, with their priorities. -/
def entries (grp : HeldGroup σ) : List (Record σ × Nat) :=
  grp.held.map fun slot => (slot.1, grp.priorityOf slot.2)

variable {grp : HeldGroup σ} {rec : Record σ}

theorem entries_append (hhead : grp.head ≤ grp.records.length)
    (hsparse : ∀ i, grp.records.length ≤ i → grp.priorities i = none) (priority : Nat) :
    (grp.append rec priority).entries = grp.entries ++ [(rec, priority)] := by
  have hdrop : (grp.records ++ [rec]).drop grp.head = grp.records.drop grp.head ++ [rec] :=
    List.drop_append_of_le_length hhead
  have hold : ∀ slot ∈ (grp.records.drop grp.head).zipIdx grp.head,
      (grp.append rec priority).priorityOf slot.2 = grp.priorityOf slot.2 := by
    intro slot hslot
    have hlt := List.snd_lt_add_of_mem_zipIdx hslot
    rw [List.length_drop] at hlt
    unfold priorityOf append
    simp only
    split
    · rfl
    · rw [Function.update_of_ne (by omega)]
  have hlast : (grp.append rec priority).priorityOf grp.records.length = priority := by
    unfold priorityOf append
    simp only
    split
    next heq => rw [hsparse _ (Nat.le_refl _), Option.getD_none, heq]
    · rw [Function.update_self, Option.getD_some]
  rw [entries, held, show (grp.append rec priority).records = grp.records ++ [rec] from rfl,
    show (grp.append rec priority).head = grp.head from rfl, hdrop, List.zipIdx_append,
    List.map_append, entries, held]
  congr 1
  · apply List.map_congr_left
    intro slot hslot
    rw [hold slot hslot]
  · rw [List.length_drop, show grp.head + (grp.records.length - grp.head) = grp.records.length by omega]
    simp [hlast]

theorem formed_append (h : grp.head ≤ grp.records.length)
    (hsparse : ∀ i, grp.records.length ≤ i → grp.priorities i = none) (priority : Nat) :
    (grp.append rec priority).Formed where
  head := by
    show grp.head < (grp.records ++ [rec]).length
    rw [List.length_append, List.length_singleton]
    omega
  sparse i hi := by
    have hi : grp.records.length + 1 ≤ i := by
      rw [show (grp.append rec priority).records = grp.records ++ [rec] from rfl,
        List.length_append, List.length_singleton] at hi
      exact hi
    unfold append
    simp only
    split
    · exact hsparse i (by omega)
    · rw [Function.update_of_ne (by omega)]
      exact hsparse i (by omega)

/-- Compaction forgets slots that are evicted. -/
theorem entries_compact : grp.compact.entries = grp.entries := by
  unfold entries held
  rw [show grp.compact.records = grp.records.drop grp.head from rfl,
    show grp.compact.head = 0 from rfl, List.drop_zero,
    List.zipIdx_eq_map_add (i := grp.head), List.map_map]
  apply List.map_congr_left
  intro slot _
  simp only [Function.comp, priorityOf, compact, Nat.add_comm]

theorem formed_compact (h : grp.Formed) : grp.compact.Formed where
  head := by
    show 0 < (grp.records.drop grp.head).length
    rw [List.length_drop]
    have hhead := h.head
    omega
  sparse i hi := by
    have hi : grp.records.length - grp.head ≤ i := by
      rwa [show grp.compact.records = grp.records.drop grp.head from rfl, List.length_drop] at hi
    exact h.sparse (i + grp.head) (by omega)

/-- The oldest record of a group goes. -/
theorem evictHead_spec (h : grp.Formed) (hrec : grp.records[grp.head]? = some rec)
    (hmore : grp.head + 1 ≠ grp.records.length) :
    (grp.evictHead rec).Formed ∧
      (∃ priority, grp.entries = (rec, priority) :: (grp.evictHead rec).entries) ∧
      (grp.evictHead rec).evicted = some (grp.evicted.elim rec.objectId (max rec.objectId)) := by
  have hhead := h.head
  set grp' : HeldGroup σ := { grp with
    head := grp.head + 1
    bytes := grp.bytes - rec.cost
    evicted := some (grp.evicted.elim rec.objectId (max rec.objectId)) } with hgrp'
  have hformed : grp'.Formed := by
    refine ⟨?_, h.sparse⟩
    show grp.head + 1 < grp.records.length
    omega
  have hget : grp.records[grp.head] = rec := by
    rw [List.getElem?_eq_getElem hhead] at hrec
    exact Option.some.inj hrec
  have hentries : grp.entries = (rec, grp.priorityOf grp.head) :: grp'.entries := by
    rw [entries, held, List.drop_eq_getElem_cons hhead, List.zipIdx_cons, List.map_cons, hget]
    rfl
  unfold evictHead
  split
  · refine ⟨formed_compact hformed, ⟨grp.priorityOf grp.head, ?_⟩, rfl⟩
    rw [entries_compact]
    exact hentries
  · exact ⟨hformed, ⟨grp.priorityOf grp.head, hentries⟩, rfl⟩

theorem foldl_max_spec (ids : List Nat) (start : Nat) :
    start ≤ ids.foldl max start ∧ ∀ id ∈ ids, id ≤ ids.foldl max start := by
  induction ids generalizing start with
  | nil => simp
  | cons id rest ih =>
      obtain ⟨hstart, hall⟩ := ih (max start id)
      rw [List.foldl_cons]
      refine ⟨by omega, ?_⟩
      intro other hother
      obtain rfl | hother := List.mem_cons.mp hother
      · omega
      · exact hall other hother

theorem le_largest {ids : List Nat} {evicted : Option Nat} {id : Nat}
    (h : id ∈ ids ∨ evicted = some id) : id ≤ largest ids evicted := by
  apply (foldl_max_spec _ 0).2
  rw [List.mem_append]
  obtain h | rfl := h
  · exact Or.inr h
  · exact Or.inl (by simp)

theorem mem_ids {entry : Record σ × Nat} (h : entry ∈ grp.entries) :
    entry.1.objectId ∈ grp.held.map fun slot => slot.1.objectId := by
  obtain ⟨slot, hslot, rfl⟩ := List.mem_map.mp h
  exact List.mem_map.mpr ⟨slot, hslot, rfl⟩

end HeldGroup

/-! ## What is held -/

namespace ObjectHistory

variable {h h' : ObjectHistory σ} {adds : List (Added σ)} {obj : Added σ} {group : Nat}
  {grp : HeldGroup σ}

/-- The records held of a group. -/
def entriesOf (h : ObjectHistory σ) (group : Nat) : List (Record σ × Nat) :=
  (h.groups.get? group).elim [] HeldGroup.entries

/-- The Location is reported as lost. -/
def Lost (h : ObjectHistory σ) (loc : Location) : Prop := ∃ through ∈ h.evictedThrough, loc ≤ through

/-- What a history knows of the objects that were added. -/
structure Keeps (adds : List (Added σ)) (h : ObjectHistory σ) : Prop where
  formed : ∀ entry ∈ h.groups.entries, entry.2.Formed
  young : ∀ entry ∈ h.groups.entries.tail, entry.2.evicted = none
  kept : ∀ group, ∃ dropped,
    (adds.filter (·.groupId = group)).map Added.entry = dropped ++ h.entriesOf group ∧
      ∀ entry ∈ dropped, h.Lost (.mk group entry.1.objectId)

theorem entriesOf_of_mem (hmem : (group, grp) ∈ h.groups.entries) :
    h.entriesOf group = grp.entries := by
  rw [entriesOf, Dict.get?_eq_some.mpr hmem]
  rfl

/-- An object joins its group. -/
theorem entriesOf_stored (hformed : ∀ entry ∈ h.groups.entries, entry.2.Formed) (obj : Added σ)
    (group : Nat) :
    (h.stored obj).entriesOf group =
      if group = obj.groupId then h.entriesOf group ++ [obj.entry] else h.entriesOf group := by
  rw [entriesOf, stored, Dict.get?_insert]
  split
  next heq =>
      rw [heq, entriesOf, Option.elim_some]
      cases hget : h.groups.get? obj.groupId with
      | none => exact HeldGroup.entries_append (Nat.le_refl _) (fun _ _ => rfl) obj.priority
      | some grp =>
          have hgroup := hformed _ (Dict.get?_eq_some.mp hget)
          exact HeldGroup.entries_append (Nat.le_of_lt hgroup.head) hgroup.sparse obj.priority
  · rfl

/-- Groups stay formed under an add. -/
theorem formed_stored (hformed : ∀ entry ∈ h.groups.entries, entry.2.Formed) (obj : Added σ) :
    ∀ entry ∈ (h.stored obj).groups.entries, entry.2.Formed := by
  intro entry hentry
  obtain ⟨-, heq⟩ | ⟨-, hold⟩ := Dict.mem_entries_insert.mp hentry
  · rw [heq]
    cases hget : h.groups.get? obj.groupId with
    | none => exact HeldGroup.formed_append (Nat.le_refl _) (fun _ _ => rfl) obj.priority
    | some grp =>
        have hgroup := hformed _ (Dict.get?_eq_some.mp hget)
        exact HeldGroup.formed_append (Nat.le_of_lt hgroup.head) hgroup.sparse obj.priority
  · exact hformed entry hold

/-- What is lost, of the first group and of what was dropped before. -/
theorem evictedThrough_cons {first : Nat × HeldGroup σ} {rest : List (Nat × HeldGroup σ)}
    (h : h'.groups.entries = first :: rest) :
    h'.evictedThrough = match first.2.evicted with
      | some object => some (h'.through.elim (.mk first.1 object) (max (.mk first.1 object)))
      | none => h'.through := by
  obtain ⟨maxBytes, slack, groups, bytes, through⟩ := h'
  obtain ⟨entries, nodup⟩ := groups
  obtain rfl : entries = first :: rest := h
  rfl

theorem evictedThrough_nil (hnil : h.groups.entries = []) : h.evictedThrough = h.through := by
  rw [evictedThrough, hnil]

theorem evictedThrough_stored (h : ObjectHistory σ) (obj : Added σ) :
    (h.stored obj).evictedThrough = h.evictedThrough := by
  cases hentries : h.groups.entries with
  | nil =>
      have hkey : obj.groupId ∉ h.groups.keys := by simp [Dict.keys, hentries]
      have hnew := Dict.insert_new
        (((h.groups.get? obj.groupId).getD { priority := obj.priority }).append obj.record obj.priority) hkey
      rw [hentries, List.nil_append] at hnew
      rw [evictedThrough_nil hentries, (evictedThrough_cons hnew : (h.stored obj).evictedThrough = _)]
      simp only [Dict.get?_eq_none hkey]
      rfl
  | cons first rest =>
      obtain ⟨rest', hnew, -⟩ := Dict.insert_cons hentries obj.groupId
        (((h.groups.get? obj.groupId).getD { priority := obj.priority }).append obj.record obj.priority)
      rw [evictedThrough_cons hentries, (evictedThrough_cons hnew : (h.stored obj).evictedThrough = _)]
      by_cases heq : first.1 = obj.groupId
      · have hget : h.groups.get? obj.groupId = some first.2 := by
          rw [Dict.get?_eq_some, hentries, ← heq]
          exact List.mem_cons_self
        rw [if_pos heq, hget, heq]
        rfl
      · rw [if_neg heq]
        rfl

theorem Keeps.stored (hkeeps : h.Keeps adds) (obj : Added σ) :
    (h.stored obj).Keeps (adds ++ [obj]) where
  formed := formed_stored hkeeps.formed obj
  young entry hentry := by
    have hyoung := hkeeps.young
    cases hentries : h.groups.entries with
    | nil =>
        have hkey : obj.groupId ∉ h.groups.keys := by simp [Dict.keys, hentries]
        rw [ObjectHistory.stored, Dict.insert_new _ hkey, hentries] at hentry
        simp at hentry
    | cons first rest =>
        rw [hentries, List.tail_cons] at hyoung
        obtain ⟨rest', hnew, hrest⟩ := Dict.insert_cons hentries obj.groupId
          (((h.groups.get? obj.groupId).getD { priority := obj.priority }).append obj.record
            obj.priority)
        rw [ObjectHistory.stored, hnew, List.tail_cons] at hentry
        obtain hold | ⟨rfl, hfirst⟩ := hrest entry hentry
        · exact hyoung entry hold
        · cases hget : h.groups.get? obj.groupId with
          | none => rfl
          | some grp =>
              have hmem := Dict.get?_eq_some.mp hget
              rw [hentries] at hmem
              obtain heq | hmem := List.mem_cons.mp hmem
              · exact absurd (congrArg Prod.fst heq).symm hfirst
              · have hold : grp.evicted = none := hyoung _ hmem
                exact hold
  kept group := by
    obtain ⟨dropped, hadds, hlost⟩ := hkeeps.kept group
    refine ⟨dropped, ?_, ?_⟩
    · rw [List.filter_append, List.map_append, hadds, entriesOf_stored hkeeps.formed]
      by_cases heq : group = obj.groupId
      · simp [heq]
      · have hne : ¬ obj.groupId = group := fun h => heq h.symm
        simp [heq, hne]
    · unfold Lost
      rw [evictedThrough_stored]
      exact hlost

/-! ## Eviction -/

/-- What is lost stays lost. -/
theorem Lost.mono {loc : Location} (hlost : h.Lost loc)
    (hmono : ∀ through ∈ h.evictedThrough, ∃ through' ∈ h'.evictedThrough, through ≤ through') :
    h'.Lost loc := by
  obtain ⟨through, hthrough, hle⟩ := hlost
  obtain ⟨through', hthrough', hle'⟩ := hmono through hthrough
  exact ⟨through', hthrough', hle.trans hle'⟩

section Oldest

variable {rest : List (Nat × HeldGroup σ)}

/-- The Location below which a group and what went before it are lost. -/
def lostWith (group : Nat) (object : Nat) (through : Option Location) : Location :=
  through.elim (.mk group object) (max (.mk group object))

theorem le_lostWith (through : Option Location) {loc : Location} {object : Nat}
    (hle : loc ≤ .mk group object ∨ loc ∈ through) : loc ≤ lostWith group object through := by
  cases through with
  | none =>
      obtain hle | hmem := hle
      · exact hle
      · cases hmem
  | some through =>
      obtain hle | hmem := hle
      · exact hle.trans (le_max_left _ _)
      · cases hmem
        exact le_max_right _ _

/-- What was lost before is at most `object` of the oldest group, or was dropped with a
group. -/
theorem evictedThrough_le (hfirst : h.groups.entries = (group, grp) :: rest) {object : Nat}
    (hobject : ∀ evicted ∈ grp.evicted, evicted ≤ object) :
    ∀ through ∈ h.evictedThrough, through ≤ lostWith group object h.through := by
  intro through hthrough
  rw [evictedThrough_cons hfirst] at hthrough
  cases hevicted : grp.evicted with
  | none =>
      simp only [hevicted] at hthrough
      exact le_lostWith _ (Or.inr hthrough)
  | some evicted =>
      have hle : Location.mk group evicted ≤ .mk group object :=
        Location.le_iff.mpr (Or.inr ⟨rfl, hobject evicted hevicted⟩)
      simp only [hevicted, Option.mem_def, Option.some.injEq] at hthrough
      rw [← hthrough]
      cases hold : h.through with
      | none => exact le_lostWith _ (Or.inl hle)
      | some old =>
          apply max_le
          · exact le_lostWith _ (Or.inl hle)
          · exact le_lostWith _ (Or.inr rfl)

theorem Keeps.dropOldest (hkeeps : h.Keeps adds)
    (hfirst : h.groups.entries = (group, grp) :: rest) : (h.dropOldest group grp).Keeps adds := by
  have hrest : (h.dropOldest group grp).groups.entries = rest := Dict.erase_first hfirst
  have hyoung : ∀ entry ∈ rest, entry.2.evicted = none := by
    have hyoung := hkeeps.young
    rwa [hfirst, List.tail_cons] at hyoung
  set object := HeldGroup.largest (grp.held.map fun entry => entry.1.objectId) grp.evicted with hobject
  have hthrough : (h.dropOldest group grp).evictedThrough = some (lostWith group object h.through) := by
    cases hrest' : rest with
    | nil =>
        rw [hrest'] at hrest
        exact evictedThrough_nil hrest
    | cons next rest =>
        rw [hrest'] at hrest
        rw [evictedThrough_cons hrest, hyoung next (hrest' ▸ List.mem_cons_self)]
        rfl
  refine ⟨?_, ?_, ?_⟩
  · intro entry hentry
    rw [hrest] at hentry
    exact hkeeps.formed entry (hfirst ▸ List.mem_cons_of_mem _ hentry)
  · intro entry hentry
    rw [hrest] at hentry
    exact hyoung entry (List.mem_of_mem_tail hentry)
  · intro other
    have hmono : ∀ through ∈ h.evictedThrough,
        ∃ through' ∈ (h.dropOldest group grp).evictedThrough, through ≤ through' := by
      intro through hold
      refine ⟨_, hthrough, evictedThrough_le hfirst ?_ through hold⟩
      intro evicted hevicted
      exact HeldGroup.le_largest (Or.inr hevicted)
    obtain ⟨dropped, hadds, hlost⟩ := hkeeps.kept other
    by_cases heq : other = group
    · have hgone : (h.dropOldest group grp).entriesOf other = [] := by
        rw [entriesOf, show (h.dropOldest group grp).groups = h.groups.erase group from rfl,
          Dict.get?_erase, if_pos heq]
        rfl
      refine ⟨dropped ++ grp.entries, ?_, ?_⟩
      · rw [hadds, hgone, List.append_nil, heq,
          entriesOf_of_mem (hfirst ▸ List.mem_cons_self)]
      · intro entry hentry
        obtain hentry | hentry := List.mem_append.mp hentry
        · exact (hlost entry hentry).mono hmono
        · refine ⟨_, hthrough, le_lostWith _ (Or.inl ?_)⟩
          rw [Location.le_iff]
          exact Or.inr ⟨heq, HeldGroup.le_largest (Or.inl (HeldGroup.mem_ids hentry))⟩
    · refine ⟨dropped, ?_, fun entry hentry => (hlost entry hentry).mono hmono⟩
      rw [hadds, entriesOf, entriesOf,
        show (h.dropOldest group grp).groups = h.groups.erase group from rfl,
        Dict.get?_erase, if_neg heq]

/-- The history after the oldest record of the oldest group is evicted. -/
def dropRecord (h : ObjectHistory σ) (group : Nat) (grp : HeldGroup σ) (rec : Record σ) :
    ObjectHistory σ :=
  { h with
    groups := h.groups.insert group (grp.evictHead rec)
    bytes := h.bytes - rec.cost }

theorem dropRecord_entries (hfirst : h.groups.entries = (group, grp) :: rest) (rec : Record σ) :
    (h.dropRecord group grp rec).groups.entries = (group, grp.evictHead rec) :: rest :=
  Dict.insert_first hfirst (grp.evictHead rec)

theorem Keeps.dropRecord (hkeeps : h.Keeps adds)
    (hfirst : h.groups.entries = (group, grp) :: rest) {rec : Record σ}
    (hrec : grp.records[grp.head]? = some rec) (hmore : grp.head + 1 ≠ grp.records.length) :
    (h.dropRecord group grp rec).Keeps adds := by
  have hmem : (group, grp) ∈ h.groups.entries := hfirst ▸ List.mem_cons_self
  obtain ⟨hformed, ⟨priority, hentries⟩, hevicted⟩ :=
    HeldGroup.evictHead_spec (hkeeps.formed _ hmem) hrec hmore
  have hnew := dropRecord_entries hfirst rec
  set object := grp.evicted.elim rec.objectId (max rec.objectId) with hobject
  have hthrough : (h.dropRecord group grp rec).evictedThrough =
      some (lostWith group object h.through) := by
    rw [evictedThrough_cons hnew, hevicted]
    rfl
  have hmono : ∀ through ∈ h.evictedThrough,
      ∃ through' ∈ (h.dropRecord group grp rec).evictedThrough, through ≤ through' := by
    intro through hold
    refine ⟨_, hthrough, evictedThrough_le hfirst ?_ through hold⟩
    intro evicted hwas
    rw [hobject, Option.mem_def.mp hwas]
    exact Nat.le_max_right _ _
  have hrecord : rec.objectId ≤ object := by
    rw [hobject]
    cases grp.evicted with
    | none => exact Nat.le_refl _
    | some evicted => exact Nat.le_max_left _ _
  refine ⟨?_, ?_, ?_⟩
  · intro entry hentry
    rw [hnew] at hentry
    obtain rfl | hold := List.mem_cons.mp hentry
    · exact hformed
    · exact hkeeps.formed entry (hfirst ▸ List.mem_cons_of_mem _ hold)
  · intro entry hentry
    rw [hnew, List.tail_cons] at hentry
    apply hkeeps.young entry
    rw [hfirst, List.tail_cons]
    exact hentry
  · intro other
    obtain ⟨dropped, hadds, hlost⟩ := hkeeps.kept other
    by_cases heq : other = group
    · have hnow : (h.dropRecord group grp rec).entriesOf other = (grp.evictHead rec).entries := by
        rw [heq]
        exact entriesOf_of_mem (hnew ▸ List.mem_cons_self)
      refine ⟨dropped ++ [(rec, priority)], ?_, ?_⟩
      · rw [hadds, hnow, heq, entriesOf_of_mem hmem, hentries, List.append_assoc,
          List.singleton_append]
      · intro entry hentry
        obtain hentry | hentry := List.mem_append.mp hentry
        · exact (hlost entry hentry).mono hmono
        · rw [List.mem_singleton.mp hentry]
          refine ⟨_, hthrough, le_lostWith _ (Or.inl ?_)⟩
          exact Location.le_iff.mpr (Or.inr ⟨heq, hrecord⟩)
    · refine ⟨dropped, ?_, fun entry hentry => (hlost entry hentry).mono hmono⟩
      rw [hadds, entriesOf, entriesOf,
        show (h.dropRecord group grp rec).groups = h.groups.insert group (grp.evictHead rec) from rfl,
        Dict.get?_insert, if_neg heq]

end Oldest

/-- A turn of the loop drops the oldest group, or a record of it that is not its last. -/
theorem evictOne_cases {cap : Int} (heq : h.evictOne cap = some h') :
    ∃ group grp rest, h.groups.entries = (group, grp) :: rest ∧
      (h' = h.dropOldest group grp ∨
        ∃ rec, grp.records[grp.head]? = some rec ∧ grp.head + 1 ≠ grp.records.length ∧
          h' = h.dropRecord group grp rec) := by
  unfold evictOne at heq
  split at heq
  · cases heq
  · split at heq
    · cases heq
    next group grp rest hentries =>
        refine ⟨group, grp, rest, hentries, ?_⟩
        split at heq
        · exact Or.inl (Option.some.inj heq).symm
        next hmore =>
            obtain ⟨rec, hrec, rfl⟩ := Option.map_eq_some_iff.mp heq
            exact Or.inr ⟨rec, hrec, fun hlast => hmore (Or.inl hlast), rfl⟩

theorem Keeps.evictOne {cap : Int} (hkeeps : h.Keeps adds) (heq : h.evictOne cap = some h') :
    h'.Keeps adds := by
  obtain ⟨group, grp, rest, hfirst, rfl | ⟨rec, hrec, hmore, rfl⟩⟩ := evictOne_cases heq
  · exact hkeeps.dropOldest hfirst
  · exact hkeeps.dropRecord hfirst hrec hmore

theorem Keeps.evictTurns {cap : Int} (hkeeps : h.Keeps adds) (turns : Nat) :
    (evictTurns cap turns h).Keeps adds := by
  induction turns generalizing h with
  | zero => exact hkeeps
  | succ turns ih =>
      unfold ObjectHistory.evictTurns
      split
      · exact hkeeps
      next heq => exact ih (hkeeps.evictOne heq)

/-- A turn drops a record at least. -/
theorem size_evictOne {cap : Int} (hall : ∀ entry ∈ h.groups.entries, entry.2.Formed)
    (heq : h.evictOne cap = some h') : h'.size < h.size := by
  obtain ⟨group, grp, rest, hfirst, hcase⟩ := evictOne_cases heq
  have hformed := hall (group, grp) (hfirst ▸ List.mem_cons_self)
  have hheld : ∀ grp : HeldGroup σ, grp.held.length = grp.entries.length := by
    intro grp
    rw [HeldGroup.entries, List.length_map]
  have hsize : h.size = grp.held.length + (rest.map fun entry => entry.2.held.length).sum := by
    rw [size, hfirst, List.map_cons, List.sum_cons]
  obtain rfl | ⟨rec, hrec, hmore, rfl⟩ := hcase
  · have hrest : (h.dropOldest group grp).groups.entries = rest := Dict.erase_first hfirst
    have hsome : 0 < grp.held.length := by
      rw [HeldGroup.held, List.length_zipIdx, List.length_drop]
      exact Nat.sub_pos_of_lt hformed.head
    rw [hsize, size, hrest]
    omega
  · obtain ⟨-, ⟨priority, hentries⟩, -⟩ := HeldGroup.evictHead_spec hformed hrec hmore
    have hless : (grp.evictHead rec).held.length < grp.held.length := by
      rw [hheld, hheld, hentries, List.length_cons]
      exact Nat.lt_succ_self _
    rw [hsize, size, dropRecord_entries hfirst, List.map_cons, List.sum_cons]
    show (grp.evictHead rec).held.length + _ < _
    omega

theorem Keeps.add (hkeeps : h.Keeps adds) (obj : Added σ) : (h.add obj).Keeps (adds ++ [obj]) := by
  have hstored := hkeeps.stored obj
  unfold ObjectHistory.add
  simp only
  split
  · exact hstored
  · split
    · exact hstored.evictTurns _
    · split
      · exact hstored
      · exact hstored.evictTurns _

/-- A history after objects were added. -/
def run (maxBytes : Nat) (slack : Option Nat) (adds : List (Added σ)) : ObjectHistory σ :=
  adds.foldl add { maxBytes, slack }

theorem keeps_run (maxBytes : Nat) (slack : Option Nat) (adds : List (Added σ)) :
    (run maxBytes slack adds).Keeps adds := by
  induction adds using List.reverseRecOn with
  | nil => exact ⟨by simp [run, Dict.empty], by simp [run, Dict.empty], fun _ => ⟨[], rfl, by simp⟩⟩
  | append_singleton adds obj ih =>
      rw [run, List.foldl_append]
      exact ih.add obj

end ObjectHistory

end AioMoqt.Delivery
