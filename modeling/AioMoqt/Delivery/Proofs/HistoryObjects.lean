import AioMoqt.Delivery.Proofs.HistoryAccounts

/-!
# The pointers of a history

Whatever is added and discarded, `_last` and `_oldest` point at groups of the table, no
operation raises, and through the table the group objects are the history of
`ObjectHistory`.
-/

namespace AioMoqt.Delivery

open AioMoqt.Lib AioMoqt.Messages

variable {σ : Type}

namespace HistoryObjects

/-- The history seen through the table. -/
def view (self : HistoryObjects σ) : ObjectHistory σ where
  maxBytes := self.maxBytes
  slack := self.slack
  groups := self.groups.map self.heap
  bytes := self.bytes
  through := self.through

/-- The table names each group object once, and the pointers are entries of it. -/
structure Linked (s : HistoryObjects σ) : Prop where
  distinct : (s.groups.entries.map Prod.snd).Nodup
  made : ∀ entry ∈ s.groups.entries, entry.2 < s.next
  last : ∀ groupId, s.lastId = some groupId →
    ∃ grp, s.last = some grp ∧ s.groups.get? groupId = some grp
  oldestId : s.oldestId = s.groups.keys.head?
  oldest : s.oldest = s.groups.entries.head?.map Prod.snd

variable {self self' : HistoryObjects σ} {adds : List (Added σ)}

theorem Linked.entries_nil (hlinked : self.Linked) (hnone : self.oldest = none) :
    self.groups.entries = [] := by
  have holdest := hlinked.oldest
  rw [hnone] at holdest
  cases hentries : self.groups.entries with
  | nil => rfl
  | cons first rest => simp [hentries] at holdest

theorem Linked.entries_cons (hlinked : self.Linked) {grp : Nat} (hsome : self.oldest = some grp) :
    ∃ groupId rest, self.groups.entries = (groupId, grp) :: rest ∧
      self.oldestId = some groupId := by
  have holdest := hlinked.oldest
  have hid := hlinked.oldestId
  rw [hsome] at holdest
  rw [Dict.keys] at hid
  cases hentries : self.groups.entries with
  | nil => simp [hentries] at holdest
  | cons first rest =>
      obtain ⟨groupId, ref⟩ := first
      rw [hentries] at holdest hid
      simp only [List.head?_cons, Option.map_some, Option.some.injEq] at holdest
      subst holdest
      exact ⟨groupId, rest, rfl, by simpa using hid⟩

/-! ## Adding -/

/-- The group of an add is in the table afterwards, and `_last` points at it. -/
theorem groupFor_linked (hlinked : self.Linked) (groupId priority : Nat) :
    (self.groupFor groupId priority).Linked ∧
      ∃ grp, (self.groupFor groupId priority).last = some grp ∧
        (self.groupFor groupId priority).groups.get? groupId = some grp := by
  unfold groupFor
  by_cases hlast : self.lastId = some groupId
  · rw [if_pos hlast]
    obtain ⟨grp, hptr, hget⟩ := hlinked.last groupId hlast
    exact ⟨hlinked, grp, hptr, hget⟩
  rw [if_neg hlast]
  cases hget : self.groups.get? groupId with
  | some grp =>
      refine ⟨⟨hlinked.distinct, hlinked.made, ?_, hlinked.oldestId, hlinked.oldest⟩, grp, rfl, hget⟩
      intro other hother
      cases hother
      exact ⟨grp, rfl, hget⟩
  | none =>
      have hkey : groupId ∉ self.groups.keys := by
        intro hmem
        obtain ⟨entry, hentry, rfl⟩ := List.mem_map.mp hmem
        rw [Dict.get?_eq_some.mpr hentry] at hget
        cases hget
      have hentries := Dict.insert_new self.next hkey
      have hfound : (self.groups.insert groupId self.next).get? groupId = some self.next := by
        rw [Dict.get?_insert, if_pos rfl]
      refine ⟨⟨?_, ?_, ?_, ?_, ?_⟩, self.next, rfl, hfound⟩
      · show ((self.groups.insert groupId self.next).entries.map Prod.snd).Nodup
        rw [hentries, List.map_append, List.map_singleton, List.nodup_append]
        refine ⟨hlinked.distinct, List.nodup_singleton _, ?_⟩
        rintro ref href other hother rfl
        obtain ⟨entry, hentry, rfl⟩ := List.mem_map.mp href
        have hlt := hlinked.made entry hentry
        rw [List.mem_singleton.mp hother] at hlt
        exact Nat.lt_irrefl _ hlt
      · intro entry hentry
        rw [show (self.groups.insert groupId self.next).entries = _ from hentries] at hentry
        obtain hold | hnew := List.mem_append.mp hentry
        · exact Nat.lt_succ_of_lt (hlinked.made entry hold)
        · rw [List.mem_singleton.mp hnew]
          exact Nat.lt_succ_self _
      · intro other hother
        cases hother
        exact ⟨self.next, rfl, hfound⟩
      · show (if self.oldest = none then some groupId else self.oldestId) =
          (self.groups.insert groupId self.next).keys.head?
        rw [Dict.keys, hentries]
        cases hold : self.oldest with
        | none => rw [hlinked.entries_nil hold, if_pos rfl]; rfl
        | some grp =>
            obtain ⟨first, rest, hcons, hid⟩ := hlinked.entries_cons hold
            rw [if_neg (by simp), hcons, hid]
            rfl
      · show (if self.oldest = none then some self.next else self.oldest) =
          (self.groups.insert groupId self.next).entries.head?.map Prod.snd
        rw [hentries]
        cases hold : self.oldest with
        | none => rw [hlinked.entries_nil hold, if_pos rfl]; rfl
        | some grp =>
            obtain ⟨first, rest, hcons, -⟩ := hlinked.entries_cons hold
            rw [if_neg (by simp), hcons]
            rfl

/-- Linking looks at the table and the pointers only. -/
theorem Linked.of_same (hlinked : self.Linked) (hgroups : self'.groups = self.groups)
    (hnext : self'.next = self.next) (hlastId : self'.lastId = self.lastId)
    (hlast : self'.last = self.last) (holdestId : self'.oldestId = self.oldestId)
    (holdest : self'.oldest = self.oldest) : self'.Linked where
  distinct := by
    rw [hgroups]
    exact hlinked.distinct
  made := by
    rw [hgroups, hnext]
    exact hlinked.made
  last := by
    rw [hgroups, hlastId, hlast]
    exact hlinked.last
  oldestId := by
    rw [hgroups, holdestId]
    exact hlinked.oldestId
  oldest := by
    rw [hgroups, holdest]
    exact hlinked.oldest

/-- An object is recorded in its group. -/
theorem stored_view (hlinked : self.Linked) (obj : Added σ) :
    ∃ self', self.stored obj = some self' ∧ self'.Linked ∧ self'.view = self.view.stored obj := by
  obtain ⟨hfound, grp, hlast, hget⟩ := groupFor_linked hlinked obj.groupId obj.priority
  refine ⟨(self.groupFor obj.groupId obj.priority).appendTo grp obj, ?_,
    hfound.of_same rfl rfl rfl rfl rfl rfl, ?_⟩
  · rw [stored, hlast, Option.map_some]
  -- the table of the view: the group's entry is written
  have hgroups : (self.groupFor obj.groupId obj.priority).groups.map
      (Function.update (self.groupFor obj.groupId obj.priority).heap grp
        (((self.groupFor obj.groupId obj.priority).heap grp).append obj.record obj.priority)) =
      (self.groups.map self.heap).insert obj.groupId
        ((((self.groups.map self.heap).get? obj.groupId).getD
          { priority := obj.priority }).append obj.record obj.priority) := by
    rw [Dict.get?_map]
    unfold groupFor at hlast hget ⊢
    by_cases hsame : self.lastId = some obj.groupId
    · rw [if_pos hsame] at hlast hget ⊢
      rw [Dict.map_update hlinked.distinct hget, hget]
      rfl
    rw [if_neg hsame] at hlast hget ⊢
    cases hold : self.groups.get? obj.groupId with
    | some old =>
        rw [hold] at hlast hget
        dsimp only at hlast hget ⊢
        cases hlast
        rw [Dict.map_update hlinked.distinct hold]
        rfl
    | none =>
        rw [hold] at hlast hget
        dsimp only at hlast hget ⊢
        cases hlast
        rw [Function.update_self, Function.update_idem, Dict.map_insert, Function.update_self]
        congr 1
        apply Dict.map_congr
        intro entry hentry
        rw [Function.update_of_ne (Nat.ne_of_lt (hlinked.made entry hentry))]
  have hrest : (self.groupFor obj.groupId obj.priority).maxBytes = self.maxBytes ∧
      (self.groupFor obj.groupId obj.priority).slack = self.slack ∧
      (self.groupFor obj.groupId obj.priority).bytes = self.bytes ∧
      (self.groupFor obj.groupId obj.priority).through = self.through := by
    unfold groupFor
    split
    · exact ⟨rfl, rfl, rfl, rfl⟩
    · split <;> exact ⟨rfl, rfl, rfl, rfl⟩
  obtain ⟨hmax, hslack, hbytes, hthrough⟩ := hrest
  simp only [view, appendTo, ObjectHistory.stored, hgroups, hmax, hslack, hbytes, hthrough]

/-- The group of an add is in the table. -/
theorem stored_nonempty {stored : HistoryObjects σ} {obj : Added σ}
    (hview : stored.view = self.view.stored obj) : stored.groups.entries ≠ [] := by
  intro hnil
  have hget : stored.view.groups.get? obj.groupId ≠ none := by
    rw [hview, ObjectHistory.stored, Dict.get?_insert, if_pos rfl]
    simp
  apply hget
  rw [view, Dict.get?_map, Dict.get?, hnil]
  rfl

/-! ## Dropping -/

/-- A group leaves the table, and the pointers to it with it. -/
theorem Linked.erase (hlinked : self.Linked) {groupId grp : Nat}
    (hget : self.groups.get? groupId = some grp)
    (hgroups : self'.groups = self.groups.erase groupId) (hnext : self'.next = self.next)
    (hlastId : self'.lastId = if self.last = some grp then none else self.lastId)
    (hlast : self'.last = if self.last = some grp then none else self.last)
    (holdestId : self'.oldestId = self'.groups.keys.head?)
    (holdest : self'.oldest = self'.groups.entries.head?.map Prod.snd) : self'.Linked where
  distinct := by
    rw [hgroups]
    exact hlinked.distinct.sublist (List.filter_sublist.map _)
  made entry hentry := by
    rw [hgroups] at hentry
    rw [hnext]
    exact hlinked.made entry (List.mem_of_mem_filter hentry)
  last other hother := by
    rw [hlastId] at hother
    by_cases hptr : self.last = some grp
    · rw [if_pos hptr] at hother
      cases hother
    · rw [if_neg hptr] at hother
      obtain ⟨ref, hlast', hget'⟩ := hlinked.last other hother
      refine ⟨ref, by rw [hlast, if_neg hptr, hlast'], ?_⟩
      have hne : other ≠ groupId := by
        rintro rfl
        rw [hget, Option.some.injEq] at hget'
        exact hptr (hget' ▸ hlast')
      rw [hgroups, Dict.get?_erase, if_neg hne, hget']
  oldestId := holdestId
  oldest := holdest

/-- `_drop_oldest` drops the first group of the table. -/
theorem dropOldest_view (hlinked : self.Linked) {groupId grp : Nat} {rest : List (Nat × Nat)}
    (hfirst : self.groups.entries = (groupId, grp) :: rest)
    (hid : self.oldestId = some groupId) (holdest : self.oldest = some grp)
    (hformed : (self.heap grp).Formed) :
    ∃ self', self.dropOldest = some self' ∧ self'.Linked ∧
      self'.view = self.view.dropOldest groupId (self.heap grp) := by
  have hget : self.groups.get? groupId = some grp :=
    Dict.get?_eq_some.mpr (hfirst ▸ List.mem_cons_self)
  have hkey : groupId ∈ self.groups.keys := List.mem_map_of_mem (Dict.get?_eq_some.mp hget)
  have hheld : (self.heap grp).held ≠ [] := by
    have hhead := hformed.head
    intro hnil
    have hlen := congrArg List.length hnil
    rw [HeldGroup.held, List.length_zipIdx, List.length_drop, List.length_nil] at hlen
    omega
  unfold dropOldest
  rw [hid, holdest]
  dsimp only
  rw [if_neg (by simp [hkey, hheld])]
  refine ⟨_, rfl, hlinked.erase hget rfl rfl rfl rfl rfl rfl, ?_⟩
  simp only [view, ObjectHistory.dropOldest, Dict.map_erase]

/-- Without a group that is not the oldest, the table still starts with the oldest one. -/
theorem Linked.head_erase (hlinked : self.Linked) {groupId grp : Nat}
    (hget : self.groups.get? groupId = some grp) (hne : self.oldest ≠ some grp) :
    (self.groups.erase groupId).entries.head? = self.groups.entries.head? := by
  have hmem := Dict.get?_eq_some.mp hget
  have hfirst := hlinked.oldest
  cases hentries : self.groups.entries with
  | nil => simp [hentries] at hmem
  | cons first rest =>
      rw [hentries] at hfirst
      have hkeep : first.1 ≠ groupId := by
        rintro rfl
        have hsame := Dict.get?_eq_some.mpr
          (show (first.1, first.2) ∈ self.groups.entries from hentries ▸ List.mem_cons_self)
        rw [hget, Option.some.injEq] at hsame
        exact hne (by rw [hfirst, hsame]; rfl)
      simp [Dict.erase, hentries, hkeep]

theorem discard_view (hlinked : self.Linked) (groupId : Nat) :
    (self.discard groupId).Linked ∧ (self.discard groupId).view = self.view.discard groupId := by
  unfold discard ObjectHistory.discard
  cases hget : self.groups.get? groupId with
  | none =>
      refine ⟨hlinked, ?_⟩
      rw [show self.view.groups.get? groupId = none by
        rw [view, Dict.get?_map, hget]
        rfl]
  | some grp =>
      have hview : self.view.groups.get? groupId = some (self.heap grp) := by
        rw [view, Dict.get?_map, hget]
        rfl
      rw [hview]
      dsimp only
      refine ⟨hlinked.erase hget rfl rfl rfl rfl ?_ ?_, ?_⟩
      · dsimp only
        split
        · rfl
        · next hne =>
            rw [hlinked.oldestId, Dict.keys, Dict.keys, List.head?_map, List.head?_map,
              hlinked.head_erase hget hne]
      · dsimp only
        split
        · rfl
        · next hne => rw [hlinked.oldest, hlinked.head_erase hget hne]
      · simp only [view, Dict.map_erase]

/-! ## Evicting -/

/-- A turn of the loop is the turn of the history that is seen through the table. -/
theorem evictOne_view {cap : Int} (hlinked : self.Linked) (hacc : self.view.Accounts adds) :
    match self.view.evictOne cap with
    | none => self.evictOne cap = some none
    | some h' => ∃ self', self.evictOne cap = some (some self') ∧ self'.Linked ∧ self'.view = h' := by
  unfold evictOne ObjectHistory.evictOne
  by_cases hcap : self.bytes ≤ cap
  · rw [if_pos hcap, if_pos (show self.view.bytes ≤ cap from hcap)]
  rw [if_neg hcap, if_neg (show ¬ self.view.bytes ≤ cap from hcap)]
  cases holdest : self.oldest with
  | none =>
      have hnil : self.view.groups.entries = [] := by
        rw [view, Dict.entries_map, hlinked.entries_nil holdest, List.map_nil]
      rw [hnil]
  | some grp =>
      obtain ⟨groupId, rest, hfirst, hid⟩ := hlinked.entries_cons holdest
      have hview : self.view.groups.entries =
          (groupId, self.heap grp) :: rest.map fun entry => (entry.1, self.heap entry.2) := by
        rw [view, Dict.entries_map, hfirst, List.map_cons]
      have hformed := hacc.formed (groupId, self.heap grp) (hview ▸ List.mem_cons_self)
      rw [hview]
      dsimp only
      by_cases hdrop : (self.heap grp).head + 1 = (self.heap grp).records.length ∨
          (self.heap grp).bytes ≤ self.bytes - cap
      · rw [if_pos hdrop, if_pos (show _ ∨ (self.heap grp).bytes ≤ self.view.bytes - cap from hdrop)]
        obtain ⟨self', hdropped, hlinked', hview'⟩ :=
          dropOldest_view hlinked hfirst hid holdest hformed
        exact ⟨self', by rw [hdropped, Option.map_some], hlinked', hview'⟩
      · rw [if_neg hdrop,
          if_neg (show ¬ (_ ∨ (self.heap grp).bytes ≤ self.view.bytes - cap) from hdrop),
          List.getElem?_eq_getElem hformed.head]
        have hget : self.groups.get? groupId = some grp :=
          Dict.get?_eq_some.mpr (hfirst ▸ List.mem_cons_self)
        refine ⟨_, rfl, hlinked.of_same rfl rfl rfl rfl rfl holdest.symm, ?_⟩
        simp only [view, Dict.map_update hlinked.distinct hget]

theorem size_view (self : HistoryObjects σ) : self.view.size = self.size := by
  rw [ObjectHistory.size, size, view, Dict.entries_map, List.map_map]
  rfl

/-- The loop of `_evict` ends, within as many turns as records are held. -/
theorem evictTurns_view {cap : Int} (turns : Nat) :
    ∀ {self : HistoryObjects σ}, self.Linked → self.view.Accounts adds → self.size ≤ turns →
      ∃ self', evictTurns cap turns self = some self' ∧ self'.Linked ∧
        self'.view.Accounts adds ∧ self'.view = ObjectHistory.evictTurns cap turns self.view ∧
        self'.evictOne cap = some none ∧ self'.view.evictOne cap = none := by
  induction turns with
  | zero =>
      intro self hlinked hacc hsize
      have hturn := @evictOne_view σ self adds cap hlinked hacc
      have hend : self.view.evictOne cap = none := by
        cases hone : self.view.evictOne cap with
        | none => rfl
        | some h' =>
            have hless := ObjectHistory.size_evictOne hacc.formed hone
            rw [size_view] at hless
            omega
      rw [hend] at hturn
      exact ⟨self, by rw [evictTurns, hturn], hlinked, hacc, rfl, hturn, hend⟩
  | succ turns ih =>
      intro self hlinked hacc hsize
      have hturn := @evictOne_view σ self adds cap hlinked hacc
      cases hone : self.view.evictOne cap with
      | none =>
          rw [hone] at hturn
          refine ⟨self, by rw [evictTurns, hturn], hlinked, hacc, ?_, hturn, hone⟩
          rw [ObjectHistory.evictTurns, hone]
      | some h' =>
          rw [hone] at hturn
          obtain ⟨next, hnext, hlinked', rfl⟩ := hturn
          have hless := ObjectHistory.size_evictOne hacc.formed hone
          rw [size_view, size_view] at hless
          obtain ⟨self', hrun, hrest⟩ := ih hlinked' (hacc.evictOne hone) (by omega)
          refine ⟨self', ?_, ?_⟩
          · rw [evictTurns, hnext]
            exact hrun
          · rw [ObjectHistory.evictTurns, hone]
            exact hrest

theorem evict_view {cap : Int} (hlinked : self.Linked) (hacc : self.view.Accounts adds)
    (hsome : self.groups.entries ≠ []) :
    ∃ self', self.evict cap = some self' ∧ self'.Linked ∧ self'.view.Accounts adds ∧
      self'.view = self.view.evict cap ∧ self'.evictOne cap = some none ∧
      self'.view.evictOne cap = none := by
  have holdest : ¬ (cap < self.bytes ∧ self.oldest = none) := by
    rintro ⟨-, hnone⟩
    exact hsome (hlinked.entries_nil hnone)
  rw [evict, if_neg holdest, ObjectHistory.evict, size_view]
  exact evictTurns_view self.size hlinked hacc (Nat.le_refl _)

/-! ## Runs -/

/-- The objects added by `ops`, in order. -/
def added (ops : List (HistoryOp σ)) : List (Added σ) :=
  ops.filterMap fun op => match op with
    | .add obj => some obj
    | .discard _ => none

/-- How far past `max_bytes` a history may reach: by the slack it was given, else by an
eighth or by what the last object added cost. -/
def overshoot (maxBytes : Nat) (slack : Option Nat) (adds : List (Added σ)) : Nat :=
  slack.getD (max (maxBytes / 8) (adds.getLast?.elim 0 fun obj => obj.record.cost))

/-- What holds of a history whenever an operation has returned. -/
structure Sound (maxBytes : Nat) (slack : Option Nat) (adds : List (Added σ))
    (s : HistoryObjects σ) : Prop where
  linked : s.Linked
  accounts : s.view.Accounts adds
  settings : s.maxBytes = maxBytes ∧ s.slack = slack
  bound : s.bytes ≤ maxBytes + overshoot maxBytes slack adds

theorem evictTurns_settings {cap : Int} (turns : Nat) :
    ∀ h : ObjectHistory σ, (ObjectHistory.evictTurns cap turns h).maxBytes = h.maxBytes ∧
      (ObjectHistory.evictTurns cap turns h).slack = h.slack := by
  induction turns with
  | zero => exact fun h => ⟨rfl, rfl⟩
  | succ turns ih =>
      intro h
      rw [ObjectHistory.evictTurns]
      cases hone : h.evictOne cap with
      | none => exact ⟨rfl, rfl⟩
      | some h' =>
          obtain ⟨group, grp, rest, -, rfl | ⟨rec, -, -, rfl⟩⟩ := ObjectHistory.evictOne_cases hone
          · exact ih _
          · exact ih _

variable {maxBytes : Nat} {slack : Option Nat}

/-- An add returns, and leaves no more than the bound. -/
theorem Sound.add (hsound : Sound maxBytes slack adds self) (obj : Added σ) :
    ∃ self', self.add obj = some self' ∧ Sound maxBytes slack (adds ++ [obj]) self' := by
  obtain ⟨hlinked, hacc, ⟨hmax, hslack⟩, hbound⟩ := hsound
  obtain ⟨stored, hstored, hlinked', hview⟩ := stored_view hlinked obj
  have hacc' : stored.view.Accounts (adds ++ [obj]) := by
    rw [hview]
    exact hacc.stored obj
  have hsettings : stored.maxBytes = maxBytes ∧ stored.slack = slack := by
    have hmax' := congrArg ObjectHistory.maxBytes hview
    have hslack' := congrArg ObjectHistory.slack hview
    exact ⟨hmax'.trans hmax, hslack'.trans hslack⟩
  have hbytes : stored.bytes = self.bytes + obj.record.cost := congrArg ObjectHistory.bytes hview
  have hsome := stored_nonempty hview
  have hlast : overshoot maxBytes slack (adds ++ [obj]) =
      slack.getD (max (maxBytes / 8) obj.record.cost) := by
    rw [overshoot, List.getLast?_append]
    rfl
  -- what an eviction to `cap` leaves
  have hevict : ∀ cap : Int, cap ≤ maxBytes → ∃ self', stored.evict cap = some self' ∧
      Sound maxBytes slack (adds ++ [obj]) self' := by
    intro cap hcap
    obtain ⟨self', hrun, hlinked'', hacc'', hview', -, hend⟩ := evict_view hlinked' hacc' hsome
    have hle := ObjectHistory.bytes_le_of_evictOne hacc'' hend
    have hsettings' := @evictTurns_settings σ cap stored.view.size stored.view
    refine ⟨self', hrun, hlinked'', hacc'', ?_, ?_⟩
    · have hmax' := congrArg ObjectHistory.maxBytes hview'
      have hslack' := congrArg ObjectHistory.slack hview'
      exact ⟨(hmax'.trans hsettings'.1).trans hsettings.1,
        (hslack'.trans hsettings'.2).trans hsettings.2⟩
    · have hzero : (0 : Int) ≤ overshoot maxBytes slack (adds ++ [obj]) := Int.natCast_nonneg _
      have hbytes' : self'.view.bytes = self'.bytes := rfl
      omega
  have hkeep : stored.bytes ≤ maxBytes + overshoot maxBytes slack (adds ++ [obj]) →
      Sound maxBytes slack (adds ++ [obj]) stored :=
    fun hle => ⟨hlinked', hacc', hsettings, hle⟩
  unfold HistoryObjects.add
  rw [hstored, Option.bind_some]
  dsimp only
  rw [hmax, slackBytes, hslack, hmax]
  by_cases hhigh : stored.bytes ≤ (maxBytes : Int) + (slack.getD (maxBytes / 8) : Nat)
  · rw [if_pos hhigh]
    refine ⟨stored, rfl, hkeep ?_⟩
    rw [hlast]
    cases slack with
    | none =>
        simp only [Option.getD_none] at hhigh ⊢
        omega
    | some slack => exact hhigh
  · rw [if_neg hhigh]
    cases slack with
    | some slack => exact hevict _ (by omega)
    | none =>
        dsimp only
        by_cases hfull : self.bytes ≤ (maxBytes : Int)
        · rw [if_pos hfull]
          refine ⟨stored, rfl, hkeep ?_⟩
          rw [hlast, Option.getD_none]
          omega
        · rw [if_neg hfull]
          exact hevict _ (by omega)

theorem Sound.discard (hsound : Sound maxBytes slack adds self) (groupId : Nat) :
    Sound maxBytes slack adds (self.discard groupId) := by
  obtain ⟨hlinked, hacc, hsettings, hbound⟩ := hsound
  obtain ⟨hlinked', hview⟩ := discard_view hlinked groupId
  refine ⟨hlinked', ?_, ?_, ?_⟩
  · rw [hview]
    exact hacc.discard groupId
  · unfold HistoryObjects.discard
    split <;> exact hsettings
  · unfold HistoryObjects.discard
    split
    · exact hbound
    · next grp hget =>
        have hmem : (groupId, self.heap grp) ∈ self.view.groups.entries :=
          List.mem_map.mpr ⟨(groupId, grp), Dict.get?_eq_some.mp hget, rfl⟩
        have hbytes := hacc.nonneg hmem
        dsimp only at hbytes ⊢
        omega

theorem sound_run (maxBytes : Nat) (slack : Option Nat) (ops : List (HistoryOp σ)) :
    ∃ s, run maxBytes slack ops = some s ∧ Sound maxBytes slack (added ops) s := by
  induction ops using List.reverseRecOn with
  | nil =>
      refine ⟨_, rfl, ⟨?_, ?_, ?_, ?_, ?_⟩, ⟨?_, ?_, ?_, ?_⟩, ⟨rfl, rfl⟩, ?_⟩
      case refine_10 =>
        show (0 : Int) ≤ maxBytes + (overshoot maxBytes slack (added ([] : List (HistoryOp σ))) : Nat)
        omega
      all_goals simp [Dict.empty, Dict.keys, view, Dict.map, ObjectHistory.groupBytes,
        ObjectHistory.entriesOf, Dict.get?]
  | append_singleton ops op ih =>
      obtain ⟨s, hrun, hsound⟩ := ih
      have hsnoc : run maxBytes slack (ops ++ [op]) = s.step op := by
        rw [run, List.foldlM_append, show ops.foldlM step _ = some s from hrun]
        simp
      cases op with
      | add obj =>
          obtain ⟨s', hadd, hsound'⟩ := hsound.add obj
          refine ⟨s', hsnoc.trans hadd, ?_⟩
          simpa [added] using hsound'
      | discard groupId =>
          refine ⟨s.discard groupId, hsnoc, ?_⟩
          simpa [added] using hsound.discard groupId

/-- The accounts of a history after `ops`. -/
structure Accounted (maxBytes : Nat) (slack : Option Nat) (ops : List (HistoryOp σ))
    (s : HistoryObjects σ) : Prop where
  groupBytes : s.bytes = (s.groups.entries.map fun entry => (s.heap entry.2).bytes).sum
  charges : s.bytes = (s.groups.entries.map fun entry =>
    ((s.heap entry.2).held.map fun slot => (slot.1.cost : Int)).sum).sum
  nonempty : ∀ entry ∈ s.groups.entries,
    (s.heap entry.2).head < (s.heap entry.2).records.length
  oldest : s.oldestId = s.groups.keys.head? ∧ s.oldest = s.groups.entries.head?.map Prod.snd
  last : ∀ groupId, s.lastId = some groupId →
    ∃ grp, s.last = some grp ∧ s.groups.get? groupId = some grp
  priorities : ∀ entry ∈ s.groups.entries,
    ((s.heap entry.2).held.map fun slot => (slot.1, (s.heap entry.2).priorityOf slot.2)) <:+
      ((added ops).filter (·.groupId = entry.1)).map fun obj => (obj.record, obj.priority)
  bound : s.bytes ≤ maxBytes + overshoot maxBytes slack (added ops)
  terminates : ∀ (obj : Added σ) (cap : Int), ∃ stored evicted, s.stored obj = some stored ∧
    stored.evict cap = some evicted ∧ evicted.evictOne cap = some none

/-- Whatever is added to a history and discarded, every operation returns and leaves it in
order: its bytes are what its records cost, no group is empty, the pointers stand right, the
records have the priorities they came with, and the bound holds. -/
theorem history_accounted (maxBytes : Nat) (slack : Option Nat) (ops : List (HistoryOp σ)) :
    ∃ s, run maxBytes slack ops = some s ∧ Accounted maxBytes slack ops s := by
  obtain ⟨s, hrun, hlinked, hacc, -, hbound⟩ := sound_run maxBytes slack ops
  have hentry : ∀ entry ∈ s.groups.entries,
      (entry.1, s.heap entry.2) ∈ s.view.groups.entries := by
    intro entry hmem
    exact List.mem_map_of_mem hmem
  have hbytes : s.bytes = (s.groups.entries.map fun entry => (s.heap entry.2).bytes).sum := by
    have htotal := hacc.total
    rw [ObjectHistory.groupBytes, view, Dict.entries_map, List.map_map] at htotal
    exact htotal
  refine ⟨s, hrun, ?_, ?_, ?_, ?_, ?_, ?_, hbound, ?_⟩
  · exact hbytes
  · rw [hbytes]
    congr 1
    apply List.map_congr_left
    intro entry hmem
    have hcharged := hacc.charged _ (hentry entry hmem)
    rw [HeldGroup.cost, HeldGroup.entries, List.map_map] at hcharged
    exact hcharged
  · intro entry hmem
    exact (hacc.formed _ (hentry entry hmem)).head
  · exact ⟨hlinked.oldestId, hlinked.oldest⟩
  · exact hlinked.last
  · intro entry hmem
    have hlatest := hacc.latest entry.1
    rw [ObjectHistory.entriesOf_of_mem (hentry entry hmem)] at hlatest
    exact hlatest
  · intro obj cap
    obtain ⟨stored, hstored, hlinked', hview⟩ := stored_view hlinked obj
    have hacc' : stored.view.Accounts (added ops ++ [obj]) := by
      rw [hview]
      exact hacc.stored obj
    have hsome := stored_nonempty hview
    obtain ⟨evicted, hevict, -, -, -, hend, -⟩ := evict_view hlinked' hacc' hsome
    exact ⟨stored, evicted, hstored, hevict, hend⟩

end HistoryObjects

end AioMoqt.Delivery
