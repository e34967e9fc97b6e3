import Mathlib.Algebra.Order.BigOperators.Group.List
import AioMoqt.Stats.Proofs.Noted

/-!
# The stream of a key, in slots and dictionaries

The state of a key is in the slots while its objects come in a row and in the dictionaries
otherwise, and goes when its group is far behind.  Where a key is not forgotten, both tell what
its arrivals alone tell.
-/

namespace AioMoqt.Stats

open AioMoqt.Lib AioMoqt.Lib.Strided

namespace TrackStats

variable {t : TrackStats}

/-- The last object and the stride of a key, from the slots or the dictionaries. -/
def slots (t : TrackStats) (key : LossKey) : Option Nat × Option Nat :=
  match t.live with
  | none => (t.expected.get? key, t.stride.get? key)
  | some l =>
      if l.key = key then (some l.prev, l.stride) else (t.expected.get? key, t.stride.get? key)

def missingOf (t : TrackStats) (key : LossKey) : Finset Nat := (t.missing.get? key).getD ∅

/-- A stride that is not learned is not in the dictionary either. -/
def Fresh (t : TrackStats) : Prop :=
  ∀ l, t.live = some l → l.stride = none → t.stride.get? l.key = none

/-- What a step of the group accounting does not touch. -/
structure SameKeys (t t' : TrackStats) : Prop where
  minimal : t'.minimal = t.minimal
  groupLoss : t'.groupLoss = t.groupLoss
  keyFloor : t'.keyFloor = t.keyFloor
  expected : t'.expected = t.expected
  stride : t'.stride = t.stride
  missing : t'.missing = t.missing
  missingN : t'.missingN = t.missingN
  live : t'.live = t.live

theorem SameKeys.rfl : SameKeys t t := by constructor <;> exact .refl _

theorem SameKeys.trans {t' t'' : TrackStats} (h : SameKeys t t') (h' : SameKeys t' t'') :
    SameKeys t t'' where
  minimal := h'.minimal.trans h.minimal
  groupLoss := h'.groupLoss.trans h.groupLoss
  keyFloor := h'.keyFloor.trans h.keyFloor
  expected := h'.expected.trans h.expected
  stride := h'.stride.trans h.stride
  missing := h'.missing.trans h.missing
  missingN := h'.missingN.trans h.missingN
  live := h'.live.trans h.live

/-- What a step of the stream accounting does not touch. -/
structure SameGroups (t t' : TrackStats) : Prop where
  minimal : t'.minimal = t.minimal
  groupLoss : t'.groupLoss = t.groupLoss
  grpRx : t'.grpRx = t.grpRx
  grpShort : t'.grpShort = t.grpShort
  grpSize : t'.grpSize = t.grpSize
  grpFirst : t'.grpFirst = t.grpFirst
  grpMax : t'.grpMax = t.grpMax
  grpFloor : t'.grpFloor = t.grpFloor

theorem SameGroups.rfl : SameGroups t t := by constructor <;> exact .refl _

/-! ## The slots are written back -/

theorem flushKey_eq (t : TrackStats) :
    ∃ expected stride, t.flushKey = { t with expected := expected, stride := stride, live := none } := by
  unfold flushKey
  cases hlive : t.live with
  | none =>
      refine ⟨t.expected, t.stride, ?_⟩
      cases t
      dsimp only at hlive
      subst hlive
      exact .refl _
  | some l => exact ⟨_, _, .refl _⟩

theorem flushKey_slots (h : t.Fresh) (key : LossKey) :
    (t.flushKey.expected.get? key, t.flushKey.stride.get? key) = t.slots key := by
  unfold flushKey slots
  cases hlive : t.live with
  | none => exact .refl _
  | some l =>
      dsimp only
      rw [Dict.get?_insert]
      by_cases hkey : l.key = key
      · rw [if_pos hkey, if_pos hkey.symm]
        cases hstride : l.stride with
        | none => rw [← hkey, h l hlive hstride]
        | some stride =>
            dsimp only
            rw [Dict.get?_insert, if_pos hkey.symm]
      · rw [if_neg hkey, if_neg (Ne.symm hkey)]
        cases hstride : l.stride with
        | none => exact .refl _
        | some stride =>
            dsimp only
            rw [Dict.get?_insert, if_neg (Ne.symm hkey)]

/-- A key that is loaded: its state, and that of the others in the dictionaries. -/
theorem loadKey_spec (h : t.Fresh) (gid : Nat) (sg : Option Nat) :
    ∃ expected stride live,
      (t.loadKey gid sg).1 = { t with expected := expected, stride := stride, live := live } ∧
      (t.loadKey gid sg).2 = t.slots (lossKey gid sg) ∧
      (∀ key ≠ lossKey gid sg, (expected.get? key, stride.get? key) = t.slots key) ∧
      ((t.slots (lossKey gid sg)).2 = none → stride.get? (lossKey gid sg) = none) := by
  have hmiss := flushKey_slots h
  obtain ⟨expected, stride, hflush⟩ := t.flushKey_eq
  unfold loadKey
  cases hlive : t.live with
  | none =>
      refine ⟨expected, stride, none, hflush, hmiss _, fun key _ => ?_, fun hnone => ?_⟩
      · rw [← hmiss key, hflush]
      · rw [← hmiss, hflush] at hnone
        exact hnone
  | some l =>
      dsimp only
      by_cases hhit : gid = l.g ∧ sg = l.s
      · rw [if_pos hhit]
        obtain ⟨rfl, rfl⟩ := hhit
        have hslots : ∀ key, t.slots key = if l.key = key then (some l.prev, l.stride)
            else (t.expected.get? key, t.stride.get? key) := by
          intro key
          rw [slots, hlive]
        refine ⟨t.expected, t.stride, t.live, .refl _, ?_, fun key hkey => ?_, fun hnone => ?_⟩
        · rw [hslots, if_pos (.refl _)]
        · rw [hslots, if_neg fun heq : l.key = key => hkey heq.symm]
        · rw [hslots, if_pos (.refl _)] at hnone
          exact h l hlive hnone
      · rw [if_neg hhit]
        refine ⟨expected, stride, none, hflush, hmiss _, fun key _ => ?_, fun hnone => ?_⟩
        · rw [← hmiss key, hflush]
        · rw [← hmiss, hflush] at hnone
          exact hnone

end TrackStats

/-! ## Views -/

/-- Where a key is not forgotten, the statistics hold what its arrivals tell; no more ids are
counted missing than are out. -/
structure Views (tr : SentTrack) (as : List Arrival) (t : TrackStats) : Prop where
  slots : ∀ key : LossKey, t.keyFloor ≤ key.1 →
    t.slots key = ((tr.gap as key).prev, (tr.gap as key).stride)
  missing : ∀ key : LossKey, t.keyFloor ≤ key.1 → t.missingOf key = (tr.gap as key).missing
  fresh : t.Fresh
  count : t.missingN ≤ tr.outstanding as

namespace Views

variable {tr : SentTrack} {as : List Arrival} {t t' : TrackStats}

theorem congr (h : Views tr as t) (hsame : t.SameKeys t') : Views tr as t' where
  slots := by
    unfold TrackStats.slots
    rw [hsame.keyFloor, hsame.live, hsame.expected, hsame.stride]
    exact h.slots
  missing := by
    unfold TrackStats.missingOf
    rw [hsame.keyFloor, hsame.missing]
    exact h.missing
  fresh := by
    unfold TrackStats.Fresh
    rw [hsame.live, hsame.stride]
    exact h.fresh
  count := hsame.missingN ▸ h.count

theorem start (groupLoss : Bool) : Views tr [] { groupLoss := groupLoss } where
  slots := fun _ _ => rfl
  missing := fun _ _ => rfl
  fresh := nofun
  count := by simp

theorem pruneKeys (h : Views tr as t) (floor : Int) : Views tr as (t.pruneKeys floor) := by
  unfold TrackStats.pruneKeys
  split_ifs with hfloor
  · exact h
  · have hlower : t.keyFloor < floor := not_le.mp hfloor
    have hflush := TrackStats.flushKey_slots (t := { t with keyFloor := floor }) h.fresh
    obtain ⟨expected, stride, heq⟩ := ({ t with keyFloor := floor } : TrackStats).flushKey_eq
    rw [heq] at hflush ⊢
    constructor
    case slots =>
      intro key hkey
      have hkept : decide (floor ≤ (key.1 : Int)) = true := decide_eq_true hkey
      show ((expected.filterKeys _).get? key, (stride.filterKeys _).get? key) = _
      rw [Dict.get?_filterKeys, Dict.get?_filterKeys, if_pos hkept, if_pos hkept]
      exact (hflush key).trans (h.slots key (hlower.le.trans hkey))
    case missing =>
      intro key hkey
      have hkept : decide (floor ≤ (key.1 : Int)) = true := decide_eq_true hkey
      show ((t.missing.filterKeys _).get? key).getD ∅ = _
      rw [Dict.get?_filterKeys, if_pos hkept]
      exact h.missing key (hlower.le.trans hkey)
    case fresh => exact nofun
    case count =>
      have hsum : ∀ entries : List (LossKey × Finset Nat),
          0 ≤ (entries.map fun entry => (entry.2.card : Int)).sum := by
        intro entries
        apply List.sum_nonneg
        intro x hx
        obtain ⟨entry, -, rfl⟩ := List.mem_map.mp hx
        exact Int.natCast_nonneg _
      exact (Int.sub_le_self _ (hsum _)).trans h.count

theorem noteGroup (h : Views tr as t) (gid : Nat) : Views tr as (t.noteGroup gid) := by
  unfold TrackStats.noteGroup
  dsimp only
  split_ifs
  · have hnoted : Views tr as { t with
        recentGroups := insert gid t.recentGroups
        totalGroups := t.totalGroups + 1
        newestGid := gid } := h.congr (by constructor <;> exact .refl _)
    exact (hnoted.pruneKeys (gid - keyReorderSlack)).congr (by constructor <;> exact .refl _)
  · exact h.congr (by constructor <;> exact .refl _)
  · exact h.congr (by constructor <;> exact .refl _)
  · exact h

end Views

namespace TrackStats

variable {t : TrackStats}

/-- What neither the group accounting nor a loss touches. -/
theorem pruneKeys_frame (t : TrackStats) (floor : Int) :
    t.SameGroups (t.pruneKeys floor) ∧ (t.pruneKeys floor).totalLost = t.totalLost ∧
      (t.pruneKeys floor).grpGap = t.grpGap ∧
      ((t.pruneKeys floor).keyFloor = t.keyFloor ∨ (t.pruneKeys floor).keyFloor = floor) := by
  unfold pruneKeys
  split_ifs
  · exact ⟨SameGroups.rfl, .refl _, .refl _, .inl (.refl _)⟩
  · obtain ⟨expected, stride, heq⟩ := ({ t with keyFloor := floor } : TrackStats).flushKey_eq
    rw [heq]
    exact ⟨by constructor <;> exact .refl _, .refl _, .refl _, .inr (.refl _)⟩

theorem noteGroup_frame (t : TrackStats) (gid : Nat) :
    t.SameGroups (t.noteGroup gid) ∧ (t.noteGroup gid).totalLost = t.totalLost ∧
      (t.noteGroup gid).grpGap = t.grpGap ∧
      ((t.noteGroup gid).keyFloor = t.keyFloor ∨
        (t.noteGroup gid).keyFloor = (gid : Int) - keyReorderSlack) := by
  unfold noteGroup
  dsimp only
  split_ifs
  · obtain ⟨hsame, hlost, hgap, hfloor⟩ := ({ t with
      recentGroups := insert gid t.recentGroups
      totalGroups := t.totalGroups + 1
      newestGid := gid } : TrackStats).pruneKeys_frame (gid - keyReorderSlack)
    exact ⟨⟨hsame.minimal, hsame.groupLoss, hsame.grpRx, hsame.grpShort, hsame.grpSize,
      hsame.grpFirst, hsame.grpMax, hsame.grpFloor⟩, hlost, hgap, hfloor⟩
  · exact ⟨by constructor <;> exact .refl _, .refl _, .refl _, .inl (.refl _)⟩
  · exact ⟨by constructor <;> exact .refl _, .refl _, .refl _, .inl (.refl _)⟩
  · exact ⟨SameGroups.rfl, .refl _, .refl _, .inl (.refl _)⟩

/-! ## The stream of an arrival -/

theorem evictMissing_of_le (h : t.missingN ≤ missingCap) (entries : List (LossKey × Finset Nat)) :
    evictMissing entries t = t := by
  cases entries with
  | nil => exact .refl _
  | cons entry entries =>
      obtain ⟨key, ms⟩ := entry
      rw [evictMissing, if_neg (not_lt.mpr h)]

/-- What a gap or a late object changes: the ids that its key has missing, their number, the loss
and the gap losses of the group. -/
structure Noting (key : LossKey) (ms : Finset Nat) (n : Int) (t t' : TrackStats) : Prop where
  groups : t.SameGroups t'
  keyFloor : t'.keyFloor = t.keyFloor
  expected : t'.expected = t.expected
  stride : t'.stride = t.stride
  live : t'.live = t.live
  own : t'.missingOf key = ms
  others : ∀ key' ≠ key, t'.missingOf key' = t.missingOf key'
  missingN : t'.missingN = t.missingN + n
  totalLost : t'.totalLost = t.totalLost + n
  gaps : ∀ g ≠ key.1, t'.grpGap.get? g = t.grpGap.get? g
  gap : t.groupLoss = true → 0 ≤ n ∨ t.grpGap.get? key.1 ≠ none →
    (t'.grpGap.get? key.1).getD 0 = (t.grpGap.get? key.1).getD 0 + n

theorem Noting.insert {key : LossKey} {ms : Finset Nat} {n : Int} {grpGap : Dict Nat Int}
    (hgaps : ∀ g ≠ key.1, grpGap.get? g = t.grpGap.get? g)
    (hgap : t.groupLoss = true → 0 ≤ n ∨ t.grpGap.get? key.1 ≠ none →
      (grpGap.get? key.1).getD 0 = (t.grpGap.get? key.1).getD 0 + n) :
    Noting key ms n t { t with
      missing := t.missing.insert key ms
      missingN := t.missingN + n
      totalLost := t.totalLost + n
      grpGap := grpGap } := by
  constructor
  case groups => constructor <;> exact .refl _
  case keyFloor => exact .refl _
  case expected => exact .refl _
  case stride => exact .refl _
  case live => exact .refl _
  case own =>
    show ((t.missing.insert key _).get? key).getD ∅ = _
    rw [Dict.get?_insert, if_pos (.refl _)]
    exact .refl _
  case others =>
    intro key' hkey
    show ((t.missing.insert key _).get? key').getD ∅ = _
    rw [Dict.get?_insert, if_neg hkey]
    exact .refl _
  case missingN => exact .refl _
  case totalLost => exact .refl _
  case gaps => exact hgaps
  case gap => exact hgap

/-- A late object that fills a counted gap. -/
theorem recover_noting {key : LossKey} {oid : Nat} (h : oid ∈ t.missingOf key) :
    Noting key ((t.missingOf key).erase oid) (-1) t (t.recover key oid) := by
  have hget : t.missing.get? key = some (t.missingOf key) := by
    unfold missingOf at h ⊢
    cases hget : t.missing.get? key with
    | none =>
        rw [hget] at h
        exact absurd h (Finset.notMem_empty _)
    | some ms => exact .refl _
  unfold recover
  rw [hget]
  dsimp only
  rw [if_pos h]
  apply Noting.insert
  case hgaps =>
    intro g hg
    cases t.grpGap.get? key.1 with
    | none => exact .refl _
    | some gap =>
        dsimp only
        rw [Dict.get?_insert, if_neg hg]
  case hgap =>
    rintro - (hneg | hsome)
    · exact absurd hneg (by decide)
    · obtain ⟨gap, hgap⟩ := Option.ne_none_iff_exists'.mp hsome
      simp only [hgap]
      rw [Dict.get?_insert, if_pos (.refl _)]
      exact .refl _

theorem recover_of_not_mem {key : LossKey} {oid : Nat} (h : oid ∉ t.missingOf key) :
    t.recover key oid = t := by
  unfold recover
  cases hget : t.missing.get? key with
  | none => exact .refl _
  | some ms =>
      unfold missingOf at h
      rw [hget] at h
      exact if_neg h

theorem Noting.same {key : LossKey} {ms : Finset Nat} (h : t.missingOf key = ms) :
    Noting key ms 0 t t where
  groups := SameGroups.rfl
  keyFloor := .refl _
  expected := .refl _
  stride := .refl _
  live := .refl _
  own := h
  others := fun _ _ => .refl _
  missingN := (add_zero _).symm
  totalLost := (add_zero _).symm
  gaps := fun _ _ => .refl _
  gap := fun _ _ => (add_zero _).symm

theorem Noting.late {key : LossKey} {ms : Finset Nat} {n : Int} {t' : TrackStats}
    (h : Noting key ms n { t with totalOoo := t.totalOoo + 1 } t') : Noting key ms n t t' where
  __ := h
  groups := ⟨h.groups.minimal, h.groups.groupLoss, h.groups.grpRx, h.groups.grpShort,
    h.groups.grpSize, h.groups.grpFirst, h.groups.grpMax, h.groups.grpFloor⟩

/-- A gap is noted id by id, where none of them was noted and not too many are. -/
theorem noteMissing_noting {key : LossKey} {lo hi stride : Nat} (hstride : 0 < stride)
    (hfresh : ∀ i ∈ strideRange lo hi stride, i ∉ t.missingOf key)
    (hlen : (strideRange lo hi stride).length ≤ missingCap)
    (hcap : t.missingN + (strideRange lo hi stride).length ≤ missingCap) :
    Noting key (t.missingOf key ∪ (strideRange lo hi stride).toFinset)
      (strideRange lo hi stride).length t
      ((t.countLost key.1 (strideRange lo hi stride).length).noteMissing key lo hi stride) := by
  set ids := strideRange lo hi stride with hids
  set ms := t.missingOf key ∪ ids.toFinset with hms
  have hcard : (ms.card : Int) - (t.missingOf key).card = ids.length := by
    have hdisjoint : Disjoint (t.missingOf key) ids.toFinset := by
      rw [Finset.disjoint_right]
      exact fun i hi => hfresh i (List.mem_toFinset.mp hi)
    have hnodup : ids.Nodup := nodup_strideRange hstride
    rw [hms, Finset.card_union_of_disjoint hdisjoint, List.toFinset_card_of_nodup hnodup]
    omega
  have hnote : (t.countLost key.1 ids.length).noteMissing key lo hi stride =
      { t.countLost key.1 ids.length with
        missing := t.missing.insert key ms
        missingN := t.missingN + ids.length } := by
    unfold noteMissing
    rw [if_neg (not_lt.mpr hlen), ← hcard]
    exact evictMissing_of_le (by rw [← hcard] at hcap; exact hcap) _
  rw [hnote]
  apply Noting.insert
  case hgaps =>
    intro g hg
    show (if t.groupLoss then _ else t.grpGap).get? g = _
    split_ifs
    · exact (Dict.get?_insert _ _ _ _).trans (if_neg hg)
    · exact .refl _
  case hgap =>
    intro hloss _
    show ((if t.groupLoss then _ else t.grpGap).get? key.1).getD 0 = _
    rw [if_pos hloss, Dict.get?_insert, if_pos (.refl _)]
    exact .refl _

/-- The ids that an arrival changes the number of the missing by. -/
def change (x : Tracker) (i : Nat) : Int :=
  (x.passed i).length - if i ∈ x.missing then 1 else 0

/-- A gap or a late object is noted as the key's stream has it, where the gap is a whole number of
strides and not too many ids are out. -/
theorem checkGap_noting {n r : Nat} {x : Tracker} {is : List Nat} {key : LossKey}
    {i prev stride : Nat} (htracks : Tracker.Tracks n r x is) (hmissing : t.missingOf key = x.missing)
    (hprev : x.prev = some prev) (hstride : x.stride = some stride) (hwhole : x.WholeStride i)
    (hlen : (x.passed i).length ≤ missingCap)
    (hcap : i ∉ x.missing → t.missingN + (x.passed i).length ≤ missingCap) :
    Noting key (x.step i).missing (change x i) t (t.checkGap key i prev stride) := by
  have hpos := (htracks.stride stride hstride).1
  have hpassed := Tracker.passed_eq hprev hstride i
  unfold checkGap
  split_ifs with hgap hlate
  · have hnot : i ∉ x.missing := by
      intro hmem
      obtain ⟨prev', hprev', hlt⟩ := htracks.below i hmem
      rw [hprev] at hprev'
      cases hprev'
      omega
    have hlost := length_strideRange hpos (hwhole prev hprev stride hstride hgap)
    have hchange : change x i = (strideRange (prev + stride) i stride).length := by
      rw [change, if_neg hnot, hpassed, sub_zero]
    have hstep : (x.step i).missing =
        t.missingOf key ∪ (strideRange (prev + stride) i stride).toFinset := by
      have hnot' : i ∉ t.missingOf key ∪ (strideRange (prev + stride) i stride).toFinset := by
        rw [Finset.mem_union, List.mem_toFinset, hmissing, ← hpassed]
        rintro (hmem | hmem)
        · exact hnot hmem
        · exact absurd (htracks.mem_passed hmem).1 (lt_irrefl _)
      rw [← Finset.erase_eq_of_notMem hnot', hmissing, ← hpassed]
      exact .refl _
    rw [hchange, hstep, ← hlost]
    have hcap := hcap hnot
    rw [hpassed] at hlen hcap
    refine noteMissing_noting hpos ?_ hlen hcap
    intro j hj
    rw [hmissing]
    exact htracks.passed_fresh (hpassed ▸ hj)
  · have hnil : x.passed i = [] := by
      rw [hpassed, strideRange_nil hpos (not_lt.mp hgap)]
    have hstep : (x.step i).missing = x.missing.erase i := by
      unfold Tracker.step
      rw [hnil, List.toFinset_nil, Finset.union_empty]
    apply Noting.late
    by_cases hmem : i ∈ x.missing
    · have hchange : change x i = -1 := by
        rw [change, hnil, if_pos hmem]
        exact .refl _
      rw [hchange, hstep, ← hmissing]
      exact recover_noting (t := { t with totalOoo := t.totalOoo + 1 })
        (show i ∈ t.missingOf key from hmissing ▸ hmem)
    · have hchange : change x i = 0 := by
        rw [change, hnil, if_neg hmem]
        exact .refl _
      rw [hchange, hstep, Finset.erase_eq_of_notMem hmem,
        recover_of_not_mem (show i ∉ missingOf { t with totalOoo := t.totalOoo + 1 } key from
          fun h => hmem (hmissing ▸ h))]
      exact Noting.same hmissing
  · have hnil : x.passed i = [] := by
      rw [hpassed, strideRange_nil hpos (not_lt.mp hgap)]
    have hmem : i ∉ x.missing := by
      intro hmem
      obtain ⟨prev', hprev', hlt⟩ := htracks.below i hmem
      rw [hprev] at hprev'
      cases hprev'
      omega
    have hchange : change x i = 0 := by
      rw [change, hnil, if_neg hmem]
      exact .refl _
    have hstep : (x.step i).missing = x.missing := by
      unfold Tracker.step
      rw [hnil, List.toFinset_nil, Finset.union_empty, Finset.erase_eq_of_notMem hmem]
    rw [hchange, hstep]
    exact Noting.same hmissing

/-- An object behind another of its key. -/
theorem stream_noting {n r : Nat} {x : Tracker} {is : List Nat} {key : LossKey} {i prev : Nat}
    (htracks : Tracker.Tracks n r x is) (hmissing : t.missingOf key = x.missing)
    (hprev : x.prev = some prev) (hwhole : x.WholeStride i)
    (hlen : (x.passed i).length ≤ missingCap)
    (hcap : i ∉ x.missing → t.missingN + (x.passed i).length ≤ missingCap) :
    Noting key (x.step i).missing (change x i) t (match learnStride x.stride prev i with
      | none => t
      | some stride => if 0 < stride then t.checkGap key i prev stride else t) := by
  cases hstride : x.stride with
  | some stride =>
      dsimp only [learnStride]
      rw [if_pos (htracks.stride stride hstride).1]
      exact checkGap_noting htracks hmissing hprev hstride hwhole hlen hcap
  | none =>
      have hempty : x.missing = ∅ := htracks.learned hstride
      have hpassed : x.passed i = [] := Tracker.passed_stride_none hstride i
      have hchange : change x i = 0 := by
        rw [change, hpassed, hempty]
        exact .refl _
      have hstep : (x.step i).missing = x.missing := by
        unfold Tracker.step
        rw [hpassed, hempty]
        exact .refl _
      rw [hchange, hstep]
      unfold learnStride
      dsimp only
      split_ifs with hlt
      · -- the stride is learned, so there is no gap
        dsimp only
        rw [if_pos (Nat.sub_pos_of_lt hlt), checkGap, if_neg (by omega), if_neg (by omega)]
        exact Noting.same hmissing
      · exact Noting.same hmissing

/-- The stream of an arrival is loaded, what the arrival notes is noted, and its key is the live
one. -/
theorem checkStream_noting {t₁ : TrackStats} {n r : Nat} {x : Tracker} {is : List Nat}
    {gid oid : Nat} {sg : Option Nat} (hloaded : t.loadKey gid sg = (t₁, x.prev, x.stride))
    (htracks : Tracker.Tracks n r x is) (hmissing : t₁.missingOf (lossKey gid sg) = x.missing)
    (hwhole : x.WholeStride oid) (hlen : (x.passed oid).length ≤ missingCap)
    (hcap : oid ∉ x.missing → t₁.missingN + (x.passed oid).length ≤ missingCap) :
    ∃ t₂, Noting (lossKey gid sg) (x.step oid).missing (change x oid) t₁ t₂ ∧ ∃ prev,
      (x.step oid).prev = some prev ∧
        t.checkStream gid oid sg =
          { t₂ with live := some ⟨gid, sg, prev, (x.step oid).stride⟩ } := by
  unfold checkStream
  dsimp only
  rw [hloaded]
  cases hprev : x.prev with
  | none =>
      have hempty := htracks.learned (htracks.none_of_prev hprev).2
      have hnil : x.passed oid = [] := Tracker.passed_prev_none hprev _
      have hchange : change x oid = 0 := by
        rw [change, hnil, hempty]
        exact .refl _
      have hmissing' : (x.step oid).missing = x.missing := by
        unfold Tracker.step
        rw [hnil, hempty]
        exact .refl _
      refine ⟨t₁, ?_, oid, ?_, ?_⟩
      · rw [hchange, hmissing']
        exact Noting.same hmissing
      · unfold Tracker.step
        rw [hprev]
      · unfold Tracker.step
        rw [hprev]
  | some prev =>
      refine ⟨_, stream_noting htracks hmissing hprev hwhole hlen hcap,
        if prev < oid then oid else prev, ?_, ?_⟩
      · unfold Tracker.step
        rw [hprev]
      · unfold Tracker.step
        rewrite [hprev]
        exact .refl _

/-- A stride that an arrival leaves unlearned was not learned before it. -/
theorem stride_of_step {n r : Nat} {x : Tracker} {is : List Nat} {oid : Nat}
    (htracks : Tracker.Tracks n r x is) (h : (x.step oid).stride = none) : x.stride = none := by
  unfold Tracker.step at h
  cases hprev : x.prev with
  | none => exact (htracks.none_of_prev hprev).2
  | some prev =>
      rw [hprev] at h
      cases hstride : x.stride with
      | none => exact .refl _
      | some stride =>
          rw [hstride] at h
          cases h

end TrackStats

/-- As many ids are out after an arrival as it changes their number by, and there is room for
them. -/
theorem Views.room {tr : SentTrack} {as : List Arrival} {a : Arrival} {t : TrackStats}
    (h : Views tr as t) (hnodup : (as ++ [a]).Nodup) (hsize : a.2 < tr.size)
    (hgroup : a.1 ∈ tr.groups) (hcap : tr.outstanding (as ++ [a]) ≤ missingCap) :
    let x := tr.gap as (tr.key a)
    (tr.outstanding (as ++ [a]) : Int) = tr.outstanding as + TrackStats.change x a.2 ∧
      (x.passed a.2).length ≤ missingCap ∧
      (a.2 ∉ x.missing → t.missingN + (x.passed a.2).length ≤ missingCap) := by
  intro x
  have htracks := tr.tracks (List.nodup_append.mp hnodup).1 (tr.key a)
  have hcount := tr.outstanding_concat hnodup hsize hgroup
  rw [show tr.gap as (tr.key a) = x from rfl] at hcount
  have hmissingN := h.count
  refine ⟨?_, ?_, ?_⟩
  · show (_ : Int) = _ + (((x.passed a.2).length : Int) - _)
    split_ifs at hcount ⊢ <;> omega
  · by_cases hmem : a.2 ∈ x.missing
    · rw [htracks.passed_of_missing hmem]
      exact Nat.zero_le _
    · rw [if_neg hmem] at hcount
      omega
  · intro hmem
    rw [if_neg hmem] at hcount
    omega

/-- **An arrival in the stream of its key.**  The statistics hold again what the arrivals tell, and
the loss changes by the ids that are noted. -/
theorem Views.checkStream {tr : SentTrack} {as : List Arrival} {a : Arrival} {t : TrackStats}
    (h : Views tr as t) (hfloor : t.keyFloor ≤ a.1) (hnodup : (as ++ [a]).Nodup)
    (hsize : a.2 < tr.size) (hgroup : a.1 ∈ tr.groups)
    (hwhole : (tr.gap as (tr.key a)).WholeStride a.2)
    (hcap : tr.outstanding (as ++ [a]) ≤ missingCap) :
    let t' := t.checkStream a.1 a.2 (tr.subgroup a.2)
    let n := TrackStats.change (tr.gap as (tr.key a)) a.2
    Views tr (as ++ [a]) t' ∧ t.SameGroups t' ∧ t'.keyFloor = t.keyFloor ∧
      t'.totalLost = t.totalLost + n ∧ (∀ g ≠ a.1, t'.grpGap.get? g = t.grpGap.get? g) ∧
      (t.groupLoss = true → 0 ≤ n ∨ t.grpGap.get? a.1 ≠ none →
        (t'.grpGap.get? a.1).getD 0 = (t.grpGap.get? a.1).getD 0 + n) := by
  intro t' n
  set key := tr.key a
  set x := tr.gap as key
  have hkeyFst : key.1 = a.1 := tr.key_fst a
  have hfloorKey : t.keyFloor ≤ key.1 := hkeyFst ▸ hfloor
  have htracks := tr.tracks (List.nodup_append.mp hnodup).1 key
  obtain ⟨hout, hlen, hroom⟩ := h.room hnodup hsize hgroup hcap
  obtain ⟨expected, stride, live, hloaded, hslots, hothers, hunlearned⟩ :=
    TrackStats.loadKey_spec h.fresh a.1 (tr.subgroup a.2)
  have hown : (t.loadKey a.1 (tr.subgroup a.2)).2 = (x.prev, x.stride) :=
    hslots.trans (h.slots key hfloorKey)
  obtain ⟨t₂, hnoting, prev, hprev, heq⟩ := TrackStats.checkStream_noting
    (Prod.ext hloaded hown) htracks (h.missing key hfloorKey) hwhole hlen hroom
  replace hnoting : TrackStats.Noting key (x.step a.2).missing n _ t₂ := hnoting
  replace heq : t' = _ := heq
  have hlive : t'.live = some ⟨a.1, tr.subgroup a.2, prev, (x.step a.2).stride⟩ := by rw [heq]
  have hgapOther : ∀ key' ≠ key, tr.gap (as ++ [a]) key' = tr.gap as key' := fun key' hne =>
    tr.gap_concat_other as (Ne.symm hne)
  have hgapOwn : tr.gap (as ++ [a]) key = x.step a.2 := tr.gap_concat_same as a
  have hkeyFloor : t'.keyFloor = t.keyFloor := by
    rw [heq]
    exact hnoting.keyFloor
  refine ⟨⟨?_, ?_, ?_, ?_⟩, ?_, hkeyFloor, ?_, ?_, ?_⟩
  · intro key' hkey'
    rw [hkeyFloor] at hkey'
    unfold TrackStats.slots
    rw [hlive]
    show (if key = key' then _ else _) = _
    by_cases hne : key' = key
    · rw [if_pos hne.symm, hne, hgapOwn, hprev]
    · rw [if_neg (Ne.symm hne), hgapOther key' hne,
        ← h.slots key' hkey', ← hothers key' hne, heq]
      show (t₂.expected.get? key', t₂.stride.get? key') = _
      rw [hnoting.expected, hnoting.stride]
  · intro key' hkey'
    rw [hkeyFloor] at hkey'
    rw [heq]
    show t₂.missingOf key' = _
    by_cases hne : key' = key
    · rw [hne, hgapOwn, hnoting.own]
    · rw [hgapOther key' hne, hnoting.others key' hne]
      exact h.missing key' hkey'
  · intro l hl hnone
    rw [hlive] at hl
    cases hl
    rw [heq]
    show t₂.stride.get? key = none
    rw [hnoting.stride]
    apply hunlearned
    rw [← hslots, hown]
    exact TrackStats.stride_of_step htracks hnone
  · rw [heq]
    show t₂.missingN ≤ _
    rw [hnoting.missingN, hout]
    exact Int.add_le_add_right h.count n
  · rw [heq]
    have hgroups := hnoting.groups
    exact ⟨hgroups.minimal, hgroups.groupLoss, hgroups.grpRx, hgroups.grpShort, hgroups.grpSize,
      hgroups.grpFirst, hgroups.grpMax, hgroups.grpFloor⟩
  · rw [heq]
    exact hnoting.totalLost
  · intro g hg
    rw [heq]
    exact hnoting.gaps g (hkeyFst ▸ hg)
  · intro hloss hsome
    rw [heq, ← hkeyFst]
    exact hnoting.gap hloss (hkeyFst ▸ hsome)

end AioMoqt.Stats
