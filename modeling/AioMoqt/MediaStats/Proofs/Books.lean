import AioMoqt.Lib.Sliding
import AioMoqt.MediaStats.Proofs.Ledger

/-!
# The books of a track

When the records of groups and gaps, the queue and the counters agree with a ledger, and what may
change in one group without disturbing them.
-/

namespace AioMoqt.MediaStats

open AioMoqt.Lib

/-- How far a group reaches. -/
def Group.extent (g : Group) : Nat := g.maxOid.elim 0 (· + 1)

/-- The record of a group is what the ledger says of it. -/
structure Group.Kept (l : Ledger) (gid : Nat) (g : Group) : Prop where
  opened : gid ∈ l.opened
  joined : g.joined = false
  seen : ∀ oid, oid ∈ g.seen ↔ (gid, oid) ∈ l.observed
  extent : g.extent = l.extent gid
  holes : ∀ oid, oid ∈ g.holes.keys ↔ oid ∈ l.missing gid
  heard : l.word gid = some g.lastRx
  noticed : ∀ oid hole, g.holes.get? oid = some hole → hole.detect ≤ g.lastRx

/-- A report in another group leaves the record as it is. -/
theorem Group.Kept.other {l l' : Ledger} {gid gid' : Nat} {g : Group} (h : g.Kept l gid')
    (hl : l.SameBut l' gid) (hne : gid' ≠ gid) : g.Kept l' gid' where
  __ := h
  opened := hl.opened.symm ▸ h.opened
  seen := fun oid => (h.seen oid).trans (hl.observed gid' oid hne).symm
  extent := h.extent.trans (hl.extent gid' hne).symm
  holes := by
    rw [hl.missing hne]
    exact h.holes
  heard := by
    rw [hl.word]
    exact h.heard

/-- A record with the same objects and times. -/
theorem Group.Kept.same {l : Ledger} {gid : Nat} {g g' : Group} (h : g.Kept l gid)
    (hseen : g'.seen = g.seen) (hmax : g'.maxOid = g.maxOid) (hholes : g'.holes = g.holes)
    (hrx : g'.lastRx = g.lastRx) (hjoined : g'.joined = g.joined) : g'.Kept l gid where
  opened := h.opened
  joined := hjoined.trans h.joined
  seen := hseen ▸ h.seen
  extent := by
    rw [Group.extent, hmax]
    exact h.extent
  holes := hholes ▸ h.holes
  heard := hrx ▸ h.heard
  noticed := by
    rw [hholes, hrx]
    exact h.noticed

/-- A hole that is not declared lost. -/
def TrackAnalysis.Open (t : TrackAnalysis) (gid oid : Nat) (hole : Miss) : Prop :=
  ∃ g, t.groupOf.get? gid = some g ∧ g.holes.get? oid = some hole ∧ hole.lost = false

/-- The books of an analysis that agree with a ledger, and the objects and repeats that it counts;
all that is noted happened at one of the times. -/
structure Books (c : Int) (n : Nat × Nat) (times : List Int) (l : Ledger) (t : TrackAnalysis) :
    Prop where
  sound : l.Sound
  cushion : t.cushionUs = c
  counted : (t.objects, t.dups) = n
  newest : t.maxGid = if l.first = none then none else some l.greatest
  group : ∀ gid g, t.groupOf.get? gid = some g → g.Kept l gid
  gap : ∀ gid gap, t.gaps.get? gid = some gap → gid ∈ l.absent ∧ l.word gid = some gap.detect
  lost : t.lost + t.undeclaredHoles = l.missingIds
  lostGroups : t.lostGroups + t.undeclaredGaps = l.absent.card
  pending : t.pending = t.undeclaredHoles + t.undeclaredGaps
  queued : ∀ gid oid hole, t.Open gid oid hole → (hole.detect, gid, oid) ∈ t.holesQ
  sorted : Lib.Sliding.Timed t.holesQ
  queuedAt : ∀ entry ∈ t.holesQ, entry.1 ∈ times
  words : ∀ gid word, l.word gid = some word → word ∈ times
  letGo : ∀ gid, gid ∈ l.opened ∨ gid ∈ l.absent →
    gid ∈ t.groupOf.keys ∨ gid ∈ t.gaps.keys ∨
      ∃ word ∈ l.word gid, ∃ now ∈ times, word + 4 * c < now

namespace Books

variable {c now : Int} {n : Nat × Nat} {times : List Int} {l l' : Ledger} {t t' : TrackAnalysis}
  {gid : Nat} {g g' : Group}

theorem start (c : Int) : Books c (0, 0) [] {} (.start c) where
  sound := Ledger.Sound.empty
  cushion := rfl
  counted := rfl
  newest := rfl
  group := nofun
  gap := nofun
  lost := rfl
  lostGroups := rfl
  pending := rfl
  queued := by
    rintro gid oid hole ⟨g, hg, -⟩
    exact absurd hg nofun
  sorted := List.Pairwise.nil
  queuedAt := nofun
  words := nofun
  letGo := by
    rintro gid (hgid | hgid)
    · exact absurd hgid (Finset.notMem_empty gid)
    · exact absurd (Ledger.mem_absent.mp hgid).1.2 (Nat.not_lt_zero gid)

theorem mono (h : Books c n times l t) (now : Int) (hsub : ∀ u ∈ times, u ∈ times ++ [now]) :
    Books c n (times ++ [now]) l t :=
  { h with
    queuedAt := fun entry hentry => hsub _ (h.queuedAt entry hentry)
    words := fun gid word hword => hsub _ (h.words gid word hword)
    letGo := by
      intro gid hgid
      rcases h.letGo gid hgid with hkey | hkey | ⟨word, hword, u, hu, hlt⟩
      · exact Or.inl hkey
      · exact Or.inr (Or.inl hkey)
      · exact Or.inr (Or.inr ⟨word, hword, u, hsub u hu, hlt⟩) }

/-- What the books do not read may change. -/
theorem congr (h : Books c n times l t) (hcushion : t'.cushionUs = t.cushionUs)
    (hcounted : (t'.objects, t'.dups) = (t.objects, t.dups))
    (hmax : t'.maxGid = t.maxGid) (hgroups : t'.groupOf = t.groupOf) (hgaps : t'.gaps = t.gaps)
    (hlost : t'.lost = t.lost) (hlostGroups : t'.lostGroups = t.lostGroups)
    (hpending : t'.pending = t.pending) (hqueue : t'.holesQ = t.holesQ) :
    Books c n times l t' where
  __ := h
  cushion := hcushion.trans h.cushion
  counted := hcounted.trans h.counted
  newest := hmax.trans h.newest
  group := hgroups ▸ h.group
  gap := hgaps ▸ h.gap
  lost := by
    rw [TrackAnalysis.undeclaredHoles, hgroups, hlost]
    exact h.lost
  lostGroups := by
    rw [TrackAnalysis.undeclaredGaps, hgaps, hlostGroups]
    exact h.lostGroups
  pending := by
    rw [TrackAnalysis.undeclaredHoles, TrackAnalysis.undeclaredGaps, hgroups, hgaps, hpending]
    exact h.pending
  queued := by
    unfold TrackAnalysis.Open
    rw [hgroups, hqueue]
    exact h.queued
  sorted := hqueue ▸ h.sorted
  queuedAt := hqueue ▸ h.queuedAt
  letGo := by
    rw [hgroups, hgaps]
    exact h.letGo

/-- A report in a group, or a change of its record: what is missing of it changes in the ledger as
it does in the books, and new holes are queued. -/
theorem update (h : Books c n times l t) (now : Int) (fresh : List Nat) (hg : t.groupOf.get? gid = some g)
    (hl : l.SameBut l' gid) (hsound : l'.Sound) (hkept : g'.Kept l' gid)
    (hcushion : t'.cushionUs = t.cushionUs)
    (hcounted : (t'.objects, t'.dups) = (t.objects, t.dups)) (hmax : t'.maxGid = t.maxGid)
    (hgroups : t'.groupOf = t.groupOf.insert gid g') (hgaps : t'.gaps = t.gaps)
    (hlost : t'.lost + g'.holes.undeclared + (l.missing gid).card =
      t.lost + g.holes.undeclared + (l'.missing gid).card)
    (hlostGroups : t'.lostGroups = t.lostGroups)
    (hpending : t'.pending + g.holes.undeclared = t.pending + g'.holes.undeclared)
    (hnow : fresh ≠ [] → now ∈ times ∧ ∀ u ∈ times, u ≤ now)
    (hqueue : t'.holesQ = t.holesQ ++ fresh.map fun oid => (now, gid, oid))
    (hholes : ∀ oid hole, g'.holes.get? oid = some hole → hole.lost = false →
      g.holes.get? oid = some hole ∨ hole.detect = now ∧ oid ∈ fresh) :
    Books c n times l' t' := by
  have htotal : t'.undeclaredHoles + g.holes.undeclared =
      t.undeclaredHoles + g'.holes.undeclared := by
    have hinsert := Dict.total_insert t.groupOf gid g' fun g => g.holes.undeclared
    have herase := Dict.total_erase_some hg fun g => g.holes.undeclared
    unfold TrackAnalysis.undeclaredHoles
    rw [hgroups]
    omega
  have hopened : gid ∈ l.opened := (h.group gid g hg).opened
  have hmissing := hl.missingIds hopened
  have hin : gid ∈ t.groupOf.keys := Dict.mem_keys.mpr (by rw [hg]; exact nofun)
  constructor
  case sound => exact hsound
  case cushion => exact hcushion.trans h.cushion
  case counted => exact hcounted.trans h.counted
  case newest =>
    rw [hmax, hl.first, hl.greatest]
    exact h.newest
  case group =>
    intro gid' g₁ hget
    rw [hgroups, Dict.get?_insert] at hget
    split at hget
    next heq =>
      obtain rfl := Option.some.inj hget
      exact heq ▸ hkept
    next hne => exact (h.group gid' g₁ hget).other hl hne
  case gap =>
    rw [hgaps, hl.absent, hl.word]
    exact h.gap
  case lost =>
    have hold := h.lost
    omega
  case lostGroups =>
    rw [TrackAnalysis.undeclaredGaps, hgaps, hlostGroups, hl.absent]
    exact h.lostGroups
  case pending =>
    have hold := h.pending
    rw [TrackAnalysis.undeclaredGaps] at hold ⊢
    rw [hgaps]
    omega
  case queued =>
    rintro gid' oid hole ⟨g₁, hget, hhole, hopen⟩
    rw [hqueue, List.mem_append]
    rw [hgroups, Dict.get?_insert] at hget
    split at hget
    next heq =>
      obtain rfl := Option.some.inj hget
      rcases hholes oid hole hhole hopen with hold | ⟨hdetect, hmem⟩
      · exact Or.inl (heq ▸ h.queued gid oid hole ⟨g, hg, hold, hopen⟩)
      · exact Or.inr (List.mem_map.mpr ⟨oid, hmem, by rw [hdetect, heq]⟩)
    next hne => exact Or.inl (h.queued gid' oid hole ⟨g₁, hget, hhole, hopen⟩)
  case sorted =>
    rw [hqueue, Lib.Sliding.Timed, List.pairwise_append]
    refine ⟨h.sorted, ?_, ?_⟩
    · rw [List.pairwise_map]
      exact List.pairwise_of_forall fun _ _ => le_rfl
    · intro a ha b hb
      obtain ⟨oid, hoid, rfl⟩ := List.mem_map.mp hb
      exact (hnow (List.ne_nil_of_mem hoid)).2 a.1 (h.queuedAt a ha)
  case queuedAt =>
    intro entry hentry
    rw [hqueue, List.mem_append] at hentry
    rcases hentry with hold | hnew
    · exact h.queuedAt entry hold
    · obtain ⟨oid, hoid, rfl⟩ := List.mem_map.mp hnew
      exact (hnow (List.ne_nil_of_mem hoid)).1
  case words =>
    rw [hl.word]
    exact h.words
  case letGo =>
    intro gid' hgid'
    rw [hl.opened, hl.absent] at hgid'
    rw [hl.word, hgroups, hgaps]
    exact (h.letGo gid' hgid').imp_left fun hkey => Dict.mem_keys_insert.mpr (Or.inr hkey)

/-- A record that says the same of its objects. -/
theorem putSame (h : Books c n times l t) (hg : t.groupOf.get? gid = some g)
    (hseen : g'.seen = g.seen) (hmax : g'.maxOid = g.maxOid) (hholes : g'.holes = g.holes)
    (hrx : g'.lastRx = g.lastRx) (hjoined : g'.joined = g.joined) :
    Books c n times l (t.put gid g') := by
  have hkept := (h.group gid g hg).same hseen hmax hholes hrx hjoined
  refine h.update 0 [] hg (Ledger.SameBut.refl l gid) h.sound hkept rfl rfl rfl rfl rfl ?_ rfl ?_
    (fun hne => absurd rfl hne) (List.append_nil _).symm ?_
  case refine_1 => rw [hholes]; rfl
  case refine_2 => rw [hholes]; rfl
  case refine_3 =>
    intro oid hole hhole _
    exact Or.inl (hholes ▸ hhole)

end Books

end AioMoqt.MediaStats
