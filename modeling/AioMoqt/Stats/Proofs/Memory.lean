import Mathlib.Algebra.BigOperators.Group.List.Lemmas
import AioMoqt.Stats.Memory
import AioMoqt.Stats.Proofs.GroupCounts

/-!
# The bounds on what the statistics hold

The group accounting and the stream accounting are taken apart.  What a key holds stays near the
newest group as long as no key is left behind, and a gap is counted for an open group as long as
no other group passes ids over.
-/

namespace AioMoqt.Stats

open AioMoqt.Lib AioMoqt.Lib.Strided

namespace TrackStats

variable {t t' : TrackStats}

/-! ## The groups -/

/-- What the group accounting holds is of groups up to the newest, and not too many are settled. -/
structure Settled (newest : Int) (t : TrackStats) : Prop where
  size : t.grpShort.size ≤ settledCap
  short : ∀ g ∈ t.grpShort.keys, (g : Int) ≤ newest
  rx : ∀ g ∈ t.grpRx.keys, (g : Int) ≤ newest
  floor : t.grpFloor ≤ newest
  first : ∀ g ∈ t.grpFirst, (g : Int) ≤ newest
  max : t.grpMax ≤ newest

/-- Gaps are held of open groups only. -/
def GapsOpen (t : TrackStats) : Prop := ∀ g ∈ t.grpGap.keys, g ∈ t.grpRx.keys

namespace Settled

variable {newest newest' : Int}

theorem mono (h : Settled newest t) (hle : newest ≤ newest') : Settled newest' t where
  size := h.size
  short := fun g hg => (h.short g hg).trans hle
  rx := fun g hg => (h.rx g hg).trans hle
  floor := h.floor.trans hle
  first := fun g hg => (h.first g hg).trans hle
  max := h.max.trans hle

theorem congr (h : Settled newest t) (hsame : t.SameGroups t') : Settled newest t' where
  size := hsame.grpShort ▸ h.size
  short := hsame.grpShort ▸ h.short
  rx := hsame.grpRx ▸ h.rx
  floor := hsame.grpFloor ▸ h.floor
  first := hsame.grpFirst ▸ h.first
  max := hsame.grpMax ▸ h.max

end Settled

/-- A group that is open is settled. -/
theorem Settled.settleGroup {newest : Int} (h : Settled newest t) (g : Nat) :
    Settled newest (t.settleGroup g) := by
  cases hget : t.grpRx.get? g with
  | none =>
      unfold TrackStats.settleGroup
      rw [hget]
      exact h
  | some n =>
      have hg : (g : Int) ≤ newest := h.rx g (Dict.mem_keys.mpr (by rw [hget]; exact nofun))
      rw [settleGroup_open t hget]
      unfold trimSettled
      constructor
      case size => exact Dict.size_keepNewest _ _
      case short =>
        intro g' hg'
        rcases Dict.mem_keys_insert.mp (Dict.mem_keys_of_keepNewest hg') with rfl | hold
        · exact hg
        · exact h.short g' hold
      case rx => exact fun g' hg' => h.rx g' (Dict.mem_keys_erase.mp hg').2
      case floor => exact max_le h.floor hg
      case first => exact h.first
      case max => exact h.max

theorem GapsOpen.settleGroup (h : t.GapsOpen) (g : Nat) : (t.settleGroup g).GapsOpen := by
  cases hget : t.grpRx.get? g with
  | none =>
      unfold TrackStats.settleGroup
      rw [hget]
      exact h
  | some n =>
      rw [settleGroup_open t hget]
      intro g' hg'
      obtain ⟨hne, hold⟩ := Dict.mem_keys_erase.mp hg'
      exact Dict.mem_keys_erase.mpr ⟨hne, h g' hold⟩

theorem mem_rx_settleGroup {g g' : Nat} (hne : g' ≠ g) (h : g' ∈ t.grpRx.keys) :
    g' ∈ (t.settleGroup g).grpRx.keys := by
  cases hget : t.grpRx.get? g with
  | none =>
      unfold TrackStats.settleGroup
      rw [hget]
      exact h
  | some n =>
      rw [settleGroup_open t hget]
      exact Dict.mem_keys_erase.mpr ⟨hne, h⟩

/-- Groups are settled, one of them not among them. -/
theorem settleGroups_open {newest : Int} {gs : List Nat} {g : Nat} (hsettled : Settled newest t)
    (hg : g ∉ gs) (hopen : g ∈ t.grpRx.keys) :
    Settled newest (gs.foldl TrackStats.settleGroup t) ∧
      (t.GapsOpen → (gs.foldl TrackStats.settleGroup t).GapsOpen) ∧
      g ∈ (gs.foldl TrackStats.settleGroup t).grpRx.keys := by
  induction gs generalizing t with
  | nil => exact ⟨hsettled, id, hopen⟩
  | cons g' gs ih =>
      rw [List.mem_cons, not_or] at hg
      obtain ⟨hsettled', hgaps, hopen'⟩ :=
        ih (hsettled.settleGroup g') hg.2 (mem_rx_settleGroup hg.1 hopen)
      exact ⟨hsettled', fun hold => hgaps (hold.settleGroup g'), hopen'⟩

/-- Groups that never arrived are settled. -/
theorem Settled.settleSkipped {newest : Int} (h : Settled newest t) (lo : Nat) {hi : Nat}
    (hhi : (hi : Int) ≤ newest) : Settled newest (t.settleSkipped lo hi) := by
  have hfold : ∀ (gs : List Nat) (t : TrackStats), (∀ g ∈ gs, (g : Int) ≤ newest) →
      (∀ g ∈ t.grpShort.keys, (g : Int) ≤ newest) →
      ∀ g ∈ (gs.foldl (fun t g => { t with
        grpShort := t.grpShort.insert g t.grpSize
        totalLost := t.totalLost + t.grpSize }) t).grpShort.keys, (g : Int) ≤ newest := by
    intro gs
    induction gs with
    | nil => exact fun t _ hshort => hshort
    | cons g gs ih =>
        intro t hgs hshort
        refine ih _ (fun x hx => hgs x (List.mem_cons_of_mem _ hx)) fun x hx => ?_
        rcases Dict.mem_keys_insert.mp hx with rfl | hold
        · exact hgs x List.mem_cons_self
        · exact hshort x hold
  unfold TrackStats.settleSkipped
  split_ifs
  · exact h
  · have hshort := hfold (List.range' lo (hi - lo)) t (fun g hg => by
      have := List.mem_range'_1.mp hg
      omega) h.short
    obtain ⟨grpShort, totalLost, heq⟩ := skipGroups_frame (List.range' lo (hi - lo)) t
    rw [heq] at hshort ⊢
    unfold trimSettled
    constructor
    case size => exact Dict.size_keepNewest _ _
    case short => exact fun g hg => hshort g (Dict.mem_keys_of_keepNewest hg)
    case rx => exact h.rx
    case floor => exact h.floor
    case first => exact h.first
    case max => exact h.max

theorem openGroup_open {newest : Int} {g : Nat} (hsettled : Settled newest t)
    (hg : (g : Int) ≤ newest) :
    Settled newest (t.openGroup g) ∧ (t.GapsOpen → (t.openGroup g).GapsOpen) ∧
      g ∈ (t.openGroup g).grpRx.keys := by
  set t₁ : TrackStats := { t with grpRx := t.grpRx.insert g 1 } with ht₁
  have hsettled₁ : Settled newest t₁ :=
    { hsettled with
      rx := fun x hx => (Dict.mem_keys_insert.mp hx).elim (fun heq => heq ▸ hg) (hsettled.rx x) }
  have hgaps₁ : t.GapsOpen → t₁.GapsOpen := fun hgaps x hx =>
    Dict.mem_keys_insert.mpr (.inr (hgaps x hx))
  have hopen₁ : g ∈ t₁.grpRx.keys := Dict.mem_keys_insert.mpr (.inl rfl)
  have hself : g ∉ (t₁.grpRx.keys.filter fun x => decide (x + 2 ≤ g)) := by
    intro hmem
    have := of_decide_eq_true (List.mem_filter.mp hmem).2
    omega
  have hclose : ∀ t₂ : TrackStats, Settled newest t₂ → t₂.grpRx = t₁.grpRx →
      t₂.grpGap = t₁.grpGap →
      Settled newest ((t₂.grpRx.keys.filter fun x => x + 2 ≤ g).foldl TrackStats.settleGroup
        { t₂ with grpMax := g }) ∧
      (t.GapsOpen → ((t₂.grpRx.keys.filter fun x => x + 2 ≤ g).foldl TrackStats.settleGroup
        { t₂ with grpMax := g }).GapsOpen) ∧
      g ∈ ((t₂.grpRx.keys.filter fun x => x + 2 ≤ g).foldl TrackStats.settleGroup
        { t₂ with grpMax := g }).grpRx.keys := by
    intro t₂ hsettled₂ hrx hgap
    have hgaps₂ : t.GapsOpen → ({ t₂ with grpMax := g } : TrackStats).GapsOpen := by
      intro hold
      unfold GapsOpen
      rw [hrx, hgap]
      exact hgaps₁ hold
    rw [← hrx] at hself hopen₁
    obtain ⟨hsettled', hgaps, hopen⟩ := settleGroups_open (t := { t₂ with grpMax := g })
      { hsettled₂ with max := hg } hself hopen₁
    exact ⟨hsettled', fun hold => hgaps (hgaps₂ hold), hopen⟩
  unfold TrackStats.openGroup
  rw [← ht₁]
  dsimp only
  split_ifs with hnew hgap
  · have hskip := hsettled₁.settleSkipped (t₁.grpMax + 1).toNat hg
    obtain ⟨grpShort, totalLost, heq⟩ := t₁.settleSkipped_frame (t₁.grpMax + 1).toNat g
    rw [heq] at hskip ⊢
    exact hclose _ hskip rfl rfl
  · exact hclose t₁ hsettled₁ rfl rfl
  · exact ⟨hsettled₁, hgaps₁, hopen₁⟩

/-- An object is counted for its group, which is open then unless it is refused. -/
theorem groupObject_open {newest : Int} {gid : Nat} (hsettled : Settled newest t)
    (hg : (gid : Int) ≤ newest) (oid : Nat) (sg : Option Nat) :
    Settled newest (t.groupObject gid oid sg) ∧
      (t.GapsOpen → (t.groupObject gid oid sg).GapsOpen) ∧
      (gid ∈ (t.groupObject gid oid sg).grpRx.keys ↔ ¬ t.Refuses gid) := by
  have hsize : ∃ grpSize, (if t.grpSize ≤ oid then { t with grpSize := oid + 1 } else t) =
      { t with grpSize := grpSize } := by
    split_ifs
    · exact ⟨_, rfl⟩
    · exact ⟨t.grpSize, rfl⟩
  obtain ⟨grpSize, hsize⟩ := hsize
  have hsettled₁ : Settled newest { t with grpSize := grpSize } := { hsettled with }
  unfold groupObject Refuses
  rw [hsize]
  dsimp only
  cases hrx : t.grpRx.get? gid with
  | some n =>
      have hopen : gid ∈ t.grpRx.keys := Dict.mem_keys.mpr (by rw [hrx]; exact nofun)
      refine ⟨{ hsettled₁ with rx := ?_ }, ?_, ?_⟩
      · exact fun x hx => (Dict.mem_keys_insert.mp hx).elim (fun heq => heq ▸ hg) (hsettled.rx x)
      · exact fun hgaps x hx => Dict.mem_keys_insert.mpr (.inr (hgaps x hx))
      · exact iff_of_true (Dict.mem_keys_insert.mpr (.inl rfl)) fun hrefused => hrefused.1 hopen
  | none =>
      have hclosed : gid ∉ t.grpRx.keys := fun hmem => Dict.mem_keys.mp hmem hrx
      cases hshort : t.grpShort.get? gid with
      | some short =>
          have hold : gid ∈ t.grpShort.keys := Dict.mem_keys.mpr (by rw [hshort]; exact nofun)
          dsimp only
          split_ifs
          · refine ⟨{ hsettled₁ with size := ?_, short := ?_ }, id, ?_⟩
            · exact (Dict.size_insert_old hold _).trans_le hsettled.size
            · exact fun x hx =>
                (Dict.mem_keys_insert.mp hx).elim (fun heq => heq ▸ hg) (hsettled.short x)
            · exact iff_of_false hclosed (not_not_intro ⟨hclosed, .inl hold⟩)
          · exact ⟨hsettled₁, id, iff_of_false hclosed (not_not_intro ⟨hclosed, .inl hold⟩)⟩
      | none =>
          have hunsettled : gid ∉ t.grpShort.keys := fun hmem => Dict.mem_keys.mp hmem hshort
          dsimp only
          by_cases hfloor : (gid : Int) ≤ t.grpFloor
          · rw [if_pos hfloor]
            exact ⟨hsettled₁, id,
              iff_of_false hclosed (not_not_intro ⟨hclosed, .inr (.inl hfloor)⟩)⟩
          · rw [if_neg hfloor]
            cases hfirst : t.grpFirst with
            | none =>
                dsimp only
                obtain ⟨hsettled', hgaps', hopen⟩ := openGroup_open
                  (t := { t with grpSize := grpSize, grpFirst := some gid }) (g := gid)
                  { hsettled₁ with first := fun x hx => Option.some.inj hx ▸ hg } hg
                refine ⟨hsettled', hgaps', iff_of_true hopen ?_⟩
                rintro ⟨-, hmem | hle | ⟨first, hfirst', -⟩⟩
                · exact hunsettled hmem
                · exact hfloor hle
                · cases hfirst'
            | some first =>
                dsimp only
                split_ifs with hlt
                · refine ⟨hfirst ▸ hsettled₁, hfirst ▸ id,
                    iff_of_false hclosed (not_not_intro ⟨hclosed, ?_⟩)⟩
                  exact .inr (.inr ⟨first, rfl, hlt⟩)
                · obtain ⟨hsettled', hgaps', hopen⟩ := openGroup_open
                    (t := { t with grpSize := grpSize }) (g := gid) hsettled₁ hg
                  rw [hfirst] at hsettled' hgaps' hopen
                  refine ⟨hsettled', hgaps', iff_of_true hopen ?_⟩
                  rintro ⟨-, hmem | hle | ⟨first', hfirst', hlt'⟩⟩
                  · exact hunsettled hmem
                  · exact hfloor hle
                  · exact hlt (Option.some.inj hfirst' ▸ hlt')

theorem countGroup_settled {newest : Int} {gid : Nat} (hsettled : Settled newest t)
    (hg : (gid : Int) ≤ newest) (oid : Nat) (sg : Option Nat) :
    Settled newest (t.countGroup gid oid sg) ∧
      (t.GapsOpen → (t.countGroup gid oid sg).GapsOpen) ∧
      (t.groupLoss = true → (gid ∈ (t.countGroup gid oid sg).grpRx.keys ↔ ¬ t.Refuses gid)) := by
  obtain ⟨hsettled', hgaps', hopen⟩ := groupObject_open hsettled hg oid sg
  unfold countGroup
  by_cases hloss : t.groupLoss = true
  · rw [if_pos hloss]
    cases hrx : t.grpRx.get? gid with
    | none => exact ⟨hsettled', hgaps', fun _ => hopen⟩
    | some n =>
        have hmem : gid ∈ t.grpRx.keys := Dict.mem_keys.mpr (by rw [hrx]; exact nofun)
        dsimp only
        split_ifs
        · refine ⟨{ hsettled with rx := ?_ }, ?_, fun _ => ?_⟩
          · exact fun x hx => (Dict.mem_keys_insert.mp hx).elim (fun heq => heq ▸ hg) (hsettled.rx x)
          · exact fun hgaps x hx => Dict.mem_keys_insert.mpr (.inr (hgaps x hx))
          · exact iff_of_true (Dict.mem_keys_insert.mpr (.inl rfl)) fun hrefused => hrefused.1 hmem
        · exact ⟨hsettled', hgaps', fun _ => hopen⟩
  · rw [if_neg hloss]
    exact ⟨hsettled, id, fun htrue => absurd htrue hloss⟩

/-! ## The ids that are missing -/

/-- The ids that are missing are counted, and not too many. -/
structure Counted (t : TrackStats) : Prop where
  missingN : t.missingN = t.missing.total Finset.card
  missingN_le : t.missingN ≤ missingCap

/-- A key goes with the ids that it has missing. -/
theorem total_erase {d : Dict LossKey (Finset Nat)} {key : LossKey} {ms : Finset Nat}
    {entries : List (LossKey × Finset Nat)} (h : d.entries = (key, ms) :: entries) :
    ms.card + (d.erase key).total Finset.card = d.total Finset.card :=
  Dict.total_erase_some (Dict.get?_eq_some.mpr (h ▸ List.mem_cons_self)) _

theorem evictMissing_counted {entries : List (LossKey × Finset Nat)}
    (hentries : t.missing.entries = entries)
    (hcount : t.missingN = t.missing.total Finset.card) :
    ∃ missing missingN, evictMissing entries t = { t with missing := missing, missingN := missingN } ∧
      (evictMissing entries t).Counted ∧ ∀ k ∈ missing.keys, k ∈ t.missing.keys := by
  induction entries generalizing t with
  | nil =>
      refine ⟨t.missing, t.missingN, rfl, ⟨hcount, ?_⟩, fun k hk => hk⟩
      have hzero : t.missing.total Finset.card = 0 := by
        show (t.missing.entries.map fun entry => entry.2.card).sum = 0
        rw [hentries]
        rfl
      show t.missingN ≤ missingCap
      rw [hcount, hzero]
      exact Int.natCast_nonneg _
  | cons entry entries ih =>
      obtain ⟨key, ms⟩ := entry
      rw [evictMissing]
      split_ifs with hcap
      · have htotal := total_erase hentries
        obtain ⟨missing, missingN, heq, hcounted, hkeys⟩ :=
          ih (t := { t with missing := t.missing.erase key, missingN := t.missingN - ms.card })
            (Dict.erase_first hentries) (by
              show t.missingN - ms.card = ((t.missing.erase key).total Finset.card : Nat)
              omega)
        exact ⟨missing, missingN, heq, hcounted,
          fun k hk => (Dict.mem_keys_erase.mp (hkeys k hk)).2⟩
      · exact ⟨t.missing, t.missingN, rfl, ⟨hcount, not_lt.mp hcap⟩, fun k hk => hk⟩

/-- What a key has missing is exchanged. -/
theorem total_exchange (d : Dict LossKey (Finset Nat)) (key : LossKey) (ms : Finset Nat) :
    (d.insert key ms).total Finset.card + ((d.get? key).getD ∅).card =
      d.total Finset.card + ms.card := by
  rw [Dict.total_insert]
  cases hget : d.get? key with
  | none =>
      rw [Dict.total_erase_none hget, Option.getD_none, Finset.card_empty]
      omega
  | some old =>
      have := Dict.total_erase_some hget Finset.card
      rw [Option.getD_some]
      omega

theorem noteMissing_counted (h : t.Counted) (key : LossKey) (lo hi stride : Nat) :
    ∃ missing missingN,
      t.noteMissing key lo hi stride = { t with missing := missing, missingN := missingN } ∧
      (t.noteMissing key lo hi stride).Counted ∧
      ∀ k ∈ missing.keys, k = key ∨ k ∈ t.missing.keys := by
  unfold noteMissing
  dsimp only
  split_ifs
  · exact ⟨t.missing, t.missingN, rfl, h, fun k hk => .inr hk⟩
  · set ms := (t.missing.get? key).getD ∅ ∪ (strideRange lo hi stride).toFinset
    have hexchange := total_exchange t.missing key ms
    have hcount := h.missingN
    obtain ⟨missing, missingN, heq, hcounted, hkeys⟩ := evictMissing_counted
      (t := { t with
        missing := t.missing.insert key ms
        missingN := t.missingN + (ms.card - ((t.missing.get? key).getD ∅).card) }) rfl (by
          dsimp only
          omega)
    exact ⟨missing, missingN, heq, hcounted, fun k hk => Dict.mem_keys_insert.mp (hkeys k hk)⟩

theorem recover_counted (h : t.Counted) (key : LossKey) (oid : Nat) :
    ∃ missing missingN totalLost grpGap,
      t.recover key oid = { t with
        missing := missing, missingN := missingN, totalLost := totalLost, grpGap := grpGap } ∧
      (t.recover key oid).Counted ∧ (∀ k ∈ missing.keys, k = key ∨ k ∈ t.missing.keys) ∧
      ∀ g ∈ grpGap.keys, g ∈ t.grpGap.keys := by
  unfold recover
  cases hget : t.missing.get? key with
  | none =>
      exact ⟨t.missing, t.missingN, t.totalLost, t.grpGap, rfl, h, fun k hk => .inr hk,
        fun g hg => hg⟩
  | some ms =>
      dsimp only
      split_ifs with hmem
      · refine ⟨_, _, _, _, rfl, ⟨?_, ?_⟩, fun k hk => Dict.mem_keys_insert.mp hk, ?_⟩
        · have hexchange := total_exchange t.missing key (ms.erase oid)
          rw [hget, Option.getD_some, Finset.card_erase_of_mem hmem] at hexchange
          have hpos : 0 < ms.card := Finset.card_pos.mpr ⟨oid, hmem⟩
          have hcount := h.missingN
          dsimp only
          omega
        · have hle := h.missingN_le
          dsimp only
          omega
        · intro g hg
          cases hgap : t.grpGap.get? key.1 with
          | none =>
              rw [hgap] at hg
              exact hg
          | some gap =>
              rw [hgap] at hg
              rcases Dict.mem_keys_insert.mp hg with rfl | hold
              · exact Dict.mem_keys.mpr (by rw [hgap]; exact nofun)
              · exact hold
      · exact ⟨t.missing, t.missingN, t.totalLost, t.grpGap, rfl, h, fun k hk => .inr hk,
          fun g hg => hg⟩

/-- A gap or a late object: what it changes, and which group then has a gap. -/
theorem checkGap_counted (h : t.Counted) (key : LossKey) (oid prev stride : Nat) :
    ∃ missing missingN totalLost totalOoo grpGap,
      t.checkGap key oid prev stride = { t with
        missing := missing, missingN := missingN, totalLost := totalLost, totalOoo := totalOoo
        grpGap := grpGap } ∧
      (t.checkGap key oid prev stride).Counted ∧
      (∀ k ∈ missing.keys, k = key ∨ k ∈ t.missing.keys) ∧
      (∀ g ∈ grpGap.keys, g ∈ t.grpGap.keys ∨
        t.groupLoss = true ∧ prev + stride < oid ∧ g = key.1) ∧
      (t.groupLoss = true → prev + stride < oid → key.1 ∈ grpGap.keys) := by
  unfold checkGap
  dsimp only
  split_ifs with hpass hlate
  · obtain ⟨missing, missingN, heq, hcounted, hkeys⟩ := noteMissing_counted
      (t := t.countLost key.1 ((oid - prev - stride) / stride)) ⟨h.missingN, h.missingN_le⟩ key
      (prev + stride) oid stride
    rw [heq] at hcounted ⊢
    unfold countLost at hcounted ⊢
    refine ⟨missing, missingN, _, _, _, rfl, hcounted, hkeys, fun g hg => ?_, fun hloss _ => ?_⟩
    · by_cases hloss : t.groupLoss = true
      · rw [if_pos hloss] at hg
        rcases Dict.mem_keys_insert.mp hg with rfl | hold
        · exact .inr ⟨hloss, hpass, rfl⟩
        · exact .inl hold
      · rw [if_neg hloss] at hg
        exact .inl hg
    · rw [if_pos hloss]
      exact Dict.mem_keys_insert.mpr (.inl rfl)
  · obtain ⟨missing, missingN, totalLost, grpGap, heq, hcounted, hkeys, hgaps⟩ :=
      recover_counted (t := { t with totalOoo := t.totalOoo + 1 }) ⟨h.missingN, h.missingN_le⟩
        key oid
    rw [heq] at hcounted ⊢
    exact ⟨missing, missingN, totalLost, _, grpGap, rfl, hcounted, hkeys,
      fun g hg => .inl (hgaps g hg), fun _ hlt => absurd hlt hpass⟩
  · exact ⟨_, _, _, _, _, rfl, h, fun k hk => .inr hk, fun g hg => .inl hg,
      fun _ hlt => absurd hlt hpass⟩

/-! ## The keys -/

/-- The keys that are held, and the groups that are known, are of groups up to the newest; of the
floor and the next pruning, either tells the other. -/
structure Keyed (t : TrackStats) : Prop where
  floor : t.keyFloor = -1 ∨ t.keyFloor + keyHorizon = t.pruneAt
  floor_nonneg : -1 ≤ t.keyFloor
  floor_le : t.keyFloor ≤ t.newestGid
  pruneAt : t.pruneAt ≤ t.keyFloor + keyHorizon
  newest : t.newestGid < t.pruneAt
  recent : ∀ g ∈ t.recentGroups, t.keyFloor ≤ g ∧ (g : Int) ≤ t.newestGid
  old : ∀ key, t.Holds key → (key.1 : Int) ≤ t.newestGid
  stride : ∀ key ∈ t.stride.keys, key ∈ t.expected.keys
  missing : ∀ key ∈ t.missing.keys, t.Holds key
  counted : t.Counted

/-- Written back, the keys are those that were held. -/
theorem flushKey_holds (t : TrackStats) (key : LossKey) :
    (key ∈ t.flushKey.expected.keys ↔ t.Holds key) ∧ t.flushKey.live = none := by
  unfold flushKey Holds liveKey
  cases hlive : t.live with
  | none =>
      rw [Option.map_none]
      exact ⟨(or_iff_left nofun).symm, hlive⟩
  | some l =>
      refine ⟨?_, rfl⟩
      dsimp only
      rw [Dict.mem_keys_insert, Option.map_some, Option.some.injEq, or_comm, eq_comm]

theorem flushKey_stride (h : ∀ key ∈ t.stride.keys, key ∈ t.expected.keys) :
    ∀ key ∈ t.flushKey.stride.keys, key ∈ t.flushKey.expected.keys := by
  unfold flushKey
  cases hlive : t.live with
  | none => exact h
  | some l =>
      intro key hkey
      dsimp only at hkey ⊢
      rw [Dict.mem_keys_insert]
      cases hstride : l.stride with
      | none =>
          rw [hstride] at hkey
          exact .inr (h key hkey)
      | some stride =>
          rw [hstride] at hkey
          exact (Dict.mem_keys_insert.mp hkey).imp id (h key)

/-- What a dictionary weighs, divided by its keys. -/
theorem total_filterKeys (p : LossKey → Bool) (d : Dict LossKey (Finset Nat)) :
    ∃ n : Nat, ((d.entries.filter fun entry => !p entry.1).map
        fun entry => (entry.2.card : Int)).sum = n ∧
      (d.filterKeys p).total Finset.card + n = d.total Finset.card := by
  obtain ⟨entries, hnodup⟩ := d
  show ∃ n : Nat, ((entries.filter fun entry => !p entry.1).map
      fun entry => (entry.2.card : Int)).sum = n ∧
    ((entries.filter fun entry => p entry.1).map fun entry => entry.2.card).sum + n =
      (entries.map fun entry => entry.2.card).sum
  clear hnodup
  induction entries with
  | nil => exact ⟨0, rfl, rfl⟩
  | cons entry entries ih =>
      obtain ⟨n, hsum, htotal⟩ := ih
      cases hp : p entry.1 with
      | true =>
          refine ⟨n, ?_, ?_⟩
          · rw [← hsum, List.filter_cons_of_neg (by rw [hp]; exact Bool.false_ne_true)]
          · have hkeep : ((entry :: entries).filter fun entry => p entry.1) =
                entry :: entries.filter fun entry => p entry.1 := List.filter_cons_of_pos hp
            rw [hkeep, List.map_cons, List.sum_cons, List.map_cons, List.sum_cons]
            omega
      | false =>
          refine ⟨entry.2.card + n, ?_, ?_⟩
          · rw [List.filter_cons_of_pos (by rw [hp]; rfl), List.map_cons, List.sum_cons, hsum]
            rfl
          · rw [List.filter_cons_of_neg (by rw [hp]; exact Bool.false_ne_true), List.map_cons,
              List.sum_cons]
            omega

/-- The keys of old groups are dropped: those that stay are of groups from the floor on. -/
theorem pruneKeys_keys {floor : Int} (hstride : ∀ key ∈ t.stride.keys, key ∈ t.expected.keys)
    (hmissing : ∀ key ∈ t.missing.keys, t.Holds key) (hcounted : t.Counted)
    (hfloor : t.keyFloor < floor) :
    ∃ expected stride missing missingN recentGroups,
      t.pruneKeys floor = { t with
        keyFloor := floor, expected := expected, stride := stride, live := none
        missing := missing, missingN := missingN, recentGroups := recentGroups } ∧
      (∀ key ∈ expected.keys, floor ≤ key.1 ∧ t.Holds key) ∧
      (∀ key ∈ stride.keys, key ∈ expected.keys) ∧
      (∀ key ∈ missing.keys, key ∈ expected.keys) ∧
      (∀ g ∈ recentGroups, floor ≤ (g : Int) ∧ g ∈ t.recentGroups) ∧
      missingN = missing.total Finset.card ∧ missingN ≤ missingCap := by
  have hdropped : (t.missing.entries.filter fun entry => decide ((entry.1.1 : Int) < floor)) =
      t.missing.entries.filter fun entry => !decide (floor ≤ (entry.1.1 : Int)) := by
    apply List.filter_congr
    intro entry _
    simp only [← decide_not, not_le]
  obtain ⟨n, hsum, htotal⟩ :=
    total_filterKeys (fun key => decide (floor ≤ (key.1 : Int))) t.missing
  have hcount := hcounted.missingN
  have hcap := hcounted.missingN_le
  obtain ⟨expected, stride, hflush⟩ := ({ t with keyFloor := floor } : TrackStats).flushKey_eq
  have hholds : ∀ key, key ∈ expected.keys ↔ t.Holds key := by
    intro key
    have := (flushKey_holds { t with keyFloor := floor } key).1
    rwa [hflush] at this
  have hstride : ∀ key ∈ stride.keys, key ∈ expected.keys := by
    have := flushKey_stride (t := { t with keyFloor := floor }) hstride
    rwa [hflush] at this
  unfold TrackStats.pruneKeys
  rw [if_neg (not_le.mpr hfloor), hflush]
  refine ⟨_, _, _, _, _, rfl, ?_, ?_, ?_, ?_, ?_, ?_⟩
  · intro key hkey
    obtain ⟨hnear, hold⟩ := Dict.mem_keys_filterKeys.mp hkey
    exact ⟨of_decide_eq_true hnear, (hholds key).mp hold⟩
  · intro key hkey
    obtain ⟨hnear, hold⟩ := Dict.mem_keys_filterKeys.mp hkey
    exact Dict.mem_keys_filterKeys.mpr ⟨hnear, hstride key hold⟩
  · intro key hkey
    obtain ⟨hnear, hold⟩ := Dict.mem_keys_filterKeys.mp hkey
    exact Dict.mem_keys_filterKeys.mpr ⟨hnear, (hholds key).mpr (hmissing key hold)⟩
  · exact fun g hg => (Finset.mem_filter.mp hg).symm
  · dsimp only
    rw [hdropped, hsum]
    omega
  · dsimp only
    rw [hdropped, hsum]
    omega

/-- A group is noted.  Either the keys stay as they are, or those of old groups are dropped. -/
theorem Keyed.noteGroup (h : t.Keyed) (gid : Nat) :
    (t.noteGroup gid).Keyed ∧ (t.noteGroup gid).newestGid = max t.newestGid gid ∧
      (¬ t.Prunes gid → (t.noteGroup gid).expected = t.expected ∧
        (t.noteGroup gid).stride = t.stride ∧ (t.noteGroup gid).live = t.live) ∧
      (t.Prunes gid → ∀ key, (t.noteGroup gid).Holds key → (gid : Int) ≤ key.1 + keyHorizon) := by
  have hfloor_nonneg := h.floor_nonneg
  have hfloor_le := h.floor_le
  have hpruneAt := h.pruneAt
  have hnewest := h.newest
  have hhorizon : (keyHorizon : Int) = 80 := rfl
  have hslack : (keyReorderSlack : Int) = 64 := rfl
  have hevery : (keyPruneEvery : Int) = 16 := rfl
  unfold TrackStats.noteGroup Prunes
  by_cases hnew : t.newestGid < (gid : Int)
  · have hfresh : gid ∉ t.recentGroups ∧ t.keyFloor ≤ (gid : Int) :=
      ⟨fun hmem => absurd (h.recent gid hmem).2 (not_le.mpr hnew), by omega⟩
    rw [if_pos hfresh]
    dsimp only
    rw [if_pos hnew, max_eq_right hnew.le]
    have hrecent : ∀ g ∈ insert gid t.recentGroups, t.keyFloor ≤ g ∧ (g : Int) ≤ gid := by
      intro g hg
      rcases Finset.mem_insert.mp hg with rfl | hold
      · exact ⟨hfresh.2, le_rfl⟩
      · exact ⟨(h.recent g hold).1, (h.recent g hold).2.trans hnew.le⟩
    by_cases hprune : t.pruneAt ≤ (gid : Int)
    · rw [if_pos hprune]
      set t₁ : TrackStats := { t with
        recentGroups := insert gid t.recentGroups
        totalGroups := t.totalGroups + 1
        newestGid := gid } with ht₁
      by_cases hfloor : t.keyFloor < (gid : Int) - keyReorderSlack
      · obtain ⟨expected, stride, missing, missingN, recentGroups, heq, hexpected, hstride, hmissing,
          hrecentGroups, hmissingN, hcap⟩ := pruneKeys_keys (t := t₁) h.stride h.missing
            ⟨h.counted.missingN, h.counted.missingN_le⟩ hfloor
        have hheld : ∀ key, key ∈ expected.keys ∨ Option.map LiveKey.key none = some key →
            key ∈ expected.keys := fun key hkey => hkey.resolve_right nofun
        rw [heq, ht₁]
        refine ⟨?_, rfl, fun hnot => absurd ⟨hnew, hprune⟩ hnot, fun _ key hkey => ?_⟩
        · constructor
          case floor =>
            right
            dsimp only
            omega
          case floor_nonneg =>
            dsimp only
            omega
          case floor_le =>
            dsimp only
            omega
          case pruneAt =>
            dsimp only
            omega
          case newest =>
            dsimp only
            omega
          case recent => exact fun g hg => ⟨(hrecentGroups g hg).1, (hrecent g (hrecentGroups g hg).2).2⟩
          case old =>
            exact fun key hkey => (h.old key (hexpected key (hheld key hkey)).2).trans hnew.le
          case stride => exact hstride
          case missing => exact fun key hkey => .inl (hmissing key hkey)
          case counted => exact ⟨hmissingN, hcap⟩
        · have := (hexpected key (hheld key hkey)).1
          omega
      -- the first groups: the floor is below them all
      · have hlow : t.keyFloor = -1 := by
          rcases h.floor with hfloor | hfloor
          · exact hfloor
          · omega
        have heq : t₁.pruneKeys (gid - keyReorderSlack) = t₁ := if_pos (not_lt.mp hfloor)
        rw [heq, ht₁]
        refine ⟨?_, rfl, fun hnot => absurd ⟨hnew, hprune⟩ hnot, fun _ key _ => ?_⟩
        · exact { h with
            floor := .inl hlow
            floor_le := hfresh.2
            pruneAt := by
              dsimp only
              omega
            newest := by
              dsimp only
              omega
            recent := hrecent
            old := fun key hkey => (h.old key hkey).trans hnew.le
            counted := ⟨h.counted.missingN, h.counted.missingN_le⟩ }
        · omega
    · rw [if_neg hprune]
      refine ⟨?_, rfl, fun _ => ⟨rfl, rfl, rfl⟩, fun hpruned => absurd hpruned.2 hprune⟩
      exact { h with
        floor_le := hfresh.2
        newest := not_le.mp hprune
        recent := hrecent
        old := fun key hkey => (h.old key hkey).trans hnew.le
        counted := ⟨h.counted.missingN, h.counted.missingN_le⟩ }
  · have hold := not_lt.mp hnew
    rw [max_eq_left hold]
    by_cases hfresh : gid ∉ t.recentGroups ∧ t.keyFloor ≤ (gid : Int)
    · rw [if_pos hfresh]
      dsimp only
      rw [if_neg hnew]
      refine ⟨?_, rfl, fun _ => ⟨rfl, rfl, rfl⟩, fun hpruned => absurd hpruned.1 hnew⟩
      refine { h with recent := ?_, counted := ⟨h.counted.missingN, h.counted.missingN_le⟩ }
      intro g hg
      rcases Finset.mem_insert.mp hg with rfl | hmem
      · exact ⟨hfresh.2, hold⟩
      · exact h.recent g hmem
    · rw [if_neg hfresh]
      exact ⟨h, rfl, fun _ => ⟨rfl, rfl, rfl⟩, fun hpruned => absurd hpruned.1 hnew⟩

/-- A key that is loaded: the same keys are held, and only it is in the slots. -/
theorem loadKey_holds (hstride : ∀ key ∈ t.stride.keys, key ∈ t.expected.keys) (gid : Nat)
    (sg : Option Nat) :
    ∃ expected stride live,
      (t.loadKey gid sg).1 = { t with expected := expected, stride := stride, live := live } ∧
      (∀ key, key ∈ expected.keys ∨ live.map LiveKey.key = some key ↔ t.Holds key) ∧
      (∀ l ∈ live, l.key = lossKey gid sg) ∧ ∀ key ∈ stride.keys, key ∈ expected.keys := by
  obtain ⟨expected, stride, hflush⟩ := t.flushKey_eq
  have hholds : ∀ key, key ∈ expected.keys ∨ (none : Option LiveKey).map LiveKey.key = some key ↔
      t.Holds key := by
    intro key
    have := (flushKey_holds t key).1
    rw [hflush] at this
    rw [← this]
    exact or_iff_left nofun
  have hflushed : ∀ key ∈ stride.keys, key ∈ expected.keys := by
    have := flushKey_stride hstride
    rwa [hflush] at this
  unfold loadKey
  cases hlive : t.live with
  | none => exact ⟨expected, stride, none, hflush, hholds, nofun, hflushed⟩
  | some l =>
      dsimp only
      by_cases hhit : gid = l.g ∧ sg = l.s
      · rw [if_pos hhit]
        refine ⟨t.expected, t.stride, t.live, rfl, fun key => Iff.rfl, ?_, hstride⟩
        intro l' hl'
        rw [hlive] at hl'
        rw [← Option.some.inj hl', hhit.1, hhit.2]
        rfl
      · rw [if_neg hhit]
        exact ⟨expected, stride, none, hflush, hholds, nofun, hflushed⟩

/-- An object in the stream of its key: that key is in the slots then, and a gap is counted where
the object passes ids over. -/
theorem checkStream_keys (hstride : ∀ key ∈ t.stride.keys, key ∈ t.expected.keys)
    (hmissing : ∀ key ∈ t.missing.keys, t.Holds key) (hcounted : t.Counted) (gid oid : Nat)
    (sg : Option Nat) :
    ∃ expected stride live missing missingN totalLost totalOoo grpGap,
      t.checkStream gid oid sg = { t with
        expected := expected, stride := stride, live := some live, missing := missing
        missingN := missingN, totalLost := totalLost, totalOoo := totalOoo, grpGap := grpGap } ∧
      live.key = lossKey gid sg ∧
      (∀ key ≠ lossKey gid sg, key ∈ expected.keys ↔ t.Holds key) ∧
      (∀ key ∈ stride.keys, key ∈ expected.keys) ∧
      (∀ key ∈ missing.keys, key = lossKey gid sg ∨ key ∈ expected.keys) ∧
      (missingN = missing.total Finset.card ∧ missingN ≤ missingCap) ∧
      (∀ g ∈ grpGap.keys, g ∈ t.grpGap.keys ∨
        t.groupLoss = true ∧ t.PassesOver gid sg oid ∧ g = gid) ∧
      (t.groupLoss = true → t.PassesOver gid sg oid → gid ∈ grpGap.keys) := by
  obtain ⟨expected, stride, live, hload, hholds, hlive, hstride'⟩ := loadKey_holds hstride gid sg
  have hkeys : ∀ key ≠ lossKey gid sg, key ∈ expected.keys ↔ t.Holds key := by
    intro key hkey
    rw [← hholds key]
    refine (or_iff_left ?_).symm
    intro heq
    obtain ⟨l, hl, rfl⟩ := Option.map_eq_some_iff.mp heq
    exact hkey (hlive l hl)
  have hmissed : ∀ missing : Dict LossKey (Finset Nat),
      (∀ k ∈ missing.keys, k = lossKey gid sg ∨ k ∈ t.missing.keys) →
      ∀ k ∈ missing.keys, k = lossKey gid sg ∨ k ∈ expected.keys := by
    intro missing hsub k hk
    rcases hsub k hk with heq | hold
    · exact .inl heq
    · exact or_iff_not_imp_left.mpr fun hne => (hkeys k hne).mpr (hmissing k hold)
  unfold checkStream PassesOver
  dsimp only
  rw [hload]
  cases hprev : (t.loadKey gid sg).2.1 with
  | none =>
      exact ⟨expected, stride, _, t.missing, t.missingN, t.totalLost, t.totalOoo, t.grpGap, rfl, rfl,
        hkeys, hstride', hmissed t.missing fun k hk => .inr hk,
        ⟨hcounted.missingN, hcounted.missingN_le⟩, fun g hg => .inl hg, by simp⟩
  | some prev =>
      dsimp only
      cases hlearn : learnStride (t.loadKey gid sg).2.2 prev oid with
      | none =>
          exact ⟨expected, stride, _, t.missing, t.missingN, t.totalLost, t.totalOoo, t.grpGap, rfl,
            rfl, hkeys, hstride', hmissed t.missing fun k hk => .inr hk,
            ⟨hcounted.missingN, hcounted.missingN_le⟩, fun g hg => .inl hg, by simp [hlearn]⟩
      | some step =>
          dsimp only
          have hpasses : (∃ p ∈ some prev, ∃ s ∈ learnStride (t.loadKey gid sg).2.2 p oid,
              0 < s ∧ p + s < oid) ↔ 0 < step ∧ prev + step < oid := by
            simp [hlearn]
          rw [hpasses]
          by_cases hpos : 0 < step
          · rw [if_pos hpos]
            obtain ⟨missing, missingN, totalLost, totalOoo, grpGap, heq, hcounted', hsub, hgaps,
              hgap⟩ := checkGap_counted (t := { t with
                expected := expected, stride := stride, live := live })
                ⟨hcounted.missingN, hcounted.missingN_le⟩ (lossKey gid sg) oid prev step
            rw [heq] at hcounted' ⊢
            refine ⟨expected, stride, ⟨gid, sg, if prev < oid then oid else prev, some step⟩, missing,
              missingN, totalLost, totalOoo, grpGap, rfl, rfl, hkeys, hstride', hmissed missing hsub,
              ⟨hcounted'.missingN, hcounted'.missingN_le⟩, fun g hg => ?_,
              fun hloss hpass => hgap hloss hpass.2⟩
            exact (hgaps g hg).imp id fun hnew => ⟨hnew.1, ⟨hpos, hnew.2.1⟩, hnew.2.2⟩
          · rw [if_neg hpos]
            exact ⟨expected, stride, ⟨gid, sg, if prev < oid then oid else prev, some step⟩,
              t.missing, t.missingN, t.totalLost, t.totalOoo, t.grpGap, rfl, rfl, hkeys, hstride',
              hmissed t.missing fun k hk => .inr hk, ⟨hcounted.missingN, hcounted.missingN_le⟩,
              fun g hg => .inl hg, fun _ hpass => absurd hpass.1 hpos⟩

/-! ## The group accounting leaves the keys alone -/

/-- What an object that is counted for its group does not touch. -/
structure Beside (t t' : TrackStats) : Prop extends SameKeys t t' where
  recentGroups : t'.recentGroups = t.recentGroups
  newestGid : t'.newestGid = t.newestGid
  pruneAt : t'.pruneAt = t.pruneAt

theorem Beside.rfl : Beside t t := ⟨SameKeys.rfl, .refl _, .refl _, .refl _⟩

theorem Beside.groups (t : TrackStats) (grpRx grpShort : Dict Nat Nat) (grpGap : Dict Nat Int)
    (grpSize : Nat) (grpFirst : Option Nat) (grpMax grpFloor totalLost : Int) :
    Beside t { t with
      grpRx := grpRx, grpShort := grpShort, grpGap := grpGap, grpSize := grpSize
      grpFirst := grpFirst, grpMax := grpMax, grpFloor := grpFloor, totalLost := totalLost } :=
  ⟨by constructor <;> exact .refl _, .refl _, .refl _, .refl _⟩

theorem Beside.trans {t'' : TrackStats} (h : Beside t t') (h' : Beside t' t'') : Beside t t'' where
  toSameKeys := h.toSameKeys.trans h'.toSameKeys
  recentGroups := h'.recentGroups.trans h.recentGroups
  newestGid := h'.newestGid.trans h.newestGid
  pruneAt := h'.pruneAt.trans h.pruneAt

theorem settleGroup_beside (t : TrackStats) (g : Nat) : Beside t (t.settleGroup g) := by
  refine ⟨(settleGroup_frame t g).1, ?_, ?_, ?_⟩ <;>
    cases hget : t.grpRx.get? g with
    | none =>
        unfold settleGroup
        rw [hget]
    | some n =>
        rw [settleGroup_open t hget]
        rfl

theorem settleGroups_beside (gs : List Nat) (t : TrackStats) :
    Beside t (gs.foldl settleGroup t) := by
  induction gs generalizing t with
  | nil => exact Beside.rfl
  | cons g gs ih => exact (settleGroup_beside t g).trans (ih _)

theorem openGroup_beside (t : TrackStats) (g : Nat) : Beside t (t.openGroup g) := by
  unfold openGroup
  dsimp only
  split_ifs
  · obtain ⟨grpShort, totalLost, heq⟩ := ({ t with grpRx := t.grpRx.insert g 1 } :
      TrackStats).settleSkipped_frame (t.grpMax + 1).toNat g
    rw [heq]
    exact (Beside.groups ..).trans (settleGroups_beside _ _)
  · exact (Beside.groups ..).trans (settleGroups_beside _ _)
  · exact Beside.groups ..

theorem groupObject_beside (t : TrackStats) (gid oid : Nat) (sg : Option Nat) :
    Beside t (t.groupObject gid oid sg) := by
  have hsize : Beside t (if t.grpSize ≤ oid then { t with grpSize := oid + 1 } else t) := by
    split_ifs
    · exact Beside.groups ..
    · exact Beside.rfl
  refine hsize.trans ?_
  unfold groupObject
  generalize (if t.grpSize ≤ oid then { t with grpSize := oid + 1 } else t) = t₁
  dsimp only
  split
  · exact Beside.groups ..
  · split
    · split_ifs
      · exact Beside.groups ..
      · exact Beside.rfl
    · split_ifs
      · exact Beside.rfl
      · split
        · exact (Beside.groups ..).trans (openGroup_beside _ _)
        · split_ifs
          · exact Beside.rfl
          · exact openGroup_beside _ _

theorem countGroup_beside (t : TrackStats) (gid oid : Nat) (sg : Option Nat) :
    Beside t (t.countGroup gid oid sg) := by
  unfold countGroup
  by_cases hloss : t.groupLoss = true
  · rw [if_pos hloss]
    cases t.grpRx.get? gid with
    | none => exact groupObject_beside t gid oid sg
    | some n =>
        dsimp only
        split_ifs
        · exact Beside.groups ..
        · exact groupObject_beside t gid oid sg
  · rw [if_neg hloss]
    exact Beside.rfl

theorem Beside.holds (h : Beside t t') (key : LossKey) : t'.Holds key ↔ t.Holds key := by
  unfold Holds liveKey
  rw [h.expected, h.live]

theorem Keyed.congr (h : t.Keyed) (hbeside : Beside t t') : t'.Keyed where
  floor := by
    rw [hbeside.keyFloor, hbeside.pruneAt]
    exact h.floor
  floor_nonneg := hbeside.keyFloor ▸ h.floor_nonneg
  floor_le := by
    rw [hbeside.keyFloor, hbeside.newestGid]
    exact h.floor_le
  pruneAt := by
    rw [hbeside.keyFloor, hbeside.pruneAt]
    exact h.pruneAt
  newest := by
    rw [hbeside.newestGid, hbeside.pruneAt]
    exact h.newest
  recent := by
    rw [hbeside.recentGroups, hbeside.keyFloor, hbeside.newestGid]
    exact h.recent
  old := by
    intro key hkey
    rw [hbeside.newestGid]
    exact h.old key ((hbeside.holds key).mp hkey)
  stride := by
    rw [hbeside.stride, hbeside.expected]
    exact h.stride
  missing := by
    rw [hbeside.missing]
    exact fun key hkey => (hbeside.holds key).mpr (h.missing key hkey)
  counted := by
    refine ⟨?_, ?_⟩
    · rw [hbeside.missingN, hbeside.missing]
      exact h.counted.missingN
    · rw [hbeside.missingN]
      exact h.counted.missingN_le

/-- What is loaded of a key is told by the slots and the dictionaries. -/
theorem passesOver_congr (hexpected : t'.expected = t.expected) (hstride : t'.stride = t.stride)
    (hlive : t'.live = t.live) (gid : Nat) (sg : Option Nat) (oid : Nat) :
    t'.PassesOver gid sg oid ↔ t.PassesOver gid sg oid := by
  have hload : (t'.loadKey gid sg).2 = (t.loadKey gid sg).2 := by
    unfold loadKey flushKey
    rw [hlive]
    cases t.live with
    | none =>
        dsimp only
        rw [hexpected, hstride]
    | some l =>
        dsimp only
        rw [hexpected, hstride]
        split_ifs <;> rfl
  unfold PassesOver
  rw [hload]

/-! ## A call -/

/-- What holds of the statistics behind any calls. -/
structure Sound (t : TrackStats) : Prop where
  keyed : t.Keyed
  settled : Settled t.newestGid t

/-- Only the key in the slots may be of a group behind the horizon. -/
def Tidy (t : TrackStats) : Prop :=
  ∀ key, t.Holds key → t.liveKey ≠ some key → t.newestGid ≤ key.1 + keyHorizon

/-- Beyond what always holds, memory is bounded where the keys are tidy and the gaps of open
groups. -/
theorem Sound.bounded_iff (h : t.Sound) : t.Bounded t.newestGid ↔ t.Tidy ∧ t.GapsOpen := by
  have hpruneAt := h.keyed.pruneAt
  have hnewest := h.keyed.newest
  constructor
  · intro hbounded
    refine ⟨fun key hkey hlive => ?_, hbounded.grpGap⟩
    exact (hbounded.expected key (hkey.resolve_right hlive) hlive).2
  · rintro ⟨htidy, hgaps⟩
    have hnear : ∀ key, t.Holds key → t.liveKey ≠ some key → Near t.newestGid key.1 :=
      fun key hkey hlive => ⟨h.keyed.old key hkey, htidy key hkey hlive⟩
    constructor
    case expected => exact fun key hkey => hnear key (.inl hkey)
    case stride => exact fun key hkey => hnear key (.inl (h.keyed.stride key hkey))
    case missing => exact fun key hkey => hnear key (h.keyed.missing key hkey)
    case recentGroups =>
      intro g hg
      obtain ⟨hfloor, hle⟩ := h.keyed.recent g hg
      refine ⟨hle, ?_⟩
      omega
    case missingN => exact h.keyed.counted.missingN
    case missingN_le => exact h.keyed.counted.missingN_le
    case grpShort => exact h.settled.size
    case grpGap => exact hgaps

/-- A group that is noted, and nothing else. -/
theorem Sound.noteGroup (h : t.Sound) (gid : Nat) : (t.noteGroup gid).Sound := by
  obtain ⟨hkeyed, hnewest, -, -⟩ := h.keyed.noteGroup gid
  refine ⟨hkeyed, (h.settled.mono ?_).congr (noteGroup_frame t gid).1⟩
  rw [hnewest]
  exact le_max_left _ _

/-- The keys are tidy behind a group that is noted where none is left behind. -/
theorem Sound.noteGroup_tidy (h : t.Sound) (gid : Nat) (own : LossKey → Prop) :
    (∀ key, (t.noteGroup gid).Holds key → ¬ own key →
        (t.noteGroup gid).newestGid ≤ key.1 + keyHorizon) ↔
      (¬ t.Prunes gid → ∀ key, t.Holds key → ¬ own key →
        max t.newestGid gid ≤ key.1 + keyHorizon) := by
  obtain ⟨-, hnewest, hkept, hpruned⟩ := h.keyed.noteGroup gid
  rw [hnewest]
  by_cases hprunes : t.Prunes gid
  · rw [max_eq_right hprunes.1.le]
    exact iff_of_true (fun key hkey _ => hpruned hprunes key hkey) fun hnot => absurd hprunes hnot
  · obtain ⟨hexpected, -, hlive⟩ := hkept hprunes
    have hholds : ∀ key, (t.noteGroup gid).Holds key ↔ t.Holds key := by
      intro key
      unfold Holds liveKey
      rw [hexpected, hlive]
    simp only [hholds, hprunes, not_false_eq_true, true_implies]

/-- A group that is refused is not newer than the newest. -/
theorem Sound.not_prunes (h : t.Sound) {gid : Nat} (hrefused : t.Refuses gid) :
    ¬ t.Prunes gid := by
  rintro ⟨hnew, -⟩
  rcases hrefused.2 with hshort | hfloor | ⟨first, hfirst, hlt⟩
  · exact absurd (h.settled.short gid hshort) (not_le.mpr hnew)
  · exact absurd (hfloor.trans h.settled.floor) (not_le.mpr hnew)
  · have := h.settled.first first hfirst
    omega

/-- An object that is counted for its group and its stream. -/
theorem Sound.count (h : t.Sound) {gid : Nat} (hg : (gid : Int) ≤ t.newestGid) (oid : Nat)
    (sg : Option Nat) {t' : TrackStats}
    (ht' : t' = (t.countGroup gid oid sg).checkStream gid oid sg) :
    t'.Sound ∧ t'.newestGid = t.newestGid ∧ t'.minimal = t.minimal ∧
      (t'.Tidy ↔ ∀ key, t.Holds key → ¬ some (lossKey gid sg) = some key →
        t.newestGid ≤ key.1 + keyHorizon) ∧
      (t.GapsOpen → (t'.GapsOpen ↔
        (t.groupLoss = true → t.Refuses gid → ¬ t.PassesOver gid sg oid))) := by
  obtain ⟨hsettled₁, hgaps₁, hopen₁⟩ := countGroup_settled h.settled hg oid sg
  have hbeside := countGroup_beside t gid oid sg
  have hkeyed₁ := h.keyed.congr hbeside
  have hpasses := passesOver_congr hbeside.expected hbeside.stride hbeside.live gid sg oid
  obtain ⟨expected, stride, live, missing, missingN, totalLost, totalOoo, grpGap, heq, hlive, hkeys,
    hstride, hmissing, hcounted, hgaps, hgap⟩ :=
      checkStream_keys hkeyed₁.stride hkeyed₁.missing hkeyed₁.counted gid oid sg
  have hliveKey : t'.liveKey = some (lossKey gid sg) := by
    rw [ht', heq]
    exact congrArg some hlive
  have hholds : ∀ key ≠ lossKey gid sg, t'.Holds key ↔ t.Holds key := by
    intro key hkey
    rw [← hbeside.holds key, ← hkeys key hkey]
    unfold Holds
    rw [hliveKey, ht', heq]
    exact or_iff_left fun hown => hkey (Option.some.inj hown).symm
  have hnewest : t'.newestGid = t.newestGid := by
    rw [ht', heq]
    exact hbeside.newestGid
  refine ⟨⟨?_, ?_⟩, hnewest, ?_, ?_, fun hopen => ?_⟩
  · have hold : ∀ key, t'.Holds key → (key.1 : Int) ≤ t'.newestGid := by
      intro key hkey
      by_cases hown : key = lossKey gid sg
      · rw [hown, hnewest]
        exact hg
      · rw [hnewest]
        exact h.keyed.old key ((hholds key hown).mp hkey)
    have hmissed : ∀ key ∈ missing.keys, t'.Holds key := by
      intro key hkey
      rcases hmissing key hkey with rfl | hmem
      · exact .inr hliveKey
      · rw [ht', heq]
        exact .inl hmem
    rw [ht', heq] at hold hmissed ⊢
    exact { hkeyed₁ with
      old := hold
      stride := hstride
      missing := hmissed
      counted := ⟨hcounted.1, hcounted.2⟩ }
  · rw [hnewest, ht', heq]
    exact { hsettled₁ with }
  · rw [ht', heq]
    exact hbeside.minimal
  · unfold Tidy
    rw [hliveKey, hnewest]
    refine forall_congr' fun key => ?_
    by_cases hown : key = lossKey gid sg
    · rw [hown]
      exact iff_of_true (fun _ hne => absurd rfl hne) fun _ hne => absurd rfl hne
    · rw [hholds key hown]
  · have hsame : t'.GapsOpen ↔ ∀ g ∈ grpGap.keys, g ∈ (t.countGroup gid oid sg).grpRx.keys := by
      rw [ht', heq]
      rfl
    rw [hsame]
    constructor
    · intro hmem hloss hrefused hpass
      have hrx := hmem gid (hgap (hbeside.groupLoss.trans hloss) (hpasses.mpr hpass))
      exact (hopen₁ hloss).mp hrx hrefused
    · intro hnone g hgmem
      rcases hgaps g hgmem with hmem | ⟨hloss, hpass, rfl⟩
      · exact hgaps₁ hopen g hmem
      · have hloss' := hbeside.groupLoss.symm.trans hloss
        refine (hopen₁ hloss').mpr fun hrefused => ?_
        exact hnone hloss' hrefused (hpasses.mp hpass)

/-- The counters that every object is counted with. -/
def tally (t : TrackStats) (objects bytes : Nat) : TrackStats :=
  { t with totalObjects := objects, totalBytes := bytes }

/-- What a call comes to: nothing but counters, a group that is noted, or an object that is
counted for its group and its stream. -/
theorem onObject_cases (hminimal : t.minimal = false) (call : ObjectCall) :
    ∃ objects bytes, (call.seenGroup = none ∧ t.onObject call = t.tally objects bytes) ∨
      ∃ gid, call.seenGroup = some gid ∧
        ((call.oid = none ∧ t.onObject call = (t.tally objects bytes).noteGroup gid) ∨
          ∃ oid saw, call.oid = some oid ∧ t.onObject call =
            (countGroup { (t.tally objects bytes).noteGroup gid with sawDatagram := saw }
              gid oid call.sg).checkStream gid oid call.sg) := by
  unfold onObject ObjectCall.seenGroup
  by_cases hobject : call.isObject = true
  · refine ⟨t.totalObjects + 1, t.totalBytes + call.sizeBytes, ?_⟩
    rw [if_pos hobject, if_pos hobject]
    dsimp only
    rw [if_neg (by rw [hminimal]; exact Bool.false_ne_true)]
    cases hgid : call.gid with
    | none => exact .inl ⟨rfl, rfl⟩
    | some gid =>
        refine .inr ⟨gid, rfl, ?_⟩
        cases hoid : call.oid with
        | none => exact .inl ⟨rfl, rfl⟩
        | some oid =>
            by_cases hsg : call.hasSg = true
            · exact .inr ⟨oid, ((t.tally _ _).noteGroup gid).sawDatagram, rfl, by
                dsimp only
                rw [if_pos hsg]
                rfl⟩
            · exact .inr ⟨oid, true, rfl, by
                dsimp only
                rw [if_neg hsg]
                rfl⟩
  · refine ⟨t.totalObjects, t.totalBytes, .inl ?_⟩
    rw [if_neg hobject, if_neg hobject]
    exact ⟨rfl, rfl⟩

theorem Sound.tally (h : t.Sound) (objects bytes : Nat) : (t.tally objects bytes).Sound :=
  ⟨{ h.keyed with counted := ⟨h.keyed.counted.missingN, h.keyed.counted.missingN_le⟩ },
    { h.settled with }⟩

/-- One call. -/
theorem Sound.onObject (h : t.Sound) (hminimal : t.minimal = false) (call : ObjectCall) :
    (t.onObject call).Sound ∧ (t.onObject call).minimal = false ∧
      (t.onObject call).newestGid = call.seenGroup.elim t.newestGid (fun gid => max t.newestGid gid) ∧
      (t.Tidy → t.GapsOpen →
        ((t.onObject call).Tidy ∧ (t.onObject call).GapsOpen ↔ t.Keeps call)) := by
  obtain ⟨objects, bytes, ⟨hseen, heq⟩ | ⟨gid, hseen, ⟨hoid, heq⟩ | ⟨oid, saw, hoid, heq⟩⟩⟩ :=
    onObject_cases hminimal call
  · rw [heq, hseen]
    refine ⟨h.tally objects bytes, hminimal, rfl, fun htidy hgaps => ?_⟩
    refine iff_of_true ⟨htidy, hgaps⟩ ⟨?_, ?_⟩ <;> rw [hseen] <;> exact nofun
  · have hsound := h.tally objects bytes
    obtain ⟨hgroups, -, hgrpGap, -⟩ := noteGroup_frame (t.tally objects bytes) gid
    obtain ⟨-, hnewest, hkept, hpruned⟩ := hsound.keyed.noteGroup gid
    rw [heq, hseen]
    refine ⟨hsound.noteGroup gid, hgroups.minimal.trans hminimal, hnewest, fun htidy hgaps => ?_⟩
    have hgaps' : ((t.tally objects bytes).noteGroup gid).GapsOpen := by
      unfold GapsOpen
      rw [hgrpGap, hgroups.grpRx]
      exact hgaps
    rw [and_iff_left hgaps']
    have htidy' : ((t.tally objects bytes).noteGroup gid).Tidy ↔ (¬ t.Prunes gid → ∀ key,
        t.Holds key → ¬ t.liveKey = some key → max t.newestGid gid ≤ key.1 + keyHorizon) := by
      by_cases hprunes : t.Prunes gid
      · refine iff_of_true (fun key hkey _ => ?_) fun hnot => absurd hprunes hnot
        have hmax : max (t.tally objects bytes).newestGid gid = gid :=
          max_eq_right (le_of_lt hprunes.1)
        rw [hnewest, hmax]
        exact hpruned hprunes key hkey
      · have hlive : ((t.tally objects bytes).noteGroup gid).liveKey = t.liveKey :=
          congrArg (Option.map LiveKey.key) (hkept hprunes).2.2
        have hspec := hsound.noteGroup_tidy gid fun key => t.liveKey = some key
        unfold Tidy
        rw [hlive]
        exact hspec
    rw [htidy']
    constructor
    · intro hnear
      refine ⟨fun gid' hgid' hprunes key hkey hown => ?_, fun _ _ oid' hoid' => ?_⟩
      · rw [hseen, Option.mem_some_iff] at hgid'
        subst hgid'
        rw [nextKey, hoid] at hown
        exact hnear hprunes key hkey hown
      · rw [hoid] at hoid'
        cases hoid'
    · intro hkeeps hprunes key hkey hown
      refine hkeeps.horizon gid hseen hprunes key hkey ?_
      rw [nextKey, hoid]
      exact hown
  · have hsound := h.tally objects bytes
    obtain ⟨hgroups, -, hgrpGap, -⟩ := noteGroup_frame (t.tally objects bytes) gid
    obtain ⟨-, hnewest, hkept, -⟩ := hsound.keyed.noteGroup gid
    have hnoted := hsound.noteGroup gid
    set t₂ : TrackStats := { (t.tally objects bytes).noteGroup gid with sawDatagram := saw } with ht₂
    have hsound₂ : t₂.Sound :=
      ⟨{ hnoted.keyed with
          counted := ⟨hnoted.keyed.counted.missingN, hnoted.keyed.counted.missingN_le⟩ },
        { hnoted.settled with }⟩
    have hg : (gid : Int) ≤ t₂.newestGid := by
      rw [ht₂]
      show (gid : Int) ≤ ((t.tally objects bytes).noteGroup gid).newestGid
      rw [hnewest]
      exact le_max_right _ _
    obtain ⟨hsound', hnewest', hminimal', htidy', hgaps'⟩ := hsound₂.count hg oid call.sg heq
    rw [hseen]
    refine ⟨hsound', hminimal'.trans (hgroups.minimal.trans hminimal), hnewest'.trans hnewest,
      fun _ hgaps => ?_⟩
    have hgaps₂ : t₂.GapsOpen := by
      rw [ht₂]
      unfold GapsOpen
      show ∀ g ∈ ((t.tally objects bytes).noteGroup gid).grpGap.keys,
        g ∈ ((t.tally objects bytes).noteGroup gid).grpRx.keys
      rw [hgrpGap, hgroups.grpRx]
      exact hgaps
    have hrefuses : t₂.Refuses gid ↔ t.Refuses gid := by
      rw [ht₂]
      unfold Refuses
      show (gid ∉ ((t.tally objects bytes).noteGroup gid).grpRx.keys ∧
        (gid ∈ ((t.tally objects bytes).noteGroup gid).grpShort.keys ∨
          (gid : Int) ≤ ((t.tally objects bytes).noteGroup gid).grpFloor ∨
          ∃ first ∈ ((t.tally objects bytes).noteGroup gid).grpFirst, gid < first)) ↔ _
      rw [hgroups.grpRx, hgroups.grpShort, hgroups.grpFloor, hgroups.grpFirst]
      rfl
    have hpasses : t.Refuses gid → (t₂.PassesOver gid call.sg oid ↔ t.PassesOver gid call.sg oid) := by
      intro hrefused
      obtain ⟨hexpected, hstride, hlive⟩ := hkept (h.not_prunes hrefused)
      have hexpected₂ : t₂.expected = t.expected := hexpected
      have hstride₂ : t₂.stride = t.stride := hstride
      have hlive₂ : t₂.live = t.live := hlive
      exact passesOver_congr hexpected₂ hstride₂ hlive₂ gid call.sg oid
    have hspec := hsound.noteGroup_tidy gid fun key => some (lossKey gid call.sg) = some key
    rw [htidy', hgaps' hgaps₂, hrefuses]
    constructor
    · rintro ⟨hnear, hnone⟩
      refine ⟨fun gid' hgid' hprunes key hkey hown => ?_, fun gid' hgid' oid' hoid' hloss href => ?_⟩
      · rw [hseen, Option.mem_some_iff] at hgid'
        subst hgid'
        rw [nextKey, hoid] at hown
        exact hspec.mp hnear hprunes key hkey hown
      · rw [hseen, Option.mem_some_iff] at hgid'
        subst hgid'
        rw [hoid, Option.mem_some_iff] at hoid'
        subst hoid'
        intro hpass
        exact hnone (hgroups.groupLoss.trans hloss) href ((hpasses href).mpr hpass)
    · intro hkeeps
      refine ⟨hspec.mpr fun hprunes key hkey hown => ?_, fun hloss href hpass => ?_⟩
      · refine hkeeps.horizon gid hseen hprunes key hkey ?_
        rw [nextKey, hoid]
        exact hown
      · exact hkeeps.gaps gid hseen oid hoid (hgroups.groupLoss.symm.trans hloss) href
          ((hpasses href).mp hpass)

/-! ## Runs -/

theorem after_concat (minimal groupLoss : Bool) (calls : List ObjectCall) (call : ObjectCall) :
    after minimal groupLoss (calls ++ [call]) = (after minimal groupLoss calls).onObject call :=
  List.foldl_concat _ _ _ _

/-- Behind any calls of statistics that are not minimal. -/
theorem sound_after (groupLoss : Bool) (calls : List ObjectCall) :
    (after false groupLoss calls).Sound ∧ (after false groupLoss calls).minimal = false ∧
      (after false groupLoss calls).newestGid = newestSeen calls := by
  induction calls using List.reverseRecOn with
  | nil =>
      refine ⟨⟨?_, ?_⟩, rfl, rfl⟩
      · constructor
        case floor => exact .inl rfl
        case floor_nonneg => exact le_rfl
        case floor_le => exact le_rfl
        case pruneAt =>
          show (0 : Int) ≤ -1 + (80 : Nat)
          omega
        case newest =>
          show (-1 : Int) < 0
          omega
        case recent => exact fun g hg => absurd hg (Finset.notMem_empty g)
        case old =>
          rintro key (hkey | hkey)
          · cases hkey
          · cases hkey
        case stride => exact nofun
        case missing => exact nofun
        case counted => exact ⟨rfl, Int.natCast_nonneg _⟩
      · constructor
        case size => exact Nat.zero_le _
        case short => exact nofun
        case rx => exact nofun
        case floor => exact le_rfl
        case first => exact nofun
        case max => exact le_rfl
  | append_singleton calls call ih =>
      obtain ⟨hsound, hminimal, hnewest⟩ := ih
      obtain ⟨hsound', hminimal', hnewest', -⟩ := hsound.onObject hminimal call
      rw [after_concat]
      refine ⟨hsound', hminimal', hnewest'.trans ?_⟩
      rw [newestSeen, List.foldl_concat, hnewest]
      rfl

/-- Minimal statistics hold nothing but counters. -/
theorem after_minimal (groupLoss : Bool) (calls : List ObjectCall) :
    ∃ objects bytes, after true groupLoss calls =
      tally { minimal := true, groupLoss := groupLoss } objects bytes := by
  induction calls using List.reverseRecOn with
  | nil => exact ⟨0, 0, rfl⟩
  | append_singleton calls call ih =>
      obtain ⟨objects, bytes, heq⟩ := ih
      rw [after_concat, heq]
      unfold onObject
      by_cases hobject : call.isObject = true
      · rw [if_pos hobject]
        exact ⟨objects + 1, bytes + call.sizeBytes, rfl⟩
      · rw [if_neg hobject]
        exact ⟨objects, bytes, rfl⟩

/-- Minimal statistics are bounded, and any call keeps to it. -/
theorem minimal_bounded (groupLoss : Bool) (calls : List ObjectCall) (newest : Int)
    (call : ObjectCall) :
    (after true groupLoss calls).Bounded newest ∧ (after true groupLoss calls).Keeps call := by
  obtain ⟨objects, bytes, heq⟩ := after_minimal groupLoss calls
  rw [heq]
  refine ⟨?_, ?_, ?_⟩
  · constructor
    case missingN => rfl
    case missingN_le => exact Int.natCast_nonneg _
    case grpShort => exact Nat.zero_le _
    all_goals exact nofun
  · rintro gid - - key (hkey | hkey)
    · cases hkey
    · cases hkey
  · rintro gid - oid - - ⟨-, hshort | hfloor | ⟨first, hfirst, -⟩⟩
    · cases hshort
    · have : (gid : Int) ≤ -1 := hfloor
      omega
    · cases hfirst

/-- The bounds hold behind a call where they held before and the call keeps to them. -/
theorem bounded_concat (groupLoss : Bool) (calls : List ObjectCall) (call : ObjectCall)
    (h : (after false groupLoss calls).Bounded (newestSeen calls)) :
    (after false groupLoss (calls ++ [call])).Bounded (newestSeen (calls ++ [call])) ↔
      (after false groupLoss calls).Keeps call := by
  obtain ⟨hsound, hminimal, hnewest⟩ := sound_after groupLoss calls
  obtain ⟨hsound', -, hnewest'⟩ := sound_after groupLoss (calls ++ [call])
  rw [← hnewest, hsound.bounded_iff] at h
  rw [← hnewest', hsound'.bounded_iff, after_concat]
  exact (hsound.onObject hminimal call).2.2.2 h.1 h.2

/-- Memory is bounded behind every call of a run exactly where every call of it keeps to the
bounds. -/
theorem memory_bounded_iff (minimal groupLoss : Bool) (calls : List ObjectCall) :
    (∀ before, before <+: calls →
        (after minimal groupLoss before).Bounded (newestSeen before)) ↔
      ∀ before call, before ++ [call] <+: calls →
        (after minimal groupLoss before).Keeps call := by
  cases minimal with
  | true =>
      exact iff_of_true (fun before _ => (minimal_bounded groupLoss before _ ⟨{}, 0, none, none⟩).1)
        fun before call _ => (minimal_bounded groupLoss before 0 call).2
  | false =>
      constructor
      · intro hbounded before call hprefix
        have hbefore := hbounded before ((List.prefix_append before [call]).trans hprefix)
        exact (bounded_concat groupLoss before call hbefore).mp (hbounded _ hprefix)
      · intro hkeeps before
        -- the bounds are carried from prefix to prefix
        induction before using List.reverseRecOn with
        | nil =>
            intro _
            obtain ⟨hsound, -, hnewest⟩ := sound_after groupLoss []
            rw [← hnewest, hsound.bounded_iff]
            refine ⟨?_, nofun⟩
            rintro key (hkey | hkey)
            · cases hkey
            · cases hkey
        | append_singleton before call ih =>
            intro hprefix
            have hbefore := ih ((List.prefix_append before [call]).trans hprefix)
            exact (bounded_concat groupLoss before call hbefore).mpr (hkeeps before call hprefix)

/-- The object of a group far behind is written back when the next key is loaded; and an object
that passes others over in a group that is settled leaves a gap that is never dropped. -/
theorem memory_unbounded :
    let call : Nat → Nat → ObjectCall := fun gid oid =>
      { msg := { groupId := some (some gid), objectId := some (some oid) }, sizeBytes := 0 }
    let straggler := [call 1000 0, call 0 0, call 1000 1]
    let settled := [call 0 0, call 0 1, call 1 0, call 2 0, call 0 5]
    ¬ (after false false straggler).Bounded (newestSeen straggler) ∧
      ¬ (after false true settled).Bounded (newestSeen settled) := by
  refine ⟨fun hbounded => ?_, fun hbounded => ?_⟩
  · have hnear := hbounded.expected (0, 0) (by decide +kernel) (by decide +kernel)
    exact absurd hnear (by decide +kernel)
  · have hopen := hbounded.grpGap 0 (by decide +kernel)
    exact absurd hopen (by decide +kernel)

end TrackStats

end AioMoqt.Stats
