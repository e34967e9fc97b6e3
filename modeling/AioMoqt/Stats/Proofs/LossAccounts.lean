import AioMoqt.Stats.Proofs.LossRuns

/-!
# What is reported lost

Each call keeps the views of the streams and the books of the groups; from them follows what the
statistics report as lost, after every call and when all objects have arrived.
-/

namespace AioMoqt.Stats

open AioMoqt.Lib AioMoqt.Lib.Strided

/-! ## A call -/

/-- What is left of a call once it is counted: the state that its group and stream are counted
in. -/
structure Prepared (a : Arrival) (t t' : TrackStats) : Prop where
  groups : t.SameGroups t'
  totalLost : t'.totalLost = t.totalLost
  grpGap : t'.grpGap = t.grpGap
  keyFloor : t'.keyFloor = t.keyFloor ∨ t'.keyFloor = (a.1 : Int) - keyReorderSlack
  views : ∀ {tr : SentTrack} {as : List Arrival}, Views tr as t → Views tr as t'

theorem onObject_eq {tr : SentTrack} {call : ObjectCall} {t : TrackStats} (h : tr.Carries call)
    (hminimal : t.minimal = false) : ∃ t', Prepared call.arrival t t' ∧ t.onObject call =
      (t'.countGroup call.arrival.1 call.arrival.2 (tr.subgroup call.arrival.2)).checkStream
        call.arrival.1 call.arrival.2 (tr.subgroup call.arrival.2) := by
  set t₁ : TrackStats := { t with
    totalObjects := t.totalObjects + 1
    totalBytes := t.totalBytes + call.sizeBytes } with ht₁
  obtain ⟨hgroups, hlost, hgap, hfloor⟩ := t₁.noteGroup_frame call.arrival.1
  have hviews : ∀ {tr : SentTrack} {as : List Arrival}, Views tr as t →
      Views tr as (t₁.noteGroup call.arrival.1) := fun hviews =>
    (hviews.congr (show t.SameKeys t₁ by constructor <;> exact .refl _)).noteGroup _
  set t₂ := t₁.noteGroup call.arrival.1 with ht₂
  refine ⟨if call.hasSg then t₂ else { t₂ with sawDatagram := true }, ?_, ?_⟩
  · split_ifs
    · exact ⟨⟨hgroups.minimal, hgroups.groupLoss, hgroups.grpRx, hgroups.grpShort, hgroups.grpSize,
        hgroups.grpFirst, hgroups.grpMax, hgroups.grpFloor⟩, hlost, hgap, hfloor, hviews⟩
    · exact ⟨⟨hgroups.minimal, hgroups.groupLoss, hgroups.grpRx, hgroups.grpShort, hgroups.grpSize,
        hgroups.grpFirst, hgroups.grpMax, hgroups.grpFloor⟩, hlost, hgap, hfloor,
        fun h => (hviews h).congr (by constructor <;> exact .refl _)⟩
  · have hnot : ¬ t₁.minimal = true := fun htrue => Bool.noConfusion (hminimal.symm.trans htrue)
    unfold TrackStats.onObject
    rw [if_pos h.object, h.gid, h.oid, h.sg]
    exact if_neg hnot

theorem GroupRest.congr {tr : SentTrack} {learned : Prop} {as : List Arrival} {t t' : TrackStats}
    (h : GroupRest tr learned as t) (hsame : t.SameGroups t') (hlost : t'.totalLost = t.totalLost)
    (hgap : t'.grpGap = t.grpGap) : GroupRest tr learned as t' := by
  obtain ⟨sh, hbooks⟩ := h.books
  refine ⟨⟨sh, ?_⟩, ⟨hsame.grpMax ▸ h.fields.newest, hsame.grpSize ▸ h.fields.learnt,
    hsame.grpSize ▸ h.fields.size⟩⟩
  constructor
  case rx => exact hsame.grpRx ▸ hbooks.rx
  case short => exact hsame.grpShort ▸ hbooks.short
  case kept => exact hsame.grpShort ▸ hbooks.kept
  case off => exact hbooks.off
  case gap => exact hgap ▸ hbooks.gap
  case floor => exact hsame.grpFloor ▸ hbooks.floor
  case first => exact hsame.grpFirst ▸ hbooks.first
  case joined => exact hbooks.joined
  case apart => exact hbooks.apart
  case below => exact hbooks.below
  case near => exact hbooks.near
  case known => exact hbooks.known
  case bunched => exact hsame.grpShort ▸ hbooks.bunched
  case account => exact hbooks.account
  case lost => exact hlost ▸ hbooks.lost

/-! ## The invariant -/

/-- What the statistics hold between calls. -/
structure Holds (tr : SentTrack) (groupLoss : Bool) (learned : Prop) (as : List Arrival)
    (t : TrackStats) : Prop where
  minimal : t.minimal = false
  mode : t.groupLoss = groupLoss
  views : Views tr as t
  keyFloor : t.keyFloor = -1 ∨ ∃ b ∈ as, t.keyFloor + keyReorderSlack ≤ b.1
  streams : groupLoss = false → t.totalLost = tr.outstanding as
  groups : groupLoss = true → GroupRest tr learned as t

section

variable {tr : SentTrack} {groupLoss : Bool} {learned : Prop} {as : List Arrival} {a : Arrival}
  {t : TrackStats}

theorem holds_start : Holds tr groupLoss learned [] { groupLoss := groupLoss } where
  minimal := rfl
  mode := rfl
  views := Views.start groupLoss
  keyFloor := .inl rfl
  streams := by
    intro _
    have hnone : ∀ g, tr.noted [] g = ∅ := fun g =>
      tr.noted_of_none fun b hb => absurd hb List.not_mem_nil
    simp [SentTrack.outstanding, hnone]
  groups := by
    intro _
    refine ⟨⟨fun _ => 0, ?_⟩, ?_⟩
    · have hnone : ∀ g, tr.notedCount [] g = 0 := fun g => by
        rw [SentTrack.notedCount, tr.noted_of_none (by simp), Finset.card_empty]
      constructor
      case rx => exact fun g => (if_neg (Finset.notMem_empty g)).symm
      case short => exact fun g v hv => absurd hv.symm (Option.some_ne_none v)
      case kept => exact fun g hg => absurd hg (Finset.notMem_empty g)
      case off => exact fun _ _ => rfl
      case gap => exact fun g _ => by rw [hnone]; rfl
      case floor =>
        intro g
        constructor
        · intro hle
          have hle : (g : Int) ≤ -1 := hle
          omega
        · rintro ⟨c, hc, -⟩
          exact absurd hc (Finset.notMem_empty c)
      case first => exact rfl
      case joined => exact fun _ _ => rfl
      case apart => exact fun g hg => absurd hg (Finset.notMem_empty g)
      case below => exact fun g hg => absurd hg (Finset.notMem_empty g)
      case near => exact fun g hg => absurd hg (Finset.notMem_empty g)
      case known =>
        exact ⟨fun g hg => absurd hg (Finset.notMem_empty g),
          fun g hg => absurd hg (Finset.notMem_empty g)⟩
      case bunched => exact Bunched.nil
      case account =>
        intro g _
        rw [hnone]
        exact ⟨Nat.zero_le _, fun _ hg => absurd hg (Finset.notMem_empty g)⟩
      case lost => simp [hnone]
    · exact ⟨fun w hw => by rw [← hw]; rfl, fun b hb => absurd hb List.not_mem_nil, Nat.zero_le _⟩

/-- As many are noted in the group of an arrival as there were, changed by what it changes. -/
theorem notedCount_concat (h : (as ++ [a]).Nodup) (hsize : a.2 < tr.size) :
    (tr.notedCount (as ++ [a]) a.1 : Int) =
      tr.notedCount as a.1 + TrackStats.change (tr.gap as (tr.key a)) a.2 := by
  have hcard := tr.card_noted_concat h hsize
  unfold SentTrack.notedCount TrackStats.change
  split_ifs at hcard ⊢ <;> omega

/-- What a group has recorded, noted and arrived after an object of it, where the record was short
of what it passes over. -/
theorem Lateness.account {sh : Nat → Nat} (h : Lateness tr learned as a t sh)
    (harrives : Arrives tr as a) (huncounted : tr.Uncounted as a t) :
    sh a.1 + tr.notedCount (as ++ [a]) a.1 + arrived (as ++ [a]) a.1 ≤ tr.size ∧
      (learned → (window as).first ≠ some a.1 →
        sh a.1 + tr.notedCount (as ++ [a]) a.1 + arrived (as ++ [a]) a.1 = tr.size) := by
  obtain ⟨short, hget, hsh, hle, heq⟩ := h
  have hlast := harrives.members a (List.mem_append_right _ (List.mem_singleton_self a))
  have hcard := tr.card_noted_concat harrives.nodup hlast.2
  have hroom := tr.noted_add_arrived harrives.nodup (fun b hb => (harrives.members b hb).2) a.1
  have htracks := tr.tracks (List.nodup_append.mp harrives.nodup).1 (tr.key a)
  have hcovered := huncounted short hget
  unfold SentTrack.notedCount SentTrack.passed at *
  rw [arrived_own] at hroom ⊢
  by_cases hmissing : a.2 ∈ (tr.gap as (tr.key a)).missing
  · -- it was noted, and now it has arrived
    rw [htracks.passed_of_missing hmissing, if_pos hmissing, List.length_nil] at hcard
    rw [if_pos hmissing] at hsh
    refine ⟨by omega, fun hl hf => ?_⟩
    have := heq hl hf
    omega
  · rw [if_neg hmissing] at hcard hsh
    have hpassed : short + (tr.noted as a.1).card +
        ((tr.gap as (tr.key a)).passed a.2).length + arrived as a.1 ≤ tr.size := by
      by_cases hnil : (tr.gap as (tr.key a)).passed a.2 = []
      · rw [hnil, List.length_nil, Nat.add_zero]
        exact hle
      · exact hcovered hnil
    refine ⟨by omega, fun hl hf => ?_⟩
    have := heq hl hf
    omega

/-- **A call keeps the invariant.** -/
theorem Holds.onObject {call : ObjectCall} (h : Holds tr groupLoss learned as t)
    (hcarries : tr.Carries call) (harrives : Arrives tr as call.arrival)
    (hwhole : tr.WholeStride as call.arrival)
    (huncounted : groupLoss = true → tr.Uncounted as call.arrival t)
    (hlearned : learned → (∃ x ∈ (window (as ++ [call.arrival])).settled,
      (window (as ++ [call.arrival])).first ≠ some x) →
        ∃ b ∈ as ++ [call.arrival], b.2 + 1 = tr.size) :
    Holds tr groupLoss learned (as ++ [call.arrival]) (t.onObject call) := by
  generalize ha : call.arrival = a at harrives hwhole huncounted hlearned
  obtain ⟨t₁, hprepared, heq⟩ := onObject_eq hcarries h.minimal
  rw [ha] at hprepared heq
  have hmem := harrives.members a (List.mem_append_right _ (List.mem_singleton_self a))
  have hviews₁ := hprepared.views h.views
  have hfloor₁ : t₁.keyFloor ≤ a.1 := by
    rcases hprepared.keyFloor with hsame | hraised
    · rw [hsame]
      rcases h.keyFloor with hnone | ⟨b, hb, hle⟩
      · omega
      · have := harrives.slack b hb
        omega
    · omega
  have hloss₁ : t₁.groupLoss = groupLoss := hprepared.groups.groupLoss.trans h.mode
  -- counted for its group
  have hgroup : ∃ t₂, t₁.countGroup a.1 a.2 (tr.subgroup a.2) = t₂ ∧ t₁.SameKeys t₂ ∧
      (groupLoss = false → t₂.totalLost = t₁.totalLost) ∧
      (groupLoss = true → Counted tr learned as a t₁ t₂) := by
    refine ⟨_, rfl, ?_⟩
    cases groupLoss with
    | false =>
        have hnone : t₁.countGroup a.1 a.2 (tr.subgroup a.2) = t₁ := by
          unfold TrackStats.countGroup
          rw [hloss₁]
          rfl
        rw [hnone]
        exact ⟨TrackStats.SameKeys.rfl, fun _ => rfl, nofun⟩
    | true =>
        have hrest := (h.groups rfl).congr hprepared.groups hprepared.totalLost hprepared.grpGap
        have hcounted := hrest.counted hviews₁ hfloor₁ harrives hloss₁ hlearned
        exact ⟨hcounted.keys, nofun, fun _ => hcounted⟩
  obtain ⟨t₂, heq₂, hkeys, hlost₂, hcounted⟩ := hgroup
  rw [heq₂] at heq
  -- and in its stream
  obtain ⟨hviews, hgroups, hfloor, hlost, hothers, hgap⟩ := (hviews₁.congr hkeys).checkStream
    (hkeys.keyFloor ▸ hfloor₁) harrives.nodup hmem.2 hmem.1 hwhole harrives.cap
  rw [← heq] at hviews hgroups hfloor hlost hothers hgap
  have hnoted := notedCount_concat harrives.nodup hmem.2
  constructor
  case minimal =>
    exact (hgroups.minimal.trans hkeys.minimal).trans (hprepared.groups.minimal.trans h.minimal)
  case mode => exact (hgroups.groupLoss.trans hkeys.groupLoss).trans hloss₁
  case views => exact hviews
  case keyFloor =>
    rw [hfloor, hkeys.keyFloor]
    rcases hprepared.keyFloor with hsame | hraised
    · rw [hsame]
      exact h.keyFloor.imp id fun ⟨b, hb, hle⟩ => ⟨b, List.mem_append_left _ hb, hle⟩
    · exact .inr ⟨a, List.mem_append_right _ (List.mem_singleton_self a), by omega⟩
  case streams =>
    intro hoff
    have hcount := tr.outstanding_concat harrives.nodup hmem.2 hmem.1
    rw [hlost, hlost₂ hoff, hprepared.totalLost, h.streams hoff, TrackStats.change]
    split_ifs at hcount ⊢ <;> omega
  case groups =>
    intro hon
    obtain ⟨-, ⟨sh, hbooks, hlate⟩, hfields⟩ := hcounted hon
    refine ⟨⟨sh, ?_⟩, ⟨hgroups.grpMax ▸ hfields.newest, hgroups.grpSize ▸ hfields.learnt,
      hgroups.grpSize ▸ hfields.size⟩⟩
    refine hbooks.renote rfl hmem.1 hgroups ?_ hothers ?_ (by rw [hlost, hnoted]; omega) ?_
    · intro x hx
      unfold SentTrack.notedCount
      rw [tr.noted_concat_other as (Ne.symm hx)]
    · intro hunsettled
      have hold := hbooks.gap a.1 hunsettled
      have hloss₂ : t₂.groupLoss = true := (hkeys.groupLoss.trans hloss₁).trans hon
      have hsome : 0 ≤ TrackStats.change (tr.gap as (tr.key a)) a.2 ∨
          t₂.grpGap.get? a.1 ≠ none := by
        by_cases hnonneg : 0 ≤ TrackStats.change (tr.gap as (tr.key a)) a.2
        · exact .inl hnonneg
        · right
          intro hnone
          rw [hnone] at hold
          have hzero : (0 : Int) = tr.notedCount as a.1 := hold
          omega
      rw [hgap hloss₂ hsome, hold, hnoted]
    · by_cases hsettled : a.1 ∈ (window (as ++ [a])).settled
      · obtain ⟨hfirst, hlateness⟩ := hlate hsettled
        have huncounted₁ : tr.Uncounted as a t₁ := by
          unfold SentTrack.Uncounted
          rw [hprepared.groups.grpShort]
          exact huncounted hon
        obtain ⟨hle, hall⟩ := hlateness.account harrives huncounted₁
        exact ⟨hle, fun hl _ hne => hall hl (hfirst ▸ hne)⟩
      · rw [hbooks.off a.1 hsettled, Nat.zero_add]
        exact ⟨tr.noted_add_arrived harrives.nodup (fun b hb => (harrives.members b hb).2) a.1,
          fun _ hmem => absurd hmem hsettled⟩

/-! ## A run -/

theorem SentTrack.Orders.of_prefix {before : List Arrival} (h : tr.Orders as)
    (hinit : before <+: as) : tr.Orders before where
  nodup := h.nodup.sublist hinit.sublist
  members := fun a ha => h.members a (hinit.subset ha)
  slack := h.slack.sublist hinit.sublist
  cap := fun before' hinit' => h.cap before' (hinit'.trans hinit)

theorem SentTrack.Orders.arrives (h : tr.Orders (as ++ [a])) : Arrives tr as a where
  __ := h
  slack := fun b hb =>
    (List.pairwise_append.mp h.slack).2.2 b hb a (List.mem_singleton_self a)
  cap := h.cap _ (List.prefix_refl _)

theorem SentTrack.Accountable.of_prefix {calls before : List ObjectCall}
    (h : tr.Accountable groupLoss calls) (hinit : before <+: calls) :
    tr.Accountable groupLoss before where
  carries := fun call hcall => h.carries call (hinit.subset hcall)
  orders := h.orders.of_prefix (hinit.map _)
  whole := fun before' call hinit' => h.whole before' call (hinit'.trans hinit)
  uncounted := fun hon before' call hinit' =>
    h.uncounted hon before' call (hinit'.trans hinit)

theorem run_concat (groupLoss : Bool) (calls : List ObjectCall) (call : ObjectCall) :
    TrackStats.run groupLoss (calls ++ [call]) =
      (TrackStats.run groupLoss calls).onObject call := List.foldl_concat _ _ _ _

theorem holds_run {calls : List ObjectCall} (h : tr.Accountable groupLoss calls)
    (hlearned : learned → tr.SizeLearned (calls.map ObjectCall.arrival)) :
    Holds tr groupLoss learned (calls.map ObjectCall.arrival) (TrackStats.run groupLoss calls) := by
  induction calls using List.reverseRecOn with
  | nil => exact holds_start
  | append_singleton calls call ih =>
      have hinit : calls <+: calls ++ [call] := List.prefix_append _ _
      have hmap : (calls ++ [call]).map ObjectCall.arrival =
          calls.map ObjectCall.arrival ++ [call.arrival] := List.map_append
      have horders := h.orders
      rw [hmap] at horders hlearned ⊢
      have hold := ih (h.of_prefix hinit) fun hl before hbefore =>
        hlearned hl before (hbefore.trans (List.prefix_append _ _))
      rw [run_concat]
      exact hold.onObject (h.carries call (List.mem_append_right _ (List.mem_singleton_self call)))
        horders.arrives (h.whole calls call (List.prefix_refl _))
        (fun hon => h.uncounted hon calls call (List.prefix_refl _))
        fun hl => hlearned hl _ (List.prefix_refl _)

/-! ## Runs that are checked -/

theorem SentTrack.carries_callOf (tr : SentTrack) (a : Arrival) :
    tr.Carries (tr.callOf a) ∧ (tr.callOf a).arrival = a := by
  refine ⟨⟨rfl, rfl, rfl, ?_⟩, rfl⟩
  unfold ObjectCall.sg ObjectCall.hasSg callOf
  cases hsubgroup : tr.subgroup a.2 <;> simp [hsubgroup, ObjectCall.arrival, ObjectCall.oid]

theorem SentTrack.map_arrival (tr : SentTrack) (as : List Arrival) :
    (as.map tr.callOf).map ObjectCall.arrival = as := by
  rw [List.map_map]
  exact List.map_id'' (fun a => (tr.carries_callOf a).2) as

/-- No more are out than there are objects. -/
theorem SentTrack.outstanding_le (tr : SentTrack) (as : List Arrival) :
    tr.outstanding as ≤ tr.groupCount * tr.size := by
  have hcard : ∀ g ∈ tr.groups, (tr.noted as g).card ≤ tr.size := by
    intro g _
    exact (Finset.card_filter_le _ _).trans (Finset.card_range tr.size).le
  have hsum := Finset.sum_le_card_nsmul tr.groups _ tr.size hcard
  rwa [groups, Nat.card_Ico, Nat.add_sub_cancel_left, smul_eq_mul] at hsum

/-- In a small track there are never too many out. -/
theorem SentTrack.orders_of_small (hsmall : tr.groupCount * tr.size ≤ missingCap)
    (hnodup : as.Nodup) (hmembers : ∀ a ∈ as, a.1 ∈ tr.groups ∧ a.2 < tr.size)
    (hslack : as.Pairwise fun b a => b.1 ≤ a.1 + keyReorderSlack) : tr.Orders as where
  nodup := hnodup
  members := hmembers
  slack := hslack
  cap := fun before _ => (tr.outstanding_le before).trans hsmall

theorem SentTrack.Orders.accountable (h : tr.Orders as)
    (hchecked : ∀ i : Fin as.length, tr.WholeStride (as.take i) (as.get i) ∧
      tr.Uncounted (as.take i) (as.get i)
        (TrackStats.run groupLoss ((as.take i).map tr.callOf))) :
    tr.Accountable groupLoss (as.map tr.callOf) := by
  have hstep : ∀ before call, before ++ [call] <+: as.map tr.callOf →
      tr.WholeStride (before.map ObjectCall.arrival) call.arrival ∧
        tr.Uncounted (before.map ObjectCall.arrival) call.arrival
          (TrackStats.run groupLoss before) := by
    rintro before call ⟨rest, hrest⟩
    rw [List.append_assoc, eq_comm, List.map_eq_append_iff] at hrest
    obtain ⟨as₁, as₂, rfl, rfl, hlast⟩ := hrest
    obtain ⟨a, as₃, rfl, rfl, -⟩ := List.map_eq_cons_iff.mp hlast
    have hcheck := hchecked ⟨as₁.length, by simp⟩
    rw [tr.map_arrival, (tr.carries_callOf a).2]
    simpa using hcheck
  constructor
  case carries =>
    intro call hcall
    obtain ⟨a, -, rfl⟩ := List.mem_map.mp hcall
    exact (tr.carries_callOf a).1
  case orders =>
    rw [tr.map_arrival]
    exact h
  case whole => exact fun before call hinit => (hstep before call hinit).1
  case uncounted => exact fun _ before call hinit => (hstep before call hinit).2

/-! ## What is reported -/

theorem Holds.nonneg (h : Holds tr groupLoss learned as t) : 0 ≤ t.totalLost := by
  cases groupLoss with
  | false =>
      rw [h.streams rfl]
      exact Int.natCast_nonneg _
  | true =>
      obtain ⟨sh, hbooks⟩ := (h.groups rfl).books
      rw [hbooks.lost]
      exact Int.natCast_nonneg _

/-- All of a group that is complete arrived. -/
theorem SentTrack.Complete.arrived (h : tr.Complete as) (hnodup : as.Nodup) {g : Nat}
    (hg : g ∈ tr.groups) : tr.size ≤ arrived as g := by
  rw [← card_arrived hnodup g]
  have hsub : Finset.range tr.size ⊆
      ((as.filter fun a => a.1 = g).map Prod.snd).toFinset := by
    intro oid hoid
    rw [List.mem_toFinset, List.mem_map]
    exact ⟨(g, oid), List.mem_filter.mpr ⟨h g hg oid (Finset.mem_range.mp hoid),
      decide_eq_true rfl⟩, rfl⟩
  have hcard := Finset.card_le_card hsub
  rwa [Finset.card_range] at hcard

theorem Holds.complete (h : Holds tr groupLoss learned as t) (horders : tr.Orders as)
    (hcomplete : tr.Complete as) : t.totalLost = 0 := by
  have hroom : ∀ g ∈ tr.groups, tr.notedCount as g = 0 := by
    intro g hg
    have hall := hcomplete.arrived horders.nodup hg
    have hle := tr.noted_add_arrived horders.nodup (fun b hb => (horders.members b hb).2) g
    unfold SentTrack.notedCount
    omega
  cases groupLoss with
  | false =>
      rw [h.streams rfl]
      exact congrArg Nat.cast (Finset.sum_eq_zero hroom)
  | true =>
      obtain ⟨sh, hbooks⟩ := (h.groups rfl).books
      rw [hbooks.lost]
      refine congrArg Nat.cast (Finset.sum_eq_zero fun g hg => ?_)
      have hle : sh g + tr.notedCount as g + arrived as g ≤ tr.size :=
        (hbooks.account g (Option.some_ne_none g)).1
      have hall := hcomplete.arrived horders.nodup hg
      omega

theorem Holds.totalLost_eq (h : Holds tr true learned as t) (hlearned : learned) :
    t.totalLost = ((∑ g ∈ tr.groups, tr.lostOf as g : Nat) : Int) := by
  obtain ⟨sh, hbooks⟩ := (h.groups rfl).books
  rw [hbooks.lost]
  refine congrArg Nat.cast (Finset.sum_congr rfl fun g _ => ?_)
  unfold SentTrack.lostOf
  split_ifs with hsettled
  · have hall : sh g + tr.notedCount as g + arrived as g = tr.size :=
      (hbooks.account g (Option.some_ne_none g)).2 hlearned hsettled.1 hsettled.2
    omega
  · have hnone : sh g = 0 := by
      by_cases hmem : g ∈ (window as).settled
      · exact hbooks.joined g (not_not.mp fun hne => hsettled ⟨hmem, hne⟩)
      · exact hbooks.off g hmem
    rw [hnone, Nat.zero_add]
    rfl

end

/-- **Loss is accounted for.**  What is reported lost is never negative, and nothing once all
objects arrived; with the group accounting it is what the settled groups lack, apart from the
first, and what is passed over in the others. -/
theorem loss_accounted (tr : SentTrack) (groupLoss : Bool) (calls : List ObjectCall)
    (h : tr.Accountable groupLoss calls) :
    (∀ before, before <+: calls → 0 ≤ (TrackStats.run groupLoss before).totalLost) ∧
      (tr.Complete (calls.map ObjectCall.arrival) →
        (TrackStats.run groupLoss calls).totalLost = 0) ∧
      (groupLoss = true → tr.SizeLearned (calls.map ObjectCall.arrival) →
        (TrackStats.run groupLoss calls).totalLost =
          ((∑ g ∈ tr.groups, tr.lostOf (calls.map ObjectCall.arrival) g : Nat) : Int)) := by
  refine ⟨fun before hinit => ?_, fun hcomplete => ?_, fun hon hlearned => ?_⟩
  · exact (holds_run (h.of_prefix hinit) False.elim).nonneg
  · exact (holds_run h False.elim).complete h.orders hcomplete
  · subst hon
    exact (holds_run h fun _ => hlearned).totalLost_eq trivial

/-- Four groups of two datagrams, where one is lost of a group that is settled. -/
theorem loss_accounted_headless :
    let tr : SentTrack := { delivery := .datagrams, size := 2, firstGroup := 0, groupCount := 4 }
    let as : List Arrival := [(0, 0), (0, 1), (1, 1), (2, 0), (2, 1), (3, 1), (3, 0)]
    (∀ before, before <+: as.map tr.callOf → 0 ≤ (TrackStats.run true before).totalLost) ∧
      (TrackStats.run true (as.map tr.callOf)).totalLost = 1 := by
  intro tr as
  have horders : tr.Orders as :=
    SentTrack.orders_of_small (by decide) (by decide) (by decide) (by decide +kernel)
  have haccounted := loss_accounted tr true (as.map tr.callOf)
    (horders.accountable (by decide +kernel))
  rw [tr.map_arrival] at haccounted
  have hlearned : tr.SizeLearned as := by decide +kernel
  have hone : ∑ g ∈ tr.groups, tr.lostOf as g = 1 := by decide +kernel
  refine ⟨haccounted.1, ?_⟩
  rw [haccounted.2.2 rfl hlearned, hone]
  rfl

/-- A gap in the first group is loss, which no other group is settled with.  A jump of part of a
stride notes one id more than it counts lost, and a gap in a settled group is counted on top of
what the group falls short: then the loss is not zero when all objects arrived. -/
theorem loss_unaccounted :
    (let tr : SentTrack := { delivery := .datagrams, size := 4, firstGroup := 0, groupCount := 3 }
      let as : List Arrival := [(0, 0), (0, 1), (0, 3), (1, 0), (1, 1), (1, 2), (1, 3), (2, 0),
        (2, 1), (2, 2), (2, 3)]
      tr.Orders as ∧ (TrackStats.run true (as.map tr.callOf)).totalLost = 1 ∧
        ∀ g ∈ (window as).settled, (window as).first = some g) ∧
    (let tr : SentTrack := { delivery := .datagrams, size := 6, firstGroup := 0, groupCount := 1 }
      let as : List Arrival := [(0, 0), (0, 2), (0, 5), (0, 4), (0, 1), (0, 3)]
      tr.Orders as ∧ tr.Complete as ∧ (TrackStats.run false (as.map tr.callOf)).totalLost = -1) ∧
    (let tr : SentTrack := { delivery := .datagrams, size := 4, firstGroup := 0, groupCount := 4 }
      let as : List Arrival := [(0, 0), (0, 1), (0, 2), (0, 3), (1, 0), (1, 1), (2, 0), (2, 1),
        (2, 2), (2, 3), (3, 0), (3, 1), (3, 2), (3, 3), (1, 3), (1, 2)]
      tr.Orders as ∧ tr.Complete as ∧
        (TrackStats.run true (as.map tr.callOf)).totalLost = 1) := by
  refine ⟨⟨?_, ?_, ?_⟩, ⟨?_, ?_, ?_⟩, ⟨?_, ?_, ?_⟩⟩
  · exact SentTrack.orders_of_small (by decide) (by decide) (by decide) (by decide +kernel)
  · decide +kernel
  · decide +kernel
  · exact SentTrack.orders_of_small (by decide) (by decide) (by decide) (by decide +kernel)
  · decide +kernel
  · decide +kernel
  · exact SentTrack.orders_of_small (by decide) (by decide) (by decide) (by decide +kernel)
  · decide +kernel
  · decide +kernel

end AioMoqt.Stats
