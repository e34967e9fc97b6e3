import AioMoqt.Stats.Proofs.GroupCounts

/-!
# Loss over a run

Arrivals of a track in any order that stays within the bounds on memory: the loss is what the
settled groups fall short and what is noted of all of them.
-/

namespace AioMoqt.Stats

open AioMoqt.Lib AioMoqt.Lib.Strided

/-! ## The window of a run -/

/-- What the window says of the arrivals. -/
structure WindowOf (as : List Arrival) (w : GroupWindow) : Prop where
  start : w.first = none → as = [] ∧ w = {}
  seen : ∀ a ∈ as, ∃ first, w.first = some first ∧ w.Passes first a.1
  newest : ∀ a ∈ as, a.1 ≤ w.newest
  last : as ≠ [] → ∃ b ∈ as, b.1 = w.newest
  first : ∀ first, w.first = some first → ∃ b ∈ as, b.1 = first
  opened : ∀ g ∈ w.opened, g ≤ w.newest
  settled : ∀ g ∈ w.settled, g ≤ w.newest

/-- A group that has no part in the window has none later. -/
theorem GroupWindow.Passes.step {w : GroupWindow} {first g : Nat} (h : w.Passes first g)
    (hfirst : w.first = some first) (x : Nat) :
    (w.step x).first = some first ∧ (w.step x).Passes first g := by
  unfold GroupWindow.step
  rw [hfirst]
  dsimp only
  split_ifs
  · exact ⟨hfirst, h⟩
  · refine ⟨rfl, ?_⟩
    rcases h with h | h | h | h
    · exact .inl h
    · exact .inr (.inl (Finset.mem_insert_of_mem h))
    · exact .inr (.inr (.inl h))
    · exact .inr (.inr (.inr h))
  · refine ⟨rfl, ?_⟩
    rcases h with h | h | h | ⟨c, hc, hle⟩
    · exact .inl h
    · by_cases hclosing : g ∈ w.closing x
      · exact .inr (.inr (.inl (GroupWindow.mem_settled.mpr
          (.inl (Finset.mem_union_right _ hclosing)))))
      · exact .inr (.inl (Finset.mem_insert_of_mem (Finset.mem_sdiff.mpr ⟨h, hclosing⟩)))
    · refine .inr (.inr (.inl (GroupWindow.mem_settled.mpr ?_)))
      exact (GroupWindow.mem_settled.mp h).imp (Finset.mem_union_left _) (Finset.mem_union_left _)
    · exact .inr (.inr (.inr ⟨c, Finset.mem_union_left _ hc, hle⟩))

theorem WindowOf.first_le {as : List Arrival} {w : GroupWindow} (h : WindowOf as w) {first : Nat}
    (hfirst : w.first = some first) : first ≤ w.newest := by
  obtain ⟨b, hb, rfl⟩ := h.first first hfirst
  exact h.newest b hb

theorem WindowOf.le_of_passes {as : List Arrival} {w : GroupWindow} (h : WindowOf as w)
    {first g : Nat} (hfirst : w.first = some first) (hpasses : w.Passes first g) : g ≤ w.newest := by
  rcases hpasses with hlt | hopened | hsettled | ⟨c, hc, hle⟩
  · exact hlt.le.trans (h.first_le hfirst)
  · exact h.opened g hopened
  · exact h.settled g hsettled
  · exact hle.trans (h.settled c (GroupWindow.mem_settled.mpr (.inl hc)))

/-- A window that an arrival changes. -/
theorem GroupWindow.step_opens {w : GroupWindow} {first g : Nat} (hfirst : w.first = some first)
    (h : ¬ w.Passes first g) : w.step g =
      if g ≤ w.newest then { w with opened := insert g w.opened }
      else
        { w with
          newest := g
          opened := insert g (w.opened \ w.closing g)
          closed := w.closed ∪ w.closing g
          skipped := w.skipped ∪ w.skips g } := by
  unfold step
  rw [hfirst]
  exact if_neg h

theorem WindowOf.step {as : List Arrival} {w : GroupWindow} (h : WindowOf as w) {first : Nat}
    (hfirst : w.first = some first) (a : Arrival) : WindowOf (as ++ [a]) (w.step a.1) := by
  have hlast : a ∈ as ++ [a] := List.mem_append_right _ (List.mem_singleton_self a)
  have hseen : ∀ b ∈ as, (w.step a.1).first = some first ∧ (w.step a.1).Passes first b.1 := by
    intro b hb
    obtain ⟨f, hf, hpasses⟩ := h.seen b hb
    rw [hfirst] at hf
    cases hf
    exact hpasses.step hfirst a.1
  obtain ⟨b₀, hb₀, -⟩ := h.first first hfirst
  have hfirst' := (hseen b₀ hb₀).1
  obtain ⟨b, hb, hnewest⟩ := h.last (List.ne_nil_of_mem hb₀)
  have hstep : (w.step a.1).Passes first a.1 ∧ (w.step a.1).newest = max w.newest a.1 ∧
      (∀ g ∈ (w.step a.1).opened, g ≤ max w.newest a.1) ∧
      ∀ g ∈ (w.step a.1).settled, g ≤ max w.newest a.1 := by
    by_cases hpasses : w.Passes first a.1
    · have hmax := max_eq_left (h.le_of_passes hfirst hpasses)
      rw [GroupWindow.step_passes hfirst hpasses, hmax]
      exact ⟨hpasses, rfl, h.opened, h.settled⟩
    · rw [GroupWindow.step_opens hfirst hpasses]
      split_ifs with hle
      · rw [max_eq_left hle]
        refine ⟨.inr (.inl (Finset.mem_insert_self _ _)), rfl, fun g hg => ?_, h.settled⟩
        rcases Finset.mem_insert.mp hg with rfl | hg
        · exact hle
        · exact h.opened g hg
      · rw [max_eq_right (not_le.mp hle).le]
        refine ⟨.inr (.inl (Finset.mem_insert_self _ _)), rfl, fun g hg => ?_, fun g hg => ?_⟩
        · rcases Finset.mem_insert.mp hg with rfl | hg
          · exact le_rfl
          · exact (h.opened g (Finset.mem_sdiff.mp hg).1).trans (not_le.mp hle).le
        · rcases GroupWindow.mem_settled.mp hg with hg | hg
          · rcases Finset.mem_union.mp hg with hg | hg
            · exact (h.settled g (GroupWindow.mem_settled.mpr (.inl hg))).trans (not_le.mp hle).le
            · exact (h.opened g (Finset.mem_filter.mp hg).1).trans (not_le.mp hle).le
          · rcases Finset.mem_union.mp hg with hg | hg
            · exact (h.settled g (GroupWindow.mem_settled.mpr (.inr hg))).trans (not_le.mp hle).le
            · unfold GroupWindow.skips at hg
              split_ifs at hg
              · exact (Finset.mem_Ioo.mp hg).2.le
              · exact absurd hg (Finset.notMem_empty g)
  obtain ⟨hpasses, hmax, hopened, hsettled⟩ := hstep
  constructor
  case start =>
    intro hnone
    rw [hfirst'] at hnone
    cases hnone
  case seen =>
    intro c hc
    rcases List.mem_append.mp hc with hc | hc
    · exact ⟨first, hseen c hc⟩
    · obtain rfl := List.mem_singleton.mp hc
      exact ⟨first, hfirst', hpasses⟩
  case newest =>
    intro c hc
    rw [hmax]
    rcases List.mem_append.mp hc with hc | hc
    · exact (h.newest c hc).trans (le_max_left _ _)
    · obtain rfl := List.mem_singleton.mp hc
      exact le_max_right _ _
  case last =>
    intro _
    rw [hmax]
    rcases le_total a.1 w.newest with hle | hle
    · exact ⟨b, List.mem_append_left _ hb, hnewest.trans (max_eq_left hle).symm⟩
    · exact ⟨a, hlast, (max_eq_right hle).symm⟩
  case first =>
    intro f hf
    obtain ⟨c, hc, heq⟩ := h.first f (hfirst.trans (hfirst'.symm.trans hf))
    exact ⟨c, List.mem_append_left _ hc, heq⟩
  case opened => exact fun g hg => hmax ▸ hopened g hg
  case settled => exact fun g hg => hmax ▸ hsettled g hg

theorem windowOf (as : List Arrival) : WindowOf as (window as) := by
  induction as using List.reverseRecOn with
  | nil =>
      exact ⟨fun _ => ⟨rfl, rfl⟩, fun a ha => absurd ha List.not_mem_nil,
        fun a ha => absurd ha List.not_mem_nil, fun hne => absurd rfl hne, nofun,
        fun g hg => absurd hg (Finset.notMem_empty g), fun g hg => absurd hg (Finset.notMem_empty g)⟩
  | append_singleton as a ih =>
      rw [window_concat]
      cases hfirst : (window as).first with
      | some first => exact ih.step hfirst a
      | none =>
          obtain ⟨rfl, hempty⟩ := ih.start hfirst
          rw [hempty]
          have hstep : GroupWindow.step {} a.1 =
              { first := some a.1, newest := a.1, opened := {a.1} } := rfl
          have hmem : a ∈ ([] ++ [a] : List Arrival) := List.mem_singleton_self a
          have hall : ∀ b ∈ ([] ++ [a] : List Arrival), b = a := fun b hb => List.mem_singleton.mp hb
          rw [hstep]
          constructor
          case start => exact nofun
          case seen =>
            intro b hb
            rw [hall b hb]
            exact ⟨a.1, rfl, .inr (.inl (Finset.mem_singleton_self _))⟩
          case newest => exact fun b hb => by rw [hall b hb]
          case last => exact fun _ => ⟨a, hmem, rfl⟩
          case first => exact fun first h => ⟨a, hmem, Option.some.inj h⟩
          case opened => exact fun g hg => (Finset.mem_singleton.mp hg).le
          case settled => exact fun g hg => absurd hg (Finset.notMem_empty g)

/-! ## An object is counted for its group -/

/-- How many ids are noted in a group. -/
def SentTrack.notedCount (tr : SentTrack) (as : List Arrival) (g : Nat) : Nat :=
  (tr.noted as g).card

/-- The books of a track between arrivals, or while one is counted for a group. -/
def SentTrack.ledger (tr : SentTrack) (learned : Prop) (current : Option Nat) (newest : Nat) :
    Ledger :=
  ⟨tr.groups, tr.size, learned, current, newest, newest⟩

/-- The newest group of the statistics is that of the window, and the learned size that of the
arrivals. -/
structure Fields (tr : SentTrack) (as : List Arrival) (t : TrackStats) : Prop where
  newest : ∀ w, window as = w → t.grpMax = match w.first with
    | none => -1
    | some _ => (w.newest : Int)
  learnt : ∀ a ∈ as, a.2 < t.grpSize
  size : t.grpSize ≤ tr.size

/-- The group accounting between arrivals. -/
structure GroupRest (tr : SentTrack) (learned : Prop) (as : List Arrival) (t : TrackStats) :
    Prop where
  books : ∃ sh, Books (tr.ledger learned none (window as).newest) (arrived as) (tr.notedCount as) sh
    (window as) t
  fields : Fields tr as t

/-- An arrival within the bounds. -/
structure Arrives (tr : SentTrack) (as : List Arrival) (a : Arrival) : Prop where
  nodup : (as ++ [a]).Nodup
  members : ∀ b ∈ as ++ [a], b.1 ∈ tr.groups ∧ b.2 < tr.size
  slack : ∀ b ∈ as, b.1 ≤ a.1 + keyReorderSlack
  cap : tr.outstanding (as ++ [a]) ≤ missingCap

/-- By how much the group of an arrival falls short, before and after it is counted. -/
def Lateness (tr : SentTrack) (learned : Prop) (as : List Arrival) (a : Arrival) (t : TrackStats)
    (sh : Nat → Nat) : Prop :=
  ∃ v, t.grpShort.get? a.1 = some v ∧
    sh a.1 = (if a.2 ∈ (tr.gap as (tr.key a)).missing then v else v - 1) ∧
    v + tr.notedCount as a.1 + arrived as a.1 ≤ tr.size ∧
    (learned → (window as).first ≠ some a.1 →
      v + tr.notedCount as a.1 + arrived as a.1 = tr.size)

/-- An arrival that is counted for its group, and not yet in its stream. -/
structure Counted (tr : SentTrack) (learned : Prop) (as : List Arrival) (a : Arrival)
    (t t' : TrackStats) : Prop where
  keys : t.SameKeys t'
  books : ∃ sh, Books (tr.ledger learned (some a.1) (window (as ++ [a])).newest)
      (arrived (as ++ [a])) (tr.notedCount as) sh (window (as ++ [a])) t' ∧
    (a.1 ∈ (window (as ++ [a])).settled →
      (window (as ++ [a])).first = (window as).first ∧ Lateness tr learned as a t sh)
  fields : Fields tr (as ++ [a]) t'

section

variable {tr : SentTrack} {learned : Prop} {as : List Arrival} {a : Arrival} {t : TrackStats}

/-- The learned size takes an object in. -/
theorem grow_eq (t : TrackStats) (oid : Nat) :
    (if t.grpSize ≤ oid then { t with grpSize := oid + 1 } else t) =
      { t with grpSize := max t.grpSize (oid + 1) } := by
  split_ifs with hle
  · rw [max_eq_right (hle.trans (Nat.le_succ oid))]
  · rw [max_eq_left (show oid + 1 ≤ t.grpSize by omega)]

theorem arrived_others (as : List Arrival) (a : Arrival) (x : Nat) (hx : x ≠ a.1) :
    arrived (as ++ [a]) x = arrived as x := by
  rw [arrived_concat, if_neg (Ne.symm hx), Nat.add_zero]

theorem arrived_own (as : List Arrival) (a : Arrival) :
    arrived (as ++ [a]) a.1 = arrived as a.1 + 1 := by
  rw [arrived_concat, if_pos rfl]

/-- The fields where the learned size takes the object in and the newest group is the window's. -/
theorem Fields.grow (h : Fields tr as t) (harrives : Arrives tr as a) {t' : TrackStats}
    (hsize : t'.grpSize = max t.grpSize (a.2 + 1))
    (hmax : ∀ w, window (as ++ [a]) = w → t'.grpMax = match w.first with
      | none => -1
      | some _ => (w.newest : Int)) : Fields tr (as ++ [a]) t' where
  newest := hmax
  learnt := by
    intro b hb
    rw [hsize]
    rcases List.mem_append.mp hb with hb | hb
    · exact (h.learnt b hb).trans_le (le_max_left _ _)
    · obtain rfl := List.mem_singleton.mp hb
      exact Nat.lt_of_succ_le (le_max_right _ _)
  size := by
    rw [hsize]
    have hlt := (harrives.members a (List.mem_append_right _ (List.mem_singleton_self a))).2
    exact max_le h.size hlt

/-- The window has no part for the arrival, and the newest group of the statistics stays. -/
theorem Fields.passes (h : Fields tr as t) (harrives : Arrives tr as a) {t' : TrackStats}
    (hsize : t'.grpSize = max t.grpSize (a.2 + 1)) (hmax : t'.grpMax = t.grpMax)
    (hwindow : window (as ++ [a]) = window as) : Fields tr (as ++ [a]) t' :=
  h.grow harrives hsize fun w hw => hmax.trans (h.newest w (hwindow.symm.trans hw))

theorem countGroup_open (hloss : t.groupLoss = true) {n : Nat} (hget : t.grpRx.get? a.1 = some n)
    (sg : Option Nat) : t.countGroup a.1 a.2 sg = { t with
      grpSize := max t.grpSize (a.2 + 1)
      grpRx := t.grpRx.insert a.1 (n + 1) } := by
  unfold TrackStats.countGroup
  rw [if_pos hloss, hget]
  dsimp only
  split_ifs with hlt
  · rw [max_eq_left (show a.2 + 1 ≤ t.grpSize from hlt)]
  · unfold TrackStats.groupObject
    rw [grow_eq]
    dsimp only
    rw [hget]

/-- Another object of a group that is open. -/
theorem GroupRest.counted_open (h : GroupRest tr learned as t) (harrives : Arrives tr as a)
    (hloss : t.groupLoss = true) (hopened : a.1 ∈ (window as).opened) :
    Counted tr learned as a t (t.countGroup a.1 a.2 (tr.subgroup a.2)) := by
  obtain ⟨sh, hbooks⟩ := h.books
  have hwin := windowOf as
  cases hfirst : (window as).first with
  | none =>
      rw [(hwin.start hfirst).2] at hopened
      exact absurd hopened (Finset.notMem_empty _)
  | some first =>
      have hwindow : window (as ++ [a]) = window as := by
        rw [window_concat]
        exact GroupWindow.step_passes hfirst (.inr (.inl hopened))
      rw [countGroup_open hloss ((hbooks.rx a.1).trans (if_pos hopened))]
      refine ⟨by constructor <;> exact .refl _, ⟨sh, ?_, ?_⟩,
        h.fields.passes harrives rfl rfl hwindow⟩
      · rw [hwindow, ← arrived_own]
        exact (hbooks.bump rfl hopened (arrived_others as a)).size_max _ t.grpMax
      · rw [hwindow]
        exact fun hsettled => absurd hsettled (hbooks.apart _ hopened)

theorem countGroup_unopened (hloss : t.groupLoss = true) (hget : t.grpRx.get? a.1 = none)
    (sg : Option Nat) : t.countGroup a.1 a.2 sg = t.groupObject a.1 a.2 sg := by
  unfold TrackStats.countGroup
  rw [if_pos hloss, hget]

/-- A late object of a settled group. -/
theorem GroupRest.counted_settled (h : GroupRest tr learned as t) (hviews : Views tr as t)
    (hfloor : t.keyFloor ≤ a.1) (harrives : Arrives tr as a) (hloss : t.groupLoss = true)
    (hsettled : a.1 ∈ (window as).settled) :
    Counted tr learned as a t (t.countGroup a.1 a.2 (tr.subgroup a.2)) := by
  obtain ⟨sh, hbooks⟩ := h.books
  have hwin := windowOf as
  cases hfirst : (window as).first with
  | none =>
      rw [(hwin.start hfirst).2] at hsettled
      exact absurd hsettled (Finset.notMem_empty _)
  | some first =>
      have hwindow : window (as ++ [a]) = window as := by
        rw [window_concat]
        exact GroupWindow.step_passes hfirst (.inr (.inr (.inl hsettled)))
      have hnot : a.1 ∉ (window as).opened := fun hopened => hbooks.apart _ hopened hsettled
      obtain ⟨b, hb, hnewest⟩ := hwin.last
        (List.ne_nil_of_mem (hwin.first first hfirst).choose_spec.1)
      have hrecord : a.1 ∈ t.grpShort.keys :=
        hbooks.kept a.1 hsettled (hnewest ▸ harrives.slack b hb)
      obtain ⟨v, hv⟩ := Option.ne_none_iff_exists'.mp (Dict.mem_keys.mp hrecord)
      have hsh : sh a.1 = v := (hbooks.short a.1 v hv).2
      have haccount := hbooks.account a.1 (Option.some_ne_none _)
      rw [hsh] at haccount
      have hmissing : (t.missing.get? (lossKey a.1 (tr.subgroup a.2))).getD ∅ =
          (tr.gap as (tr.key a)).missing :=
        hviews.missing (tr.key a) (by rw [tr.key_fst]; exact hfloor)
      have heq : t.countGroup a.1 a.2 (tr.subgroup a.2) =
          if 0 < v ∧ a.2 ∉ (tr.gap as (tr.key a)).missing then { t with
            grpSize := max t.grpSize (a.2 + 1)
            grpShort := t.grpShort.insert a.1 (v - 1)
            totalLost := t.totalLost - 1 }
          else { t with grpSize := max t.grpSize (a.2 + 1) } := by
        rw [countGroup_unopened hloss ((hbooks.rx a.1).trans (if_neg hnot))]
        unfold TrackStats.groupObject
        rw [grow_eq]
        dsimp only
        rw [(hbooks.rx a.1).trans (if_neg hnot), hv]
        dsimp only
        rw [hmissing]
        simp only [decide_eq_false_iff_not]
      have hfocus := hbooks.focus rfl hnot (arrived_others as a)
      rw [heq]
      split_ifs with hlate
      · refine ⟨by constructor <;> exact .refl _,
          ⟨Function.update sh a.1 (sh a.1 - 1), ?_, fun _ => ⟨by rw [hwindow], v, hv, ?_, haccount.1,
            fun hl hf => haccount.2 hl hsettled hf⟩⟩, h.fields.passes harrives rfl rfl hwindow⟩
        · rw [hwindow, ← hsh]
          exact (hfocus.late rfl hsettled hrecord (hsh ▸ hlate.1)).size_max _ t.grpMax
        · rw [Function.update_self, if_neg hlate.2, hsh]
      · refine ⟨by constructor <;> exact .refl _, ⟨sh, ?_, fun _ => ⟨by rw [hwindow], v, hv, ?_,
          haccount.1, fun hl hf => haccount.2 hl hsettled hf⟩⟩,
          h.fields.passes harrives rfl rfl hwindow⟩
        · rw [hwindow]
          exact hfocus.size_max _ t.grpMax
        · rw [hsh]
          split_ifs with hmem
          · rfl
          · have hzero : ¬ 0 < v := fun hpos => hlate ⟨hpos, hmem⟩
            omega

/-- A group that is too old to be opened. -/
theorem GroupRest.counted_ignored (h : GroupRest tr learned as t) (harrives : Arrives tr as a)
    {first : Nat} (hfirst : (window as).first = some first)
    (hnot : a.1 ∉ (window as).opened ∧ a.1 ∉ (window as).settled)
    (hold : a.1 < first ∨ ∃ c ∈ (window as).closed, a.1 ≤ c) :
    Counted tr learned as a t { t with grpSize := max t.grpSize (a.2 + 1) } := by
  obtain ⟨sh, hbooks⟩ := h.books
  have hwindow : window (as ++ [a]) = window as := by
    rw [window_concat]
    exact GroupWindow.step_passes hfirst (hold.imp id fun hc => .inr (.inr hc))
  refine ⟨by constructor <;> exact .refl _, ⟨sh, ?_, ?_⟩,
    h.fields.passes harrives rfl rfl hwindow⟩
  · rw [hwindow]
    exact (hbooks.focus rfl hnot.1 (arrived_others as a)).size_max _ t.grpMax
  · rw [hwindow]
    exact fun hsettled => absurd hsettled hnot.2

/-- A group that is behind the newest, but not too old to be opened. -/
theorem GroupRest.counted_late (h : GroupRest tr learned as t) (harrives : Arrives tr as a)
    {first : Nat} (hfirst : (window as).first = some first)
    (hpasses : ¬ (window as).Passes first a.1) (hle : a.1 ≤ (window as).newest)
    (hnone : arrived as a.1 = 0) :
    Counted tr learned as a t
      (TrackStats.openGroup { t with grpSize := max t.grpSize (a.2 + 1) } a.1) := by
  obtain ⟨sh, hbooks⟩ := h.books
  have hwin := windowOf as
  have hwindow : window (as ++ [a]) =
      { window as with opened := insert a.1 (window as).opened } := by
    rw [window_concat, GroupWindow.step_opens hfirst hpasses, if_pos hle]
  have hopened : a.1 ∉ (window as).opened := fun hmem => hpasses (.inr (.inl hmem))
  have hsettled : a.1 ∉ (window as).settled := fun hmem => hpasses (.inr (.inr (.inl hmem)))
  obtain ⟨b, hb, hnewest⟩ := hwin.last
    (List.ne_nil_of_mem (hwin.first first hfirst).choose_spec.1)
  have hslack : (window as).newest ≤ a.1 + keyReorderSlack := hnewest ▸ harrives.slack b hb
  have hgroup := (harrives.members a (List.mem_append_right _ (List.mem_singleton_self a))).1
  have hmax : t.grpMax = (window as).newest := by
    have := h.fields.newest (window as) rfl
    rw [hfirst] at this
    exact this
  have heq : TrackStats.openGroup { t with grpSize := max t.grpSize (a.2 + 1) } a.1 =
      { t with grpSize := max t.grpSize (a.2 + 1), grpRx := t.grpRx.insert a.1 1 } := by
    unfold TrackStats.openGroup
    dsimp only
    rw [if_neg (show ¬ t.grpMax < (a.1 : Int) by rw [hmax]; omega)]
  have hbooks' := ((hbooks.focus rfl hopened (arrived_others as a)).size_max
    (max t.grpSize (a.2 + 1)) t.grpMax).openGroup hsettled (.inr ⟨hle, hslack⟩) hslack hgroup
    (by rw [arrived_own, hnone])
  rw [heq]
  refine ⟨by constructor <;> exact .refl _, ⟨sh, ?_, ?_⟩, h.fields.grow harrives rfl ?_⟩
  · rw [hwindow]
    exact hbooks'
  · rw [hwindow]
    exact fun hmem => absurd hmem hsettled
  · rintro w rfl
    rw [hwindow]
    dsimp only
    rw [hfirst]
    exact hmax

/-- The first group of all. -/
theorem GroupRest.counted_first (h : GroupRest tr learned as t) (harrives : Arrives tr as a)
    (hfirst : (window as).first = none) :
    Counted tr learned as a t (TrackStats.openGroup
      { t with grpSize := max t.grpSize (a.2 + 1), grpFirst := some a.1 } a.1) := by
  obtain ⟨sh, hbooks⟩ := h.books
  obtain ⟨rfl, hempty⟩ := (windowOf as).start hfirst
  have hwindow : window ([] ++ [a]) = { first := some a.1, newest := a.1, opened := {a.1} } := rfl
  have hmax : t.grpMax = -1 := h.fields.newest (window []) rfl
  have hgroup := (harrives.members a (List.mem_append_right _ (List.mem_singleton_self a))).1
  have hfocus := (hbooks.focus (g := a.1) rfl (Finset.notMem_empty _)
    (arrived_others [] a)).size_max (max t.grpSize (a.2 + 1)) t.grpMax
  have hbooks' := hfocus.openFirst hmax hgroup (by rw [arrived_own]; rfl)
  obtain ⟨hsame, hsize, hgrpMax⟩ := TrackStats.openGroup_frame
    { t with grpSize := max t.grpSize (a.2 + 1), grpFirst := some a.1 } a.1
  refine ⟨TrackStats.SameKeys.trans (by constructor <;> exact .refl _) hsame, ⟨sh, ?_, ?_⟩,
    h.fields.grow harrives hsize ?_⟩
  · rw [hwindow]
    exact hbooks'
  · rw [hwindow]
    exact fun hmem => absurd hmem (Finset.notMem_empty _)
  · rintro w rfl
    rw [hwindow]
    dsimp only
    rw [hgrpMax]
    show max t.grpMax (a.1 : Int) = _
    rw [hmax]
    omega

/-- A group ahead of the others. -/
theorem GroupRest.counted_newest (h : GroupRest tr learned as t) (harrives : Arrives tr as a)
    {first : Nat} (hfirst : (window as).first = some first)
    (hpasses : ¬ (window as).Passes first a.1) (hnew : (window as).newest < a.1)
    (hlearned : learned → (∃ x ∈ (window (as ++ [a])).settled,
      (window (as ++ [a])).first ≠ some x) → ∃ b ∈ as ++ [a], b.2 + 1 = tr.size) :
    Counted tr learned as a t
      (TrackStats.openGroup { t with grpSize := max t.grpSize (a.2 + 1) } a.1) := by
  obtain ⟨sh, hbooks⟩ := h.books
  have hwin := windowOf as
  have hwindow : window (as ++ [a]) = { window as with
      newest := a.1
      opened := insert a.1 ((window as).opened \ (window as).closing a.1)
      closed := (window as).closed ∪ (window as).closing a.1
      skipped := (window as).skipped ∪ (window as).skips a.1 } := by
    rw [window_concat, GroupWindow.step_opens hfirst hpasses, if_neg (not_le.mpr hnew)]
  have hopened : a.1 ∉ (window as).opened := fun hmem => hpasses (.inr (.inl hmem))
  have hsettled : a.1 ∉ (window as).settled := fun hmem => hpasses (.inr (.inr (.inl hmem)))
  have hlast : a ∈ as ++ [a] := List.mem_append_right _ (List.mem_singleton_self a)
  have hgroup := (harrives.members a hlast).1
  have hmax : t.grpMax = (window as).newest := by
    have := h.fields.newest (window as) rfl
    rw [hfirst] at this
    exact this
  have hsizeMax : max t.grpSize (a.2 + 1) ≤ tr.size :=
    max_le h.fields.size (harrives.members a hlast).2
  -- nothing of a group ahead of the newest has arrived
  have hahead : ∀ x, (window as).newest < x → ∀ b ∈ as, b.1 ≠ x := fun x hx b hb heq =>
    absurd (hwin.newest b hb) (by rw [heq]; exact not_le.mpr hx)
  have hbetween : ∀ x, (window as).newest < x → x < a.1 → x ∈ tr.groups := by
    intro x hx hlt
    obtain ⟨b, hb, hnewest⟩ := hwin.last
      (List.ne_nil_of_mem (hwin.first first hfirst).choose_spec.1)
    have hlow := (harrives.members b (List.mem_append_left _ hb)).1
    unfold SentTrack.groups at hlow hgroup ⊢
    rw [Finset.mem_Ico] at hlow hgroup ⊢
    omega
  have hnone : ∀ x, (window as).newest < x → x < a.1 →
      arrived (as ++ [a]) x = 0 ∧ tr.notedCount as x = 0 := by
    intro x hx hlt
    rw [arrived_others as a x hlt.ne, SentTrack.notedCount, tr.noted_of_none (hahead x hx)]
    exact ⟨arrived_of_none (hahead x hx), rfl⟩
  have hone : arrived (as ++ [a]) a.1 = 1 := by
    rw [arrived_own, arrived_of_none (hahead a.1 hnew)]
  have hsettles : learned → (∃ x ∈ (window as).settled ∪ (window as).closing a.1 ∪
      (window as).skips a.1, (window as).first ≠ some x) → max t.grpSize (a.2 + 1) = tr.size := by
    rintro hl ⟨x, hx, hne⟩
    obtain ⟨b, hb, htop⟩ := hlearned hl ⟨x, by
      rw [hwindow, GroupWindow.mem_settled]
      simp only [Finset.mem_union, GroupWindow.mem_settled] at hx ⊢
      tauto, by rw [hwindow]; exact hne⟩
    refine le_antisymm hsizeMax ?_
    rcases List.mem_append.mp hb with hb | hb
    · have := h.fields.learnt b hb
      exact (show tr.size ≤ t.grpSize by omega).trans (le_max_left _ _)
    · obtain rfl := List.mem_singleton.mp hb
      exact htop.ge.trans (le_max_right _ _)
  have hroom : ∀ x ≠ a.1, tr.notedCount as x + arrived (as ++ [a]) x ≤ tr.size := by
    intro x hx
    rw [arrived_others as a x hx]
    exact tr.noted_add_arrived (List.nodup_append.mp harrives.nodup).1
      (fun b hb => (harrives.members b (List.mem_append_left _ hb)).2) x
  have hgrown := (hbooks.focus rfl hopened (arrived_others as a)).size_max
    (max t.grpSize (a.2 + 1)) t.grpMax
  have hpos : max t.grpSize (a.2 + 1) ≠ 0 := by omega
  obtain ⟨sh', hbooks'⟩ := hgrown.openNewest rfl rfl hmax hnew ⟨hgroup, hbetween⟩
    (fun f hf => hwin.first_le hf) hone hnone hpos hsizeMax hsettles hroom
  obtain ⟨hsame, hsize, hgrpMax⟩ := TrackStats.openGroup_frame
    { t with grpSize := max t.grpSize (a.2 + 1) } a.1
  refine ⟨TrackStats.SameKeys.trans (by constructor <;> exact .refl _) hsame, ⟨sh', ?_, ?_⟩,
    h.fields.grow harrives hsize ?_⟩
  · rw [hwindow]
    exact hbooks'
  · rw [hwindow]
    exact fun hmem => absurd hmem (hbooks'.apart a.1 (Finset.mem_insert_self _ _))
  · rintro w rfl
    rw [hwindow]
    dsimp only
    rw [hfirst, hgrpMax]
    show max t.grpMax (a.1 : Int) = (a.1 : Int)
    rw [hmax]
    exact max_eq_right (Int.ofNat_le.mpr hnew.le)

/-- An object of a group that is neither open nor recorded, and too old to be opened. -/
theorem groupObject_old {g oid : Nat} (hrx : t.grpRx.get? g = none)
    (hshort : t.grpShort.get? g = none) (hfloor : (g : Int) ≤ t.grpFloor) (sg : Option Nat) :
    t.groupObject g oid sg = { t with grpSize := max t.grpSize (oid + 1) } := by
  unfold TrackStats.groupObject
  rw [grow_eq]
  dsimp only
  rw [hrx]
  dsimp only
  rw [hshort]
  exact if_pos hfloor

/-- The first object of all. -/
theorem groupObject_first {g oid : Nat} (hrx : t.grpRx.get? g = none)
    (hshort : t.grpShort.get? g = none) (hfloor : ¬ (g : Int) ≤ t.grpFloor)
    (hfirst : t.grpFirst = none) (sg : Option Nat) : t.groupObject g oid sg =
      TrackStats.openGroup
        { t with grpSize := max t.grpSize (oid + 1), grpFirst := some g } g := by
  unfold TrackStats.groupObject
  rw [grow_eq]
  dsimp only
  rw [hrx]
  dsimp only
  rw [hshort]
  dsimp only
  rw [if_neg hfloor, hfirst]

/-- An object of a group that is new. -/
theorem groupObject_next {g oid first : Nat} (hrx : t.grpRx.get? g = none)
    (hshort : t.grpShort.get? g = none) (hfloor : ¬ (g : Int) ≤ t.grpFloor)
    (hfirst : t.grpFirst = some first) (sg : Option Nat) : t.groupObject g oid sg =
      if g < first then { t with grpSize := max t.grpSize (oid + 1) }
      else TrackStats.openGroup { t with grpSize := max t.grpSize (oid + 1) } g := by
  unfold TrackStats.groupObject
  rw [grow_eq]
  dsimp only
  rw [hrx]
  dsimp only
  rw [hshort]
  dsimp only
  rw [if_neg hfloor, hfirst]

/-- **An object is counted for its group**: the window takes the group, and the books follow. -/
theorem GroupRest.counted (h : GroupRest tr learned as t) (hviews : Views tr as t)
    (hfloor : t.keyFloor ≤ a.1) (harrives : Arrives tr as a) (hloss : t.groupLoss = true)
    (hlearned : learned → (∃ x ∈ (window (as ++ [a])).settled,
      (window (as ++ [a])).first ≠ some x) → ∃ b ∈ as ++ [a], b.2 + 1 = tr.size) :
    Counted tr learned as a t (t.countGroup a.1 a.2 (tr.subgroup a.2)) := by
  by_cases hopened : a.1 ∈ (window as).opened
  · exact h.counted_open harrives hloss hopened
  by_cases hsettled : a.1 ∈ (window as).settled
  · exact h.counted_settled hviews hfloor harrives hloss hsettled
  obtain ⟨sh, hbooks⟩ := h.books
  have hwin := windowOf as
  have hrx : t.grpRx.get? a.1 = none := (hbooks.rx a.1).trans (if_neg hopened)
  have hshort : t.grpShort.get? a.1 = none := by
    cases hget : t.grpShort.get? a.1 with
    | none => rfl
    | some v => exact absurd (hbooks.short a.1 v hget).1 hsettled
  rw [countGroup_unopened hloss hrx]
  by_cases hpassed : (a.1 : Int) ≤ t.grpFloor
  · rw [groupObject_old hrx hshort hpassed]
    obtain ⟨c, hc, hle⟩ := (hbooks.floor a.1).mp hpassed
    cases hfirst : (window as).first with
    | none =>
        rw [(hwin.start hfirst).2] at hc
        exact absurd hc (Finset.notMem_empty c)
    | some first =>
        exact h.counted_ignored harrives hfirst ⟨hopened, hsettled⟩ (.inr ⟨c, hc, hle⟩)
  · cases hfirst : (window as).first with
    | none =>
        rw [groupObject_first hrx hshort hpassed (hbooks.first.trans hfirst)]
        exact h.counted_first harrives hfirst
    | some first =>
        rw [groupObject_next hrx hshort hpassed (hbooks.first.trans hfirst)]
        split_ifs with hlt
        · exact h.counted_ignored harrives hfirst ⟨hopened, hsettled⟩ (.inl hlt)
        · have hpasses : ¬ (window as).Passes first a.1 := by
            rintro (hlt' | hmem | hmem | hc)
            · exact hlt hlt'
            · exact hopened hmem
            · exact hsettled hmem
            · exact hpassed ((hbooks.floor a.1).mpr hc)
          rcases Nat.lt_or_ge (window as).newest a.1 with hnew | hle
          · exact h.counted_newest harrives hfirst hpasses hnew hlearned
          · refine h.counted_late harrives hfirst hpasses hle (arrived_of_none fun b hb heq => ?_)
            obtain ⟨f, hf, hseen⟩ := hwin.seen b hb
            rw [hfirst] at hf
            cases hf
            exact hpasses (heq ▸ hseen)

end

end AioMoqt.Stats
