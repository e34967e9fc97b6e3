import AioMoqt.MediaStats.Proofs.Books

/-!
# The clock of a track

The clock moves a missing object from those pending to those lost, and lets a group go when all
that is missing of it is lost.
-/

namespace AioMoqt.MediaStats

open AioMoqt.Lib

namespace Books

variable {c now : Int} {n : Nat × Nat} {times : List Int} {l l' : Ledger} {t t' : TrackAnalysis}
  {gid : Nat} {g g' : Group}

theorem declareHole (h : Books c n times l t) (gid oid : Nat) :
    Books c n times l (t.declareHole gid oid) := by
  unfold TrackAnalysis.declareHole
  split
  · exact h
  next g hg =>
    split
    · exact h
    next hole hhole =>
      split
      · exact h
      next hopen =>
        rw [Bool.not_eq_true] at hopen
        have hkept := h.group gid g hg
        have hin : oid ∈ g.holes.keys := Dict.mem_keys.mpr (hhole ▸ Option.some_ne_none hole)
        have hdeclare := Dict.undeclared_declare hhole hopen
        have hkept' : Group.Kept l gid
            { g with holes := g.holes.insert oid { hole with lost := true } } := by
          refine { hkept with holes := fun oid' => ?_, noticed := fun oid' hole' hget => ?_ }
          · rw [Dict.mem_keys_insert, ← hkept.holes, or_iff_right_iff_imp]
            rintro rfl
            exact hin
          · rw [Dict.get?_insert] at hget
            split at hget
            · obtain rfl := Option.some.inj hget
              exact hkept.noticed oid hole hhole
            · exact hkept.noticed oid' hole' hget
        refine h.update 0 [] hg (Ledger.SameBut.refl l gid) h.sound hkept' rfl rfl rfl rfl rfl ?_ rfl ?_
          (fun hne => absurd rfl hne) (List.append_nil _).symm ?_
        case refine_1 =>
          dsimp only
          omega
        case refine_2 =>
          dsimp only
          omega
        case refine_3 =>
          intro oid' hole' hget hopen'
          rw [Dict.get?_insert] at hget
          split at hget
          · obtain rfl := Option.some.inj hget
            exact Bool.noConfusion hopen'
          · exact Or.inl hget

end Books

/-- A hole that is open behind the declaration of one was open before, and is another. -/
theorem TrackAnalysis.Open.of_declareHole {t : TrackAnalysis} {gid oid gid' oid' : Nat} {hole : Miss}
    (h : (t.declareHole gid oid).Open gid' oid' hole) :
    t.Open gid' oid' hole ∧ ¬ (gid' = gid ∧ oid' = oid) := by
  obtain ⟨g', hget, hhole, hopen⟩ := h
  unfold TrackAnalysis.declareHole at hget
  split at hget
  next hnone =>
    refine ⟨⟨g', hget, hhole, hopen⟩, ?_⟩
    rintro ⟨rfl, -⟩
    rw [hnone] at hget
    cases hget
  next g hg =>
    split at hget
    next hnone =>
      refine ⟨⟨g', hget, hhole, hopen⟩, ?_⟩
      rintro ⟨rfl, rfl⟩
      obtain rfl := Option.some.inj (hg.symm.trans hget)
      rw [hnone] at hhole
      cases hhole
    next first hfirst =>
      split at hget
      next hlost =>
        refine ⟨⟨g', hget, hhole, hopen⟩, ?_⟩
        rintro ⟨rfl, rfl⟩
        obtain rfl := Option.some.inj (hg.symm.trans hget)
        obtain rfl := Option.some.inj (hfirst.symm.trans hhole)
        rw [hopen] at hlost
        cases hlost
      next =>
        change (t.groupOf.insert gid _).get? gid' = some g' at hget
        rw [Dict.get?_insert] at hget
        split at hget
        next heq =>
          obtain rfl := Option.some.inj hget
          rw [Dict.get?_insert] at hhole
          split at hhole
          · obtain rfl := Option.some.inj hhole
            cases hopen
          next hne => exact ⟨⟨g, heq ▸ hg, hhole, hopen⟩, fun hsame => hne hsame.2⟩
        next hne => exact ⟨⟨g', hget, hhole, hopen⟩, fun hsame => hne hsame.1⟩

namespace Books

variable {c now : Int} {n : Nat × Nat} {times : List Int} {l l' : Ledger} {t t' : TrackAnalysis}
  {gid : Nat} {g g' : Group}

theorem holesQ_declareHole (t : TrackAnalysis) (gid oid : Nat) :
    (t.declareHole gid oid).holesQ = t.holesQ := by
  unfold TrackAnalysis.declareHole
  split
  · rfl
  · split
    · rfl
    · split <;> rfl

/-- Queue entries are taken off and what they name is declared lost. -/
theorem declareAll (h : Books c n times l t) (entries : List (Int × Nat × Nat)) :
    let t' := entries.foldl (fun t entry => t.declareHole entry.2.1 entry.2.2) t
    Books c n times l t' ∧ t'.holesQ = t.holesQ ∧
      ∀ gid oid hole, t'.Open gid oid hole →
        t.Open gid oid hole ∧ ∀ entry ∈ entries, entry.2 ≠ (gid, oid) := by
  induction entries generalizing t with
  | nil => exact ⟨h, rfl, fun _ _ _ hopen => ⟨hopen, nofun⟩⟩
  | cons entry entries ih =>
      obtain ⟨hbooks, hqueue, hopens⟩ := ih (h.declareHole entry.2.1 entry.2.2)
      refine ⟨hbooks, hqueue.trans (holesQ_declareHole t _ _), fun gid oid hole hopen => ?_⟩
      obtain ⟨hbefore, hrest⟩ := hopens gid oid hole hopen
      obtain ⟨hopen', hne⟩ := hbefore.of_declareHole
      refine ⟨hopen', fun entry' hentry' => ?_⟩
      rcases List.mem_cons.mp hentry' with rfl | hentry'
      · intro heq
        exact hne ⟨(congrArg Prod.fst heq).symm, (congrArg Prod.snd heq).symm⟩
      · exact hrest entry' hentry'

/-- Behind the clock's turn every open hole was noticed after the cut. -/
theorem declareHoles (h : Books c n times l t) (cut : Int) :
    Books c n times l (t.declareHoles cut) ∧
      ∀ gid oid hole, (t.declareHoles cut).Open gid oid hole → cut < hole.detect := by
  obtain ⟨hbooks, hqueue, hopens⟩ := h.declareAll (t.holesQ.takeWhile fun entry => entry.1 ≤ cut)
  unfold TrackAnalysis.declareHoles
  set t₁ := (t.holesQ.takeWhile fun entry => entry.1 ≤ cut).foldl
    (fun t entry => t.declareHole entry.2.1 entry.2.2) t
  have hsub : (t.holesQ.dropWhile fun entry => entry.1 ≤ cut).Sublist t.holesQ :=
    List.dropWhile_sublist _
  have hrest : ∀ gid oid hole, t₁.Open gid oid hole →
      (hole.detect, gid, oid) ∈ t.holesQ.dropWhile fun entry => entry.1 ≤ cut := by
    intro gid oid hole hopen
    obtain ⟨hbefore, hnot⟩ := hopens gid oid hole hopen
    have hmem := h.queued gid oid hole hbefore
    rw [← List.takeWhile_append_dropWhile (p := fun entry => entry.1 ≤ cut) (l := t.holesQ),
      List.mem_append] at hmem
    exact hmem.resolve_left fun htaken => hnot _ htaken rfl
  dsimp only
  rw [hqueue]
  constructor
  · exact
      { hbooks with
        queued := hrest
        sorted := h.sorted.sublist hsub
        queuedAt := fun entry hentry => h.queuedAt entry (hsub.subset hentry) }
  · intro gid oid hole hopen
    have hmem := hrest gid oid hole hopen
    rw [Lib.Sliding.dropWhile_eq_filter] at hmem
    · simpa using (List.mem_filter.mp hmem).2
    · refine h.sorted.imp fun hle hb => ?_
      simp only [decide_eq_true_eq] at hb ⊢
      exact hle.trans hb

theorem declareGap (h : Books c n times l t) (gid : Nat) :
    Books c n times l (t.declareGap gid) ∧ (t.declareGap gid).groupOf = t.groupOf := by
  unfold TrackAnalysis.declareGap
  split
  · exact ⟨h, rfl⟩
  next gap hgap =>
    split
    · exact ⟨h, rfl⟩
    next hopen =>
      rw [Bool.not_eq_true] at hopen
      have hdeclare := Dict.undeclared_declare hgap hopen
      have hkeys : ∀ g, g ∈ (t.gaps.insert gid { gap with lost := true }).keys ↔ g ∈ t.gaps.keys := by
        intro g
        rw [Dict.mem_keys_insert, or_iff_right_iff_imp]
        rintro rfl
        exact Dict.mem_keys.mpr (by rw [hgap]; exact nofun)
      refine ⟨{ h with gap := ?_, lostGroups := ?_, pending := ?_, letGo := ?_ }, rfl⟩
      · intro g gap' hget
        rw [Dict.get?_insert] at hget
        split at hget
        next heq =>
          obtain rfl := Option.some.inj hget
          exact heq ▸ h.gap gid gap hgap
        · exact h.gap g gap' hget
      · have hold := h.lostGroups
        unfold TrackAnalysis.undeclaredGaps at hold ⊢
        dsimp only
        omega
      · have hold := h.pending
        unfold TrackAnalysis.undeclaredGaps at hold ⊢
        show t.pending - 1 = t.undeclaredHoles + _
        dsimp only
        omega
      · intro g hg
        dsimp only
        rw [hkeys]
        exact h.letGo g hg

theorem declareGaps (h : Books c n times l t) (cut : Int) :
    Books c n times l (t.declareGaps cut) ∧ (t.declareGaps cut).groupOf = t.groupOf := by
  have hall : ∀ entries : List (Int × Nat), ∀ t, Books c n times l t →
      let t' := entries.foldl (fun t entry => t.declareGap entry.2) t
      Books c n times l t' ∧ t'.groupOf = t.groupOf := by
    intro entries
    induction entries with
    | nil => exact fun t h => ⟨h, rfl⟩
    | cons entry entries ih =>
        intro t h
        obtain ⟨hbooks, hgroups⟩ := h.declareGap entry.2
        obtain ⟨hrest, hgroups'⟩ := ih _ hbooks
        exact ⟨hrest, hgroups'.trans hgroups⟩
  obtain ⟨hbooks, hgroups⟩ := hall (t.gapsQ.takeWhile fun entry => entry.1 ≤ cut) t h
  exact ⟨hbooks.congr rfl rfl rfl rfl rfl rfl rfl rfl rfl, hgroups⟩

/-! ## Groups are let go -/

/-- A group of which all that is missing is declared lost goes after four cushions. -/
theorem eraseGroup (h : Books c n times l t) (hnow : now ∈ times)
    (hg : t.groupOf.get? gid = some g) (hclosed : ∀ oid hole, ¬ t.Open gid oid hole)
    (hold : g.lastRx + 4 * c < now) :
    Books c n times l { t with groupOf := t.groupOf.erase gid } := by
  have hzero : g.holes.undeclared = 0 := by
    apply Dict.undeclared_eq_zero
    intro oid hole hhole
    by_contra hopen
    exact hclosed oid hole ⟨g, hg, hhole, Bool.not_eq_true _ ▸ hopen⟩
  have htotal : (t.groupOf.erase gid).total (fun g => g.holes.undeclared) = t.undeclaredHoles := by
    have herase := Dict.total_erase_some hg fun g => g.holes.undeclared
    unfold TrackAnalysis.undeclaredHoles
    omega
  have hget : ∀ gid' g', (t.groupOf.erase gid).get? gid' = some g' →
      t.groupOf.get? gid' = some g' := by
    intro gid' g' h'
    rw [Dict.get?_erase] at h'
    split at h'
    · cases h'
    · exact h'
  refine { h with group := ?_, lost := ?_, pending := ?_, queued := ?_, letGo := ?_ }
  · exact fun gid' g' h' => h.group gid' g' (hget gid' g' h')
  · show t.lost + ((t.groupOf.erase gid).total fun g => g.holes.undeclared : Nat) = _
    rw [htotal]
    exact h.lost
  · show t.pending = ((t.groupOf.erase gid).total fun g => g.holes.undeclared : Nat) + t.undeclaredGaps
    rw [htotal]
    exact h.pending
  · rintro gid' oid hole ⟨g', h', hhole, hopen⟩
    exact h.queued gid' oid hole ⟨g', hget gid' g' h', hhole, hopen⟩
  · intro gid' hgid'
    rw [Dict.mem_keys_erase]
    by_cases heq : gid' = gid
    · subst heq
      exact Or.inr (Or.inr ⟨g.lastRx, (h.group gid' g hg).heard, now, hnow, hold⟩)
    · exact (h.letGo gid' hgid').imp_left fun hkey => ⟨heq, hkey⟩

/-- What is judged of a group is counted beside the books. -/
theorem judge_eq (t : TrackAnalysis) (g : Group) :
    ∃ truncatedGroups partialGroups missingEog,
      t.judge g = { t with truncatedGroups, partialGroups, missingEog } := by
  unfold TrackAnalysis.judge
  dsimp only
  repeat' split
  all_goals exact ⟨_, _, _, rfl⟩

theorem settle (h : Books c n times l t) (hg : t.groupOf.get? gid = some g) {force : Bool}
    (heq : t.settle now force gid g = (t', g')) :
    Books c n times l t' ∧ t'.groupOf.get? gid = some g' ∧
      ∀ gid' oid hole, t'.Open gid' oid hole → t.Open gid' oid hole := by
  unfold TrackAnalysis.settle at heq
  split at heq
  next =>
    have hput : Books c n times l (t.put gid { g with final := true }) :=
      h.putSame hg rfl rfl rfl rfl rfl
    obtain ⟨truncatedGroups, partialGroups, missingEog, hjudge⟩ :=
      judge_eq (t.put gid { g with final := true }) { g with final := true }
    obtain ⟨rfl, rfl⟩ := Prod.mk.inj heq
    rw [hjudge]
    refine ⟨hput.congr rfl rfl rfl rfl rfl rfl rfl rfl rfl, ?_, ?_⟩
    · exact (Dict.get?_insert _ _ _ _).trans (if_pos rfl)
    · rintro gid' oid hole ⟨g', hget, hhole, hopen⟩
      change (t.groupOf.insert gid _).get? gid' = some g' at hget
      rw [Dict.get?_insert] at hget
      split at hget
      next heq =>
        obtain rfl := Option.some.inj hget
        exact ⟨g, heq ▸ hg, hhole, hopen⟩
      · exact ⟨g', hget, hhole, hopen⟩
  next =>
    obtain ⟨rfl, rfl⟩ := Prod.mk.inj heq
    exact ⟨h, hg, fun _ _ _ hopen => hopen⟩

/-- An open hole of the group that is reviewed was noticed within the cushion, so the group was
heard of since. -/
theorem review (h : Books c n times l t) (hnow : now ∈ times) (hlate : ∀ u ∈ times, u ≤ now)
    (hopen : ∀ gid oid hole, t.Open gid oid hole → now - c < hole.detect) (force : Bool) (gid : Nat) :
    Books c n times l (t.review now force gid) ∧
      ∀ gid' oid hole, (t.review now force gid).Open gid' oid hole → t.Open gid' oid hole := by
  unfold TrackAnalysis.review
  split
  · exact ⟨h, fun _ _ _ hopen => hopen⟩
  next g hg =>
    rcases heq : t.settle now force gid g with ⟨t', g'⟩
    obtain ⟨hbooks, hg', hopens⟩ := h.settle hg heq
    dsimp only
    split
    next hold =>
      rw [hbooks.cushion] at hold
      have hheard := (hbooks.group gid _ hg').heard
      have hrx_le := hlate _ (hbooks.words gid _ hheard)
      refine ⟨hbooks.eraseGroup hnow hg' ?_ (by omega), ?_⟩
      · intro oid hole hstill
        have hdetect := hopen gid oid hole (hopens gid oid hole hstill)
        obtain ⟨g₁, hget, hhole, -⟩ := hstill
        obtain rfl := Option.some.inj (hget.symm.trans hg')
        have hnoticed := (hbooks.group gid _ hg').noticed oid hole hhole
        omega
      · rintro gid' oid hole ⟨g₁, hget, hhole, hstill⟩
        apply hopens gid' oid hole
        rw [Dict.get?_erase] at hget
        split at hget
        · cases hget
        · exact ⟨g₁, hget, hhole, hstill⟩
    next => exact ⟨hbooks, hopens⟩

/-- Gaps that are declared lost go after four cushions. -/
theorem dropGaps (h : Books c n times l t) (hnow : now ∈ times) :
    Books c n times l
      { t with
        gaps := t.gaps.filter fun _ gap => ¬ (gap.lost ∧ 4 * t.cushionUs < now - gap.detect) } := by
  set p : Nat → Miss → Bool := fun _ gap => ¬ (gap.lost ∧ 4 * t.cushionUs < now - gap.detect)
  have hlost : ∀ gid gap, p gid gap = false → gap.lost ∧ 4 * t.cushionUs < now - gap.detect := by
    intro gid gap hp
    simpa only [p, decide_eq_false_iff_not, not_not] using hp
  have hundeclared : (t.gaps.filter p).undeclared = t.gaps.undeclared :=
    Dict.total_filter fun gid gap hp => Miss.undeclared_lost (hlost gid gap hp).1
  refine { h with gap := ?_, lostGroups := ?_, pending := ?_, letGo := ?_ }
  · exact fun gid gap hget => h.gap gid gap (Dict.get?_filter_eq_some.mp hget).1
  · have hold := h.lostGroups
    unfold TrackAnalysis.undeclaredGaps at hold ⊢
    dsimp only
    rw [hundeclared, hold]
  · have hold := h.pending
    unfold TrackAnalysis.undeclaredGaps at hold ⊢
    dsimp only
    rw [hundeclared, hold]
    rfl
  · intro gid hgid
    rcases h.letGo gid hgid with hkey | hkey | hgone
    · exact Or.inl hkey
    · obtain ⟨gap, hgap⟩ := Option.ne_none_iff_exists'.mp (Dict.mem_keys.mp hkey)
      cases hp : p gid gap with
      | true =>
          have hkept : (t.gaps.filter p).get? gid = some gap :=
            Dict.get?_filter_eq_some.mpr ⟨hgap, hp⟩
          exact Or.inr (Or.inl (Dict.mem_keys.mpr (by rw [hkept]; exact nofun)))
      | false =>
          have hold := (hlost gid gap hp).2
          rw [h.cushion] at hold
          exact Or.inr (Or.inr ⟨gap.detect, (h.gap gid gap hgap).2, now, hnow, by omega⟩)
    · exact Or.inr (Or.inr hgone)

theorem finalize (h : Books c n times l t) (hnow : now ∈ times) (hlate : ∀ u ∈ times, u ≤ now)
    (hopen : ∀ gid oid hole, t.Open gid oid hole → now - c < hole.detect) (force : Bool) :
    Books c n times l (t.finalize now force) ∧
      ∀ gid oid hole, (t.finalize now force).Open gid oid hole → now - c < hole.detect := by
  have hall : ∀ gids : List Nat, ∀ t, Books c n times l t →
      (∀ gid oid hole, t.Open gid oid hole → now - c < hole.detect) →
      Books c n times l (gids.foldl (TrackAnalysis.review now force) t) ∧
        ∀ gid oid hole, (gids.foldl (TrackAnalysis.review now force) t).Open gid oid hole →
          now - c < hole.detect := by
    intro gids
    induction gids with
    | nil => exact fun t h hopen => ⟨h, hopen⟩
    | cons gid gids ih =>
        intro t h hopen
        obtain ⟨hbooks, hopens⟩ := h.review hnow hlate hopen force gid
        exact ih _ hbooks fun gid' oid hole hstill =>
          hopen gid' oid hole (hopens gid' oid hole hstill)
  have hstart : Books c n times l { t with lastScan := now } :=
    h.congr rfl rfl rfl rfl rfl rfl rfl rfl rfl
  obtain ⟨hbooks, hopens⟩ := hall t.groupOf.keys _ hstart hopen
  exact ⟨hbooks.dropGaps hnow, hopens⟩

/-- The clock moves on: what is still open was noticed within the cushion. -/
theorem tick (h : Books c n times l t) (hnow : now ∈ times) (hlate : ∀ u ∈ times, u ≤ now) :
    Books c n times l (t.tick now) ∧
      ∀ gid oid hole, (t.tick now).Open gid oid hole → now - c < hole.detect := by
  obtain ⟨hholes, hopen⟩ := h.declareHoles (now - t.cushionUs)
  obtain ⟨hgaps, hgroups⟩ := hholes.declareGaps (now - t.cushionUs)
  have hopens : ∀ gid oid hole,
      ((t.declareHoles (now - t.cushionUs)).declareGaps (now - t.cushionUs)).Open gid oid hole →
        now - c < hole.detect := by
    intro gid oid hole hstill
    unfold TrackAnalysis.Open at hstill
    rw [hgroups] at hstill
    have hcut := hopen gid oid hole hstill
    rw [h.cushion] at hcut
    exact hcut
  unfold TrackAnalysis.tick
  dsimp only
  split
  · exact hgaps.finalize hnow hlate hopens false
  · exact ⟨hgaps, hopens⟩

theorem summary (h : Books c n times l t) (hnow : now ∈ times) (hlate : ∀ u ∈ times, u ≤ now) :
    Books c n times l (t.summary now) := by
  obtain ⟨hbooks, hopen⟩ := h.tick hnow hlate
  exact (hbooks.finalize hnow hlate hopen true).1

theorem interval (h : Books c n times l t) (hnow : now ∈ times) (hlate : ∀ u ∈ times, u ≤ now) :
    Books c n times l (t.interval now).1 :=
  (h.tick hnow hlate).1.congr rfl rfl rfl rfl rfl rfl rfl rfl rfl

theorem streamEnd (h : Books c n times l t) (gid : Nat) (clean : Bool) (resetCode : Nat) :
    Books c n times l (t.streamEnd gid clean resetCode) := by
  unfold TrackAnalysis.streamEnd
  dsimp only
  have hreset : Books c n times l
      { t with
        resets := t.resets + 1
        resetCodes := t.resetCodes.insert resetCode ((t.resetCodes.get? resetCode).getD 0 + 1) } :=
    h.congr rfl rfl rfl rfl rfl rfl rfl rfl rfl
  split
  · split
    · exact h
    next g hg =>
      split
      · exact h.putSame hg rfl rfl rfl rfl rfl
      · exact h
  · split
    · exact hreset
    next g hg => exact hreset.putSame hg rfl rfl rfl rfl rfl

end Books

end AioMoqt.MediaStats
