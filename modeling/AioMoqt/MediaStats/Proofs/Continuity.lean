import AioMoqt.MediaStats.Proofs.Books

/-!
# Objects and ends of groups

A group that is heard of may be opened, and then those before it that were never opened are
missing.  In its group an object fills a hole or reaches further, and what it passes is missing.
-/

namespace AioMoqt.MediaStats

open AioMoqt.Lib

namespace Books

variable {c now : Int} {n : Nat × Nat} {times : List Int} {l l' : Ledger} {t t' : TrackAnalysis}
  {gid : Nat} {g g' : Group}

/-! ## Groups are heard of -/

/-- A group that was opened before is recorded as before. -/
theorem Group.Kept.hear {gid' : Nat} (h : g.Kept l gid') (hsound : l.Sound) (hne : gid' ≠ gid)
    (now : Int) : g.Kept (l.hear gid now) gid' :=
  { h with
    opened := Finset.mem_insert_of_mem h.opened
    heard := (Ledger.word_hear_other hne (hsound.greatest gid' h.opened)).trans h.heard }

/-- A group is heard of: its record is as the ledger has it then, and of the gaps that were there
only its own goes. -/
theorem hear (h : Books c n times l t) (hnow : now ∈ times)
    (hrange : ∀ first ∈ l.first, first ≤ gid) (hkept : g'.Kept (l.hear gid now) gid)
    (hcushion : t'.cushionUs = t.cushionUs)
    (hcounted : (t'.objects, t'.dups) = (t.objects, t.dups)) (hmax : t'.maxGid = some (max l.greatest gid))
    (hgroups : t'.groupOf = t.groupOf.insert gid g')
    (htotal : t'.undeclaredHoles = t.undeclaredHoles)
    (hholes : ∀ oid hole, g'.holes.get? oid = some hole → hole.lost = false → t.Open gid oid hole)
    (hgap : ∀ x gap, t'.gaps.get? x = some gap →
      x ∈ (l.hear gid now).absent ∧ (l.hear gid now).word x = some gap.detect)
    (hgaps : ∀ x ∈ (l.hear gid now).absent, x ∈ t.gaps.keys ∨ l.greatest < x → x ∈ t'.gaps.keys)
    (hlost : t'.lost = t.lost)
    (hlostGroups : t'.lostGroups + t'.undeclaredGaps = (l.hear gid now).absent.card)
    (hpending : t'.pending = t.undeclaredHoles + t'.undeclaredGaps)
    (hqueue : t'.holesQ = t.holesQ) : Books c n times (l.hear gid now) t' where
  sound := h.sound.hear hrange now
  cushion := hcushion.trans h.cushion
  counted := hcounted.trans h.counted
  newest := hmax
  group := by
    intro gid' g₁ hget
    rw [hgroups, Dict.get?_insert] at hget
    split at hget
    next heq =>
      obtain rfl := Option.some.inj hget
      exact heq ▸ hkept
    next hne => exact Group.Kept.hear (h.group gid' g₁ hget) h.sound hne now
  gap := hgap
  lost := by
    rw [htotal, hlost, h.sound.missingIds_hear]
    exact h.lost
  lostGroups := hlostGroups
  pending := by rw [htotal, hpending]
  queued := by
    rintro gid' oid hole ⟨g₁, hget, hhole, hopen⟩
    rw [hqueue]
    apply h.queued
    rw [hgroups, Dict.get?_insert] at hget
    split at hget
    next heq =>
      obtain rfl := Option.some.inj hget
      exact heq ▸ hholes oid hole hhole hopen
    next => exact ⟨g₁, hget, hhole, hopen⟩
  sorted := hqueue ▸ h.sorted
  queuedAt := hqueue ▸ h.queuedAt
  words := by
    intro x word hword
    unfold Ledger.hear at hword
    dsimp only at hword
    split at hword
    · obtain rfl := Option.some.inj hword
      exact hnow
    · exact h.words x word hword
  letGo := by
    intro x hx
    rw [hgroups, Dict.mem_keys_insert]
    by_cases hself : x = gid
    · exact Or.inl (Or.inl hself)
    -- what was heard of before was let go before, or its record stays
    have hbefore : x ∈ l.opened ∨ x ∈ l.absent → (x ∈ t.gaps.keys → x ∈ t'.gaps.keys) →
        (x = gid ∨ x ∈ t.groupOf.keys) ∨ x ∈ t'.gaps.keys ∨
          ∃ word ∈ (l.hear gid now).word x, ∃ u ∈ times, word + 4 * c < u := by
      intro hold hstays
      rw [Ledger.word_hear_other hself (h.sound.le_greatest hold)]
      exact (h.letGo x hold).imp Or.inr (Or.imp_left hstays)
    rcases hx with hopened | habsent
    · have hold : x ∈ l.opened := (Finset.mem_insert.mp hopened).resolve_left hself
      refine hbefore (Or.inl hold) fun hkey => ?_
      obtain ⟨gap, hget⟩ := Option.ne_none_iff_exists'.mp (Dict.mem_keys.mp hkey)
      exact absurd hold (Ledger.mem_absent.mp (h.gap x gap hget).1).2
    · rcases (h.sound.mem_absent_hear.mp habsent).2 with hold | ⟨-, hlo, -⟩
      · exact hbefore (Or.inr hold) fun hkey => hgaps x habsent (Or.inl hkey)
      · exact Or.inr (Or.inl (hgaps x habsent (Or.inr hlo)))

/-- A group that is tracked is heard of again. -/
theorem hearTracked (h : Books c n times l t) (hnow : now ∈ times) (hlate : ∀ u ∈ times, u ≤ now)
    (hg : t.groupOf.get? gid = some g) :
    Books c n times (l.hear gid now) (t.put gid { g with lastRx := now }) := by
  have hold := h.group gid g hg
  have hle := h.sound.greatest gid hold.opened
  have hrx := hlate _ (h.words gid _ hold.heard)
  have hkept : Group.Kept (l.hear gid now) gid { g with lastRx := now } :=
    { hold with
      opened := Finset.mem_insert_self gid _
      heard := Ledger.word_hear_self
      noticed := fun oid hole hhole => (hold.noticed oid hole hhole).trans hrx }
  refine h.hear hnow (fun first hfirst => (h.sound.first first hfirst).2 gid hold.opened) hkept rfl rfl
    ?_ rfl (Dict.total_insert_same hg rfl) (fun oid hole hhole hopen => ⟨g, hg, hhole, hopen⟩)
    ?_ ?_ rfl ?_ h.pending rfl
  · show t.maxGid = _
    rw [h.newest, if_neg (h.sound.first_ne hold.opened), max_eq_left hle]
  · intro x gap hget
    obtain ⟨habsent, hword⟩ := h.gap x gap hget
    rw [h.sound.absent_hear_opened hold.opened]
    refine ⟨habsent, (Ledger.word_hear_other ?_ (Ledger.mem_absent.mp habsent).1.2.le).trans hword⟩
    rintro rfl
    exact (Ledger.mem_absent.mp habsent).2 hold.opened
  · rw [h.sound.absent_hear_opened hold.opened]
    rintro x habsent (hkey | hlt)
    · exact hkey
    · have hlast := (Ledger.mem_absent.mp habsent).1.2
      omega
  · rw [h.sound.absent_hear_opened hold.opened]
    exact h.lostGroups

/-- A group that is opened has no objects yet. -/
theorem kept_new (h : l.Sound) (hgid : gid ∉ l.opened) (now : Int) :
    Group.Kept (l.hear gid now) gid { joined := false, lastRx := now } where
  opened := Finset.mem_insert_self gid _
  joined := rfl
  seen := by
    intro oid
    refine iff_of_false (Finset.notMem_empty oid) fun hmem => hgid (h.known gid ?_)
    exact Nat.zero_lt_of_lt (h.below gid oid hmem)
  extent := by
    show 0 = l.extent gid
    by_contra hne
    exact hgid (h.known gid (by omega))
  holes := by
    intro oid
    rw [show (l.hear gid now).missing gid = l.missing gid from rfl, h.missing_unopened hgid]
    exact iff_of_false (List.not_mem_nil) (Finset.notMem_empty oid)
  heard := Ledger.word_hear_self
  noticed := nofun

theorem undeclaredHoles_newGroup (hg : t.groupOf.get? gid = none) (joined : Bool) (now : Int) :
    (t.newGroup gid joined now).1.undeclaredHoles = t.undeclaredHoles := by
  unfold TrackAnalysis.undeclaredHoles
  exact (Dict.total_insert_new hg _ _).trans (Nat.zero_add _)

theorem unloseGroup_eq (t : TrackAnalysis) (gap : Miss) :
    t.unloseGroup gap =
      { t with
        lostGroups := t.lostGroups - (1 - gap.undeclared : Int)
        pending := t.pending - gap.undeclared } := by
  unfold TrackAnalysis.unloseGroup
  cases hlost : gap.lost with
  | true => simp [Miss.undeclared_lost hlost]
  | false => simp [Miss.undeclared_open hlost]

/-- The first group of a track. -/
theorem openFirst (h : Books c n times l t) (hnow : now ∈ times) (hfirst : l.first = none)
    (hg : t.groupOf.get? gid = none) :
    Books c n times (l.hear gid now) ({ t with maxGid := some gid }.newGroup gid false now).1 := by
  have hunopened : gid ∉ l.opened := by
    rw [(h.sound.fresh hfirst).2]
    exact Finset.notMem_empty gid
  have habsent : (l.hear gid now).absent = ∅ := h.sound.absent_hear_fresh hfirst
  have hnone : ∀ x gap, t.gaps.get? x ≠ some gap := by
    intro x gap hget
    have hmem := (h.gap x gap hget).1
    rw [h.sound.absent_fresh hfirst] at hmem
    exact Finset.notMem_empty x hmem
  refine h.hear hnow (fun first hsome => absurd hsome (by rw [hfirst]; exact nofun))
    (kept_new h.sound hunopened now) rfl rfl ?_ rfl (undeclaredHoles_newGroup hg false now) nofun
    (fun x gap hget => absurd hget (hnone x gap)) ?_ rfl ?_ h.pending rfl
  · rw [(h.sound.fresh hfirst).1, Nat.zero_max]
    rfl
  · rw [habsent]
    exact fun x hx => absurd hx (Finset.notMem_empty x)
  · rw [habsent, Finset.card_empty]
    have hold := h.lostGroups
    rw [h.sound.absent_fresh hfirst, Finset.card_empty] at hold
    exact hold

/-- A group that fills a gap. -/
theorem openGap {gap : Miss} (h : Books c n times l t) (hnow : now ∈ times)
    (hg : t.groupOf.get? gid = none) (hgap : t.gaps.get? gid = some gap) :
    Books c n times (l.hear gid now)
      (({ t with gaps := t.gaps.erase gid }.unloseGroup gap).newGroup gid false now).1 := by
  obtain ⟨habsent, -⟩ := h.gap gid gap hgap
  obtain ⟨⟨hlo, hhi⟩, hunopened⟩ := Ledger.mem_absent.mp habsent
  have hfirst : l.first ≠ none := fun hnone => by
    have hzero := (h.sound.fresh hnone).1
    omega
  have herase := Dict.undeclared_erase hgap
  have hcard := Finset.card_erase_add_one habsent
  have hle : gap.undeclared ≤ 1 := gap.undeclared_le
  have hbefore : (l.hear gid now).absent = l.absent.erase gid :=
    h.sound.absent_hear_absent habsent
  rw [unloseGroup_eq]
  refine h.hear hnow ?_ (kept_new h.sound hunopened now) rfl rfl ?_ rfl
    (undeclaredHoles_newGroup hg false now) nofun ?_ ?_ rfl ?_ ?_ rfl
  · intro first hsome
    rw [hsome, Option.getD_some] at hlo
    omega
  · show t.maxGid = _
    rw [h.newest, if_neg hfirst, max_eq_left hhi.le]
  · intro x gap' hget
    change (t.gaps.erase gid).get? x = some gap' at hget
    rw [Dict.get?_erase] at hget
    split at hget
    · cases hget
    next hne =>
      obtain ⟨hx, hword⟩ := h.gap x gap' hget
      rw [hbefore, Finset.mem_erase]
      exact ⟨⟨hne, hx⟩, (Ledger.word_hear_other hne (Ledger.mem_absent.mp hx).1.2.le).trans hword⟩
  · intro x hx hor
    rw [hbefore, Finset.mem_erase] at hx
    have hlast := (Ledger.mem_absent.mp hx.2).1.2
    refine Dict.mem_keys_erase.mpr ⟨hx.1, hor.resolve_right ?_⟩
    omega
  · have hold := h.lostGroups
    rw [hbefore]
    unfold TrackAnalysis.undeclaredGaps at hold ⊢
    show t.lostGroups - (1 - gap.undeclared : Int) + (t.gaps.erase gid).undeclared = _
    omega
  · have hold := h.pending
    unfold TrackAnalysis.undeclaredGaps at hold ⊢
    show t.pending - (gap.undeclared : Int) = t.undeclaredHoles + (t.gaps.erase gid).undeclared
    omega

/-- A group behind the newest, at most so many groups away. -/
theorem openBeyond (h : Books c n times l t) (hnow : now ∈ times) (hg : t.groupOf.get? gid = none)
    (hfirst : l.first ≠ none) (hgid : l.greatest < gid) (hjump : gid - l.greatest - 1 ≤ holeCap) :
    Books c n times (l.hear gid now)
      ((t.skipGroups l.greatest gid now).newGroup gid false now).1 := by
  have hunopened : gid ∉ l.opened := fun hmem => absurd (h.sound.greatest gid hmem) (by omega)
  have hskipped : t.skipGroups l.greatest gid now =
      { t with
        lostGroups := t.lostGroups
        gaps := t.gaps.watch now (List.range' (l.greatest + 1) (gid - l.greatest - 1))
        gapsQ := t.gapsQ ++
          (List.range' (l.greatest + 1) (gid - l.greatest - 1)).map fun x => (now, x)
        pending := t.pending + (gid - l.greatest - 1 : Nat)
        maxGid := some gid } := by
    unfold TrackAnalysis.skipGroups
    dsimp only
    rw [min_eq_left hjump, Nat.sub_self, Int.natCast_zero, Int.add_zero]
    have hstart : gid - (gid - l.greatest - 1) = l.greatest + 1 := by omega
    rw [hstart]
  set skipped := List.range' (l.greatest + 1) (gid - l.greatest - 1) with hrange
  have hmem : ∀ x, x ∈ skipped ↔ l.greatest < x ∧ x < gid := by
    intro x
    rw [hrange, List.mem_range'_1]
    omega
  have hnodup : skipped.Nodup := List.nodup_range'
  have hold : ∀ x gap, t.gaps.get? x = some gap → x < l.greatest :=
    fun x gap hget => (Ledger.mem_absent.mp (h.gap x gap hget).1).1.2
  have hnew : ∀ x ∈ skipped, x ∉ t.gaps.keys := by
    intro x hx hkey
    obtain ⟨gap, hget⟩ := Option.ne_none_iff_exists'.mp (Dict.mem_keys.mp hkey)
    have hlt := hold x gap hget
    have hgt := ((hmem x).mp hx).1
    omega
  have hundeclared := Dict.undeclared_watch hnodup hnew now
  rw [show skipped.length = gid - l.greatest - 1 from List.length_range'] at hundeclared
  have hcard : (l.hear gid now).absent.card = l.absent.card + (gid - l.greatest - 1) :=
    h.sound.card_absent_hear_beyond hfirst hgid
  rw [hskipped]
  refine h.hear hnow ?_ (kept_new h.sound hunopened now) rfl rfl ?_ rfl
    (undeclaredHoles_newGroup hg false now) nofun ?_ ?_ rfl ?_ ?_ rfl
  · intro first hsome
    have hle := (h.sound.first first hsome).2 _ (h.sound.reached hfirst)
    omega
  · rw [max_eq_right hgid.le]
    rfl
  · intro x gap hget
    change (t.gaps.watch now skipped).get? x = some gap at hget
    rw [Dict.get?_watch hnodup hnew] at hget
    rw [h.sound.mem_absent_hear]
    split at hget
    next hx =>
      obtain rfl := Option.some.inj hget
      obtain ⟨hlo, hhi⟩ := (hmem x).mp hx
      exact ⟨⟨by omega, Or.inr ⟨hfirst, hlo, hhi⟩⟩, Ledger.word_hear_passed hfirst hlo hhi⟩
    next =>
      obtain ⟨hx, hword⟩ := h.gap x gap hget
      have hlt := hold x gap hget
      exact ⟨⟨by omega, Or.inl hx⟩, (Ledger.word_hear_other (by omega) hlt.le).trans hword⟩
  · intro x hx hor
    refine (Dict.mem_keys_watch hnodup hnew).mpr ?_
    rcases hor with hkey | hlo
    · exact Or.inr hkey
    · obtain ⟨-, habsent | ⟨-, -, hhi⟩⟩ := h.sound.mem_absent_hear.mp hx
      · have hlt := (Ledger.mem_absent.mp habsent).1.2
        omega
      · exact Or.inl ((hmem x).mpr ⟨hlo, hhi⟩)
  · have hbefore := h.lostGroups
    unfold TrackAnalysis.undeclaredGaps at hbefore ⊢
    show t.lostGroups + ((t.gaps.watch now skipped).undeclared : Int) = _
    omega
  · have hbefore := h.pending
    unfold TrackAnalysis.undeclaredGaps at hbefore ⊢
    show t.pending + (gid - l.greatest - 1 : Nat) =
      t.undeclaredHoles + ((t.gaps.watch now skipped).undeclared : Int)
    omega

theorem tracks_iff {t : TrackAnalysis} : t.tracks gid = true ↔
    gid ∈ t.groupOf.keys ∨ gid ∈ t.gaps.keys ∨ ∀ maxGid ∈ t.maxGid, maxGid < gid :=
  decide_eq_true_iff

theorem openGroup_gap {maxGid oid : Nat} {gap : Miss} (hmax : t.maxGid = some maxGid)
    (hgap : t.gaps.get? gid = some gap) :
    t.openGroup gid now oid =
      some (({ t with gaps := t.gaps.erase gid }.unloseGroup gap).newGroup gid false now,
        some gap) := by
  unfold TrackAnalysis.openGroup
  rw [hmax, hgap]

/-- A group that is outside the tracked range is let be; one that is tracked, or is opened, is
heard of. -/
theorem heard (h : Books c n times l t) (oid : Nat) (hnow : now ∈ times)
    (hlate : ∀ u ∈ times, u ≤ now) (hoid : l.first = none → oid = 0)
    (hjump : t.tracks gid = true → l.first ≠ none → gid - l.greatest - 1 ≤ holeCap) :
    match t.heard gid now oid with
    | none => t.tracks gid = false
    | some ((t', g'), _) => t.tracks gid = true ∧ Books c n times (l.hear gid now) t' ∧
        t'.groupOf.get? gid = some g' := by
  have hput : ∀ (t : TrackAnalysis) (g : Group),
      (t.put gid g).groupOf.get? gid = some g := fun t g =>
    (Dict.get?_insert t.groupOf gid g gid).trans (if_pos rfl)
  unfold TrackAnalysis.heard
  cases hg : t.groupOf.get? gid with
  | some g =>
      have hkey : gid ∈ t.groupOf.keys := Dict.mem_keys.mpr (by rw [hg]; exact nofun)
      exact ⟨tracks_iff.mpr (Or.inl hkey), h.hearTracked hnow hlate hg, hput t _⟩
  | none =>
      dsimp only
      have hnewest := h.newest
      cases hmax : t.maxGid with
      | none =>
          have hfirst : l.first = none := by
            by_contra hne
            rw [hmax, if_neg hne] at hnewest
            cases hnewest
          rw [hoid hfirst, TrackAnalysis.openGroup, hmax]
          refine ⟨tracks_iff.mpr (Or.inr (Or.inr ?_)), h.openFirst hnow hfirst hg, hput _ _⟩
          rw [hmax]
          exact nofun
      | some maxGid =>
          have hfirst : l.first ≠ none := by
            intro hnone
            rw [hmax, if_pos hnone] at hnewest
            cases hnewest
          rw [hmax, if_neg hfirst] at hnewest
          obtain rfl := Option.some.inj hnewest
          cases hgap : t.gaps.get? gid with
          | some gap =>
              rw [openGroup_gap hmax hgap]
              have hkey : gid ∈ t.gaps.keys := Dict.mem_keys.mpr (by rw [hgap]; exact nofun)
              exact ⟨tracks_iff.mpr (Or.inr (Or.inl hkey)), h.openGap hnow hg hgap, hput _ _⟩
          | none =>
              rw [TrackAnalysis.openGroup, hmax, hgap]
              dsimp only
              by_cases hle : gid ≤ l.greatest
              · rw [if_pos hle]
                rw [← Bool.not_eq_true, tracks_iff, hmax]
                rintro (hkey | hkey | hlt)
                · exact Dict.mem_keys.mp hkey hg
                · exact Dict.mem_keys.mp hkey hgap
                · exact absurd (hlt _ rfl) (not_lt.mpr hle)
              · rw [if_neg hle]
                have hlt : l.greatest < gid := not_le.mp hle
                have htracks : t.tracks gid = true := by
                  refine tracks_iff.mpr (Or.inr (Or.inr ?_))
                  rw [hmax]
                  intro m hm
                  exact Option.some.inj hm ▸ hlt
                exact ⟨htracks, h.openBeyond hnow hg hfirst hlt (hjump htracks hfirst), hput _ _⟩

/-! ## Reports in a group -/

/-- Where none of a range is known, all of it becomes holes. -/
theorem newHoles_eq {lo hi : Nat} (hcap : hi - lo ≤ holeCap)
    (hfresh : ∀ oid, lo ≤ oid → oid < hi → oid ∉ g.seen ∧ oid ∉ g.holes.keys) :
    g.newHoles lo hi = List.range' lo (hi - lo) := by
  unfold Group.newHoles
  dsimp only
  rw [min_eq_left hcap]
  rcases Nat.lt_or_ge hi lo with hlt | hge
  · rw [Nat.sub_eq_zero_of_le hlt.le]
    rfl
  · rw [Nat.sub_sub_self hge, List.filter_eq_self]
    intro oid hoid
    rw [List.mem_range'_1] at hoid
    exact decide_eq_true (hfresh oid hoid.1 (by omega))

/-- A report that reaches further than its group did: what it passes is missing in the books and in
the ledger. -/
theorem addHoles {hi : Nat} (h : Books c n times l t) (hnow : now ∈ times)
    (hlate : ∀ u ∈ times, u ≤ now) (hg : t.groupOf.get? gid = some g) (hrx : g.lastRx = now)
    (hl : l.SameBut l' gid) (hsound : l'.Sound) (hcap : hi - l.extent gid ≤ holeCap)
    (hseen : ∀ oid, oid ∈ g'.seen ↔ (gid, oid) ∈ l'.observed) (hextent : g'.extent = l'.extent gid)
    (hholes : g'.holes = g.holes) (hrx' : g'.lastRx = g.lastRx) (hjoined : g'.joined = g.joined)
    (hmissing : ∀ oid, oid ∈ l'.missing gid ↔
      oid ∈ l.missing gid ∨ l.extent gid ≤ oid ∧ oid < hi)
    (hcard : (l'.missing gid).card = (l.missing gid).card + (hi - l.extent gid)) :
    Books c n times l' (t.addHoles gid g' (l.extent gid) hi now) := by
  have hkept := h.group gid g hg
  have hfresh : ∀ oid, l.extent gid ≤ oid → oid < hi → oid ∉ g'.seen ∧ oid ∉ g'.holes.keys := by
    intro oid hlo hhi
    have hmem := (hmissing oid).mpr (Or.inr ⟨hlo, hhi⟩)
    rw [hseen, hholes, hkept.holes]
    refine ⟨(Ledger.mem_missing.mp hmem).2, fun hold => ?_⟩
    have hlt := (Ledger.mem_missing.mp hold).1
    omega
  have hnew := newHoles_eq hcap hfresh
  set passed := List.range' (l.extent gid) (hi - l.extent gid) with hpassed
  have hmem : ∀ oid, oid ∈ passed ↔ l.extent gid ≤ oid ∧ oid < hi := by
    intro oid
    rw [hpassed, List.mem_range'_1]
    omega
  have hnodup : passed.Nodup := List.nodup_range'
  have hunknown : ∀ oid ∈ passed, oid ∉ g.holes.keys := by
    intro oid hoid
    obtain ⟨hlo, hhi⟩ := (hmem oid).mp hoid
    exact hholes ▸ (hfresh oid hlo hhi).2
  have hlength : passed.length = hi - l.extent gid := List.length_range'
  have hundeclared := Dict.undeclared_watch hnodup hunknown now
  have hkept' : Group.Kept l' gid { g' with holes := g.holes.watch now passed } := by
    constructor
    case opened => exact hl.opened.symm ▸ hkept.opened
    case joined => exact hjoined.trans hkept.joined
    case seen => exact hseen
    case extent => exact hextent
    case holes =>
      intro oid
      rw [Dict.mem_keys_watch hnodup hunknown, hmem, hmissing, hkept.holes, or_comm]
    case heard =>
      rw [hl.word, hrx']
      exact hkept.heard
    case noticed =>
      intro oid hole hget
      rw [Dict.get?_watch hnodup hunknown] at hget
      rw [hrx']
      split at hget
      · obtain rfl := Option.some.inj hget
        exact hrx.ge
      · exact hkept.noticed oid hole hget
  unfold TrackAnalysis.addHoles
  dsimp only
  rw [hnew, hholes, min_eq_left hcap, Nat.sub_self, Int.natCast_zero, Int.add_zero]
  refine h.update now passed hg hl hsound hkept' rfl rfl rfl rfl rfl ?_ rfl ?_ (fun _ => ⟨hnow, hlate⟩)
    rfl ?_
  · show t.lost + ((g.holes.watch now passed).undeclared : Int) + _ = _
    omega
  · show t.pending + (passed.length : Int) + _ = t.pending + ((g.holes.watch now passed).undeclared : Int)
    omega
  · intro oid hole hget _
    rw [Dict.get?_watch hnodup hunknown] at hget
    split at hget
    next hoid =>
      obtain rfl := Option.some.inj hget
      exact Or.inr ⟨rfl, hoid⟩
    next => exact Or.inl hget

theorem unlose_eq (t : TrackAnalysis) (hole : Miss) :
    t.unlose hole =
      { t with
        lost := t.lost - (1 - hole.undeclared : Int)
        pending := t.pending - hole.undeclared } := by
  unfold TrackAnalysis.unlose
  cases hlost : hole.lost with
  | true => simp [Miss.undeclared_lost hlost]
  | false => simp [Miss.undeclared_open hlost]

theorem recount (h : Books c n times l t) (objects dups : Nat) :
    Books c (objects, dups) times l { t with objects, dups } :=
  { h with counted := rfl }

/-- Counts beside the ids and groups do not matter to the books. -/
theorem counts (h : Books c n times l t) (repeats outside : Nat) :
    Books c n times { l with repeats, outside } t :=
  { h with
    sound := { h.sound with }
    group := fun gid g hg => { h.group gid g hg with } }

/-- A hole that is filled. -/
theorem fillHole {oid : Nat} {hole : Miss} (h : Books c n times l t)
    (hg : t.groupOf.get? gid = some g) (hhole : g.holes.get? oid = some hole) :
    Books c n times (l.place gid oid)
      (((t.put gid { g with
        seen := insert oid g.seen
        holes := g.holes.erase oid }).reordered hole now).unlose hole) := by
  have hkept := h.group gid g hg
  have hmem : oid ∈ l.missing gid :=
    (hkept.holes oid).mp (Dict.mem_keys.mpr (by rw [hhole]; exact nofun))
  have hlt := (Ledger.mem_missing.mp hmem).1
  have herase := Dict.undeclared_erase hhole
  have hle : hole.undeclared ≤ 1 := hole.undeclared_le
  have hmissing : (l.place gid oid).missing gid = (l.missing gid).erase oid := by
    ext oid'
    rw [Ledger.missing_place, Finset.mem_erase, Finset.mem_erase, Ledger.mem_missing_extend h.sound]
    apply and_congr_right
    intro _
    apply or_iff_left
    omega
  have hcard := Finset.card_erase_add_one hmem
  have hkept' : Group.Kept (l.place gid oid) gid
      { g with seen := insert oid g.seen, holes := g.holes.erase oid } := by
    constructor
    case opened => exact hkept.opened
    case joined => exact hkept.joined
    case seen =>
      intro oid'
      show oid' ∈ insert oid g.seen ↔ (gid, oid') ∈ insert (gid, oid) l.observed
      rw [Finset.mem_insert, Finset.mem_insert, hkept.seen, Prod.mk.injEq, eq_self, true_and]
    case extent =>
      show g.extent = (l.extend gid (oid + 1)).extent gid
      rw [Ledger.extent_extend, hkept.extent, max_eq_left hlt]
    case holes =>
      intro oid'
      rw [hmissing, Finset.mem_erase, Dict.mem_keys_erase, hkept.holes]
    case heard => exact hkept.heard
    case noticed =>
      intro oid' hole' hget
      rw [Dict.get?_erase] at hget
      split at hget
      · cases hget
      · exact hkept.noticed oid' hole' hget
  rw [unlose_eq]
  refine h.update now [] hg (Ledger.sameBut_place l gid oid) (h.sound.place hkept.opened oid) hkept'
    rfl rfl rfl rfl rfl ?_ rfl ?_ (fun hne => absurd rfl hne) (List.append_nil _).symm ?_
  · rw [hmissing]
    show t.lost - (1 - hole.undeclared : Int) + ((g.holes.erase oid).undeclared : Int) + _ = _
    omega
  · show t.pending - (hole.undeclared : Int) + _ = t.pending + ((g.holes.erase oid).undeclared : Int)
    omega
  · intro oid' hole' hget _
    rw [Dict.get?_erase] at hget
    split at hget
    · cases hget
    · exact Or.inl hget

/-- An object in its group, unless it was seen: it fills a hole, or reaches further than its group
did. -/
theorem place {oid : Nat} (h : Books c n times l t) (hnow : now ∈ times)
    (hlate : ∀ u ∈ times, u ≤ now) (hg : t.groupOf.get? gid = some g) (hrx : g.lastRx = now)
    (hcap : oid - l.extent gid ≤ holeCap) :
    Books c (n.1, if (gid, oid) ∈ l.observed then n.2 + 1 else n.2) times (l.place gid oid)
        (t.place gid g oid now).1 ∧
      (t.place gid g oid now).2 = decide ((gid, oid) ∉ l.observed) := by
  have hkept := h.group gid g hg
  unfold TrackAnalysis.place
  by_cases hdup : oid ∈ g.seen
  · have hmem := (hkept.seen oid).mp hdup
    have hlt := h.sound.below gid oid hmem
    have hsame : l.place gid oid = { l with repeats := l.repeats + 1 } := by
      have hextent : (l.extend gid (oid + 1)).extent = l.extent := by
        funext g'
        unfold Ledger.extend
        dsimp only
        split
        next heq => rw [heq, max_eq_left hlt]
        next => rfl
      unfold Ledger.place Ledger.observe
      rw [hextent]
      show Ledger.mk l.first l.greatest l.opened l.extent l.word (insert (gid, oid) l.observed)
        (if (gid, oid) ∈ l.observed then l.repeats + 1 else l.repeats) l.outside = _
      rw [Finset.insert_eq_of_mem hmem, if_pos hmem]
    rw [if_pos hdup, hsame]
    refine ⟨?_, (decide_eq_false (not_not_intro hmem)).symm⟩
    rw [if_pos hmem, ← h.counted]
    exact (h.counts (l.repeats + 1) l.outside).recount t.objects (t.dups + 1)
  · have hnot : (gid, oid) ∉ l.observed := fun hmem => hdup ((hkept.seen oid).mpr hmem)
    rw [if_neg hdup, if_neg hnot]
    dsimp only
    cases hhole : g.holes.get? oid with
    | some hole => exact ⟨h.fillHole hg hhole, (decide_eq_true hnot).symm⟩
    | none =>
        have hge : l.extent gid ≤ oid := by
          by_contra hlt
          have hmem := (hkept.holes oid).mpr (Ledger.mem_missing.mpr ⟨not_le.mp hlt, hnot⟩)
          exact Dict.mem_keys.mp hmem hhole
        have hgap : oid ∉ (l.extend gid oid).missing gid := by
          rw [Ledger.mem_missing_extend h.sound, Ledger.mem_missing]
          omega
        have hholes : Books c n times (l.place gid oid)
            (t.addHoles gid { g with seen := insert oid g.seen, maxOid := some oid }
              (l.extent gid) oid now) := by
          refine h.addHoles hnow hlate hg hrx (Ledger.sameBut_place l gid oid)
            (h.sound.place hkept.opened oid) hcap ?_ ?_ rfl rfl rfl ?_ ?_
          · intro oid'
            show oid' ∈ insert oid g.seen ↔ (gid, oid') ∈ insert (gid, oid) l.observed
            rw [Finset.mem_insert, Finset.mem_insert, hkept.seen, Prod.mk.injEq, eq_self, true_and]
          · show oid + 1 = (l.extend gid (oid + 1)).extent gid
            rw [Ledger.extent_extend]
            omega
          · intro oid'
            rw [Ledger.missing_place, Finset.erase_eq_of_notMem hgap,
              Ledger.mem_missing_extend h.sound]
          · rw [Ledger.missing_place, Finset.erase_eq_of_notMem hgap,
              Ledger.card_missing_extend h.sound]
        have hextent := hkept.extent
        unfold Group.extent at hextent
        cases hmax : g.maxOid with
        | none =>
            rw [hmax] at hextent
            have hzero : l.extent gid = 0 := hextent.symm
            rw [hzero] at hholes
            dsimp only
            rw [if_neg (Bool.eq_false_iff.mp hkept.joined)]
            exact ⟨hholes, (decide_eq_true hnot).symm⟩
        | some maxOid =>
            rw [hmax] at hextent
            have hnext : l.extent gid = maxOid + 1 := hextent.symm
            rw [hnext] at hholes hge
            dsimp only
            rw [if_pos (by omega)]
            exact ⟨hholes, (decide_eq_true hnot).symm⟩

/-- The end of a group that is tracked: no more of it is expected than what it reaches then. -/
theorem groupEnd {eogOid : Nat} (h : Books c n times l t) (hnow : now ∈ times)
    (hlate : ∀ u ∈ times, u ≤ now) (hg : t.groupOf.get? gid = some g) (hrx : g.lastRx = now)
    (hcap : eogOid - l.extent gid ≤ holeCap) :
    Books c n times (l.extend gid eogOid)
      (t.addHoles gid
        { g with
          ended := true
          eogOid := some eogOid
          maxOid := if 0 < eogOid then some (max (g.maxOid.getD 0) (eogOid - 1)) else g.maxOid }
        (l.extent gid) eogOid now) := by
  have hkept := h.group gid g hg
  refine h.addHoles hnow hlate hg hrx (Ledger.sameBut_extend l gid eogOid)
    (h.sound.extend hkept.opened eogOid) hcap hkept.seen ?_ rfl rfl rfl
    (fun oid => Ledger.mem_missing_extend h.sound) (Ledger.card_missing_extend h.sound)
  rw [Ledger.extent_extend, ← hkept.extent]
  unfold Group.extent
  by_cases hpos : 0 < eogOid
  · rw [if_pos hpos]
    cases g.maxOid with
    | none =>
        simp only [Option.getD_none, Option.elim_some, Option.elim_none]
        omega
    | some maxOid =>
        simp only [Option.getD_some, Option.elim_some]
        omega
  · rw [if_neg hpos]
    exact (max_eq_left (by omega)).symm

end Books

end AioMoqt.MediaStats
