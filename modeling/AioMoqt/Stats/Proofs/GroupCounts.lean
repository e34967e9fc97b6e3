import AioMoqt.Stats.Proofs.GroupBooks

/-!
# An object counted for its group

The group accounting takes the window of groups where an arrival of the group takes it, and keeps
the books.
-/

namespace AioMoqt.Stats

open AioMoqt.Lib AioMoqt.Lib.Strided

/-! ## What the group accounting leaves alone -/

namespace TrackStats

variable {t : TrackStats}

theorem settleGroups_frame (gs : List Nat) (t : TrackStats) :
    t.SameKeys (gs.foldl settleGroup t) ∧ (gs.foldl settleGroup t).grpSize = t.grpSize ∧
      (gs.foldl settleGroup t).grpMax = t.grpMax := by
  induction gs generalizing t with
  | nil => exact ⟨SameKeys.rfl, rfl, rfl⟩
  | cons g gs ih =>
      obtain ⟨hsame, hsize, hmax⟩ := ih (t.settleGroup g)
      obtain ⟨hsame', hsize', hmax'⟩ := t.settleGroup_frame g
      exact ⟨hsame'.trans hsame, hsize.trans hsize', hmax.trans hmax'⟩

theorem skipGroups_frame (gs : List Nat) (t : TrackStats) :
    ∃ grpShort totalLost, gs.foldl (fun t g => { t with
      grpShort := t.grpShort.insert g t.grpSize
      totalLost := t.totalLost + t.grpSize }) t =
        { t with grpShort := grpShort, totalLost := totalLost } := by
  induction gs generalizing t with
  | nil => exact ⟨t.grpShort, t.totalLost, rfl⟩
  | cons g gs ih =>
      obtain ⟨grpShort, totalLost, heq⟩ := ih { t with
        grpShort := t.grpShort.insert g t.grpSize
        totalLost := t.totalLost + t.grpSize }
      exact ⟨grpShort, totalLost, heq⟩

theorem settleSkipped_frame (t : TrackStats) (lo hi : Nat) :
    ∃ grpShort totalLost, t.settleSkipped lo hi =
      { t with grpShort := grpShort, totalLost := totalLost } := by
  unfold settleSkipped
  split_ifs
  · exact ⟨t.grpShort, t.totalLost, rfl⟩
  · obtain ⟨grpShort, totalLost, heq⟩ := skipGroups_frame (List.range' lo (hi - lo)) t
    rw [heq]
    unfold trimSettled
    exact ⟨_, totalLost, rfl⟩

theorem openGroup_frame (t : TrackStats) (g : Nat) :
    t.SameKeys (t.openGroup g) ∧ (t.openGroup g).grpSize = t.grpSize ∧
      (t.openGroup g).grpMax = max t.grpMax g := by
  unfold openGroup
  dsimp only
  split_ifs with hnew hgap
  · obtain ⟨grpShort, totalLost, heq⟩ := ({ t with grpRx := t.grpRx.insert g 1 } :
      TrackStats).settleSkipped_frame (t.grpMax + 1).toNat g
    rw [heq]
    obtain ⟨hsame, hsize, hmax⟩ := settleGroups_frame
      ((t.grpRx.insert g 1).keys.filter fun x => decide (x + 2 ≤ g)) { t with
        grpRx := t.grpRx.insert g 1, grpShort := grpShort, totalLost := totalLost, grpMax := g }
    refine ⟨SameKeys.trans (by constructor <;> exact .refl _) hsame, hsize, hmax.trans ?_⟩
    exact (max_eq_right hnew.le).symm
  · obtain ⟨hsame, hsize, hmax⟩ := settleGroups_frame
      ((t.grpRx.insert g 1).keys.filter fun x => decide (x + 2 ≤ g)) { t with
        grpRx := t.grpRx.insert g 1, grpMax := g }
    refine ⟨SameKeys.trans (by constructor <;> exact .refl _) hsame, hsize, hmax.trans ?_⟩
    exact (max_eq_right hnew.le).symm
  · exact ⟨by constructor <;> exact .refl _, rfl, (max_eq_left (not_lt.mp hnew)).symm⟩

end TrackStats

/-! ## The window takes a group -/

namespace GroupWindow

theorem foldl_skip (gs : List Nat) (w : GroupWindow) :
    (gs.foldl skip w).first = w.first ∧ (gs.foldl skip w).opened = w.opened ∧
      (gs.foldl skip w).closed = w.closed ∧
      (gs.foldl skip w).skipped = w.skipped ∪ gs.toFinset := by
  induction gs generalizing w with
  | nil =>
      rw [List.toFinset_nil, Finset.union_empty]
      exact ⟨rfl, rfl, rfl, rfl⟩
  | cons g gs ih =>
      obtain ⟨hfirst, hopened, hclosed, hskipped⟩ := ih (w.skip g)
      refine ⟨hfirst, hopened, hclosed, hskipped.trans ?_⟩
      rw [skip, List.toFinset_cons, Finset.insert_union, Finset.union_insert]

theorem foldl_close (gs : List Nat) (w : GroupWindow) :
    (gs.foldl close w).first = w.first ∧ (gs.foldl close w).opened = w.opened \ gs.toFinset ∧
      (gs.foldl close w).closed = w.closed ∪ gs.toFinset ∧
      (gs.foldl close w).skipped = w.skipped := by
  induction gs generalizing w with
  | nil =>
      rw [List.toFinset_nil, Finset.union_empty, Finset.sdiff_empty]
      exact ⟨rfl, rfl, rfl, rfl⟩
  | cons g gs ih =>
      obtain ⟨hfirst, hopened, hclosed, hskipped⟩ := ih (w.close g)
      refine ⟨hfirst, hopened.trans ?_, hclosed.trans ?_, hskipped⟩
      · rw [close, List.toFinset_cons, Finset.sdiff_insert]
        exact Finset.erase_sdiff_comm _ _ _
      · rw [close, List.toFinset_cons, Finset.insert_union, Finset.union_insert]

theorem step_passes {w : GroupWindow} {first g : Nat} (hfirst : w.first = some first)
    (h : w.Passes first g) : w.step g = w := by
  unfold step
  rw [hfirst]
  exact if_pos h

end GroupWindow

namespace Books

variable {L : Ledger} {cnt nt sh : Nat → Nat} {w : GroupWindow} {t : TrackStats}

/-- The groups between the newest and the next are skipped. -/
theorem settleSkipped (h : Books L cnt nt sh w t) (lo : Nat) (hlo : lo = w.newest + 1)
    (hnewest : (∀ g ∈ w.opened, g ≤ w.newest ∨ g = L.top) ∧ ∀ g ∈ w.settled, g ≤ w.newest)
    (hfirst : ∀ f, w.first = some f → f ≤ w.newest)
    (hgroup : ∀ g, w.newest < g → g < L.top → g ∈ L.groups)
    (hnone : ∀ g, w.newest < g → g < L.top → cnt g = 0 ∧ nt g = 0) (hsize : t.grpSize ≤ L.size)
    (hlearned : L.learned → w.skips L.top ≠ ∅ → t.grpSize = L.size) :
    ∃ sh', Books L cnt nt sh' { w with skipped := w.skipped ∪ w.skips L.top }
      (t.settleSkipped lo L.top) := by
  unfold TrackStats.settleSkipped
  subst hlo
  by_cases hjump : settledCap < L.top - (w.newest + 1)
  · rw [if_pos hjump]
    have hskips : w.skips L.top = ∅ := if_neg (not_le.mpr hjump)
    rw [hskips, Finset.union_empty]
    exact ⟨sh, h⟩
  · rw [if_neg hjump]
    set gs := List.range' (w.newest + 1) (L.top - (w.newest + 1)) with hgs
    have hmem : ∀ g, g ∈ gs ↔ w.newest < g ∧ g < L.top := by
      intro g
      rw [hgs, List.mem_range'_1]
      omega
    have hskips : w.skips L.top = gs.toFinset := by
      rw [GroupWindow.skips, if_pos (not_lt.mp hjump)]
      ext g
      rw [Finset.mem_Ioo, List.mem_toFinset, hmem]
    have hsorted : gs.Pairwise (· < ·) := by
      rw [hgs]
      exact List.pairwise_lt_range'
    obtain ⟨sh', hbooks⟩ := h.skipGroups hsorted
      (fun g hg hopened => by
        have := (hmem g).mp hg
        rcases hnewest.1 g hopened with hle | heq <;> omega)
      (fun g hg x hx => by
        have := (hmem g).mp hg
        have := hnewest.2 x hx
        omega)
      (fun g hg hf => absurd (hfirst g hf) (not_le.mpr ((hmem g).mp hg).1))
      (fun g hg => ((hmem g).mp hg).2)
      (fun g hg => hgroup g ((hmem g).mp hg).1 ((hmem g).mp hg).2)
      (fun g hg => hnone g ((hmem g).mp hg).1 ((hmem g).mp hg).2) hsize
      (fun hl hne => hlearned hl (by
        rw [hskips]
        exact fun hempty => hne (List.toFinset_eq_empty_iff _ |>.mp hempty)))
    obtain ⟨hfirst', hopened, hclosed, hskipped⟩ := w.foldl_skip gs
    refine ⟨sh', ?_⟩
    apply trimSettled
    rw [hskips]
    exact hbooks.window_congr _ hfirst'.symm hopened.symm hclosed.symm hskipped.symm

/-- Opening a group skips what lies between, where a group size is known. -/
theorem skipBetween (h : Books L cnt nt sh w t) (hmax : t.grpMax = w.newest)
    (hnewest : (∀ g ∈ w.opened, g ≤ w.newest ∨ g = L.top) ∧ ∀ g ∈ w.settled, g ≤ w.newest)
    (hfirst : ∀ f, w.first = some f → f ≤ w.newest)
    (hgroup : ∀ g, w.newest < g → g < L.top → g ∈ L.groups)
    (hnone : ∀ g, w.newest < g → g < L.top → cnt g = 0 ∧ nt g = 0) (hpos : t.grpSize ≠ 0)
    (hsize : t.grpSize ≤ L.size)
    (hlearned : L.learned → (∃ x ∈ w.skips L.top, w.first ≠ some x) → t.grpSize = L.size) :
    ∃ sh' t', Books L cnt nt sh' { w with skipped := w.skipped ∪ w.skips L.top } t' ∧
      t'.grpSize = t.grpSize ∧
      (if 0 ≤ t.grpMax ∧ t.grpMax < (L.top : Int) - 1 ∧ t.grpSize ≠ 0 then
        t.settleSkipped (t.grpMax + 1).toNat L.top else t) = t' := by
  have hbetween : ∀ x ∈ w.skips L.top, w.newest < x ∧ x < L.top := by
    intro x hx
    unfold GroupWindow.skips at hx
    split_ifs at hx
    · exact Finset.mem_Ioo.mp hx
    · exact absurd hx (Finset.notMem_empty x)
  by_cases hgap : w.newest + 1 < L.top
  · have hcond : 0 ≤ t.grpMax ∧ t.grpMax < (L.top : Int) - 1 ∧ t.grpSize ≠ 0 := by
      rw [hmax]
      exact ⟨Int.natCast_nonneg _, by omega, hpos⟩
    obtain ⟨sh', hbooks⟩ := h.settleSkipped (t.grpMax + 1).toNat
      (by rw [hmax]; exact Int.toNat_natCast (w.newest + 1)) hnewest hfirst hgroup hnone hsize
      fun hl hne => by
        obtain ⟨x, hx⟩ := Finset.nonempty_iff_ne_empty.mpr hne
        exact hlearned hl ⟨x, hx, fun hf => absurd (hbetween x hx).1 (not_lt.mpr (hfirst x hf))⟩
    refine ⟨sh', t.settleSkipped (t.grpMax + 1).toNat L.top, hbooks, ?_, if_pos hcond⟩
    obtain ⟨grpShort, totalLost, heq⟩ := t.settleSkipped_frame (t.grpMax + 1).toNat L.top
    rw [heq]
  · have hskips : w.skips L.top = ∅ := by
      rw [Finset.eq_empty_iff_forall_notMem]
      intro x hx
      have := hbetween x hx
      omega
    refine ⟨sh, t, ?_, rfl, if_neg fun hcond => ?_⟩
    · rw [hskips, Finset.union_empty]
      exact h
    · have := hcond.2.1
      rw [hmax] at this
      omega

/-- Opening a group closes those two behind it. -/
theorem closeBehind (h : Books L cnt nt sh w t) (hsize : t.grpSize ≤ L.size)
    (hlearned : L.learned → (∃ x ∈ w.closing L.top, w.first ≠ some x) → t.grpSize = L.size)
    (hroom : ∀ x ≠ L.top, nt x + cnt x ≤ L.size) :
    ∃ sh', Books L cnt nt sh'
      { w with opened := w.opened \ w.closing L.top, closed := w.closed ∪ w.closing L.top }
      ((t.grpRx.keys.filter fun x => decide (x + 2 ≤ L.top)).foldl TrackStats.settleGroup t) := by
  set gs := t.grpRx.keys.filter fun x => decide (x + 2 ≤ L.top) with hgs
  have hmem : ∀ x, x ∈ gs ↔ x ∈ w.opened ∧ x + 2 ≤ L.top := by
    intro x
    rw [hgs, List.mem_filter, Dict.mem_keys, h.rx x, decide_eq_true_iff]
    split_ifs with hx
    · simp [hx]
    · simp [hx]
  have hclosing : gs.toFinset = w.closing L.top := by
    ext x
    rw [List.mem_toFinset, hmem, GroupWindow.closing, Finset.mem_filter]
  have hbehind : ∀ x ∈ gs, x < L.top := by
    intro x hx
    have := ((hmem x).mp hx).2
    omega
  obtain ⟨sh', hbooks⟩ := h.settleGroups (show gs.Nodup from t.grpRx.nodup.filter _)
    (fun x hx => ((hmem x).mp hx).1) hbehind hsize
    (fun hl ⟨x, hx, hf⟩ => hlearned hl ⟨x, hclosing ▸ List.mem_toFinset.mpr hx, hf⟩)
    (fun x hx => hroom x (hbehind x hx).ne)
  obtain ⟨hfirst, hopened, hclosed, hskipped⟩ := w.foldl_close gs
  rw [hclosing] at hopened hclosed
  exact ⟨sh', hbooks.window_congr _ hfirst.symm hopened.symm hclosed.symm hskipped.symm⟩

/-- **A group ahead of the others is opened**: what lies between is skipped, and those two behind
are closed. -/
theorem openNewest (h : Books L cnt nt sh w t) (htop : L.top = w.newest) (hbase : L.base = w.newest)
    (hmax : t.grpMax = w.newest) {g : Nat} (hg : w.newest < g)
    (hgroup : g ∈ L.groups ∧ ∀ x, w.newest < x → x < g → x ∈ L.groups)
    (hfirst : ∀ f, w.first = some f → f ≤ w.newest) (hone : cnt g = 1)
    (hnone : ∀ x, w.newest < x → x < g → cnt x = 0 ∧ nt x = 0) (hpos : t.grpSize ≠ 0)
    (hsize : t.grpSize ≤ L.size)
    (hlearned : L.learned → (∃ x ∈ w.settled ∪ w.closing g ∪ w.skips g, w.first ≠ some x) →
      t.grpSize = L.size)
    (hroom : ∀ x ≠ g, nt x + cnt x ≤ L.size) :
    ∃ sh', Books { L with top := g, base := g } cnt nt sh'
      { w with
        newest := g
        opened := insert g (w.opened \ w.closing g)
        closed := w.closed ∪ w.closing g
        skipped := w.skipped ∪ w.skips g } (t.openGroup g) := by
  have hopenedLe : ∀ x ∈ w.opened, x ≤ w.newest := by
    intro x hx
    rcases h.near x hx with heq | hnear
    · exact (heq.trans htop).le
    · exact hnear.1.trans hbase.le
  have hsettledLt : ∀ x ∈ w.settled, x < w.newest := fun x hx => (h.below x hx).trans_le htop.le
  have hraised : Books { L with top := g, base := w.newest } cnt nt sh w t := by
    refine h.raise (htop.le.trans hg.le) fun x hx => .inr ?_
    rcases h.near x hx with heq | hnear
    · omega
    · exact hbase ▸ hnear
  have hopen := hraised.openGroup
    (fun hmem => absurd (hsettledLt g hmem) (not_lt.mpr hg.le)) (.inl rfl)
    (Nat.le_add_right g _) hgroup.1 hone
  obtain ⟨sh₁, t₁, hskipped, hsize₁, heq⟩ := hopen.skipBetween hmax
    ⟨fun x hx => (Finset.mem_insert.mp hx).elim .inr fun hx => .inl (hopenedLe x hx),
      fun x hx => (hsettledLt x hx).le⟩ hfirst hgroup.2 hnone hpos hsize
    fun hl ⟨x, hx, hf⟩ => hlearned hl ⟨x, Finset.mem_union_right _ hx, hf⟩
  -- the group itself is not among those two behind it
  have hnot : ¬ g + 2 ≤ g := by omega
  have hclosing : (insert g w.opened).filter (fun c => c + 2 ≤ g) = w.closing g := by
    rw [Finset.filter_insert, if_neg hnot]
    rfl
  have hout : g ∉ w.closing g := fun hx => hnot (Finset.mem_filter.mp hx).2
  have hkept : insert g (w.opened \ w.closing g) = insert g w.opened \ w.closing g :=
    (Finset.insert_sdiff_of_notMem _ hout).symm
  obtain ⟨sh', hclosed⟩ := (hskipped.size_max t₁.grpSize g).closeBehind
    (hsize₁.le.trans hsize)
    (fun hl ⟨x, hx, hf⟩ => hsize₁.trans (hlearned hl ⟨x, Finset.mem_union_left _
      (Finset.mem_union_right _ ((Finset.ext_iff.mp hclosing x).mp hx)), hf⟩)) hroom
  unfold TrackStats.openGroup
  dsimp only at heq ⊢
  rw [if_pos (show t.grpMax < (g : Int) by rw [hmax]; exact Int.ofNat_lt.mpr hg), heq]
  have hcongr := hclosed.window_congr { w with
    newest := g
    opened := insert g (w.opened \ w.closing g)
    closed := w.closed ∪ w.closing g
    skipped := w.skipped ∪ w.skips g } rfl
    (hkept.trans (congrArg (insert g w.opened \ ·) hclosing.symm))
    (congrArg (w.closed ∪ ·) hclosing.symm) rfl
  refine ⟨sh', hcongr.raise le_rfl fun x hx => ?_⟩
  rcases Finset.mem_insert.mp hx with rfl | hx
  · exact .inl rfl
  · obtain ⟨hopened, hkeep⟩ := Finset.mem_sdiff.mp hx
    have hclose : ¬ x + 2 ≤ g := fun hle => hkeep (Finset.mem_filter.mpr ⟨hopened, hle⟩)
    have hle := hopenedLe x hopened
    unfold keyReorderSlack
    exact .inr ⟨by omega, by omega⟩

/-- The first group of all is opened. -/
theorem openFirst (h : Books L cnt nt sh {} t) (hmax : t.grpMax = -1) {g : Nat}
    (hgroup : g ∈ L.groups) (hone : cnt g = 1) :
    Books { L with top := g, base := g } cnt nt sh { first := some g, newest := g, opened := {g} }
      (TrackStats.openGroup { t with grpFirst := some g } g) := by
  have hnone : ∀ x, t.grpRx.get? x = none := fun x =>
    (h.rx x).trans (if_neg (Finset.notMem_empty x))
  have hshort : ∀ x v, t.grpShort.get? x ≠ some v := fun x v hv =>
    absurd (h.short x v hv).1 (Finset.notMem_empty x)
  have hrx : ∀ x, (t.grpRx.insert g 1).get? x = if x = g then some 1 else none := by
    intro x
    rw [Dict.get?_insert, hnone x]
  have hkeys : (t.grpRx.insert g 1).keys.filter (fun x => decide (x + 2 ≤ g)) = [] := by
    rw [List.filter_eq_nil_iff]
    intro x hx
    rw [Dict.mem_keys, hrx] at hx
    by_cases hxg : x = g
    · rw [hxg, decide_eq_true_iff]
      omega
    · rw [if_neg hxg] at hx
      exact absurd rfl hx
  have heq : TrackStats.openGroup { t with grpFirst := some g } g = { t with
      grpFirst := some g
      grpRx := t.grpRx.insert g 1
      grpMax := g } := by
    unfold TrackStats.openGroup
    dsimp only
    rw [if_pos (show t.grpMax < (g : Int) by omega),
      if_neg (show ¬ (0 ≤ t.grpMax ∧ _) from fun hcond => absurd hcond.1 (by omega))]
    dsimp only
    rw [hkeys]
    rfl
  rw [heq]
  constructor
  case rx =>
    intro x
    show (t.grpRx.insert g 1).get? x = if x ∈ ({g} : Finset Nat) then _ else _
    rw [hrx]
    by_cases hx : x = g
    · rw [if_pos hx, if_pos (Finset.mem_singleton.mpr hx), hx, hone]
    · rw [if_neg hx, if_neg fun hmem => hx (Finset.mem_singleton.mp hmem)]
  case short => exact fun x v hv => absurd hv (hshort x v)
  case kept => exact fun x hx => absurd hx (Finset.notMem_empty x)
  case off => exact fun x _ => h.off x (Finset.notMem_empty x)
  case gap => exact fun x _ => h.gap x (Finset.notMem_empty x)
  case floor => exact h.floor
  case first => exact .refl _
  case joined => exact fun x _ => h.off x (Finset.notMem_empty x)
  case apart => exact fun x _ => Finset.notMem_empty x
  case below => exact fun x hx => absurd hx (Finset.notMem_empty x)
  case near => exact fun x hx => .inl (Finset.mem_singleton.mp hx)
  case known =>
    exact ⟨fun x hx => Finset.mem_singleton.mp hx ▸ hgroup,
      fun x hx => absurd hx (Finset.notMem_empty x)⟩
  case bunched =>
    intro before c after hsplit
    have hmem : c ∈ t.grpShort.keys := by
      have hsplit : t.grpShort.keys = before ++ c :: after := hsplit
      rw [hsplit]
      simp
    obtain ⟨v, hv⟩ := Option.ne_none_iff_exists'.mp (Dict.mem_keys.mp hmem)
    exact absurd hv (hshort c v)
  case account =>
    exact fun x hx => ⟨(h.account x hx).1, fun _ hmem => absurd hmem (Finset.notMem_empty x)⟩
  case lost => exact h.lost

/-- The object is accounted for in its stream as well: the ids noted in its group change. -/
theorem renote (h : Books L cnt nt sh w t) {g : Nat} (hcurrent : L.current = some g)
    (hgroup : g ∈ L.groups) {nt' : Nat → Nat} {t' : TrackStats} (hsame : t.SameGroups t')
    (hnt : ∀ x ≠ g, nt' x = nt x) (hgaps : ∀ x ≠ g, t'.grpGap.get? x = t.grpGap.get? x)
    (hgap : g ∉ w.settled → (t'.grpGap.get? g).getD 0 = nt' g)
    (hlost : t'.totalLost = t.totalLost + (nt' g - nt g))
    (haccount : sh g + nt' g + cnt g ≤ L.size ∧
      (L.learned → g ∈ w.settled → w.first ≠ some g → sh g + nt' g + cnt g = L.size)) :
    Books { L with current := none } cnt nt' sh w t' where
  __ := h
  rx := hsame.grpRx ▸ h.rx
  short := hsame.grpShort ▸ h.short
  kept := hsame.grpShort ▸ h.kept
  gap := by
    intro x hx
    by_cases hxg : x = g
    · rw [hxg]
      exact hgap (hxg ▸ hx)
    · rw [hgaps x hxg, hnt x hxg]
      exact h.gap x hx
  floor := hsame.grpFloor ▸ h.floor
  first := hsame.grpFirst ▸ h.first
  bunched := hsame.grpShort ▸ h.bunched
  account := by
    intro x _
    by_cases hxg : x = g
    · rw [hxg]
      exact haccount
    · rw [hnt x hxg]
      exact h.account x fun heq => hxg (Option.some.inj (heq.trans hcurrent))
  lost := by
    have hothers : ∑ x ∈ L.groups.erase g, (sh x + nt' x) =
        ∑ x ∈ L.groups.erase g, (sh x + nt x) := by
      apply Finset.sum_congr rfl
      intro x hx
      rw [hnt x (Finset.ne_of_mem_erase hx)]
    have hold := h.lost
    rw [← Finset.add_sum_erase _ _ hgroup] at hold
    rw [← Finset.add_sum_erase _ _ hgroup, hothers, hlost, hold]
    push_cast
    omega

end Books

end AioMoqt.Stats
