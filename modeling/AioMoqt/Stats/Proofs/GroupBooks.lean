import Mathlib.Algebra.BigOperators.Fin
import AioMoqt.Stats.Proofs.KeyViews

/-!
# The books of the groups

What the group accounting knows, apart from its bounds on memory: which groups are open and what
arrived of them, and by how much the settled ones fall short.  Each operation on the statistics
keeps the books; a record that is dropped is of a group too far behind to be asked for again.
-/

namespace AioMoqt.Stats

open AioMoqt.Lib AioMoqt.Lib.Strided

namespace GroupWindow

/-- A group is closed. -/
def close (w : GroupWindow) (g : Nat) : GroupWindow :=
  { w with opened := w.opened.erase g, closed := insert g w.closed }

/-- A group is skipped. -/
def skip (w : GroupWindow) (g : Nat) : GroupWindow := { w with skipped := insert g w.skipped }

variable {w : GroupWindow} {g g' : Nat}

theorem mem_settled : g ∈ w.settled ↔ g ∈ w.closed ∨ g ∈ w.skipped := Finset.mem_union

theorem settled_close : g' ∈ (w.close g).settled ↔ g' = g ∨ g' ∈ w.settled := by
  rw [mem_settled, mem_settled, close, Finset.mem_insert, or_assoc]

theorem settled_skip : g' ∈ (w.skip g).settled ↔ g' = g ∨ g' ∈ w.settled := by
  rw [mem_settled, mem_settled, skip, Finset.mem_insert]
  tauto

end GroupWindow

/-- A group's share changes. -/
theorem sum_update {G : Finset Nat} {x : Nat} (hx : x ∈ G) (sh nt : Nat → Nat) (v : Nat) :
    (∑ g ∈ G, (Function.update sh x v g + nt g)) + sh x = (∑ g ∈ G, (sh g + nt g)) + v := by
  have hothers : ∑ g ∈ G.erase x, (Function.update sh x v g + nt g) =
      ∑ g ∈ G.erase x, (sh g + nt g) := by
    apply Finset.sum_congr rfl
    intro g hg
    rw [Function.update_of_ne (Finset.ne_of_mem_erase hg)]
  rw [← Finset.add_sum_erase _ _ hx, ← Finset.add_sum_erase _ _ hx, hothers, Function.update_self]
  omega

/-- What the books are kept of: the groups there are, their size, and whether that was learned
before a group was settled; the group that an object is just counted for; the newest group, and
the one that was the newest before. -/
structure Ledger where
  groups : Finset Nat
  size : Nat
  learned : Prop
  current : Option Nat
  top : Nat
  base : Nat

/-- The books: `cnt` objects of a group arrived, `nt` are noted, and `sh` it falls short. -/
structure Books (L : Ledger) (cnt nt sh : Nat → Nat) (w : GroupWindow) (t : TrackStats) :
    Prop where
  rx : ∀ g, t.grpRx.get? g = if g ∈ w.opened then some (cnt g) else none
  short : ∀ g v, t.grpShort.get? g = some v → g ∈ w.settled ∧ sh g = v
  kept : ∀ g ∈ w.settled, L.top ≤ g + keyReorderSlack → g ∈ t.grpShort.keys
  off : ∀ g, g ∉ w.settled → sh g = 0
  gap : ∀ g, g ∉ w.settled → (t.grpGap.get? g).getD 0 = nt g
  floor : ∀ g : Nat, (g : Int) ≤ t.grpFloor ↔ ∃ c ∈ w.closed, g ≤ c
  first : t.grpFirst = w.first
  joined : ∀ g, w.first = some g → sh g = 0
  apart : ∀ g ∈ w.opened, g ∉ w.settled
  below : ∀ g ∈ w.settled, g < L.top
  near : ∀ g ∈ w.opened, g = L.top ∨ (g ≤ L.base ∧ L.base ≤ g + keyReorderSlack)
  known : (∀ g ∈ w.opened, g ∈ L.groups) ∧ ∀ g ∈ w.settled, g ∈ L.groups
  bunched : Bunched keyReorderSlack w.opened t.grpShort.keys
  account : ∀ g, some g ≠ L.current → sh g + nt g + cnt g ≤ L.size ∧
    (L.learned → g ∈ w.settled → w.first ≠ some g → sh g + nt g + cnt g = L.size)
  lost : t.totalLost = ((∑ g ∈ L.groups, (sh g + nt g) : Nat) : Int)

namespace TrackStats

@[simp] theorem trimSettled_grpFloor (t : TrackStats) : t.trimSettled.grpFloor = t.grpFloor := by
  unfold trimSettled
  rfl

/-- By how much a group that is open falls short. -/
def shortOf (t : TrackStats) (g n : Nat) : Nat :=
  if t.grpFirst = some g then 0 else ((t.grpSize : Int) - n - (t.grpGap.get? g).getD 0).toNat

theorem settleGroup_open (t : TrackStats) {g n : Nat} (h : t.grpRx.get? g = some n) :
    t.settleGroup g = TrackStats.trimSettled { t with
      grpRx := t.grpRx.erase g
      grpGap := t.grpGap.erase g
      totalLost := t.totalLost + t.shortOf g n
      grpShort := t.grpShort.insert g (t.shortOf g n)
      grpFloor := max t.grpFloor g } := by
  unfold settleGroup
  rw [h]
  dsimp only
  rw [trimSettled_grpFloor]
  dsimp only
  by_cases hfloor : t.grpFloor < (g : Int)
  · rw [if_pos hfloor, max_eq_right hfloor.le]
    rfl
  · rw [if_neg hfloor, max_eq_left (not_lt.mp hfloor)]
    rfl

theorem settleGroup_frame (t : TrackStats) (g : Nat) :
    t.SameKeys (t.settleGroup g) ∧ (t.settleGroup g).grpSize = t.grpSize ∧
      (t.settleGroup g).grpMax = t.grpMax := by
  cases hget : t.grpRx.get? g with
  | none =>
      unfold settleGroup
      rw [hget]
      exact ⟨SameKeys.rfl, rfl, rfl⟩
  | some n =>
      rw [t.settleGroup_open hget]
      unfold trimSettled
      exact ⟨by constructor <;> exact .refl _, rfl, rfl⟩

end TrackStats

namespace Books

variable {L : Ledger} {cnt nt sh : Nat → Nat} {w : GroupWindow} {t : TrackStats}

theorem records_settled (h : Books L cnt nt sh w t) {g : Nat} (hg : g ∈ t.grpShort.keys) :
    g ∈ w.settled := by
  obtain ⟨v, hv⟩ := Option.ne_none_iff_exists'.mp (Dict.mem_keys.mp hg)
  exact (h.short g v hv).1

/-- Below the newest group only few are open far behind one. -/
theorem few (h : Books L cnt nt sh w t) {x : Nat} (hx : x ≤ L.top) :
    (w.opened.filter (· + keyReorderSlack < x)).card ≤ keyReorderSlack + 1 := by
  have hsub : w.opened.filter (· + keyReorderSlack < x) ⊆
      Finset.Icc (L.base - keyReorderSlack) L.base := by
    intro g hg
    obtain ⟨hopened, hlow⟩ := Finset.mem_filter.mp hg
    rw [Finset.mem_Icc]
    rcases h.near g hopened with htop | hnear
    · omega
    · omega
  have hcard := Finset.card_le_card hsub
  rw [Nat.card_Icc] at hcard
  omega

/-- A record that is dropped is of a group far behind. -/
theorem trimSettled (h : Books L cnt nt sh w t) : Books L cnt nt sh w t.trimSettled := by
  unfold TrackStats.trimSettled
  generalize hrecords : t.grpShort.keepNewest settledCap = records
  constructor
  case rx => exact h.rx
  case short =>
    intro g v hv
    subst hrecords
    exact h.short g v (Dict.get?_of_keepNewest hv)
  case kept =>
    intro g hg htop
    by_contra hgone
    subst hrecords
    obtain ⟨before, after, hsplit, hmany⟩ := Dict.dropped_keepNewest (h.kept g hg htop) hgone
    have hcap : 3 * keyReorderSlack + 3 ≤ settledCap := by decide
    have hfar := h.bunched.far_behind t.grpShort.nodup
      (fun c hc => (h.below c (h.records_settled hc)).le) hsplit (hcap.trans hmany)
    exact absurd htop (not_le.mpr hfar)
  case off => exact h.off
  case gap => exact h.gap
  case floor => exact h.floor
  case first => exact h.first
  case joined => exact h.joined
  case apart => exact h.apart
  case below => exact h.below
  case near => exact h.near
  case known => exact h.known
  case bunched =>
    subst hrecords
    show Bunched _ _ (t.grpShort.keepNewest settledCap).keys
    rw [Dict.keys_keepNewest]
    exact h.bunched.drop _
  case account => exact h.account
  case lost => exact h.lost

/-- A group is settled with what it falls short of, and the loss grows by that. -/
theorem record (h : Books L cnt nt sh w t) {w' : GroupWindow} {t' : TrackStats} {g v : Nat}
    (hnot : g ∉ w.settled) (htop : g < L.top) (hgroup : g ∈ L.groups)
    (hsettled : ∀ x, x ∈ w'.settled ↔ x = g ∨ x ∈ w.settled)
    (hshort : t'.grpShort = t.grpShort.insert g v) (hlost : t'.totalLost = t.totalLost + v)
    (hopened : ∀ x ∈ w'.opened, x ≠ g ∧ x ∈ w.opened) (hfirst : w'.first = w.first)
    (hjoined : w.first = some g → v = 0)
    (haccount : v + nt g + cnt g ≤ L.size ∧
      (L.learned → w.first ≠ some g → v + nt g + cnt g = L.size))
    (rx : ∀ x, t'.grpRx.get? x = if x ∈ w'.opened then some (cnt x) else none)
    (gap : ∀ x ≠ g, t'.grpGap.get? x = t.grpGap.get? x)
    (floor : ∀ x : Nat, (x : Int) ≤ t'.grpFloor ↔ ∃ c ∈ w'.closed, x ≤ c)
    (first : t'.grpFirst = t.grpFirst)
    (bunched : Bunched keyReorderSlack w'.opened (t.grpShort.keys ++ [g])) :
    Books L cnt nt (Function.update sh g v) w' t' := by
  have hkeys : t'.grpShort.keys = t.grpShort.keys ++ [g] := by
    rw [hshort, Dict.keys_insert, if_neg fun hmem => hnot (h.records_settled hmem)]
  constructor
  case rx => exact rx
  case short =>
    intro x v' hv
    rw [hshort, Dict.get?_insert] at hv
    rw [hsettled]
    by_cases hx : x = g
    · rw [if_pos hx] at hv
      cases hv
      rw [hx, Function.update_self]
      exact ⟨.inl rfl, rfl⟩
    · rw [if_neg hx] at hv
      rw [Function.update_of_ne hx]
      exact ⟨.inr (h.short x v' hv).1, (h.short x v' hv).2⟩
  case kept =>
    intro x hx hnear
    rw [hkeys, List.mem_append, List.mem_singleton]
    rcases (hsettled x).mp hx with hx | hx
    · exact .inr hx
    · exact .inl (h.kept x hx hnear)
  case off =>
    intro x hx
    rw [hsettled, not_or] at hx
    rw [Function.update_of_ne hx.1]
    exact h.off x hx.2
  case gap =>
    intro x hx
    rw [hsettled, not_or] at hx
    rw [gap x hx.1]
    exact h.gap x hx.2
  case floor => exact floor
  case first => exact first.trans (h.first.trans hfirst.symm)
  case joined =>
    intro x hx
    rw [hfirst] at hx
    by_cases hxg : x = g
    · rw [hxg, Function.update_self, hjoined (hxg ▸ hx)]
    · rw [Function.update_of_ne hxg]
      exact h.joined x hx
  case apart =>
    intro x hx hmem
    obtain ⟨hne, hx⟩ := hopened x hx
    exact h.apart x hx (((hsettled x).mp hmem).resolve_left hne)
  case below =>
    intro x hx
    rcases (hsettled x).mp hx with rfl | hx
    · exact htop
    · exact h.below x hx
  case near => exact fun x hx => h.near x (hopened x hx).2
  case known =>
    refine ⟨fun x hx => h.known.1 x (hopened x hx).2, fun x hx => ?_⟩
    rcases (hsettled x).mp hx with rfl | hx
    · exact hgroup
    · exact h.known.2 x hx
  case bunched => exact hkeys ▸ bunched
  case account =>
    intro x hx
    rw [hfirst]
    by_cases hxg : x = g
    · subst hxg
      rw [Function.update_self]
      exact ⟨haccount.1, fun hl _ hfirst => haccount.2 hl hfirst⟩
    · rw [Function.update_of_ne hxg]
      refine ⟨(h.account x hx).1, fun hl hmem hfirst => (h.account x hx).2 hl ?_ hfirst⟩
      exact ((hsettled x).mp hmem).resolve_left hxg
  case lost =>
    have hsum := sum_update hgroup sh nt v
    rw [h.off g hnot] at hsum
    rw [hlost, h.lost]
    omega

/-- A group that is open is settled: it falls short of what did not arrive of the learned size,
apart from what is noted. -/
theorem settleGroup (h : Books L cnt nt sh w t) {g : Nat} (hg : g ∈ w.opened) (htop : g < L.top)
    (hsize : t.grpSize ≤ L.size)
    (hlearned : L.learned → w.first ≠ some g → t.grpSize = L.size) (hroom : nt g + cnt g ≤ L.size) :
    ∃ sh', Books L cnt nt sh' (w.close g) (t.settleGroup g) := by
  have hnot := h.apart g hg
  have hgap := h.gap g hnot
  set short := t.shortOf g (cnt g) with hshort
  have heq := t.settleGroup_open ((h.rx g).trans (if_pos hg))
  rw [← hshort] at heq
  refine ⟨Function.update sh g short, ?_⟩
  rw [heq]
  apply trimSettled
  apply h.record hnot htop (h.known.1 g hg) (fun _ => GroupWindow.settled_close) rfl rfl
    (fun x hx => Finset.mem_erase.mp hx) rfl
  case hjoined => exact fun hfirst => by rw [hshort, TrackStats.shortOf, h.first, if_pos hfirst]
  case haccount =>
    rw [hshort, TrackStats.shortOf, h.first, hgap]
    by_cases hfirst : w.first = some g
    · rw [if_pos hfirst]
      exact ⟨by omega, fun _ hne => absurd hfirst hne⟩
    · rw [if_neg hfirst]
      refine ⟨by omega, fun hl _ => ?_⟩
      have := hlearned hl hfirst
      omega
  case rx =>
    intro x
    show (t.grpRx.erase g).get? x = if x ∈ w.opened.erase g then _ else _
    rw [Dict.get?_erase, h.rx x]
    by_cases hx : x = g
    · rw [if_pos hx, if_neg (by rw [hx]; exact Finset.notMem_erase g _)]
    · rw [if_neg hx]
      simp only [Finset.mem_erase, hx, ne_eq, not_false_eq_true, true_and]
  case gap => exact fun x hx => (Dict.get?_erase _ _ _).trans (if_neg hx)
  case floor =>
    intro x
    show (x : Int) ≤ max t.grpFloor g ↔ ∃ c ∈ insert g w.closed, x ≤ c
    rw [le_max_iff, h.floor x, Finset.exists_mem_insert, Int.ofNat_le, or_comm]
  case first => rfl
  case bunched => exact h.bunched.settle hg (h.few htop.le)

/-- A group that is skipped falls short of all of the learned size. -/
theorem skipGroup (h : Books L cnt nt sh w t) {g : Nat} (hopened : g ∉ w.opened)
    (habove : ∀ x ∈ w.settled, x < g) (hfirst : w.first ≠ some g) (htop : g < L.top)
    (hgroup : g ∈ L.groups) (hcnt : cnt g = 0) (hnt : nt g = 0) (hsize : t.grpSize ≤ L.size)
    (hlearned : L.learned → t.grpSize = L.size) :
    Books L cnt nt (Function.update sh g t.grpSize) (w.skip g) { t with
      grpShort := t.grpShort.insert g t.grpSize
      totalLost := t.totalLost + t.grpSize } := by
  apply h.record (fun hmem => absurd (habove g hmem) (lt_irrefl g)) htop hgroup
    (fun _ => GroupWindow.settled_skip) rfl rfl
    (fun x hx => ⟨fun heq => hopened (heq ▸ hx), hx⟩) rfl
  case hjoined => exact fun heq => absurd heq hfirst
  case haccount =>
    rw [hcnt, hnt]
    exact ⟨by omega, fun hl _ => hlearned hl⟩
  case rx => exact h.rx
  case gap => exact fun _ _ => rfl
  case floor => exact h.floor
  case first => rfl
  case bunched =>
    exact h.bunched.above (fun c hc => (habove c (h.records_settled hc)).le) (h.few htop.le)

/-- Groups are skipped in ascending order. -/
theorem skipGroups {gs : List Nat} (hgs : gs.Pairwise (· < ·)) (h : Books L cnt nt sh w t)
    (hopened : ∀ g ∈ gs, g ∉ w.opened) (habove : ∀ g ∈ gs, ∀ x ∈ w.settled, x < g)
    (hfirst : ∀ g ∈ gs, w.first ≠ some g) (htop : ∀ g ∈ gs, g < L.top)
    (hgroup : ∀ g ∈ gs, g ∈ L.groups) (hnone : ∀ g ∈ gs, cnt g = 0 ∧ nt g = 0)
    (hsize : t.grpSize ≤ L.size)
    (hlearned : L.learned → gs ≠ [] → t.grpSize = L.size) :
    ∃ sh', Books L cnt nt sh' (gs.foldl GroupWindow.skip w) (gs.foldl (fun t g => { t with
      grpShort := t.grpShort.insert g t.grpSize
      totalLost := t.totalLost + t.grpSize }) t) := by
  induction gs generalizing w sh t with
  | nil => exact ⟨sh, h⟩
  | cons g gs ih =>
      obtain ⟨hlater, hrest⟩ := List.pairwise_cons.mp hgs
      have hg := List.mem_cons_self (a := g) (l := gs)
      have hskip := h.skipGroup (hopened g hg) (habove g hg) (hfirst g hg) (htop g hg) (hgroup g hg)
        (hnone g hg).1 (hnone g hg).2 hsize fun hl => hlearned hl (List.cons_ne_nil g gs)
      exact ih hrest hskip
        (fun x hx => hopened x (List.mem_cons_of_mem g hx))
        (fun x hx y hy => (GroupWindow.settled_skip.mp hy).elim
          (fun heq => heq ▸ hlater x hx) (habove x (List.mem_cons_of_mem g hx) y))
        (fun x hx => hfirst x (List.mem_cons_of_mem g hx))
        (fun x hx => htop x (List.mem_cons_of_mem g hx))
        (fun x hx => hgroup x (List.mem_cons_of_mem g hx))
        (fun x hx => hnone x (List.mem_cons_of_mem g hx)) hsize
        fun hl _ => hlearned hl (List.cons_ne_nil g gs)

/-- Groups that are open are settled in turn. -/
theorem settleGroups {gs : List Nat} (hgs : gs.Nodup) (h : Books L cnt nt sh w t)
    (hopened : ∀ g ∈ gs, g ∈ w.opened) (htop : ∀ g ∈ gs, g < L.top)
    (hsize : t.grpSize ≤ L.size)
    (hlearned : L.learned → (∃ g ∈ gs, w.first ≠ some g) → t.grpSize = L.size)
    (hroom : ∀ g ∈ gs, nt g + cnt g ≤ L.size) :
    ∃ sh', Books L cnt nt sh' (gs.foldl GroupWindow.close w)
      (gs.foldl TrackStats.settleGroup t) := by
  induction gs generalizing w sh t with
  | nil => exact ⟨sh, h⟩
  | cons g gs ih =>
      obtain ⟨hnew, hrest⟩ := List.nodup_cons.mp hgs
      have hg := List.mem_cons_self (a := g) (l := gs)
      obtain ⟨sh₁, hsettle⟩ := h.settleGroup (hopened g hg) (htop g hg) hsize
        (fun hl hfirst => hlearned hl ⟨g, hg, hfirst⟩) (hroom g hg)
      have hgrpSize := (t.settleGroup_frame g).2.1
      exact ih hrest hsettle
        (fun x hx => Finset.mem_erase.mpr
          ⟨fun heq => hnew (heq ▸ hx), hopened x (List.mem_cons_of_mem g hx)⟩)
        (fun x hx => htop x (List.mem_cons_of_mem g hx))
        (hgrpSize ▸ hsize)
        (fun hl ⟨x, hx, hfirst⟩ => hgrpSize ▸ hlearned hl ⟨x, List.mem_cons_of_mem g hx, hfirst⟩)
        fun x hx => hroom x (List.mem_cons_of_mem g hx)

/-- A group is opened that is not far behind a record. -/
theorem openGroup (h : Books L cnt nt sh w t) {g : Nat} (hsettled : g ∉ w.settled)
    (hnear : g = L.top ∨ (g ≤ L.base ∧ L.base ≤ g + keyReorderSlack))
    (htop : L.top ≤ g + keyReorderSlack) (hgroup : g ∈ L.groups) (hone : cnt g = 1) :
    Books L cnt nt sh { w with opened := insert g w.opened }
      { t with grpRx := t.grpRx.insert g 1 } where
  __ := h
  rx := by
    intro x
    show (t.grpRx.insert g 1).get? x = if x ∈ insert g w.opened then _ else _
    rw [Dict.get?_insert, h.rx x]
    by_cases hx : x = g
    · rw [if_pos hx, if_pos (Finset.mem_insert.mpr (.inl hx)), hx, hone]
    · simp only [Finset.mem_insert, hx, false_or, if_false]
  apart := by
    intro x hx hmem
    rcases Finset.mem_insert.mp hx with rfl | hx
    · exact hsettled hmem
    · exact h.apart x hx hmem
  near := by
    intro x hx
    rcases Finset.mem_insert.mp hx with rfl | hx
    · exact hnear
    · exact h.near x hx
  known := by
    refine ⟨fun x hx => ?_, h.known.2⟩
    rcases Finset.mem_insert.mp hx with rfl | hx
    · exact hgroup
    · exact h.known.1 x hx
  bunched := h.bunched.insert fun c hc => (h.below c (h.records_settled hc)).le.trans htop

/-- The accounts of the other groups do not wait for the object that is being counted. -/
theorem account_others (h : Books L cnt nt sh w t) (hrest : L.current = none) {g : Nat}
    {cnt' : Nat → Nat} (hcnt : ∀ x ≠ g, cnt' x = cnt x) (x : Nat) (hx : some x ≠ some g) :
    sh x + nt x + cnt' x ≤ L.size ∧
      (L.learned → x ∈ w.settled → w.first ≠ some x → sh x + nt x + cnt' x = L.size) := by
  rw [hcnt x fun heq => hx (congrArg some heq)]
  exact h.account x (by rw [hrest]; exact Option.some_ne_none x)

/-- An object of a group that is not open. -/
theorem focus (h : Books L cnt nt sh w t) (hrest : L.current = none) {g : Nat} (hg : g ∉ w.opened)
    {cnt' : Nat → Nat} (hcnt : ∀ x ≠ g, cnt' x = cnt x) :
    Books { L with current := some g } cnt' nt sh w t where
  __ := h
  rx := by
    intro x
    rw [h.rx x]
    by_cases hx : x = g
    · rw [hx, if_neg hg, if_neg hg]
    · rw [hcnt x hx]
  account := h.account_others hrest hcnt

/-- Another object of a group that is open. -/
theorem bump (h : Books L cnt nt sh w t) (hrest : L.current = none) {g : Nat} (hg : g ∈ w.opened)
    {cnt' : Nat → Nat} (hcnt : ∀ x ≠ g, cnt' x = cnt x) :
    Books { L with current := some g } cnt' nt sh w
      { t with grpRx := t.grpRx.insert g (cnt' g) } where
  __ := h
  rx := by
    intro x
    show (t.grpRx.insert g (cnt' g)).get? x = _
    rw [Dict.get?_insert, h.rx x]
    by_cases hx : x = g
    · rw [if_pos hx, hx, if_pos hg]
    · rw [if_neg hx, hcnt x hx]
  account := h.account_others hrest hcnt

/-- A late object of a settled group that was not noted: the group falls one shorter. -/
theorem late (h : Books L cnt nt sh w t) {g : Nat} (hcurrent : L.current = some g)
    (hg : g ∈ w.settled) (hrecord : g ∈ t.grpShort.keys) (hpos : 0 < sh g) :
    Books L cnt nt (Function.update sh g (sh g - 1)) w { t with
      grpShort := t.grpShort.insert g (sh g - 1)
      totalLost := t.totalLost - 1 } where
  __ := h
  short := by
    intro x v hv
    have hv : (t.grpShort.insert g (sh g - 1)).get? x = some v := hv
    rw [Dict.get?_insert] at hv
    by_cases hx : x = g
    · rw [if_pos hx] at hv
      cases hv
      rw [hx, Function.update_self]
      exact ⟨hg, rfl⟩
    · rw [if_neg hx] at hv
      rw [Function.update_of_ne hx]
      exact h.short x v hv
  kept := by
    intro x hx hnear
    show x ∈ (t.grpShort.insert g (sh g - 1)).keys
    rw [Dict.keys_insert, if_pos hrecord]
    exact h.kept x hx hnear
  off := by
    intro x hx
    have hne : x ≠ g := by
      rintro rfl
      exact hx hg
    rw [Function.update_of_ne hne]
    exact h.off x hx
  joined := by
    intro x hx
    have hne : x ≠ g := by
      rintro rfl
      exact absurd (h.joined x hx) hpos.ne'
    rw [Function.update_of_ne hne]
    exact h.joined x hx
  bunched := by
    show Bunched _ _ (t.grpShort.insert g (sh g - 1)).keys
    rw [Dict.keys_insert, if_pos hrecord]
    exact h.bunched
  account := by
    intro x hx
    rw [Function.update_of_ne fun heq => hx (by rw [hcurrent, heq])]
    exact h.account x hx
  lost := by
    have hsum := sum_update (h.known.2 g hg) sh nt (sh g - 1)
    show t.totalLost - 1 = _
    rw [h.lost]
    omega

/-- The books do not depend on which group was the newest when no group is far behind. -/
theorem raise (h : Books L cnt nt sh w t) {top base : Nat} (htop : L.top ≤ top)
    (hnear : ∀ g ∈ w.opened, g = top ∨ (g ≤ base ∧ base ≤ g + keyReorderSlack)) :
    Books { L with top := top, base := base } cnt nt sh w t where
  __ := h
  kept := fun g hg hle => h.kept g hg (htop.trans hle)
  below := fun g hg => (h.below g hg).trans_le htop
  near := hnear

/-- Nothing in the books is about the learned size and the newest group of the statistics. -/
theorem size_max (h : Books L cnt nt sh w t) (grpSize : Nat) (grpMax : Int) :
    Books L cnt nt sh w { t with grpSize := grpSize, grpMax := grpMax } where
  __ := h

theorem window_congr (h : Books L cnt nt sh w t) (w' : GroupWindow) (hfirst : w'.first = w.first)
    (hopened : w'.opened = w.opened) (hclosed : w'.closed = w.closed)
    (hskipped : w'.skipped = w.skipped) : Books L cnt nt sh w' t := by
  have hsettled : w'.settled = w.settled := by
    unfold GroupWindow.settled
    rw [hclosed, hskipped]
  constructor
  case rx => exact hopened ▸ h.rx
  case short => exact hsettled ▸ h.short
  case kept => exact hsettled ▸ h.kept
  case off => exact hsettled ▸ h.off
  case gap => exact hsettled ▸ h.gap
  case floor => exact hclosed ▸ h.floor
  case first => exact hfirst ▸ h.first
  case joined => exact hfirst ▸ h.joined
  case apart => exact hsettled ▸ hopened ▸ h.apart
  case below => exact hsettled ▸ h.below
  case near => exact hopened ▸ h.near
  case known => exact hsettled ▸ hopened ▸ h.known
  case bunched => exact hopened ▸ h.bunched
  case account => exact hsettled ▸ hfirst ▸ h.account
  case lost => exact h.lost

end Books

end AioMoqt.Stats
