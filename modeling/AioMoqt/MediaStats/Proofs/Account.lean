import Mathlib.Algebra.Order.BigOperators.Group.Finset
import AioMoqt.MediaStats.Proofs.Clock
import AioMoqt.MediaStats.Proofs.Continuity

/-!
# The accounting of a track agrees with its ledger

What a call does to the groups and gaps that are tracked, and to the counters beside them, the
ledger does to the missing ids and the absent groups.
-/

namespace AioMoqt.MediaStats

open AioMoqt.Lib

namespace Books

variable {c now : Int} {n : Nat × Nat} {times : List Int} {l l' : Ledger} {t t' : TrackAnalysis}
  {gid : Nat} {g g' : Group}

/-! ## Calls -/

theorem count (h : Books c n times l t) (o : Observed) :
    Books c (n.1 + 1, n.2) times l (t.count o) := by
  have hone : Books c (n.1 + 1, n.2) times l
      { t with objects := t.objects + 1, bytes := t.bytes + o.size } := by
    rw [← h.counted]
    exact (h.recount (t.objects + 1) t.dups).congr rfl rfl rfl rfl rfl rfl rfl rfl rfl
  unfold TrackAnalysis.count
  cases hg : t.groupOf.get? o.gid with
  | none =>
      dsimp only
      rw [hg]
      dsimp only
      split
      · exact hone.congr rfl rfl rfl rfl rfl rfl rfl rfl rfl
      · exact hone.congr rfl rfl rfl rfl rfl rfl rfl rfl rfl
  | some g =>
      have hflags : Books c (n.1 + 1, n.2) times l
          (({ t with objects := t.objects + 1, bytes := t.bytes + o.size } : TrackAnalysis).put o.gid
            (if o.lastInGroup then
              { g with
                finEnds := g.finEnds || o.endsGroup, ended := true, eogOid := some (o.oid + 1) }
            else { g with finEnds := g.finEnds || o.endsGroup })) := by
        split
        · exact hone.putSame hg rfl rfl rfl rfl rfl
        · exact hone.putSame hg rfl rfl rfl rfl rfl
      dsimp only
      rw [hg]
      dsimp only
      split
      · exact hflags.congr rfl rfl rfl rfl rfl rfl rfl rfl rfl
      · exact hflags.congr rfl rfl rfl rfl rfl rfl rfl rfl rfl

theorem time (h : Books c n times l t) (o : Observed) : Books c n times l (t.time o) := by
  unfold TrackAnalysis.time
  split
  · exact h
  · dsimp only
    split
    · exact h.congr rfl rfl rfl rfl rfl rfl rfl rfl rfl
    · exact h.congr rfl rfl rfl rfl rfl rfl rfl rfl rfl

end Books

/-- The objects that count and the repeats. -/
def Ledger.counted (l : Ledger) : Nat × Nat := (l.observed.card + l.outside, l.repeats)

theorem Ledger.counted_again {l : Ledger} {gid oid : Nat} (h : (gid, oid) ∈ l.observed) :
    (l.place gid oid).counted = (l.counted.1, l.counted.2 + 1) := by
  show ((insert (gid, oid) l.observed).card + l.outside,
    if (gid, oid) ∈ l.observed then l.repeats + 1 else l.repeats) = _
  rw [Finset.insert_eq_of_mem h, if_pos h]
  rfl

theorem Ledger.counted_new {l : Ledger} {gid oid : Nat} (h : (gid, oid) ∉ l.observed) :
    (l.place gid oid).counted = (l.counted.1 + 1, l.counted.2) := by
  show ((insert (gid, oid) l.observed).card + l.outside,
    if (gid, oid) ∈ l.observed then l.repeats + 1 else l.repeats) = _
  rw [Finset.card_insert_of_notMem h, if_neg h, Nat.add_right_comm]
  rfl

namespace Books

variable {c now : Int} {times : List Int} {l : Ledger} {t : TrackAnalysis}

theorem observe {o : Observed} (h : Books c l.counted times l t) (hnow : o.recvUs ∈ times)
    (hlate : ∀ u ∈ times, u ≤ o.recvUs) (hoid : l.first = none → o.oid = 0) (hgap : o.priorGap = 0)
    (hsteady : t.judges (.object o.gid o.oid o.recvUs) = true →
      o.oid - l.extent o.gid ≤ holeCap ∧ (l.first ≠ none → o.gid - l.greatest - 1 ≤ holeCap)) :
    let r := Report.object o.gid o.oid o.recvUs
    let l' := if t.judges r then l.enter r else l.passBy r
    Books c l'.counted times l' (t.observe o) := by
  intro r l'
  have htick : Books c l.counted times l
      { t.tick o.recvUs with
        firstRx := some ((t.tick o.recvUs).firstRx.getD o.recvUs)
        lastRx := some o.recvUs } :=
    (h.tick hnow hlate).1.congr rfl rfl rfl rfl rfl rfl rfl rfl rfl
  unfold TrackAnalysis.observe
  dsimp only
  set t₁ : TrackAnalysis := { t.tick o.recvUs with
    firstRx := some ((t.tick o.recvUs).firstRx.getD o.recvUs)
    lastRx := some o.recvUs } with ht₁
  have hjudges : t.judges r = t₁.tracks o.gid := rfl
  have hjump : t₁.tracks o.gid = true → l.first ≠ none → o.gid - l.greatest - 1 ≤ holeCap :=
    fun htracks => (hsteady htracks).2
  have hheard := htick.heard o.oid hnow hlate hoid hjump
  unfold TrackAnalysis.continuity
  cases hcase : t₁.heard o.gid o.recvUs o.oid with
  | none =>
      rw [hcase] at hheard
      have hl' : l' = { l with outside := l.outside + 1 } := by
        show (if t.judges r = true then l.enter r else l.passBy r) = _
        rw [hjudges, hheard]
        rfl
      dsimp only
      rw [if_pos hgap, hl']
      exact ((htick.counts l.repeats (l.outside + 1)).count o).time o
  | some found =>
      obtain ⟨⟨t₂, g⟩, gap⟩ := found
      rw [hcase] at hheard
      obtain ⟨htracks, hbooks, hg⟩ := hheard
      have hl' : l' = (l.hear o.gid o.recvUs).place o.gid o.oid := by
        show (if t.judges r = true then l.enter r else l.passBy r) = _
        rw [hjudges, htracks]
        rfl
      have hreordered : Books c l.counted times (l.hear o.gid o.recvUs)
          (gap.elim t₂ fun gap => t₂.reordered gap o.recvUs) := by
        cases gap with
        | none => exact hbooks
        | some gap => exact hbooks.congr rfl rfl rfl rfl rfl rfl rfl rfl rfl
      have hg' : (gap.elim t₂ fun gap => t₂.reordered gap o.recvUs).groupOf.get? o.gid = some g := by
        cases gap with
        | none => exact hg
        | some gap => exact hg
      have hrx : g.lastRx = o.recvUs :=
        (Option.some.inj ((hbooks.group o.gid g hg).heard.symm.trans Ledger.word_hear_self))
      obtain ⟨hplace, hflag⟩ := hreordered.place hnow hlate hg' hrx (hsteady htracks).1
      dsimp only
      rcases hresult : (gap.elim t₂ fun gap => t₂.reordered gap o.recvUs).place o.gid g o.oid
        o.recvUs with ⟨t₃, new⟩
      rw [hresult] at hplace hflag
      rw [hl']
      by_cases hmem : (o.gid, o.oid) ∈ (l.hear o.gid o.recvUs).observed
      · rw [show new = false from hflag.trans (decide_eq_false (not_not_intro hmem))]
        rw [if_pos hmem] at hplace
        rw [Ledger.counted_again hmem]
        exact hplace
      · rw [show new = true from hflag.trans (decide_eq_true hmem)]
        rw [if_neg hmem] at hplace
        dsimp only
        rw [if_pos hgap, Ledger.counted_new hmem]
        exact (hplace.count o).time o

theorem endGroup {gid eogOid : Nat} (h : Books c l.counted times l t) (hnow : now ∈ times)
    (hlate : ∀ u ∈ times, u ≤ now) (hfirst : l.first ≠ none)
    (hsteady : t.judges (.groupEnd gid eogOid now) = true →
      eogOid - l.extent gid ≤ holeCap ∧ (l.first ≠ none → gid - l.greatest - 1 ≤ holeCap)) :
    let r := Report.groupEnd gid eogOid now
    let l' := if t.judges r then l.enter r else l.passBy r
    Books c l'.counted times l' (t.endGroup gid eogOid now) := by
  intro r l'
  have htick := (h.tick hnow hlate).1
  have hjudges : t.judges r = (t.tick now).tracks gid := rfl
  have hjump : (t.tick now).tracks gid = true → l.first ≠ none → gid - l.greatest - 1 ≤ holeCap :=
    fun htracks => (hsteady htracks).2
  have hheard := htick.heard eogOid hnow hlate (fun hnone => absurd hnone hfirst) hjump
  unfold TrackAnalysis.endGroup
  dsimp only
  cases hcase : (t.tick now).heard gid now eogOid with
  | none =>
      rw [hcase] at hheard
      have hl' : l' = l := by
        show (if t.judges r = true then l.enter r else l.passBy r) = _
        rw [hjudges, hheard]
        rfl
      rw [hl']
      exact htick
  | some found =>
      obtain ⟨⟨t₂, g⟩, gap⟩ := found
      rw [hcase] at hheard
      obtain ⟨htracks, hbooks, hg⟩ := hheard
      have hl' : l' = (l.hear gid now).extend gid eogOid := by
        show (if t.judges r = true then l.enter r else l.passBy r) = _
        rw [hjudges, htracks]
        rfl
      have hkept := hbooks.group gid g hg
      have hrx : g.lastRx = now := Option.some.inj (hkept.heard.symm.trans Ledger.word_hear_self)
      have hend := hbooks.groupEnd hnow hlate hg hrx (hsteady htracks).1
      have hextent := hkept.extent
      unfold Group.extent at hextent
      rw [hl']
      dsimp only
      cases hmax : g.maxOid with
      | none =>
          rw [hmax] at hextent
          rw [← hextent, hmax] at hend
          rw [if_neg (Bool.eq_false_iff.mp hkept.joined)]
          exact hend
      | some maxOid =>
          rw [hmax] at hextent
          rw [← hextent, hmax] at hend
          exact hend

end Books

/-! ## Runs -/

namespace Audit

theorem run_concat (c : Int) (events : List Event) (e : Event) :
    run c (events ++ [e]) = (run c events).step e := by
  unfold run
  rw [List.foldl_append]
  rfl

end Audit

namespace Plays

variable {c : Int} {events : List Event} {e : Event}

theorem take (h : Plays c events) {before : List Event} (hbefore : before <+: events) :
    Plays c before := by
  obtain ⟨after, rfl⟩ := hbefore
  constructor
  case timed =>
    have htimed := h.timed
    rw [List.filterMap_append, List.pairwise_append] at htimed
    exact htimed.1
  case first =>
    intro r hr
    apply h.first r
    rw [List.filterMap_append, List.head?_append, hr]
    rfl
  case noGap => exact fun o ho => h.noGap o (List.mem_append_left _ ho)
  case steady =>
    intro i hi e he r hr
    have hsteady := h.steady i (by rw [List.length_append]; omega) e
    rw [List.getElem?_append_left hi, List.take_append_of_le_length hi.le] at hsteady
    exact hsteady he r hr

theorem init (h : Plays c (events ++ [e])) : Plays c events := h.take (List.prefix_append _ _)

theorem last_steady (h : Plays c (events ++ [e])) {r : Report} (hr : e.report = some r) :
    (Audit.run c events).Steady r := by
  have hsteady := h.steady events.length (by rw [List.length_append]; exact Nat.lt_succ_self _) e
  rw [List.getElem?_concat_length, List.take_left] at hsteady
  exact hsteady rfl r hr

theorem last_late (h : Plays c (events ++ [e])) (now : Int) (hnow : e.now = some now) :
    ∀ u ∈ events.filterMap Event.now ++ [now], u ≤ now := by
  have htimed := h.timed
  rw [List.filterMap_append, List.pairwise_append] at htimed
  intro u hu
  rcases List.mem_append.mp hu with hu | hu
  · exact htimed.2.2 u hu now (by simp [hnow])
  · exact (List.mem_singleton.mp hu).le

end Plays

/-- Before the first report every report is judged. -/
theorem Books.judges_first {c : Int} {n : Nat × Nat} {times : List Int} {l : Ledger}
    {t : TrackAnalysis} {r : Report} (h : Books c n times l t) (hlate : ∀ u ∈ times, u ≤ r.now)
    (hfirst : l.first = none) : t.judges r = true := by
  have hlate' : ∀ u ∈ times ++ [r.now], u ≤ r.now := by
    intro u hu
    rcases List.mem_append.mp hu with hu | hu
    · exact hlate u hu
    · exact (List.mem_singleton.mp hu).le
  have htick := (h.mono r.now fun u hu => List.mem_append_left _ hu).tick
    (List.mem_append_right _ (List.mem_singleton_self _)) hlate'
  have hmax := htick.1.newest
  rw [if_pos hfirst] at hmax
  refine Books.tracks_iff.mpr (Or.inr (Or.inr ?_))
  rw [hmax]
  exact nofun

/-- What a run leaves: the books agree with the ledger, and without a first group there was no
report. -/
structure Agrees (c : Int) (events : List Event) (a : Audit) : Prop where
  books : Books c a.ledger.counted (events.filterMap Event.now) a.ledger a.t
  silent : a.ledger.first = none → events.filterMap Event.report = []

namespace Agrees

variable {c now : Int} {events : List Event} {e : Event} {a : Audit} {r : Report}

theorem books_at (h : Agrees c events a) (now : Int) :
    Books c a.ledger.counted (events.filterMap Event.now ++ [now]) a.ledger a.t :=
  h.books.mono now fun _ hu => List.mem_append_left _ hu

/-- The first report of a run is object 0 of a group. -/
theorem first_report (h : Agrees c events a) (hplays : Plays c (events ++ [e]))
    (hr : e.report = some r) (hfirst : a.ledger.first = none) : ∃ gid now, r = .object gid 0 now := by
  apply hplays.first
  rw [List.filterMap_append, h.silent hfirst]
  simp [hr]

/-- Behind a report there is a first group. -/
theorem first_ne (h : Agrees c events a) (hlate : ∀ u ∈ events.filterMap Event.now, u ≤ r.now) :
    (if a.t.judges r then a.ledger.enter r else a.ledger.passBy r).first ≠ none := by
  by_cases hjudges : a.t.judges r = true
  · rw [if_pos hjudges]
    cases r with
    | object gid oid now => exact nofun
    | groupEnd gid eogOid now => exact nofun
  · rw [if_neg hjudges]
    have hfirst : a.ledger.first ≠ none := fun hnone => hjudges (h.books.judges_first hlate hnone)
    cases r with
    | object gid oid now => exact hfirst
    | groupEnd gid eogOid now => exact hfirst

theorem step (h : Agrees c events a) (hplays : Plays c (events ++ [e]))
    (ha : a = Audit.run c events) : Agrees c (events ++ [e]) (a.step e) := by
  have hsilent : e.report = none → (a.step e).ledger.first = none →
      (events ++ [e]).filterMap Event.report = [] := by
    intro hreport hfirst
    have hledger : (a.step e).ledger = a.ledger := by
      unfold Audit.step
      rw [hreport]
    rw [hledger] at hfirst
    rw [List.filterMap_append, h.silent hfirst]
    simp [hreport]
  cases e with
  | observe o =>
      have hlate := hplays.last_late o.recvUs rfl
      have hsteady := hplays.last_steady (r := .object o.gid o.oid o.recvUs) rfl
      rw [← ha] at hsteady
      have hfirst := h.first_ne (r := .object o.gid o.oid o.recvUs)
        fun u hu => hlate u (List.mem_append_left _ hu)
      refine ⟨?_, fun hnone => absurd hnone hfirst⟩
      rw [List.filterMap_append]
      refine (h.books_at o.recvUs).observe (List.mem_append_right _ (List.mem_singleton_self _)) hlate
        ?_ (hplays.noGap o (List.mem_append_right _ (List.mem_singleton_self _))) hsteady
      intro hnone
      obtain ⟨gid, now, heq⟩ := h.first_report hplays rfl hnone
      exact (Report.object.inj heq).2.1
  | endGroup gid eogOid recvUs =>
      have hlate := hplays.last_late recvUs rfl
      have hsteady := hplays.last_steady (r := .groupEnd gid eogOid recvUs) rfl
      rw [← ha] at hsteady
      have hfirst := h.first_ne (r := .groupEnd gid eogOid recvUs)
        fun u hu => hlate u (List.mem_append_left _ hu)
      refine ⟨?_, fun hnone => absurd hnone hfirst⟩
      rw [List.filterMap_append]
      refine (h.books_at recvUs).endGroup (List.mem_append_right _ (List.mem_singleton_self _)) hlate
        ?_ hsteady
      intro hnone
      obtain ⟨gid', now, heq⟩ := h.first_report hplays rfl hnone
      cases heq
  | streamEnd gid clean resetCode =>
      refine ⟨?_, hsilent rfl⟩
      rw [List.filterMap_append, show [Event.streamEnd gid clean resetCode].filterMap Event.now = []
        from rfl, List.append_nil]
      exact h.books.streamEnd gid clean resetCode
  | interval nowUs =>
      refine ⟨?_, hsilent rfl⟩
      rw [List.filterMap_append]
      exact (h.books_at nowUs).interval (List.mem_append_right _ (List.mem_singleton_self _))
        (hplays.last_late nowUs rfl)
  | summary nowUs =>
      refine ⟨?_, hsilent rfl⟩
      rw [List.filterMap_append]
      exact (h.books_at nowUs).summary (List.mem_append_right _ (List.mem_singleton_self _))
        (hplays.last_late nowUs rfl)

end Agrees

theorem agrees_run {c : Int} {events : List Event} (h : Plays c events) :
    Agrees c events (Audit.run c events) := by
  induction events using List.reverseRecOn with
  | nil => exact ⟨Books.start c, fun _ => rfl⟩
  | append_singleton events e ih =>
      rw [Audit.run_concat]
      exact (ih h.init).step h rfl

/-- A report that is not judged is of a group before the first, or of one that was let go. -/
theorem Agrees.letGo {c : Int} {events : List Event} {a : Audit} {r : Report}
    (h : Agrees c events a) (hlate : ∀ u ∈ events.filterMap Event.now, u ≤ r.now)
    (hjudges : a.t.judges r = false) : a.LetGo r := by
  have hlate' : ∀ u ∈ events.filterMap Event.now ++ [r.now], u ≤ r.now := by
    intro u hu
    rcases List.mem_append.mp hu with hu | hu
    · exact hlate u hu
    · exact (List.mem_singleton.mp hu).le
  have htick := ((h.books_at r.now).tick (List.mem_append_right _ (List.mem_singleton_self _))
    hlate').1
  have huntracked : ¬ (a.t.tick r.now).tracks r.gid = true := Bool.not_eq_true _ ▸ hjudges
  rw [Books.tracks_iff, not_or, not_or] at huntracked
  obtain ⟨hgroup, hgap, hmax⟩ := huntracked
  have hheard : r.gid ∈ a.ledger.opened ∨ r.gid ∈ a.ledger.absent → a.LetGo r := by
    intro hold
    rcases htick.letGo r.gid hold with hkey | hkey | ⟨word, hword, now, hnow, hlt⟩
    · exact absurd hkey hgroup
    · exact absurd hkey hgap
    · refine Or.inr ⟨word, hword, ?_⟩
      have hle := hlate' now hnow
      rw [h.books.cushion]
      omega
  have hnewest := htick.newest
  rcases htick.sound.cases r.gid with hbefore | hopened | habsent | hnone | hbeyond
  · exact Or.inl hbefore
  · exact hheard (Or.inl hopened)
  · exact hheard (Or.inr habsent)
  · rw [if_pos hnone] at hnewest
    rw [hnewest] at hmax
    exact absurd nofun hmax
  · by_cases hnone : a.ledger.first = none
    · rw [if_pos hnone] at hnewest
      rw [hnewest] at hmax
      exact absurd nofun hmax
    · rw [if_neg hnone] at hnewest
      rw [hnewest] at hmax
      refine absurd ?_ hmax
      intro m hm
      exact Option.some.inj hm ▸ hbeyond

/-- No more holes are undeclared than ids are missing. -/
theorem Books.undeclaredHoles_le {c : Int} {n : Nat × Nat} {times : List Int} {l : Ledger}
    {t : TrackAnalysis} (h : Books c n times l t) : t.undeclaredHoles ≤ l.missingIds := by
  have hgroup : ∀ entry ∈ t.groupOf.entries, entry.2.holes.undeclared ≤ (l.missing entry.1).card := by
    intro entry hentry
    have hkept := h.group entry.1 entry.2 (Dict.get?_eq_some.mpr hentry)
    calc entry.2.holes.undeclared
      _ ≤ entry.2.holes.size := Dict.undeclared_le_size _
      _ = entry.2.holes.keys.toFinset.card := Dict.size_eq_card _
      _ = (l.missing entry.1).card := by
          congr 1
          ext oid
          rw [List.mem_toFinset, hkept.holes]
  have hopened : t.groupOf.keys.toFinset ⊆ l.opened := by
    intro gid hgid
    rw [List.mem_toFinset] at hgid
    obtain ⟨g, hg⟩ := Option.ne_none_iff_exists'.mp (Dict.mem_keys.mp hgid)
    exact (h.group gid g hg).opened
  calc t.undeclaredHoles
    _ ≤ (t.groupOf.entries.map fun entry => (l.missing entry.1).card).sum :=
        List.sum_le_sum hgroup
    _ = (t.groupOf.keys.map fun gid => (l.missing gid).card).sum := by
        rw [Dict.keys, List.map_map]
        rfl
    _ = ∑ gid ∈ t.groupOf.keys.toFinset, (l.missing gid).card :=
        (List.sum_toFinset _ t.groupOf.nodup).symm
    _ ≤ l.missingIds := Finset.sum_le_sum_of_subset hopened

theorem Books.undeclaredGaps_le {c : Int} {n : Nat × Nat} {times : List Int} {l : Ledger}
    {t : TrackAnalysis} (h : Books c n times l t) : t.undeclaredGaps ≤ l.absent.card := by
  have habsent : t.gaps.keys.toFinset ⊆ l.absent := by
    intro gid hgid
    rw [List.mem_toFinset] at hgid
    obtain ⟨gap, hgap⟩ := Option.ne_none_iff_exists'.mp (Dict.mem_keys.mp hgid)
    exact (h.gap gid gap hgap).1
  calc t.undeclaredGaps
    _ ≤ t.gaps.size := Dict.undeclared_le_size _
    _ = t.gaps.keys.toFinset.card := Dict.size_eq_card _
    _ ≤ l.absent.card := Finset.card_le_card habsent

namespace TrackAnalysis

/-- After each call of a run, what is counted is what the ledger says: the objects observed and
repeated while their groups were tracked, the ids and groups that are missing, and those of them
that are pending.  A report is outside the tracked range only if its group is before the first, or
was let go. -/
theorem accounts_exact (c : Int) (events before : List Event) (h : Plays c events)
    (hbefore : before <+: events) :
    let a := Audit.run c before
    let t := a.t
    let l := a.ledger
    (t.objects = l.observed.card + l.outside ∧ t.dups = l.repeats) ∧
      t.lost + t.undeclaredHoles = l.missingIds ∧
      t.lostGroups + t.undeclaredGaps = l.absent.card ∧
      t.pending = t.undeclaredHoles + t.undeclaredGaps ∧
      (0 ≤ t.lost ∧ 0 ≤ t.lostGroups ∧ 0 ≤ t.pending) ∧
      ∀ r : Report, (∀ u ∈ before.filterMap Event.now, u ≤ r.now) → t.judges r = false →
        a.LetGo r := by
  intro a t l
  have hagrees := agrees_run (h.take hbefore)
  have hbooks := hagrees.books
  have hholes := hbooks.undeclaredHoles_le
  have hgaps := hbooks.undeclaredGaps_le
  have hlost := hbooks.lost
  have hlostGroups := hbooks.lostGroups
  have hpending := hbooks.pending
  refine ⟨⟨congrArg Prod.fst hbooks.counted, congrArg Prod.snd hbooks.counted⟩, hlost, hlostGroups,
    hpending, ⟨?_, ?_, ?_⟩, fun r hlate hjudges => hagrees.letGo hlate hjudges⟩
  · show 0 ≤ (Audit.run c before).t.lost
    omega
  · show 0 ≤ (Audit.run c before).t.lostGroups
    omega
  · show 0 ≤ (Audit.run c before).t.pending
    omega

/-- A hole and a gap that are filled late, one behind the other. -/
theorem accounts_late :
    let events : List Event :=
      [.observe ⟨0, 0, 1, 0, none, none, false, false, 0⟩, .endGroup 0 3 1000,
        .observe ⟨2, 0, 1, 2000, none, none, false, false, 0⟩, .interval 700000,
        .observe ⟨0, 1, 1, 800000, none, none, false, false, 0⟩,
        .observe ⟨1, 0, 1, 900000, none, none, false, false, 0⟩]
    let a := Audit.run 500000 events
    (a.t.objects = a.ledger.observed.card + a.ledger.outside ∧ a.t.dups = a.ledger.repeats) ∧
      a.t.lost + a.t.undeclaredHoles = a.ledger.missingIds ∧
      a.t.lostGroups + a.t.undeclaredGaps = a.ledger.absent.card ∧
      a.t.pending = a.t.undeclaredHoles + a.t.undeclaredGaps ∧
      (0 ≤ a.t.lost ∧ 0 ≤ a.t.lostGroups ∧ 0 ≤ a.t.pending) ∧
      ∀ r : Report, (∀ u ∈ events.filterMap Event.now, u ≤ r.now) → a.t.judges r = false →
        a.LetGo r :=
  accounts_exact 500000
    [.observe ⟨0, 0, 1, 0, none, none, false, false, 0⟩, .endGroup 0 3 1000,
      .observe ⟨2, 0, 1, 2000, none, none, false, false, 0⟩, .interval 700000,
      .observe ⟨0, 1, 1, 800000, none, none, false, false, 0⟩,
      .observe ⟨1, 0, 1, 900000, none, none, false, false, 0⟩] _
    ⟨by decide, by simp [Event.report], by simp, by decide +kernel⟩ (List.prefix_refl _)

/-- Objects of a group before the first are counted without being told apart: nothing is ever
missing, and of three objects two are the same. -/
theorem counts_before_first :
    let events : List Event :=
      [.observe ⟨5, 0, 1, 0, none, none, false, false, 0⟩,
        .observe ⟨4, 0, 1, 1000, none, none, false, false, 0⟩,
        .observe ⟨4, 0, 1, 2000, none, none, false, false, 0⟩]
    let ledger := fun events : List Event => (events.filterMap Event.report).foldl Ledger.enter {}
    let t := (Audit.run 500000 events).t
    Plays 500000 events ∧
      (∀ i ≤ 3, (ledger (events.take i)).missingIds = 0 ∧ (ledger (events.take i)).absent = ∅) ∧
      (ledger events).observed.card = 2 ∧ (ledger events).repeats = 1 ∧ t.objects = 3 ∧ t.dups = 0 := by
  refine ⟨⟨by decide, by simp [Event.report], by simp, by decide +kernel⟩, ?_⟩
  decide +kernel

end TrackAnalysis

end AioMoqt.MediaStats
