import Mathlib.Order.Interval.Finset.SuccPred
import AioMoqt.MediaStats.Account

/-!
# The ledger of a track

What a report does to the missing ids of its group and to the absent groups: an object that was
missing is taken away, and what a report passes is added.
-/

namespace AioMoqt.MediaStats

open AioMoqt.Lib

namespace Ledger

variable {l : Ledger} {gid : Nat}

/-- Observed ids lie in opened groups below their extent, and opened groups between the first and
the greatest. -/
structure Sound (l : Ledger) : Prop where
  below : ∀ gid oid, (gid, oid) ∈ l.observed → oid < l.extent gid
  known : ∀ gid, 0 < l.extent gid → gid ∈ l.opened
  fresh : l.first = none → l.greatest = 0 ∧ l.opened = ∅
  first : ∀ first ∈ l.first, first ∈ l.opened ∧ ∀ gid ∈ l.opened, first ≤ gid
  greatest : ∀ gid ∈ l.opened, gid ≤ l.greatest
  reached : l.first ≠ none → l.greatest ∈ l.opened

theorem Sound.empty : Sound {} where
  below := nofun
  known := nofun
  fresh := fun _ => ⟨rfl, rfl⟩
  first := nofun
  greatest := nofun
  reached := fun h => absurd rfl h

theorem mem_missing {oid : Nat} :
    oid ∈ l.missing gid ↔ oid < l.extent gid ∧ (gid, oid) ∉ l.observed := by
  rw [missing, Finset.mem_filter, Finset.mem_range]

theorem mem_absent : gid ∈ l.absent ↔
    (l.first.getD 0 < gid ∧ gid < l.greatest) ∧ gid ∉ l.opened := by
  rw [absent, Finset.mem_sdiff, Finset.mem_Ioo]

theorem Sound.first_ne (h : l.Sound) (hgid : gid ∈ l.opened) : l.first ≠ none := by
  intro hfirst
  rw [(h.fresh hfirst).2] at hgid
  exact absurd hgid (Finset.notMem_empty gid)

theorem Sound.missing_unopened (h : l.Sound) (hgid : gid ∉ l.opened) : l.missing gid = ∅ := by
  rw [Finset.eq_empty_iff_forall_notMem]
  intro oid hoid
  have hlt := (mem_missing.mp hoid).1
  exact hgid (h.known gid (by omega))

/-- A group is before the first, opened, absent or beyond the greatest. -/
theorem Sound.cases (h : l.Sound) (gid : Nat) :
    (∃ first ∈ l.first, gid < first) ∨ gid ∈ l.opened ∨ gid ∈ l.absent ∨
      l.first = none ∨ l.greatest < gid := by
  by_cases hopened : gid ∈ l.opened
  · exact Or.inr (Or.inl hopened)
  cases hfirst : l.first with
  | none => exact Or.inr (Or.inr (Or.inr (Or.inl rfl)))
  | some first =>
      have hreached := h.reached (by rw [hfirst]; exact nofun)
      have hstart := (h.first first hfirst).1
      by_cases hgreatest : l.greatest < gid
      · exact Or.inr (Or.inr (Or.inr (Or.inr hgreatest)))
      by_cases hbefore : gid < first
      · exact Or.inl ⟨first, rfl, hbefore⟩
      · have hlast : gid ≠ l.greatest := fun heq => hopened (heq ▸ hreached)
        have hne : gid ≠ first := fun heq => hopened (heq ▸ hstart)
        right
        right
        left
        rw [mem_absent, hfirst, Option.getD_some]
        exact ⟨by omega, hopened⟩

/-! ## A group is heard of -/

section Hear

variable {now : Int}

theorem Sound.hear (h : l.Sound) (hgid : ∀ first ∈ l.first, first ≤ gid) (now : Int) :
    (l.hear gid now).Sound where
  below := h.below
  known := fun g hg => Finset.mem_insert_of_mem (h.known g hg)
  fresh := nofun
  first := by
    intro first hfirst
    obtain rfl := Option.some.inj hfirst
    cases hold : l.first with
    | none =>
        refine ⟨Finset.mem_insert_self gid _, fun g hg => ?_⟩
        rcases Finset.mem_insert.mp hg with rfl | hg
        · exact le_rfl
        · exact absurd hold (h.first_ne hg)
    | some first =>
        refine ⟨Finset.mem_insert_of_mem (h.first first hold).1, fun g hg => ?_⟩
        rcases Finset.mem_insert.mp hg with rfl | hg
        · exact hgid first hold
        · exact (h.first first hold).2 g hg
  greatest := by
    intro g hg
    rcases Finset.mem_insert.mp hg with rfl | hg
    · exact le_max_right _ _
    · exact (h.greatest g hg).trans (le_max_left _ _)
  reached := by
    intro _
    rcases max_cases l.greatest gid with ⟨hmax, -⟩ | ⟨hmax, -⟩
    · show max l.greatest gid ∈ insert gid l.opened
      rw [hmax, Finset.mem_insert]
      cases hold : l.first with
      | none =>
          have hzero := (h.fresh hold).1
          left
          omega
      | some first => exact Or.inr (h.reached (by rw [hold]; exact nofun))
    · show max l.greatest gid ∈ insert gid l.opened
      rw [hmax]
      exact Finset.mem_insert_self gid _

theorem Sound.missingIds_hear (h : l.Sound) : (l.hear gid now).missingIds = l.missingIds := by
  show ∑ g ∈ insert gid l.opened, (l.missing g).card = ∑ g ∈ l.opened, (l.missing g).card
  by_cases hgid : gid ∈ l.opened
  · rw [Finset.insert_eq_of_mem hgid]
  · rw [Finset.sum_insert hgid, h.missing_unopened hgid, Finset.card_empty, Nat.zero_add]

/-- The group itself is absent no longer, and behind the greatest those between are. -/
theorem Sound.mem_absent_hear (h : l.Sound) {g : Nat} :
    g ∈ (l.hear gid now).absent ↔
      g ≠ gid ∧ (g ∈ l.absent ∨ l.first ≠ none ∧ l.greatest < g ∧ g < gid) := by
  rw [mem_absent, mem_absent]
  show ((some (l.first.getD gid)).getD 0 < g ∧ g < max l.greatest gid) ∧ g ∉ insert gid l.opened ↔ _
  rw [Finset.mem_insert, not_or, Option.getD_some]
  cases hfirst : l.first with
  | none =>
      obtain ⟨hzero, -⟩ := h.fresh hfirst
      simp only [Option.getD_none, ne_eq, not_true, false_and, or_false]
      omega
  | some first =>
      have hreached := h.reached (by rw [hfirst]; exact nofun)
      have hstart := (h.first first hfirst).2 _ hreached
      rw [Option.getD_some, Option.getD_some]
      constructor
      · rintro ⟨⟨hlo, hhi⟩, hne, hopened⟩
        have hlast : g ≠ l.greatest := fun heq => hopened (heq ▸ hreached)
        refine ⟨hne, ?_⟩
        rcases Nat.lt_or_ge g l.greatest with hlt | hge
        · exact Or.inl ⟨⟨hlo, hlt⟩, hopened⟩
        · exact Or.inr ⟨nofun, by omega, by omega⟩
      · rintro ⟨hne, ⟨⟨hlo, hhi⟩, hopened⟩ | ⟨-, hlo, hhi⟩⟩
        · exact ⟨⟨hlo, by omega⟩, hne, hopened⟩
        · refine ⟨⟨by omega, by omega⟩, hne, fun hopened => ?_⟩
          have hle := h.greatest g hopened
          omega

theorem Sound.absent_hear_opened (h : l.Sound) (hgid : gid ∈ l.opened) :
    (l.hear gid now).absent = l.absent := by
  ext g
  have hle := h.greatest gid hgid
  rw [h.mem_absent_hear]
  constructor
  · rintro ⟨-, hold | ⟨-, hlo, hhi⟩⟩
    · exact hold
    · omega
  · intro hg
    refine ⟨?_, Or.inl hg⟩
    rintro rfl
    exact (mem_absent.mp hg).2 hgid

theorem Sound.absent_hear_absent (h : l.Sound) (hgid : gid ∈ l.absent) :
    (l.hear gid now).absent = l.absent.erase gid := by
  ext g
  have hlt := (mem_absent.mp hgid).1.2
  rw [h.mem_absent_hear, Finset.mem_erase]
  apply and_congr_right
  intro _
  apply or_iff_left
  rintro ⟨-, hlo, hhi⟩
  omega

theorem Sound.absent_fresh (h : l.Sound) (hfirst : l.first = none) : l.absent = ∅ := by
  rw [Finset.eq_empty_iff_forall_notMem]
  intro g hg
  have hlt := (mem_absent.mp hg).1.2
  have hzero := (h.fresh hfirst).1
  omega

theorem Sound.absent_hear_fresh (h : l.Sound) (hfirst : l.first = none) :
    (l.hear gid now).absent = ∅ := by
  rw [Finset.eq_empty_iff_forall_notMem]
  intro g hg
  rcases (h.mem_absent_hear.mp hg).2 with hold | ⟨hne, -⟩
  · rw [h.absent_fresh hfirst] at hold
    exact absurd hold (Finset.notMem_empty g)
  · exact hne hfirst

theorem Sound.card_absent_hear_beyond (h : l.Sound) (hfirst : l.first ≠ none)
    (hgid : l.greatest < gid) :
    (l.hear gid now).absent.card = l.absent.card + (gid - l.greatest - 1) := by
  have hunion : (l.hear gid now).absent = l.absent ∪ Finset.Ioo l.greatest gid := by
    ext g
    rw [h.mem_absent_hear, Finset.mem_union, Finset.mem_Ioo]
    constructor
    · rintro ⟨-, hold | ⟨-, hbetween⟩⟩
      · exact Or.inl hold
      · exact Or.inr hbetween
    · rintro (hold | hbetween)
      · have hlt := (mem_absent.mp hold).1.2
        exact ⟨by omega, Or.inl hold⟩
      · exact ⟨by omega, Or.inr ⟨hfirst, hbetween⟩⟩
  have hdisjoint : Disjoint l.absent (Finset.Ioo l.greatest gid) := by
    rw [Finset.disjoint_left]
    intro g hg hg'
    have hlt := (mem_absent.mp hg).1.2
    have hgt := (Finset.mem_Ioo.mp hg').1
    omega
  rw [hunion, Finset.card_union_of_disjoint hdisjoint, Nat.card_Ioo]

theorem word_hear_self : (l.hear gid now).word gid = some now := if_pos (Or.inl rfl)

theorem word_hear_passed {g : Nat} (hfirst : l.first ≠ none) (hlo : l.greatest < g) (hhi : g < gid) :
    (l.hear gid now).word g = some now := if_pos (Or.inr ⟨hfirst, hlo, hhi⟩)

theorem word_hear_other {g : Nat} (hne : g ≠ gid) (hg : g ≤ l.greatest) :
    (l.hear gid now).word g = l.word g :=
  if_neg (not_or.mpr ⟨hne, fun hpassed => absurd hpassed.2.1 (not_lt.mpr hg)⟩)

theorem Sound.le_greatest (h : l.Sound) {g : Nat} (hg : g ∈ l.opened ∨ g ∈ l.absent) :
    g ≤ l.greatest := by
  rcases hg with hg | hg
  · exact h.greatest g hg
  · exact (mem_absent.mp hg).1.2.le

end Hear

/-! ## A report in a group -/

/-- The ledgers differ in one opened group at most: how far it reaches and what was observed of
it. -/
structure SameBut (l l' : Ledger) (gid : Nat) : Prop where
  first : l'.first = l.first
  greatest : l'.greatest = l.greatest
  opened : l'.opened = l.opened
  word : l'.word = l.word
  extent : ∀ g, g ≠ gid → l'.extent g = l.extent g
  observed : ∀ g oid, g ≠ gid → ((g, oid) ∈ l'.observed ↔ (g, oid) ∈ l.observed)

namespace SameBut

variable {l' : Ledger}

theorem refl (l : Ledger) (gid : Nat) : l.SameBut l gid where
  first := rfl
  greatest := rfl
  opened := rfl
  word := rfl
  extent := fun _ _ => rfl
  observed := fun _ _ _ => Iff.rfl

theorem missing (h : l.SameBut l' gid) {g : Nat} (hg : g ≠ gid) : l'.missing g = l.missing g := by
  ext oid
  rw [mem_missing, mem_missing, h.extent g hg, h.observed g oid hg]

theorem absent (h : l.SameBut l' gid) : l'.absent = l.absent := by
  rw [Ledger.absent, Ledger.absent, h.first, h.greatest, h.opened]

theorem missingIds (h : l.SameBut l' gid) (hgid : gid ∈ l.opened) :
    l'.missingIds + (l.missing gid).card = l.missingIds + (l'.missing gid).card := by
  unfold Ledger.missingIds
  rw [h.opened, ← Finset.add_sum_erase _ _ hgid, ← Finset.add_sum_erase l.opened _ hgid]
  have hrest : ∑ g ∈ l.opened.erase gid, (l'.missing g).card =
      ∑ g ∈ l.opened.erase gid, (l.missing g).card := by
    apply Finset.sum_congr rfl
    intro g hg
    rw [h.missing (Finset.ne_of_mem_erase hg)]
  omega

theorem sound (h : l.SameBut l' gid) (hsound : l.Sound) (hgid : gid ∈ l.opened)
    (hbelow : ∀ oid, (gid, oid) ∈ l'.observed → oid < l'.extent gid) : l'.Sound where
  below := by
    intro g oid hmem
    by_cases hg : g = gid
    · subst hg
      exact hbelow oid hmem
    · rw [h.extent g hg]
      exact hsound.below g oid ((h.observed g oid hg).mp hmem)
  known := by
    intro g hg
    rw [h.opened]
    by_cases heq : g = gid
    · exact heq ▸ hgid
    · rw [h.extent g heq] at hg
      exact hsound.known g hg
  fresh := by
    rw [h.first, h.greatest, h.opened]
    exact hsound.fresh
  first := by
    rw [h.first, h.opened]
    exact hsound.first
  greatest := by
    rw [h.opened, h.greatest]
    exact hsound.greatest
  reached := by
    rw [h.first, h.greatest, h.opened]
    exact hsound.reached

end SameBut

/-- An object of an opened group. -/
def place (l : Ledger) (gid oid : Nat) : Ledger := (l.extend gid (oid + 1)).observe gid oid

theorem extent_extend (reach : Nat) : (l.extend gid reach).extent gid = max (l.extent gid) reach :=
  if_pos rfl

theorem sameBut_extend (l : Ledger) (gid reach : Nat) : l.SameBut (l.extend gid reach) gid where
  first := rfl
  greatest := rfl
  opened := rfl
  word := rfl
  extent := fun _ hg => if_neg hg
  observed := fun _ _ _ => Iff.rfl

theorem sameBut_place (l : Ledger) (gid oid : Nat) : l.SameBut (l.place gid oid) gid where
  first := rfl
  greatest := rfl
  opened := rfl
  word := rfl
  extent := fun _ hg => if_neg hg
  observed := by
    intro g oid' hg
    show (g, oid') ∈ insert (gid, oid) l.observed ↔ _
    rw [Finset.mem_insert, Prod.mk.injEq]
    exact or_iff_right fun heq => hg heq.1

theorem Sound.extend (h : l.Sound) (hgid : gid ∈ l.opened) (reach : Nat) :
    (l.extend gid reach).Sound := by
  apply (sameBut_extend l gid reach).sound h hgid
  intro oid hmem
  rw [extent_extend]
  exact lt_max_of_lt_left (h.below gid oid hmem)

theorem Sound.place (h : l.Sound) (hgid : gid ∈ l.opened) (oid : Nat) : (l.place gid oid).Sound := by
  apply (sameBut_place l gid oid).sound h hgid
  intro oid' hmem
  show oid' < (l.extend gid (oid + 1)).extent gid
  rw [extent_extend]
  rcases Finset.mem_insert.mp hmem with heq | hmem
  · obtain rfl := (Prod.mk.inj heq).2
    exact lt_max_of_lt_right (Nat.lt_succ_self _)
  · exact lt_max_of_lt_left (h.below gid oid' hmem)

theorem mem_missing_extend {reach oid : Nat} (h : l.Sound) :
    oid ∈ (l.extend gid reach).missing gid ↔
      oid ∈ l.missing gid ∨ l.extent gid ≤ oid ∧ oid < reach := by
  have hbelow := h.below gid oid
  rw [mem_missing, mem_missing, extent_extend]
  show oid < max (l.extent gid) reach ∧ (gid, oid) ∉ l.observed ↔ _
  constructor
  · rintro ⟨hlt, hnot⟩
    by_cases hold : oid < l.extent gid
    · exact Or.inl ⟨hold, hnot⟩
    · exact Or.inr ⟨by omega, by omega⟩
  · rintro (⟨hlt, hnot⟩ | ⟨hge, hlt⟩)
    · exact ⟨by omega, hnot⟩
    · exact ⟨by omega, fun hmem => absurd (hbelow hmem) (by omega)⟩

theorem card_missing_extend {reach : Nat} (h : l.Sound) :
    ((l.extend gid reach).missing gid).card = (l.missing gid).card + (reach - l.extent gid) := by
  have hunion : (l.extend gid reach).missing gid =
      l.missing gid ∪ Finset.Ico (l.extent gid) reach := by
    ext oid
    rw [mem_missing_extend h, Finset.mem_union, Finset.mem_Ico]
  have hdisjoint : Disjoint (l.missing gid) (Finset.Ico (l.extent gid) reach) := by
    rw [Finset.disjoint_left]
    intro oid hoid hico
    have hlt := (mem_missing.mp hoid).1
    have hge := (Finset.mem_Ico.mp hico).1
    omega
  rw [hunion, Finset.card_union_of_disjoint hdisjoint, Nat.card_Ico]

/-- An object takes its id away and adds those it passes. -/
theorem missing_place (oid : Nat) :
    (l.place gid oid).missing gid = ((l.extend gid oid).missing gid).erase oid := by
  ext oid'
  rw [Finset.mem_erase, mem_missing, mem_missing, extent_extend]
  show oid' < (l.extend gid (oid + 1)).extent gid ∧ (gid, oid') ∉ insert (gid, oid) l.observed ↔
    oid' ≠ oid ∧ oid' < max (l.extent gid) oid ∧ (gid, oid') ∉ l.observed
  rw [extent_extend, Finset.mem_insert, not_or, Prod.mk.injEq, not_and]
  constructor
  · rintro ⟨hlt, hne, hnot⟩
    have hne' := hne rfl
    exact ⟨hne', by omega, hnot⟩
  · rintro ⟨hne, hlt, hnot⟩
    exact ⟨by omega, fun _ => hne, hnot⟩

end Ledger

end AioMoqt.MediaStats
