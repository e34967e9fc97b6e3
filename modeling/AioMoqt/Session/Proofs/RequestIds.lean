import AioMoqt.Session.Control

/-!
# Admission of the peer's Request IDs

No id is admitted twice, what is remembered is bounded, and an id is refused by mistake only
after more ids than the bound came out of order.
-/

namespace AioMoqt.Session

namespace PeerRequests

/-! ## Runs -/

/-- An id is presented: a duplicate changes nothing. -/
def present (parity : Nat) (s : PeerRequests) (rid : Nat) : PeerRequests :=
  if s.duplicate rid then s else s.note rid parity

/-- What is remembered after these ids. -/
def after (parity : Nat) (ids : List Nat) : PeerRequests := ids.foldl (present parity) {}

/-- The ids that were admitted, of those presented from here on. -/
def admitted (parity : Nat) (s : PeerRequests) : List Nat → List Nat
  | [] => []
  | rid :: rest =>
      if s.duplicate rid then admitted parity s rest
      else rid :: admitted parity (s.note rid parity) rest

/-- At some step, more admitted ids than the cap lay at or above the low-water mark. -/
def Pressed (parity : Nat) (ids : List Nat) : Prop :=
  ∃ earlier rid later, ids = earlier ++ rid :: later ∧
    peerRequestSeenCap < ((admitted parity {} (earlier ++ [rid])).toFinset.filter
      ((after parity earlier).low ≤ ·)).card

variable {parity : Nat}

theorem after_append (ids : List Nat) (rid : Nat) :
    after parity (ids ++ [rid]) = present parity (after parity ids) rid := by
  simp [after, List.foldl_append]

theorem admitted_append (s : PeerRequests) (ids : List Nat) (rid : Nat) :
    admitted parity s (ids ++ [rid]) = admitted parity s ids ++
      if (ids.foldl (present parity) s).duplicate rid then [] else [rid] := by
  induction ids generalizing s with
  | nil => rfl
  | cons head rest ih =>
      rw [List.cons_append, admitted, admitted, List.foldl_cons, present]
      split
      · exact ih s
      · rw [ih, List.cons_append]

theorem mem_of_admitted {s : PeerRequests} {ids : List Nat} {rid : Nat}
    (h : rid ∈ admitted parity s ids) : rid ∈ ids := by
  induction ids generalizing s with
  | nil => simp [admitted] at h
  | cons head rest ih =>
      rw [admitted] at h
      split at h
      · exact List.mem_cons_of_mem _ (ih h)
      · obtain rfl | h := List.mem_cons.mp h
        · exact List.mem_cons_self
        · exact List.mem_cons_of_mem _ (ih h)

/-! ## The mark -/

/-- Where the mark stops, and what it leaves of the set. -/
structure Advances (low : Nat) (seen : Finset Nat) (low' : Nat) (seen' : Finset Nat) : Prop where
  le : low ≤ low'
  subset : seen' ⊆ seen
  above : ∀ i ∈ seen', low' ≤ i
  passed : ∀ i ∈ seen, i ∈ seen' ∨ i < low'
  contiguous : ∀ i, low ≤ i → i < low' → i % 2 = low % 2 → i ∈ seen

theorem advance_spec (fuel low : Nat) (seen : Finset Nat) (hfuel : seen.card ≤ fuel)
    (habove : ∀ i ∈ seen, low ≤ i) (hparity : ∀ i ∈ seen, i % 2 = low % 2) :
    Advances low seen (advance fuel low seen).1 (advance fuel low seen).2 := by
  induction fuel generalizing low seen with
  | zero =>
      have hempty : seen = ∅ := Finset.card_eq_zero.mp (Nat.le_zero.mp hfuel)
      subst hempty
      exact ⟨Nat.le_refl _, Finset.Subset.refl _, by simp [advance], by simp,
        fun i hge hlt => absurd hlt (Nat.not_lt.mpr hge)⟩
  | succ fuel ih =>
      rw [advance]
      split
      next hmem =>
          have hcard : (seen.erase low).card ≤ fuel := by
            have hlt := Finset.card_erase_lt_of_mem hmem
            omega
          have hnext : ∀ i ∈ seen.erase low, low + 2 ≤ i := by
            intro i hi
            obtain ⟨hne, hi⟩ := Finset.mem_erase.mp hi
            have hge := habove i hi
            have hmod := hparity i hi
            omega
          have hmod : ∀ i ∈ seen.erase low, i % 2 = (low + 2) % 2 := by
            intro i hi
            rw [Nat.add_mod_right]
            exact hparity i (Finset.mem_of_mem_erase hi)
          have hrest := ih (low + 2) (seen.erase low) hcard hnext hmod
          constructor
          case le =>
            have hle := hrest.le
            omega
          case subset => exact hrest.subset.trans (Finset.erase_subset ..)
          case above => exact hrest.above
          case passed =>
            intro i hi
            by_cases heq : i = low
            · have hle := hrest.le
              exact Or.inr (by omega)
            · exact hrest.passed i (Finset.mem_erase.mpr ⟨heq, hi⟩)
          case contiguous =>
            intro i hge hlt hslot
            by_cases heq : i = low
            · exact heq ▸ hmem
            · have hlow : low + 2 ≤ i := by omega
              have hin := hrest.contiguous i hlow hlt (by omega)
              exact Finset.mem_of_mem_erase hin
      next hout =>
          exact ⟨Nat.le_refl _, Finset.Subset.refl _, habove, fun i hi => Or.inl hi,
            fun i hge hlt => absurd hlt (Nat.not_lt.mpr hge)⟩

/-- Behind the oldest quarter lies at least one id that goes. -/
theorem shrink_spec (low : Nat) (seen : Finset Nat) (hparity : ∀ i ∈ seen, i % 2 = low % 2)
    (hcard : seen.card ≤ peerRequestSeenCap + 1) (habove : ∀ i ∈ seen, low ≤ i) :
    low ≤ (shrink low seen).1 ∧ (shrink low seen).1 % 2 = low % 2 ∧
      (shrink low seen).2 = seen.filter ((shrink low seen).1 ≤ ·) ∧
        (shrink low seen).2.card ≤ peerRequestSeenCap ∧
          (seen.card ≤ peerRequestSeenCap → (shrink low seen).1 = low) := by
  unfold shrink
  split
  next hmany =>
      have hindex : peerRequestSeenCap / 4 < (seen.sort (· ≤ ·)).length := by
        rw [Finset.length_sort]
        omega
      have hmem : (seen.sort (· ≤ ·)).getD (peerRequestSeenCap / 4) 0 ∈ seen := by
        have hget : (seen.sort (· ≤ ·)).getD (peerRequestSeenCap / 4) 0 ∈ seen.sort (· ≤ ·) := by
          rw [List.getD_eq_getElem?_getD, List.getElem?_eq_getElem hindex]
          exact List.getElem_mem hindex
        exact (Finset.mem_sort _).mp hget
      generalize (seen.sort (· ≤ ·)).getD (peerRequestSeenCap / 4) 0 = oldest at hmem ⊢
      have hge := habove oldest hmem
      have hmod := hparity oldest hmem
      have hmax : Nat.max low (oldest + 2) = oldest + 2 := Nat.max_eq_right (by omega)
      rw [hmax]
      show low ≤ oldest + 2 ∧ (oldest + 2) % 2 = low % 2 ∧
        seen.filter (oldest + 2 ≤ ·) = seen.filter (oldest + 2 ≤ ·) ∧
          (seen.filter (oldest + 2 ≤ ·)).card ≤ peerRequestSeenCap ∧
            (seen.card ≤ peerRequestSeenCap → oldest + 2 = low)
      refine ⟨by omega, by omega, rfl, ?_, fun hfew => absurd hmany (by omega)⟩
      have hless : (seen.filter (oldest + 2 ≤ ·)).card < seen.card := by
        apply Finset.card_lt_card
        refine Finset.filter_ssubset.mpr ⟨oldest, hmem, by omega⟩
      omega
  next hfew =>
      refine ⟨Nat.le_refl _, rfl, ?_, Nat.not_lt.mp hfew, fun _ => rfl⟩
      exact (Finset.filter_true_of_mem habove).symm

/-! ## What is remembered -/

theorem duplicate_iff {s : PeerRequests} {rid : Nat} :
    s.duplicate rid = true ↔ rid < s.low ∨ rid ∈ s.seen := by
  simp [duplicate]

theorem Pressed.append {ids : List Nat} (h : Pressed parity ids) (rid : Nat) :
    Pressed parity (ids ++ [rid]) := by
  obtain ⟨earlier, r, later, rfl, hmany⟩ := h
  exact ⟨earlier, r, later ++ [rid], by simp, hmany⟩

/-- What holds after these ids were presented. -/
structure Remembers (parity : Nat) (ids : List Nat) (s : PeerRequests) : Prop where
  slots : ∀ i ∈ s.seen, i % 2 = parity
  above : ∀ i ∈ s.seen, s.low ≤ i
  bounded : s.seen.card ≤ peerRequestSeenCap
  seen : ∀ i ∈ s.seen, i ∈ admitted parity {} ids
  known : ∀ i ∈ admitted parity {} ids, s.duplicate i = true
  nodup : (admitted parity {} ids).Nodup
  exact : ¬ Pressed parity ids → ∀ i < s.low, i % 2 = parity → i ∈ admitted parity {} ids

/-- A new id is noted. -/
theorem note_spec {s : PeerRequests} {rid : Nat} (hparity : parity < 2)
    (hslots : ∀ i ∈ insert rid s.seen, i % 2 = parity)
    (habove : ∀ i ∈ insert rid s.seen, s.low ≤ i) (hbounded : s.seen.card ≤ peerRequestSeenCap) :
    s.low ≤ (s.note rid parity).low ∧ (s.note rid parity).seen ⊆ insert rid s.seen ∧
      (∀ i ∈ (s.note rid parity).seen, (s.note rid parity).low ≤ i) ∧
      (s.note rid parity).seen.card ≤ peerRequestSeenCap ∧
      (∀ i ∈ insert rid s.seen, (s.note rid parity).duplicate i = true) ∧
      ((insert rid s.seen).card ≤ peerRequestSeenCap → ∀ i, s.low ≤ i →
        i < (s.note rid parity).low → i % 2 = parity → i ∈ insert rid s.seen) := by
  set seen := insert rid s.seen with hseen
  set low := if s.low % 2 ≠ parity then s.low + 1 else s.low with hlow
  have hlowge : s.low ≤ low := by
    rw [hlow]
    split <;> omega
  have hlowmod : low % 2 = parity := by
    rw [hlow]
    split <;> omega
  have hlowabove : ∀ i ∈ seen, low ≤ i := by
    intro i hi
    have hge := habove i hi
    have hmod := hslots i hi
    rw [hlow]
    split <;> omega
  have hcard : seen.card ≤ peerRequestSeenCap + 1 :=
    (Finset.card_insert_le ..).trans (by omega)
  have hslots' : ∀ i ∈ seen, i % 2 = low % 2 := fun i hi => (hslots i hi).trans hlowmod.symm
  obtain ⟨hshrunk, hmod, hfilter, hfew, hsame⟩ := shrink_spec low seen hslots' hcard hlowabove
  have hsub : (shrink low seen).2 ⊆ seen := by
    rw [hfilter]
    exact Finset.filter_subset ..
  have hadvanced := advance_spec (shrink low seen).2.card (shrink low seen).1 (shrink low seen).2
    (Nat.le_refl _)
    (fun i hi => by rw [hfilter] at hi; exact (Finset.mem_filter.mp hi).2)
    (fun i hi => (hslots' i (hsub hi)).trans hmod.symm)
  have hnote : (s.note rid parity).low =
      (advance (shrink low seen).2.card (shrink low seen).1 (shrink low seen).2).1 ∧
      (s.note rid parity).seen =
        (advance (shrink low seen).2.card (shrink low seen).1 (shrink low seen).2).2 := ⟨rfl, rfl⟩
  rw [hnote.1, hnote.2]
  refine ⟨by have hle := hadvanced.le; omega, hadvanced.subset.trans hsub, hadvanced.above, ?_, ?_, ?_⟩
  · exact (Finset.card_le_card hadvanced.subset).trans hfew
  · intro i hi
    rw [duplicate_iff, hnote.1, hnote.2]
    by_cases hge : (shrink low seen).1 ≤ i
    · have hin : i ∈ (shrink low seen).2 := by
        rw [hfilter]
        exact Finset.mem_filter.mpr ⟨hi, hge⟩
      exact (hadvanced.passed i hin).symm
    · have hle := hadvanced.le
      exact Or.inl (by omega)
  · intro hfits i hge hlt hslot
    rw [hsame hfits] at hadvanced hlt
    have hlowi : low ≤ i := by
      rw [hlow]
      split <;> omega
    exact hsub (hadvanced.contiguous i hlowi hlt (hslot.trans hlowmod.symm))

/-- Above everything seen, the mark stops right behind a new id. -/
theorem note_low_le {s : PeerRequests} {rid : Nat} (hslots : ∀ i ∈ s.seen, i % 2 = parity)
    (habove : ∀ i ∈ s.seen, s.low ≤ i) (hbounded : s.seen.card ≤ peerRequestSeenCap)
    (hrid : rid % 2 = parity) (hlow : s.low ≤ rid) (hbelow : ∀ i ∈ s.seen, i < rid) :
    (s.note rid parity).low ≤ rid + 2 := by
  set seen := insert rid s.seen with hseen
  set low := if s.low % 2 ≠ parity then s.low + 1 else s.low with hlowdef
  have hslots' : ∀ i ∈ seen, i % 2 = parity := by
    intro i hi
    obtain rfl | hi := Finset.mem_insert.mp hi
    · exact hrid
    · exact hslots i hi
  have hle : ∀ i ∈ seen, i ≤ rid := by
    intro i hi
    obtain rfl | hi := Finset.mem_insert.mp hi
    · exact Nat.le_refl _
    · exact Nat.le_of_lt (hbelow i hi)
  have hlowmod : low % 2 = parity := by
    rw [hlowdef]
    split <;> omega
  have hlowabove : ∀ i ∈ seen, low ≤ i := by
    intro i hi
    have hmod := hslots' i hi
    have hge : s.low ≤ i := by
      obtain rfl | hi := Finset.mem_insert.mp hi
      · exact hlow
      · exact habove i hi
    rw [hlowdef]
    split <;> omega
  have hlowrid : low ≤ rid := hlowabove rid (Finset.mem_insert_self ..)
  have hcard : seen.card ≤ peerRequestSeenCap + 1 :=
    (Finset.card_insert_le ..).trans (by omega)
  have hslotsLow : ∀ i ∈ seen, i % 2 = low % 2 := fun i hi => (hslots' i hi).trans hlowmod.symm
  obtain ⟨hshrunk, hmod, hfilter, -, -⟩ := shrink_spec low seen hslotsLow hcard hlowabove
  have hstop : (shrink low seen).1 ≤ rid + 2 := by
    unfold shrink
    split
    next hmany =>
        have hindex : peerRequestSeenCap / 4 < (seen.sort (· ≤ ·)).length := by
          rw [Finset.length_sort]
          omega
        have hmem : (seen.sort (· ≤ ·)).getD (peerRequestSeenCap / 4) 0 ∈ seen := by
          rw [List.getD_eq_getElem?_getD, List.getElem?_eq_getElem hindex]
          exact (Finset.mem_sort _).mp (List.getElem_mem hindex)
        have holdest := hle _ hmem
        exact max_le (by omega) (by omega)
    · omega
  have hsub : (shrink low seen).2 ⊆ seen := by
    rw [hfilter]
    exact Finset.filter_subset ..
  have hadvanced := advance_spec (shrink low seen).2.card (shrink low seen).1 (shrink low seen).2
    (Nat.le_refl _)
    (fun i hi => by rw [hfilter] at hi; exact (Finset.mem_filter.mp hi).2)
    (fun i hi => (hslotsLow i (hsub hi)).trans hmod.symm)
  show (advance (shrink low seen).2.card (shrink low seen).1 (shrink low seen).2).1 ≤ rid + 2
  by_contra hpast
  have hin := hadvanced.contiguous (rid + 2) hstop (by omega) (by omega)
  have hold := hle _ (hsub hin)
  omega

theorem remembers_after (hparity : parity < 2) (ids : List Nat)
    (hids : ∀ rid ∈ ids, rid % 2 = parity) : Remembers parity ids (after parity ids) := by
  induction ids using List.reverseRecOn with
  | nil =>
      exact ⟨by simp [after], by simp [after], by simp [after], by simp [after], by simp [admitted],
        by simp [admitted], by simp [after]⟩
  | append_singleton ids rid ih =>
      have h := ih fun i hi => hids i (List.mem_append_left _ hi)
      have hrid : rid % 2 = parity := hids rid (by simp)
      have hadmitted : admitted parity {} (ids ++ [rid]) = admitted parity {} ids ++
          if (after parity ids).duplicate rid then [] else [rid] := admitted_append ..
      rw [after_append, present]
      by_cases hdup : (after parity ids).duplicate rid = true
      · rw [if_pos hdup, List.append_nil] at hadmitted
        rw [if_pos hdup]
        refine ⟨h.slots, h.above, h.bounded, ?_, ?_, ?_, ?_⟩
        · rw [hadmitted]
          exact h.seen
        · rw [hadmitted]
          exact h.known
        · rw [hadmitted]
          exact h.nodup
        · rw [hadmitted]
          exact fun hnot => h.exact fun hpressed => hnot (hpressed.append rid)
      · rw [if_neg hdup] at hadmitted
        rw [if_neg hdup]
        rw [duplicate_iff] at hdup
        push Not at hdup
        have hslots : ∀ i ∈ insert rid (after parity ids).seen, i % 2 = parity := by
          intro i hi
          obtain rfl | hi := Finset.mem_insert.mp hi
          · exact hrid
          · exact h.slots i hi
        have habove : ∀ i ∈ insert rid (after parity ids).seen, (after parity ids).low ≤ i := by
          intro i hi
          obtain rfl | hi := Finset.mem_insert.mp hi
          · exact hdup.1
          · exact h.above i hi
        have hseen : ∀ i ∈ insert rid (after parity ids).seen,
            i ∈ admitted parity {} (ids ++ [rid]) := by
          intro i hi
          rw [hadmitted]
          obtain rfl | hi := Finset.mem_insert.mp hi
          · simp
          · exact List.mem_append_left _ (h.seen i hi)
        obtain ⟨hle, hsub, hge, hcard, hknown, hexact⟩ := note_spec hparity hslots habove h.bounded
        refine ⟨fun i hi => hslots i (hsub hi), hge, hcard, fun i hi => hseen i (hsub hi), ?_, ?_, ?_⟩
        · intro i hi
          rw [hadmitted] at hi
          obtain hi | hi := List.mem_append.mp hi
          · obtain hlow | hin := duplicate_iff.mp (h.known i hi)
            · exact duplicate_iff.mpr (Or.inl (by omega))
            · exact hknown i (Finset.mem_insert_of_mem hin)
          · obtain rfl := List.mem_singleton.mp hi
            exact hknown i (Finset.mem_insert_self ..)
        · rw [hadmitted, List.nodup_append']
          refine ⟨h.nodup, List.nodup_singleton rid, ?_⟩
          intro i hi hi'
          obtain rfl := List.mem_singleton.mp hi'
          obtain hlow | hin := duplicate_iff.mp (h.known i hi)
          · omega
          · exact hdup.2 hin
        · intro hnot i hi hslot
          have hfits : (insert rid (after parity ids).seen).card ≤ peerRequestSeenCap := by
            by_contra hmany
            refine hnot ⟨ids, rid, [], rfl, (Nat.not_le.mp hmany).trans_le ?_⟩
            apply Finset.card_le_card
            intro j hj
            exact Finset.mem_filter.mpr ⟨List.mem_toFinset.mpr (hseen j hj), habove j hj⟩
          by_cases hlow : i < (after parity ids).low
          · rw [hadmitted]
            exact List.mem_append_left _
              (h.exact (fun hpressed => hnot (hpressed.append rid)) i hlow hslot)
          · exact hseen i (hexact hfits i (Nat.not_lt.mp hlow) hi hslot)

/-! ## Admission -/

/-- No id is admitted twice, the set stays bounded, the mark does not go back, and an id that
never came is refused only after the set was once too large. -/
theorem admission (hparity : parity < 2) (ids : List Nat) (hids : ∀ rid ∈ ids, rid % 2 = parity) :
    (admitted parity {} ids).Nodup ∧
      (after parity ids).seen.card ≤ peerRequestSeenCap ∧
      (∀ rid, rid % 2 = parity → (after parity ids).low ≤ (after parity (ids ++ [rid])).low) ∧
      ∀ rid, rid % 2 = parity → rid ∉ ids → (after parity ids).duplicate rid = true →
        Pressed parity ids := by
  have h := remembers_after hparity ids hids
  refine ⟨h.nodup, h.bounded, ?_, ?_⟩
  · intro rid hrid
    rw [after_append, present]
    split
    · exact Nat.le_refl _
    next hdup =>
        rw [duplicate_iff] at hdup
        push Not at hdup
        apply (note_spec hparity ?_ ?_ h.bounded).1
        · intro i hi
          obtain rfl | hi := Finset.mem_insert.mp hi
          · exact hrid
          · exact h.slots i hi
        · intro i hi
          obtain rfl | hi := Finset.mem_insert.mp hi
          · exact hdup.1
          · exact h.above i hi
  · intro rid hrid hnew hdup
    by_contra hnot
    have hin : rid ∈ admitted parity {} ids := by
      obtain hlow | hseen := duplicate_iff.mp hdup
      · exact h.exact hnot rid hlow hrid
      · exact h.seen rid hseen
    exact hnew (mem_of_admitted hin)

/-- Ids that come out of order are admitted, and a second time refused. -/
theorem admission_reordered :
    admitted 0 {} [4, 0, 4, 2] = [4, 0, 2] ∧ (after 0 [4, 0, 4, 2]).seen.card ≤ peerRequestSeenCap :=
  ⟨by decide +kernel, (admission (by decide) [4, 0, 4, 2] (by decide)).2.1⟩

end PeerRequests

end AioMoqt.Session
