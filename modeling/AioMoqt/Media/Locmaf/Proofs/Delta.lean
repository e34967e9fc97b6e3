import AioMoqt.Media.Locmaf.Proofs.Expand
import AioMoqt.Media.Locmaf.Proofs.ObjectRoundTrip

/-!
# A delta header rebuilds the sender's fields

`_apply_delta` on the header `_delta_wire` wrote: the receiver ends with fields
that stand for the sender's, whatever fields appeared, left, grew or shrank since
the reference.
-/

namespace AioMoqt.Media.Locmaf

open AioMoqt.Lib AioMoqt.Lib.BigEndian

/-! ## Lists -/

theorem length_listDelta (v p : List Int) : (listDelta v p).length = v.length := by
  induction v generalizing p with
  | nil => rfl
  | cons x v ih => cases p <;> simp [listDelta, ih]

theorem addDeltas_listDelta (v p : List Int) : addDeltas p (listDelta v p) = v := by
  induction v generalizing p with
  | nil => cases p <;> rfl
  | cons x v ih =>
      cases p with
      | nil => simp [listDelta, addDeltas, unzigzag_zigzag, ih]
      | cons y p => simp [listDelta, addDeltas, unzigzag_zigzag, ih]

/-- A list's delta, or its omission when nothing changed, rebuilds the list. -/
theorem deltaList_listDelta (fid : Nat) {want : Nat} (signed : Bool) {v : List Int}
    (hlen : v.length = want)
    (hrange : signed = false → ∀ x ∈ v, 0 ≤ x ∧ x ≤ (u64Max : Int))
    {prev dec : Option (List Int)} (h : Uncarried prev dec) :
    ∃ r, deltaList fid want signed dec
        (if v ≠ prev.getD [] then some (listDelta v (prev.getD [])) else none) = .ok r ∧
      Uncarried (some v) r := by
  by_cases hv : v = prev.getD []
  · rw [if_neg (not_not.mpr hv)]
    cases dec with
    | none =>
        refine ⟨none, rfl, ?_⟩
        rw [← h.getD_eq] at hv
        exact .inr ⟨congrArg some hv, rfl⟩
    | some prev' =>
        rw [← h.getD_eq] at hv
        simp only [Option.getD_some] at hv
        subst hv
        refine ⟨some v, ?_, .refl _⟩
        simp [deltaList, ← hlen]
  · rw [if_pos hv]
    refine ⟨some v, ?_, .refl _⟩
    have hidx : signed = false →
        v.findIdx? (fun x => decide (x < 0 ∨ (u64Max : Int) < x)) = none := by
      intro hs
      rw [List.findIdx?_eq_none_iff]
      intro x hx
      have := hrange hs x hx
      simp only [decide_eq_false_iff_not]
      omega
    simp only [deltaList, length_listDelta, hlen, ne_eq, not_true_eq_false, if_false,
      h.getD_eq, addDeltas_listDelta]
    cases signed with
    | false => rw [hidx rfl]
    | true => split <;> simp_all

theorem map_toNat_map_ofNat (v : List Nat) : (v.map Int.ofNat).map Int.toNat = v := by
  simp [Function.comp_def]

/-- The same for an unsigned list. -/
theorem deltaList_natDelta (fid : Nat) {want : Nat} {v : List Nat} (hlen : v.length = want)
    (hle : ∀ x ∈ v, x ≤ u64Max) {prev dec : Option (List Nat)} (h : Uncarried prev dec) :
    ∃ r, deltaList fid want false (dec.map (·.map Int.ofNat))
        (if v ≠ prev.getD [] then
          some (listDelta (v.map Int.ofNat) ((prev.getD []).map Int.ofNat)) else none) = .ok r ∧
      Uncarried (some v) (r.map (·.map Int.toNat)) := by
  have hmap : Uncarried (prev.map (·.map Int.ofNat)) (dec.map (·.map Int.ofNat)) := by
    rcases h with rfl | ⟨rfl, rfl⟩
    · exact .refl _
    · exact .inr ⟨rfl, rfl⟩
  have hget : (prev.map (·.map Int.ofNat)).getD [] = (prev.getD []).map Int.ofNat := by
    cases prev <;> rfl
  have hrange : ∀ x ∈ v.map Int.ofNat, 0 ≤ x ∧ x ≤ (u64Max : Int) := by
    intro x hx
    obtain ⟨y, hy, rfl⟩ := List.mem_map.mp hx
    have := hle y hy
    simp only [Int.ofNat_eq_natCast]
    omega
  obtain ⟨r, hr, hagrees⟩ := deltaList_listDelta fid false
    (v := v.map Int.ofNat) (by simpa using hlen) (fun _ => hrange) hmap
  have hne : v.map Int.ofNat ≠ (prev.getD []).map Int.ofNat ↔ v ≠ prev.getD [] := by
    rw [not_iff_not]
    constructor
    · intro heq
      have := congrArg (List.map Int.toNat) heq
      rwa [map_toNat_map_ofNat, map_toNat_map_ofNat] at this
    · rintro rfl
      rfl
  simp only [hget, hne] at hr
  refine ⟨r, hr, ?_⟩
  rcases hagrees with heq | ⟨heq, rfl⟩
  · rw [← heq]
    exact .inl (congrArg some (map_toNat_map_ofNat v).symm)
  · have hnil : v = [] := by simpa using heq
    exact .inr ⟨congrArg some hnil, rfl⟩

/-! ## The reference after its deletions -/

/-- The length each list of a header has. -/
def listLength (fields : Fields) : ListId → Nat
  | .sampleSizes => (fields (.scalar .sampleCount)).getD 0 - 1
  | .clearBytes | .protectedBytes => ((fields (.list .subsampleCounts)).getD []).sum
  | .sampleDurations | .sampleFlags | .subsampleCounts =>
      (fields (.scalar .sampleCount)).getD 0

/-- Fields a chunk can be represented by: lists as long as the counts say, and
every value a 64-bit one. -/
structure Represented (fields : Fields) : Prop where
  scalar_le : ∀ {id} {v : Nat}, fields (.scalar id) = some v → v ≤ u64Max
  list_length : ∀ {id v}, fields (.list id) = some v → v.length = listLength fields id
  list_le : ∀ {id v}, fields (.list id) = some v → ∀ x ∈ v, x ≤ u64Max
  offsets_length : ∀ {v}, fields .compositionOffsets = some v →
    v.length = (fields (.scalar .sampleCount)).getD 0
  deleted : fields .deleted = none

theorem mem_goneIds {cur prev : Fields} {f : FieldId} :
    f.code ∈ goneIds cur prev ↔ (prev f).isSome ∧ (cur f).isNone := by
  simp only [goneIds, List.mem_map, List.mem_filter, decide_eq_true_eq]
  constructor
  · rintro ⟨g, ⟨-, hg⟩, hcode⟩
    exact code_injective hcode ▸ hg
  · intro h
    exact ⟨f, ⟨mem_all f, h⟩, rfl⟩

theorem deltaWire_deleted (cur prev : Fields) :
    (deltaWire cur prev .deleted).getD [] = goneIds cur prev := by
  simp only [deltaWire]
  split_ifs with h
  · rw [h]
    rfl
  · rfl

section Apply

variable {cur prev dec : Fields}

/-- The receiver's reference without the fields that left. -/
theorem dropDeleted_none (h : Agrees prev dec) {f : FieldId} (hf : cur f = none) :
    dropDeleted dec (goneIds cur prev) f = none := by
  unfold dropDeleted
  split_ifs with hmem
  · rfl
  · rw [mem_goneIds] at hmem
    refine h.none ?_
    cases hp : prev f with
    | none => rfl
    | some v => exact absurd ⟨by simp [hp], by simp [hf]⟩ hmem

theorem dropDeleted_some {f : FieldId} {v : f.Value} (hf : cur f = some v) :
    dropDeleted dec (goneIds cur prev) f = dec f := by
  unfold dropDeleted
  rw [if_neg]
  rw [mem_goneIds]
  simp [hf]

/-- Fields of `done` are rebuilt, the others still those of the reference. -/
def Progress (cur prev dec : Fields) (done : List FieldId) (now : Fields) : Prop :=
  ∀ f, (f ∈ done → AgreesAt f (cur f) (now f)) ∧
    (f ∉ done → now f = dropDeleted dec (goneIds cur prev) f)

theorem Progress.start (cur prev dec : Fields) :
    Progress cur prev dec [] (dropDeleted dec (goneIds cur prev)) :=
  fun _ => ⟨by simp, fun _ => rfl⟩

theorem Progress.update {done : List FieldId} {now : Fields}
    (hp : Progress cur prev dec done now) {f : FieldId} {r : Option f.Value}
    (hr : AgreesAt f (cur f) r) :
    Progress cur prev dec (f :: done) (Function.update now f r) := by
  intro g
  by_cases hg : g = f
  · subst hg
    simpa using hr
  · rw [Function.update_of_ne hg]
    refine ⟨fun hmem => (hp g).1 ?_, fun hmem => (hp g).2 ?_⟩
    · simpa [hg] using hmem
    · simpa [hg] using hmem

/-- One scalar. -/
theorem applyScalar_deltaWire (hcur : Represented cur) (h : Agrees prev dec)
    {done : List FieldId} {now : Fields} (hp : Progress cur prev dec done now)
    (id : ScalarId) (hid : id ≠ .baseMediaDecodeTime) (hnew : FieldId.scalar id ∉ done) :
    ∃ next, applyScalar (deltaWire cur prev) id now = .ok next ∧
      Progress cur prev dec (.scalar id :: done) next := by
  have hnow := (hp (.scalar id)).2 hnew
  refine ⟨Function.update now (.scalar id) (cur (.scalar id)), ?_, hp.update rfl⟩
  cases hv : cur (.scalar id) with
  | none =>
      rw [dropDeleted_none h hv] at hnow
      have hself : Function.update now (.scalar id) none = now := by
        rw [← hnow, Function.update_eq_self]
      simp only [applyScalar, deltaWire, hv, hself]
  | some v =>
      rw [dropDeleted_some hv, h.scalar] at hnow
      by_cases hsame : prev (.scalar id) = some v
      · have hself : Function.update now (.scalar id) (some v) = now := by
          rw [← hsame, ← hnow, Function.update_eq_self]
        simp only [applyScalar, deltaWire, hv, hsame, or_true, if_true, hself]
      · have hle := hcur.scalar_le hv
        simp only [applyScalar, deltaWire, hv, hid, hsame, or_self, if_false, hnow,
          unzigzag_zigzag]
        rw [add_sub_cancel, if_neg (by omega)]
        rfl

theorem applyScalars_deltaWire (hcur : Represented cur) (h : Agrees prev dec)
    (ids : List ScalarId) (hnodup : ids.Nodup) (hids : ScalarId.baseMediaDecodeTime ∉ ids) :
    ∀ {done : List FieldId} {now : Fields}, Progress cur prev dec done now →
      (∀ id ∈ ids, FieldId.scalar id ∉ done) →
      ∃ next, ids.foldlM (fun now id => applyScalar (deltaWire cur prev) id now) now =
          Except.ok next ∧
        Progress cur prev dec ((ids.map FieldId.scalar).reverse ++ done) next := by
  induction ids with
  | nil =>
      intro done now hp _
      exact ⟨now, rfl, by simpa using hp⟩
  | cons id ids ih =>
      intro done now hp hnew
      rw [List.nodup_cons] at hnodup
      simp only [List.mem_cons, not_or] at hids
      obtain ⟨mid, hmid, hpmid⟩ := applyScalar_deltaWire hcur h hp id (Ne.symm hids.1)
        (hnew id (by simp))
      have hfresh : ∀ i ∈ ids, FieldId.scalar i ∉ FieldId.scalar id :: done := by
        intro i hi hmem
        rcases List.mem_cons.mp hmem with heq | hmem
        · exact hnodup.1 (FieldId.scalar.inj heq ▸ hi)
        · exact hnew i (by simp [hi]) hmem
      obtain ⟨next, hnext, hpnext⟩ := ih hnodup.2 hids.2 hpmid hfresh
      refine ⟨next, ?_, by simpa using hpnext⟩
      simp only [List.foldlM_cons, hmid, bind, Except.bind]
      exact hnext

/-- One unsigned list. -/
theorem applyListed_deltaWire (hcur : Represented cur) (h : Agrees prev dec)
    {done : List FieldId} {now : Fields} (hp : Progress cur prev dec done now)
    (id : ListId) (hnew : FieldId.list id ∉ done) {want : Nat}
    (hwant : want = listLength cur id) :
    ∃ next, applyListed (deltaWire cur prev) id want now = .ok next ∧
      Progress cur prev dec (.list id :: done) next := by
  have hnow := (hp (.list id)).2 hnew
  cases hv : cur (.list id) with
  | none =>
      rw [dropDeleted_none h hv] at hnow
      refine ⟨Function.update now (.list id) none, ?_, hp.update ?_⟩
      · simp [applyListed, deltaWire, hv, hnow, deltaList, bind, Except.bind, pure, Except.pure]
      · rw [hv]
        exact Uncarried.refl _
  | some v =>
      rw [dropDeleted_some hv] at hnow
      obtain ⟨r, hr, hagrees⟩ := deltaList_natDelta id.code
        ((hcur.list_length hv).trans hwant.symm) (hcur.list_le hv) (h.list id)
      refine ⟨Function.update now (.list id) (r.map (·.map Int.toNat)), ?_, hp.update ?_⟩
      · simp only [applyListed, deltaWire, hv, hnow, hr, bind, Except.bind, pure, Except.pure]
      · rw [hv]
        exact hagrees

theorem applyOffsets_deltaWire (hcur : Represented cur) (h : Agrees prev dec)
    {done : List FieldId} {now : Fields} (hp : Progress cur prev dec done now)
    (hnew : FieldId.compositionOffsets ∉ done) {want : Nat}
    (hwant : want = (cur (.scalar .sampleCount)).getD 0) :
    ∃ next, applyOffsets (deltaWire cur prev) want now = .ok next ∧
      Progress cur prev dec (.compositionOffsets :: done) next := by
  have hnow := (hp .compositionOffsets).2 hnew
  cases hv : cur .compositionOffsets with
  | none =>
      rw [dropDeleted_none h hv] at hnow
      refine ⟨Function.update now .compositionOffsets none, ?_, hp.update ?_⟩
      · simp [applyOffsets, deltaWire, hv, hnow, deltaList, bind, Except.bind, pure, Except.pure]
      · rw [hv]
        exact Uncarried.refl _
  | some v =>
      rw [dropDeleted_some hv] at hnow
      obtain ⟨r, hr, hagrees⟩ := deltaList_listDelta
        (FieldId.code .compositionOffsets) true
        ((hcur.offsets_length hv).trans hwant.symm) (by simp) (h .compositionOffsets)
      refine ⟨Function.update now .compositionOffsets r, ?_, hp.update ?_⟩
      · simp only [applyOffsets, deltaWire, hv, hnow, hr, bind, Except.bind, pure, Except.pure]
      · rw [hv]
        exact hagrees

/-- The IVs overwrite the reference's. -/
theorem applyIvs_deltaWire (h : Agrees prev dec) {done : List FieldId} {now : Fields}
    (hp : Progress cur prev dec done now) (hnew : FieldId.ivs ∉ done) :
    Progress cur prev dec (.ivs :: done) (applyIvs (deltaWire cur prev) now) := by
  have hnow := (hp .ivs).2 hnew
  have hkeep : AgreesAt .ivs (cur .ivs) (now .ivs) →
      Progress cur prev dec (.ivs :: done) now := by
    intro hagrees
    have := hp.update hagrees
    rwa [Function.update_eq_self] at this
  cases hv : cur .ivs with
  | none =>
      simp only [applyIvs, deltaWire, hv]
      refine hkeep ?_
      rw [hv, hnow, dropDeleted_none h hv]
      exact Uncarried.refl _
  | some v =>
      rw [dropDeleted_some hv] at hnow
      simp only [applyIvs, deltaWire, hv]
      by_cases hsame : v = (prev .ivs).getD []
      · rw [if_neg (not_not.mpr hsame)]
        refine hkeep ?_
        rw [hv, hnow]
        rcases h .ivs with heq | ⟨heq, hnone⟩
        · rw [← heq]
          cases hprev : prev .ivs with
          | none => exact .inr ⟨by rw [hsame, hprev]; rfl, rfl⟩
          | some p =>
              rw [hprev] at hsame
              exact .inl (congrArg some hsame)
        · rw [hnone]
          exact .inr ⟨by rw [hsame, heq]; rfl, rfl⟩
      · rw [if_pos hsame]
        refine hp.update ?_
        rw [hv]
        exact Uncarried.refl _

/-- A delta header applied to a reference that stands for the sender's. -/
theorem applyDelta_deltaWire (hcur : Represented cur) (h : Agrees prev dec)
    {n : Nat} (hn : cur (.scalar .sampleCount) = some n) (hcount : n ≤ maxSampleCount)
    (htotal : ((cur (.list .subsampleCounts)).getD []).sum ≤ maxSampleCount)
    {bmdt : Nat} (hbmdt : cur (.scalar .baseMediaDecodeTime) = some bmdt) :
    ∃ next, applyDelta (deltaWire cur prev) dec (some bmdt) = .ok next ∧
      Agrees cur next := by
  obtain ⟨c1, h1, p1⟩ := applyScalar_deltaWire hcur h (Progress.start cur prev dec) .sampleCount
    (by decide) (by simp)
  have hn1 : c1 (.scalar .sampleCount) = some n := by
    rw [← ((p1 (.scalar .sampleCount)).1 (by simp)), hn]
  obtain ⟨c2, h2, p2⟩ := applyScalars_deltaWire hcur h deltaScalars (by decide)
    (by decide) p1 (by decide)
  have hlen : ∀ id, listLength cur id = match id with
      | .sampleSizes => n - 1
      | .clearBytes | .protectedBytes => ((cur (.list .subsampleCounts)).getD []).sum
      | _ => n := by
    intro id
    cases id <;> simp [listLength, hn]
  obtain ⟨c3, h3, p3⟩ := applyListed_deltaWire hcur h p2 .sampleDurations (by decide)
    (hlen _).symm
  obtain ⟨c4, h4, p4⟩ := applyListed_deltaWire hcur h p3 .sampleFlags (by decide)
    (hlen _).symm
  obtain ⟨c5, h5, p5⟩ := applyListed_deltaWire hcur h p4 .sampleSizes (by decide)
    (hlen _).symm
  obtain ⟨c6, h6, p6⟩ := applyListed_deltaWire hcur h p5 .subsampleCounts (by decide)
    (hlen _).symm
  have htotal6 : ((c6 (.list .subsampleCounts)).getD []).sum =
      ((cur (.list .subsampleCounts)).getD []).sum := by
    have hagrees : Uncarried _ _ := (p6 (.list .subsampleCounts)).1 (by simp)
    rw [hagrees.getD_eq]
  obtain ⟨c7, h7, p7⟩ := applyListed_deltaWire hcur h p6 .clearBytes (by decide)
    (hlen _).symm
  obtain ⟨c8, h8, p8⟩ := applyListed_deltaWire hcur h p7 .protectedBytes (by decide)
    (hlen _).symm
  obtain ⟨c9, h9, p9⟩ := applyOffsets_deltaWire hcur h p8 (by decide)
    (show n = (cur (.scalar .sampleCount)).getD 0 by rw [hn]; rfl)
  have p10 := applyIvs_deltaWire h p9 (by decide)
  simp only at h3 h4 h5 h6 h7 h8
  refine ⟨Function.update (applyIvs (deltaWire cur prev) c9) (.scalar .baseMediaDecodeTime)
    (some bmdt), ?_, ?_⟩
  · unfold applyDelta
    rw [deltaWire_deleted]
    simp only [h1, hn1, Option.getD_some,
      if_neg (Nat.not_lt.mpr hcount), h2, h3, h4, h5, h6, htotal6,
      if_neg (Nat.not_lt.mpr htotal), h7, h8, h9, bind, Except.bind, pure, Except.pure]
  · have p11 := p10.update (f := .scalar .baseMediaDecodeTime) (r := some bmdt) hbmdt
    intro f
    by_cases hf : f = .deleted
    · subst hf
      have hnow := (p11 .deleted).2 (by decide)
      have hnone : dropDeleted dec (goneIds cur prev) .deleted = none :=
        dropDeleted_none h hcur.deleted
      rw [hnow, hnone, hcur.deleted]
      rfl
    · refine (p11 f).1 ?_
      rcases f with id | id | _ | _ | _ <;> first | cases id <;> decide | decide | simp at hf

end Apply

end AioMoqt.Media.Locmaf
