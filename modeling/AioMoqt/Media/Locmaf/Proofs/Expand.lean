import AioMoqt.Media.Locmaf.Codec
import AioMoqt.Media.Locmaf.Proofs.Source

/-!
# Expansion recovers the effective values

The sender keeps `_represent`'s fields as the delta reference, the receiver what
`_apply_delta` rebuilt.  The two may differ in one way only: an empty list that
was never carried is present on the sending side and absent on the receiving
side.  Expansion does not see that difference.
-/

namespace AioMoqt.Media.Locmaf

open AioMoqt.Lib AioMoqt.Lib.BigEndian

/-! ## Interchangeable references -/

/-- Equal, or an empty list that the receiver never saw. -/
def Uncarried {α : Type} (enc dec : Option (List α)) : Prop :=
  enc = dec ∨ enc = some [] ∧ dec = none

/-- The sender's and the receiver's value of one field stand for each other. -/
def AgreesAt : (f : FieldId) → Option f.Value → Option f.Value → Prop
  | .scalar _, enc, dec => enc = dec
  | .list _, enc, dec => Uncarried enc dec
  | .compositionOffsets, enc, dec => Uncarried enc dec
  | .ivs, enc, dec => Uncarried enc dec
  | .deleted, enc, dec => enc = dec

/-- The sender's and the receiver's references stand for each other. -/
def Agrees (enc dec : Fields) : Prop := ∀ f, AgreesAt f (enc f) (dec f)

theorem Uncarried.refl {α : Type} (v : Option (List α)) : Uncarried v v := .inl rfl

theorem Uncarried.getD_eq {α : Type} {enc dec : Option (List α)} (h : Uncarried enc dec) :
    dec.getD [] = enc.getD [] := by
  rcases h with rfl | ⟨rfl, rfl⟩ <;> rfl

theorem Uncarried.eq_of_ne {α : Type} {enc dec : Option (List α)} (h : Uncarried enc dec)
    (hne : enc ≠ some []) : dec = enc := by
  rcases h with rfl | ⟨rfl, -⟩
  · rfl
  · exact absurd rfl hne

theorem Agrees.refl (fields : Fields) : Agrees fields fields := by
  intro f
  cases f <;> simp [AgreesAt, Uncarried]

theorem Agrees.none {enc dec : Fields} (h : Agrees enc dec) {f : FieldId}
    (hf : enc f = .none) : dec f = .none := by
  have hat := h f
  cases f <;> simp only [AgreesAt, Uncarried, hf] at hat <;> simp_all

theorem Agrees.scalar {enc dec : Fields} (h : Agrees enc dec) (id : ScalarId) :
    dec (.scalar id) = enc (.scalar id) :=
  (h (.scalar id)).symm

theorem Agrees.list {enc dec : Fields} (h : Agrees enc dec) (id : ListId) :
    Uncarried (enc (.list id)) (dec (.list id)) :=
  h (.list id)

/-! ## Per-sample columns -/

theorem uniform_eq_replicate {vs : List Nat} (h : uniform vs = true) (default : Nat) :
    List.replicate vs.length ((unlessDefault default vs).getD default) = vs := by
  cases vs with
  | nil => rfl
  | cons x xs =>
      have hx : (unlessDefault default (x :: xs)).getD default = x := by
        simp only [unlessDefault]
        split_ifs with hne
        · rfl
        · simpa using (not_not.mp hne).symm
      rw [hx, eq_comm, List.eq_replicate_iff]
      refine ⟨rfl, ?_⟩
      intro y hy
      rcases List.mem_cons.mp hy with rfl | hy
      · rfl
      · simpa using List.all_eq_true.mp h y hy

theorem unlessDefault_getD_le {default : Nat} {vs : List Nat} (hd : default ≤ u32Max)
    (hvs : ∀ v ∈ vs, v ≤ u32Max) : (unlessDefault default vs).getD default ≤ u32Max := by
  cases vs with
  | nil => exact hd
  | cons x xs =>
      simp only [unlessDefault]
      split_ifs
      · exact hvs x (by simp)
      · exact hd

theorem allButFirst_eq {vs : List Nat} (h : allButFirst vs = true) (default : Nat) :
    ∃ x n, vs = x :: List.replicate (n + 1) ((unlessDefault default (vs.drop 1)).getD default) := by
  match vs, h with
  | x :: y :: rest, h =>
      simp only [allButFirst, Bool.and_eq_true] at h
      have hrest : uniform (y :: rest) = true := h.2
      refine ⟨x, rest.length, ?_⟩
      have htail := uniform_eq_replicate hrest default
      simpa using htail.symm

/-- A list that is not uniform has a second entry. -/
theorem one_lt_length_of_not_uniform {vs : List Nat} (h : ¬ uniform vs = true) :
    1 < vs.length := by
  match vs, h with
  | [], h => simp [uniform] at h
  | [x], h => simp [uniform] at h
  | x :: y :: rest, _ => simp

theorem u32Scalar_ok {fields : Fields} (id : ScalarId) {default : Nat}
    (h : (fields (.scalar id)).getD default ≤ u32Max) :
    u32Scalar fields id default = .ok ((fields (.scalar id)).getD default) := by
  simp [u32Scalar, Nat.not_lt.mpr h]

theorem u32List_ok {vs : List Nat} {fid n : Nat} (hlen : vs.length = n)
    (hvs : ∀ v ∈ vs, v ≤ u32Max) : u32List vs fid n = .ok vs := by
  have hany : vs.any (fun v => decide (u32Max < v)) = false := by
    rw [List.any_eq_false]
    intro v hv
    simpa using hvs v hv
  simp [u32List, hlen, hany]

section Expansion

variable {eff : EffectiveValues} {sencIv : Option Nat} {ctx : TrackContext}
  {fields : Fields}

/-- The durations of a chunk, listed or by default. -/
theorem expandDurations_represent (src : Source eff sencIv ctx)
    (h : Agrees (represent eff sencIv ctx) fields) :
    ∃ default, u32Scalar fields .defaultSampleDuration ctx.defaultSampleDuration =
        .ok default ∧
      expandDurations fields eff.sampleCount default = .ok eff.durations := by
  have hlist : fields (.list .sampleDurations) =
      if uniform eff.durations then none else some eff.durations := by
    refine (h.list _).eq_of_ne ?_
    simp only [represent]
    split_ifs with hu
    · simp
    · have hlong := one_lt_length_of_not_uniform hu
      intro heq
      rw [Option.some.inj heq] at hlong
      simp at hlong
  have hscalar : fields (.scalar .defaultSampleDuration) =
      if uniform eff.durations then unlessDefault ctx.defaultSampleDuration eff.durations
      else none := h.scalar _
  by_cases hu : uniform eff.durations
  · rw [if_pos hu] at hlist hscalar
    have hle := unlessDefault_getD_le ctx.defaultSampleDuration_le src.durations_le
    refine ⟨_, u32Scalar_ok _ (by rw [hscalar]; exact hle), ?_⟩
    unfold expandDurations
    rw [hlist, hscalar]
    exact congrArg Except.ok (uniform_eq_replicate hu _)
  · rw [if_neg hu] at hlist hscalar
    refine ⟨_, u32Scalar_ok _ (by rw [hscalar]; exact ctx.defaultSampleDuration_le), ?_⟩
    unfold expandDurations
    rw [hlist]
    exact u32List_ok rfl src.durations_le

theorem listed_any {vs : List Nat} {bound : Nat} (hvs : ∀ v ∈ vs, v ≤ bound) :
    (vs.any fun v => decide (bound < v)) = false := by
  rw [List.any_eq_false]
  intro v hv
  simpa using hvs v hv

/-- The sizes of a chunk: listed with the last derived, by default, or derived
from the payload. -/
theorem expandSizes_represent (src : Source eff sencIv ctx)
    (h : Agrees (represent eff sencIv ctx) fields) :
    expandSizes fields eff.sampleCount eff.mdat.length ctx = .ok eff.sizes := by
  have hlen := src.sizes_length
  have hsum := src.sizes_sum
  have hscalar : fields (.scalar .defaultSampleSize) =
      if 1 < eff.sampleCount ∧ uniform eff.sizes
      then unlessDefault ctx.defaultSampleSize eff.sizes else none := h.scalar _
  have hlist : fields (.list .sampleSizes) =
      if 1 < eff.sampleCount ∧ ¬ uniform eff.sizes then some eff.sizes.dropLast else none := by
    refine (h.list _).eq_of_ne ?_
    simp only [represent]
    split_ifs with hu
    · intro heq
      have hdrop := congrArg List.length (Option.some.inj heq)
      rw [List.length_dropLast] at hdrop
      simp only [List.length_nil] at hdrop
      omega
    · simp
  unfold expandSizes
  rw [hlist, hscalar]
  rcases Nat.lt_trichotomy eff.sampleCount 1 with hn | hn | hn
  · have hzero : eff.sizes = [] := List.eq_nil_of_length_eq_zero (by omega)
    have hp : eff.mdat.length = 0 := by rw [← hsum, hzero]; rfl
    have hn0 : eff.sampleCount = 0 := by omega
    have hctx := ctx.defaultSampleSize_le
    simp only [hn0, hp, hzero]
    by_cases hctx0 : ctx.defaultSampleSize = 0
    · simp [hctx0]
    · simp [hctx0, Nat.not_lt.mpr hctx]
  · obtain ⟨x, hx⟩ := List.length_eq_one_iff.mp (hlen.trans hn)
    have hp : eff.mdat.length = x := by rw [← hsum, hx]; simp
    have hxle : x ≤ u32Max := src.sizes_le x (by simp [hx])
    simp [hn, hp, hx, Nat.not_lt.mpr hxle]
  · by_cases hu : uniform eff.sizes = true
    · simp only [hn, hu, not_true_eq_false, and_false, if_false, and_self, if_true]
      have hrep := uniform_eq_replicate hu ctx.defaultSampleSize
      have hle := unlessDefault_getD_le ctx.defaultSampleSize_le src.sizes_le
      generalize hd : unlessDefault ctx.defaultSampleSize eff.sizes = o at hrep hle
      have hprod : eff.sampleCount * o.getD ctx.defaultSampleSize = eff.mdat.length := by
        rw [← hsum, ← hrep, List.sum_replicate_nat, hlen]
      rw [hlen] at hrep
      cases o with
      | some size =>
          simp only [Option.getD_some] at hprod hrep hle
          simp [Nat.not_lt.mpr hle, hprod, hrep]
      | none =>
          simp only [Option.getD_none] at hprod hrep hle
          by_cases hctx0 : ctx.defaultSampleSize = 0
          · rw [hctx0] at hprod hrep
            simp [hctx0, ← hprod, hrep, Nat.ne_of_gt hn]
          · simp [hctx0, Nat.not_lt.mpr hle, hprod, hrep, Nat.ne_of_gt hn]
    · have hne : eff.sizes ≠ [] := by
        intro hnil
        simp [hnil] at hlen
        omega
      have hlast := List.dropLast_concat_getLast hne
      have hsplit : eff.sizes.dropLast.sum + eff.sizes.getLast hne = eff.mdat.length := by
        rw [← hsum]
        conv_rhs => rw [← hlast]
        simp
      have hlastLe := src.sizes_le _ (List.getLast_mem hne)
      have hdropLe : ∀ v ∈ eff.sizes.dropLast, v ≤ u32Max :=
        fun v hv => src.sizes_le v (List.dropLast_subset _ hv)
      have hderived : eff.mdat.length - eff.sizes.dropLast.sum = eff.sizes.getLast hne := by
        omega
      simp only [hn, hu, not_false_eq_true, and_self, if_true, List.length_dropLast, hlen,
        ne_eq, not_true_eq_false, if_false, listed_any hdropLe, Bool.false_eq_true,
        Nat.ne_of_gt (show 0 < eff.sampleCount by omega), hderived]
      rw [if_neg (by omega), if_neg (by omega), hlast]

/-- The flags of a chunk: listed, by default, or by default after the first. -/
theorem expandFlags_represent (src : Source eff sencIv ctx)
    (h : Agrees (represent eff sencIv ctx) fields) :
    ∃ default first,
      u32Scalar fields .defaultSampleFlags ctx.defaultSampleFlags = .ok default ∧
      firstFlags fields = .ok first ∧
      expandFlags fields eff.sampleCount default first = .ok eff.flags := by
  have hlen := src.flags_length
  have hdefault : fields (.scalar .defaultSampleFlags) =
      if uniform eff.flags then unlessDefault ctx.defaultSampleFlags eff.flags
      else if allButFirst eff.flags
      then unlessDefault ctx.defaultSampleFlags (eff.flags.drop 1) else none := h.scalar _
  have hfirst : fields (.scalar .firstSampleFlags) =
      if ¬ uniform eff.flags ∧ allButFirst eff.flags then eff.flags.head? else none :=
    h.scalar _
  have hlist : fields (.list .sampleFlags) =
      if ¬ uniform eff.flags ∧ ¬ allButFirst eff.flags then some eff.flags else none := by
    refine (h.list _).eq_of_ne ?_
    simp only [represent]
    split_ifs with hu
    · have hlong := one_lt_length_of_not_uniform hu.1
      intro heq
      rw [Option.some.inj heq] at hlong
      simp at hlong
    · simp
  by_cases hu : uniform eff.flags = true
  · simp only [hu, if_true, not_true_eq_false, false_and, if_false] at hdefault hfirst hlist
    refine ⟨_, none, u32Scalar_ok _ ?_, by simp [firstFlags, hfirst], ?_⟩
    · rw [hdefault]
      exact unlessDefault_getD_le ctx.defaultSampleFlags_le src.flags_le
    · unfold expandFlags
      rw [hlist, hdefault]
      have hrep := uniform_eq_replicate hu ctx.defaultSampleFlags
      rw [hlen] at hrep
      simp [hrep]
  · by_cases hb : allButFirst eff.flags = true
    · simp only [hu, hb, if_true, if_false, not_true_eq_false, not_false_eq_true, and_true,
        and_false, Bool.false_eq_true] at hdefault hfirst hlist
      obtain ⟨x, n, hflags⟩ := allButFirst_eq hb ctx.defaultSampleFlags
      have hx : x ≤ u32Max := src.flags_le x (by rw [hflags]; simp)
      have hhead : eff.flags.head? = some x := by rw [hflags]; rfl
      have hcount : eff.sampleCount = n + 1 + 1 := by
        rw [← hlen, hflags]
        simp
      rw [hhead] at hfirst
      refine ⟨_, some x, u32Scalar_ok _ ?_, ?_, ?_⟩
      · rw [hdefault]
        exact unlessDefault_getD_le ctx.defaultSampleFlags_le
          fun v hv => src.flags_le v (List.mem_of_mem_drop hv)
      · unfold firstFlags
        rw [hfirst]
        simp only
        rw [u32Scalar_ok _ (by rw [hfirst]; exact hx), hfirst]
        rfl
      · unfold expandFlags
        rw [hlist, hdefault, hcount]
        exact congrArg Except.ok hflags.symm
    · simp only [hu, hb, if_false, not_false_eq_true, and_self, and_false, if_true,
        Bool.false_eq_true] at hdefault hfirst hlist
      refine ⟨_, none, u32Scalar_ok _ ?_, by simp [firstFlags, hfirst], ?_⟩
      · rw [hdefault]
        exact ctx.defaultSampleFlags_le
      · unfold expandFlags
        rw [hlist]
        exact u32List_ok hlen src.flags_le

theorem expandOffsets_represent (src : Source eff sencIv ctx)
    (h : Agrees (represent eff sencIv ctx) fields) :
    expandOffsets fields eff.sampleCount = .ok eff.ctos := by
  have hlist : fields .compositionOffsets =
      if eff.ctos.any (· ≠ 0) then some eff.ctos else none := by
    refine (h .compositionOffsets).eq_of_ne ?_
    simp only [represent]
    split_ifs with hany
    · intro heq
      rw [Option.some.inj heq] at hany
      simp at hany
    · simp
  unfold expandOffsets
  rw [hlist]
  by_cases hany : (eff.ctos.any (· ≠ 0)) = true
  · have hrange : (eff.ctos.any fun c => decide (c < i32Min ∨ i32Max < c)) = false := by
      rw [List.any_eq_false]
      intro c hc
      have := src.ctos_mem c hc
      simp only [decide_eq_true_eq]
      omega
    simp only [hany, if_true, src.ctos_length, ne_eq, not_true_eq_false, if_false, hrange,
      Bool.false_eq_true]
  · simp only [hany, Bool.false_eq_true, if_false]
    refine congrArg Except.ok ?_
    rw [eq_comm, List.eq_replicate_iff]
    refine ⟨src.ctos_length, ?_⟩
    intro c hc
    simp only [List.any_eq_true, not_exists, not_and] at hany
    simpa using hany c hc

/-! ## Encryption data -/

/-- Per-sample IVs, read under the IV size of the chunk's senc. -/
theorem expandIvs_represent {iv : Nat} (src : Source eff (some iv) ctx)
    (h : Agrees (represent eff (some iv) ctx) fields) :
    expandIvs fields eff.sampleCount iv = .ok eff.ivs := by
  obtain ⟨-, -, -, hivs, -⟩ := src.encryption
  have hget : (fields .ivs).getD [] = eff.ivs := by
    rw [(h .ivs).getD_eq]
    simp only [represent, Option.bind_some]
    split_ifs with hiv
    · rfl
    · rw [not_not.mp hiv, Nat.zero_mul] at hivs
      exact (List.eq_nil_of_length_eq_zero hivs).symm
  unfold expandIvs
  simp only [hget]
  by_cases hnil : eff.ivs = []
  · have hzero : iv * eff.sampleCount = 0 := by rw [← hivs, hnil]; rfl
    have hnone : ¬ (iv ≠ 0 ∧ eff.sampleCount ≠ 0) := by
      rintro ⟨hiv, hn⟩
      exact (Nat.mul_ne_zero hiv hn) hzero
    simp only [hnil, ne_eq, not_true_eq_false, if_false, if_neg hnone]
  · have hiv : iv ≠ 0 := by
      rintro rfl
      rw [Nat.zero_mul] at hivs
      exact hnil (List.eq_nil_of_length_eq_zero hivs)
    simp only [hnil, ne_eq, not_false_eq_true, if_true, hiv, if_false, hivs,
      not_true_eq_false]

/-- The subsample map, whose byte lists may be empty and never carried. -/
theorem expandSubsamples_represent {iv : Nat} (src : Source eff (some iv) ctx)
    (h : Agrees (represent eff (some iv) ctx) fields) :
    expandSubsamples fields eff.sampleCount eff.sizes =
      .ok (eff.subsampleCounts, eff.clearBytes, eff.protectedBytes) := by
  obtain ⟨-, -, -, -, hmap⟩ := src.encryption
  unfold SubsampleMap at hmap
  cases hcounts : eff.subsampleCounts with
  | none =>
      rw [hcounts] at hmap
      have hnone : ∀ id ∈ [ListId.subsampleCounts, .clearBytes, .protectedBytes],
          fields (.list id) = none := by
        intro id hid
        refine h.none ?_
        simp only [List.mem_cons, List.not_mem_nil, or_false] at hid
        rcases hid with rfl | rfl | rfl <;> simp [represent, hcounts]
      unfold expandSubsamples
      rw [hnone .subsampleCounts (by simp), hnone .clearBytes (by simp),
        hnone .protectedBytes (by simp), hmap.1, hmap.2]
      rfl
  | some counts =>
      rw [hcounts] at hmap
      obtain ⟨hn, hlen, hclearLen, hprotLen, hcountsLe, hclearLe, hprotLe, hcover⟩ := hmap
      have hlist : fields (.list .subsampleCounts) = some counts := by
        rw [(h.list _).eq_of_ne]
        · simp [represent, hcounts]
        · simp only [represent, hcounts, Option.bind_some]
          intro heq
          rw [Option.some.inj heq] at hlen
          exact hn hlen.symm
      have hclear : (fields (.list .clearBytes)).getD [] = eff.clearBytes := by
        rw [(h.list _).getD_eq]
        simp [represent, hcounts]
      have hprot : (fields (.list .protectedBytes)).getD [] = eff.protectedBytes := by
        rw [(h.list _).getD_eq]
        simp [represent, hcounts]
      unfold expandSubsamples
      simp only [hlist, hclear, hprot, hlen, hclearLen, hprotLen, ne_eq, not_true_eq_false,
        if_false, or_self, listed_any hcountsLe, listed_any hclearLe, listed_any hprotLe,
        Bool.false_eq_true, hcover]

/-- A chunk without senc, sent on a protected track whose default IV size is not
0: only an empty chunk can be one. -/
def Hidden (sencIv : Option Nat) (ctx : TrackContext) : Prop :=
  sencIv = none ∧ ctx.isProtected = true ∧ ctx.ivSize ≠ 0

/-- The fields as the receiver has them before it reads the encryption data. -/
def EffectiveValues.clear (eff : EffectiveValues) : EffectiveValues :=
  { eff with
    ivSize := 0, ivs := [], subsampleCounts := none, clearBytes := [], protectedBytes := [] }

/-- Reading the encryption data completes the effective values. -/
theorem expandEncryption_represent (src : Source eff sencIv ctx)
    (h : Agrees (represent eff sencIv ctx) fields) (hhidden : ¬ Hidden sencIv ctx) :
    expandEncryption fields ctx eff.clear = .ok eff := by
  have hcount : eff.clear.sampleCount = eff.sampleCount := rfl
  have hsizes : eff.clear.sizes = eff.sizes := rfl
  have hiv : fields (.scalar .ivSize) =
      sencIv.bind fun iv => if iv ≠ ctx.ivSize then some iv else none := h.scalar _
  cases sencIv with
  | none =>
      obtain ⟨hivSize, hivs, hcounts, hclear, hprot, -⟩ := src.encryption
      have heff : eff.clear = eff := by
        cases eff
        simp_all [EffectiveValues.clear]
      have hnone : ∀ f ∈ cencFields, fields f = none := by
        intro f hf
        refine h.none ?_
        simp only [cencFields, List.mem_cons, List.not_mem_nil, or_false] at hf
        rcases hf with rfl | rfl | rfl | rfl | rfl <;> rfl
      by_cases hprotected : ctx.isProtected = true
      · have hctx : ctx.ivSize = 0 := by
          by_contra hne
          exact hhidden ⟨rfl, hprotected, hne⟩
        have hivsOk : expandIvs fields eff.sampleCount 0 = .ok [] := by
          simp [expandIvs, hnone .ivs (by decide)]
        have hsubsOk : expandSubsamples fields eff.sampleCount eff.sizes =
            .ok (none, [], []) := by
          simp [expandSubsamples, hnone (.list .subsampleCounts) (by decide),
            hnone (.list .clearBytes) (by decide), hnone (.list .protectedBytes) (by decide)]
        simp only [expandEncryption, hprotected, if_true, hiv, Option.bind_none,
          Option.getD_none, hctx, Nat.not_lt_zero, if_false, hcount, hsizes, hivsOk, hsubsOk,
          bind, Except.bind, pure, Except.pure]
        exact congrArg Except.ok heff
      · have hfind : cencFields.find? (fun f => (fields f).isSome) = none := by
          rw [List.find?_eq_none]
          intro f hf
          simp [hnone f hf]
        simp only [expandEncryption, hprotected, Bool.false_eq_true, if_false, hfind, heff]
  | some iv =>
      obtain ⟨hprotected, hivSize, hle, -, -⟩ := src.encryption
      subst hivSize
      have hget : (fields (.scalar .ivSize)).getD ctx.ivSize = eff.ivSize := by
        rw [hiv]
        simp only [Option.bind_some]
        split_ifs with hne
        · rfl
        · exact (not_not.mp hne).symm
      unfold expandEncryption
      simp only [hprotected, if_true, hget, if_neg (Nat.not_lt.mpr hle), hcount, hsizes,
        expandIvs_represent src h, expandSubsamples_represent src h, bind, Except.bind, pure,
        Except.pure]
      rfl

/-- Expansion of the represented fields gives the chunk's effective values back. -/
theorem expand_represent (src : Source eff sencIv ctx)
    (h : Agrees (represent eff sencIv ctx) fields) (hhidden : ¬ Hidden sencIv ctx) :
    expand fields eff.genBoxes eff.mdat ctx = .ok eff := by
  have hcount : fields (.scalar .sampleCount) = some eff.sampleCount := h.scalar _
  have hbmdt : fields (.scalar .baseMediaDecodeTime) = some eff.bmdt := h.scalar _
  have hsdi : (fields (.scalar .sampleDescriptionIndex)).getD
      ctx.defaultSampleDescriptionIndex = eff.sampleDescriptionIndex := by
    rw [h.scalar]
    simp only [represent]
    split_ifs with hne
    · rfl
    · exact (not_not.mp hne).symm
  have hsdiOk := u32Scalar_ok .sampleDescriptionIndex (hsdi.trans_le src.sdi_le)
  rw [hsdi] at hsdiOk
  have hempty : ¬ (eff.sampleCount = 0 ∧ eff.mdat.length ≠ 0) := by
    rintro ⟨hn, hp⟩
    have hnil := List.eq_nil_of_length_eq_zero (src.sizes_length.trans hn)
    rw [← src.sizes_sum, hnil] at hp
    exact hp rfl
  obtain ⟨duration, hduration, hdurations⟩ := expandDurations_represent src h
  obtain ⟨flags, first, hflags, hfirst, hexpandFlags⟩ := expandFlags_represent src h
  unfold expand
  simp only [hcount, hbmdt, hsdiOk, hduration, hflags, hfirst, hdurations,
    expandSizes_represent src h, hexpandFlags, expandOffsets_represent src h, bind,
    Except.bind, if_neg hempty, if_neg (Nat.not_lt.mpr src.count_le)]
  exact expandEncryption_represent src h hhidden

end Expansion

end AioMoqt.Media.Locmaf
