import AioMoqt.Media.Locmaf.ParseChunk
import Mathlib.Data.Option.Basic

/-!
# What a parsed chunk satisfies

`Source` collects the facts `parse_chunk` establishes about the effective values
of a chunk inside the field model: per-sample vectors of one length, every value
inside its wire member, sizes that cover the payload, and the shape of the
encryption data for each reading of the senc box.
-/

namespace AioMoqt.Media.Locmaf

open AioMoqt.Lib AioMoqt.Lib.BigEndian

/-- The subsample map of a chunk: absent, or one count a sample whose clear and
protected byte lists add up to the sample sizes. -/
def SubsampleMap (eff : EffectiveValues) : Prop :=
  match eff.subsampleCounts with
  | none => eff.clearBytes = [] ∧ eff.protectedBytes = []
  | some counts =>
      eff.sampleCount ≠ 0 ∧ counts.length = eff.sampleCount ∧
      eff.clearBytes.length = counts.sum ∧ eff.protectedBytes.length = counts.sum ∧
      (∀ c ∈ counts, c ≤ u16Max) ∧ (∀ c ∈ eff.clearBytes, c ≤ u16Max) ∧
      (∀ c ∈ eff.protectedBytes, c ≤ u32Max) ∧
      uncovered 0 counts eff.sizes eff.clearBytes eff.protectedBytes = none

/-- The encryption data of a chunk, by the IV size its senc was read with. -/
def Encryption (eff : EffectiveValues) (sencIv : Option Nat) (ctx : TrackContext) : Prop :=
  match sencIv with
  | none =>
      eff.ivSize = 0 ∧ eff.ivs = [] ∧ eff.subsampleCounts = none ∧ eff.clearBytes = [] ∧
      eff.protectedBytes = [] ∧ ¬ (ctx.isProtected ∧ ctx.ivSize ≠ 0 ∧ eff.sampleCount ≠ 0)
  | some iv =>
      ctx.isProtected ∧ eff.ivSize = iv ∧ iv ≤ 255 ∧
      eff.ivs.length = iv * eff.sampleCount ∧ SubsampleMap eff

/-- The facts `parse_chunk` establishes. -/
structure Source (eff : EffectiveValues) (sencIv : Option Nat) (ctx : TrackContext) :
    Prop where
  count_le : eff.sampleCount ≤ maxSampleCount
  sizes_length : eff.sizes.length = eff.sampleCount
  flags_length : eff.flags.length = eff.sampleCount
  ctos_length : eff.ctos.length = eff.sampleCount
  bmdt_le : eff.bmdt ≤ u64Max
  sdi_le : eff.sampleDescriptionIndex ≤ u32Max
  durations_le : ∀ v ∈ eff.durations, v ≤ u32Max
  sizes_le : ∀ v ∈ eff.sizes, v ≤ u32Max
  flags_le : ∀ v ∈ eff.flags, v ≤ u32Max
  ctos_mem : ∀ c ∈ eff.ctos, i32Min ≤ c ∧ c ≤ i32Max
  sizes_sum : eff.sizes.sum = eff.mdat.length
  encryption : Encryption eff sencIv ctx

/-! ## Boxes stay inside their parent -/

theorem walkFrom_bounds {data : Bytes} {stop : Nat} {fuel pos : Nat} {boxes : List Box}
    (h : walkFrom data stop fuel pos = .ok boxes) :
    ∀ b ∈ boxes, b.body ≤ b.stop ∧ b.stop ≤ stop := by
  induction fuel generalizing pos boxes with
  | zero =>
      unfold walkFrom at h
      split_ifs at h
      cases h
      simp
  | succ fuel ih =>
      unfold walkFrom at h
      dsimp only at h
      split_ifs at h
      · cases h
        simp
      · cases hrest : walkFrom data stop fuel (pos + boxSize data stop pos) with
        | error e => simp [hrest, Except.map] at h
        | ok rest =>
            simp only [hrest, Except.map, Except.ok.injEq] at h
            subst h
            intro b hb
            rcases List.mem_cons.mp hb with rfl | hb
            · simp only
              omega
            · exact ih hrest b hb

theorem boxesOf_bounds {data : Bytes} {start stop : Nat} {boxes : List Box}
    (h : boxesOf data start stop = some boxes) :
    ∀ b ∈ boxes, b.body ≤ b.stop ∧ b.stop ≤ stop := by
  unfold boxesOf walk at h
  cases hwalk : walkFrom data stop (stop - start) start with
  | error e => simp [hwalk, Except.toOption] at h
  | ok found =>
      simp only [hwalk, Except.toOption, Option.some.injEq] at h
      exact h ▸ walkFrom_bounds hwalk

theorem readTop_moof_stop {chunk : Bytes} {top : TopLevel} (h : readTop chunk = some top) :
    top.moof.stop ≤ chunk.length := by
  unfold readTop at h
  simp only [bind, Option.bind_eq_some_iff, Option.guard_eq_some', exists_const] at h
  obtain ⟨boxes, hboxes, -, h⟩ := h
  split at h
  · next moof mdat hdrop =>
      simp only [Option.bind_eq_some_iff, Option.guard_eq_some', exists_const] at h
      obtain ⟨-, h⟩ := h
      cases h
      have hmem : moof ∈ boxes := by
        have : moof ∈ boxes.drop
            (boxes.takeWhile fun b => decide (b.btype ≠ fourCC "moof")).length := by
          rw [hdrop]
          simp
        exact List.mem_of_mem_drop this
      exact (boxesOf_bounds hboxes moof hmem).2
  · simp at h

theorem readTraf_bounds {chunk : Bytes} {moof : Box} {boxes : List Box}
    (h : readTraf chunk moof = some boxes) :
    ∀ b ∈ boxes, b.body ≤ b.stop ∧ b.stop ≤ moof.stop := by
  unfold readTraf at h
  simp only [bind, Option.bind_eq_some_iff, Option.guard_eq_some', exists_const] at h
  obtain ⟨kids, hkids, -, h⟩ := h
  split at h
  · next traf hfilter =>
      simp only [Option.bind_eq_some_iff, Option.guard_eq_some', exists_const] at h
      obtain ⟨found, hfound, -, h⟩ := h
      cases h
      have hmem : traf ∈ kids := by
        have : traf ∈ kids.filter fun k => decide (k.btype = fourCC "traf") := by
          rw [hfilter]
          simp
        exact (List.mem_filter.mp this).1
      intro b hb
      have htraf := boxesOf_bounds hkids traf hmem
      have hbox := boxesOf_bounds hfound b hb
      exact ⟨hbox.1, hbox.2.trans htraf.2⟩
  · simp at h

/-! ## Sample values -/

theorem tfhdMember_le {chunk : Bytes} {stop : Nat} {present : Bool} {default pos : Nat}
    {r : Nat × Nat} (hdefault : default ≤ u32Max)
    (h : tfhdMember chunk stop present default pos = some r) : r.1 ≤ u32Max := by
  unfold tfhdMember at h
  split_ifs at h
  · obtain ⟨v, hv, rfl⟩ := Option.map_eq_some_iff.mp h
    exact u32At_le hv
  · cases h
    exact hdefault

/-- Every tfhd value fits its 32-bit member. -/
structure TfhdValues.Fits (tf : TfhdValues) : Prop where
  sdi : tf.sdi ≤ u32Max
  duration : tf.duration ≤ u32Max
  size : tf.size ≤ u32Max
  flags : tf.flags ≤ u32Max

theorem readTfhd_fits {chunk : Bytes} {tfhd : Box} {ctx : TrackContext} {tf : TfhdValues}
    (h : readTfhd chunk tfhd ctx = some tf) : tf.Fits := by
  unfold readTfhd at h
  simp only [bind, Option.bind_eq_some_iff, Option.guard_eq_some', exists_const] at h
  obtain ⟨-, word, -, trackId, -, -, sdi, hsdi, dur, hdur, size, hsize, flags, hflags, h⟩ := h
  cases h
  exact ⟨tfhdMember_le ctx.defaultSampleDescriptionIndex_le hsdi,
    tfhdMember_le ctx.defaultSampleDuration_le hdur,
    tfhdMember_le ctx.defaultSampleSize_le hsize,
    tfhdMember_le ctx.defaultSampleFlags_le hflags⟩

theorem readTfdt_le {chunk : Bytes} {tfdt : Box} {bmdt : Nat}
    (h : readTfdt chunk tfdt = some bmdt) : bmdt ≤ u64Max := by
  unfold readTfdt at h
  simp only [bind, Option.bind_eq_some_iff] at h
  obtain ⟨version, -, h⟩ := h
  split_ifs at h <;>
    simp only [Option.bind_eq_some_iff, Option.guard_eq_some', exists_const] at h <;>
    have hlt := uintAt_lt h.2 <;> simp only [u64Max] <;> omega

theorem column_le {chunk : Bytes} {present : Bool} {default pos : Nat} {r : Nat × Nat}
    (hdefault : default ≤ u32Max) (h : column chunk present default pos = some r) :
    r.1 ≤ u32Max := by
  unfold column at h
  split_ifs at h
  · obtain ⟨v, hv, rfl⟩ := Option.map_eq_some_iff.mp h
    exact u32At_le hv
  · cases h
    exact hdefault

theorem toI32_mem {v : Nat} (h : v ≤ u32Max) : i32Min ≤ toI32 v ∧ toI32 v ≤ i32Max := by
  simp only [toI32, i32Min, i32Max, u32Max] at h ⊢
  split <;> omega

/-- Every value of a trun row fits its member. -/
structure Sample.Fits (s : Sample) : Prop where
  duration : s.duration ≤ u32Max
  size : s.size ≤ u32Max
  flags : s.flags ≤ u32Max
  cto_ge : i32Min ≤ s.cto
  cto_le : s.cto ≤ i32Max

theorem readSample_fits {chunk : Bytes} {shape : TrunShape} {tf : TfhdValues} {i pos : Nat}
    {r : Sample × Nat} (htf : tf.Fits) (hfirst : ∀ v, shape.first = some v → v ≤ u32Max)
    (h : readSample chunk shape tf i pos = some r) : r.1.Fits := by
  unfold readSample at h
  simp only [bind, Option.bind_eq_some_iff, Option.guard_eq_some', exists_const] at h
  obtain ⟨dur, hdur, size, hsize, flags, hflags, word, hword, hcto, h⟩ := h
  cases h
  have hflagsDefault : (if i = 0 then shape.first.getD tf.flags else tf.flags) ≤ u32Max := by
    split_ifs
    · cases hs : shape.first with
      | none => exact htf.flags
      | some v => exact hfirst v hs
    · exact htf.flags
  have hwordLe := column_le (Nat.zero_le _) hword
  refine ⟨column_le htf.duration hdur, column_le htf.size hsize,
    column_le hflagsDefault hflags, ?_, hcto⟩
  simp only
  split_ifs
  · exact (toI32_mem hwordLe).1
  · simp only [i32Min]
    omega

theorem readSamples_fits {chunk : Bytes} {shape : TrunShape} {tf : TfhdValues}
    (htf : tf.Fits) (hfirst : ∀ v, shape.first = some v → v ≤ u32Max) :
    ∀ {count i pos : Nat} {samples : List Sample},
      readSamples chunk shape tf count i pos = some samples →
      samples.length = count ∧ ∀ s ∈ samples, s.Fits := by
  intro count
  induction count with
  | zero =>
      intro i pos samples h
      simp only [readSamples, Option.some.injEq] at h
      simp [← h]
  | succ count ih =>
      intro i pos samples h
      simp only [readSamples, bind, Option.bind_eq_some_iff] at h
      obtain ⟨sample, hsample, rest, hrest, h⟩ := h
      cases h
      obtain ⟨hlen, hfits⟩ := ih hrest
      refine ⟨by simp [hlen], ?_⟩
      intro s hs
      rcases List.mem_cons.mp hs with rfl | hs
      · exact readSample_fits htf hfirst hsample
      · exact hfits s hs

theorem readTrun_fits {chunk : Bytes} {trun moof : Box} {tf : TfhdValues}
    {samples : List Sample} (htf : tf.Fits)
    (h : readTrun chunk trun moof tf = some samples) :
    samples.length ≤ maxSampleCount ∧ ∀ s ∈ samples, s.Fits := by
  unfold readTrun at h
  simp only [bind, Option.bind_eq_some_iff, Option.guard_eq_some', exists_const] at h
  obtain ⟨-, version, -, tr, -, n, -, hn, -, offset, -, -, first, hfirst, h⟩ := h
  have hfirstLe : ∀ v, first.1 = some v → v ≤ u32Max := by
    intro v hv
    split_ifs at hfirst
    · obtain ⟨w, hw, rfl⟩ := Option.map_eq_some_iff.mp hfirst
      cases hv
      exact u32At_le hw
    · cases hfirst
      simp at hv
  obtain ⟨hlen, hfits⟩ := readSamples_fits htf hfirstLe h
  exact ⟨hlen ▸ hn.1, hfits⟩

/-! ## Encryption data -/

theorem readSubsamples_le {chunk : Bytes} :
    ∀ {c pos : Nat} {subs : List (Nat × Nat)}, readSubsamples chunk c pos = some subs →
      subs.length = c ∧ ∀ s ∈ subs, s.1 ≤ u16Max ∧ s.2 ≤ u32Max := by
  intro c
  induction c with
  | zero =>
      intro pos subs h
      simp only [readSubsamples, Option.some.injEq] at h
      simp [← h]
  | succ c ih =>
      intro pos subs h
      simp only [readSubsamples, bind, Option.bind_eq_some_iff] at h
      obtain ⟨clear, hclear, prot, hprot, rest, hrest, h⟩ := h
      cases h
      obtain ⟨hlen, hle⟩ := ih hrest
      refine ⟨by simp [hlen], ?_⟩
      intro s hs
      rcases List.mem_cons.mp hs with rfl | hs
      · have hlt := uintAt_lt hclear
        exact ⟨by simp only [u16Max]; omega, u32At_le hprot⟩
      · exact hle s hs

/-- What `n` senc entries of `iv`-byte IVs hold. -/
structure Senc.Fits (s : Senc) (iv n : Nat) (mapped : Bool) : Prop where
  ivs_length : s.ivs.length = iv * n
  counts_length : mapped = true → s.counts.length = n
  clear_length : s.clear.length = s.counts.sum
  protected_length : s.protectedBytes.length = s.counts.sum
  clear_le : ∀ c ∈ s.clear, c ≤ u16Max
  protected_le : ∀ c ∈ s.protectedBytes, c ≤ u32Max

theorem length_slice {data : Bytes} {start stop : Nat} (h : stop ≤ data.length) :
    (slice data start stop).length = stop - start := by
  simp only [slice, List.length_take, List.length_drop]
  omega

theorem readEntries_fits {chunk : Bytes} {stop iv : Nat} {mapped : Bool}
    (hstop : stop ≤ chunk.length) :
    ∀ {n pos : Nat} {r : Senc × Nat}, readEntries chunk stop iv mapped n pos = some r →
      r.1.Fits iv n mapped := by
  intro n
  induction n with
  | zero =>
      intro pos r h
      simp only [readEntries, Option.some.injEq] at h
      subst h
      constructor <;> simp
  | succ n ih =>
      intro pos r h
      simp only [readEntries, bind, Option.bind_eq_some_iff, Option.guard_eq_some',
        exists_const] at h
      obtain ⟨hiv, h⟩ := h
      have hhead : (slice chunk pos (pos + iv)).length = iv := by
        rw [length_slice (hiv.trans hstop)]
        omega
      split_ifs at h with hmapped
      · simp only [Option.bind_eq_some_iff, Option.guard_eq_some', exists_const] at h
        obtain ⟨-, c, -, -, subs, hsubs, rest, hrest, h⟩ := h
        cases h
        have hfits := ih hrest
        obtain ⟨hlen, hle⟩ := readSubsamples_le hsubs
        refine ⟨?_, ?_, ?_, ?_, ?_, ?_⟩
        · simp only [List.length_append, hhead, hfits.ivs_length]
          ring
        · intro hm
          simp [hfits.counts_length hm]
        · simp [hlen, hfits.clear_length]
        · simp [hlen, hfits.protected_length]
        · intro x hx
          rcases List.mem_append.mp hx with hx | hx
          · obtain ⟨s, hs, rfl⟩ := List.mem_map.mp hx
            exact (hle s hs).1
          · exact hfits.clear_le x hx
        · intro x hx
          rcases List.mem_append.mp hx with hx | hx
          · obtain ⟨s, hs, rfl⟩ := List.mem_map.mp hx
            exact (hle s hs).2
          · exact hfits.protected_le x hx
      · simp only [Option.bind_eq_some_iff] at h
        obtain ⟨rest, hrest, h⟩ := h
        cases h
        have hfits := ih hrest
        refine ⟨?_, ?_, hfits.clear_length, hfits.protected_length, hfits.clear_le,
          hfits.protected_le⟩
        · simp only [List.length_append, hhead, hfits.ivs_length]
          ring
        · intro hm
          exact absurd hm hmapped

theorem tilingIv_fits {chunk : Bytes} {senc : Box} {mapped : Bool} {n : Nat}
    (hstop : senc.stop ≤ chunk.length) :
    ∀ {ivs : List Nat} {r : Nat × Senc}, tilingIv chunk senc mapped n ivs = some r →
      r.1 ∈ ivs ∧ r.2.Fits r.1 n mapped := by
  intro ivs
  induction ivs with
  | nil => intro r h; simp [tilingIv] at h
  | cons iv ivs ih =>
      intro r h
      simp only [tilingIv] at h
      split at h
      · next entries pos hread =>
          split_ifs at h
          · cases h
            exact ⟨by simp, readEntries_fits hstop hread⟩
          · obtain ⟨hmem, hfits⟩ := ih h
            exact ⟨by simp [hmem], hfits⟩
      · obtain ⟨hmem, hfits⟩ := ih h
        exact ⟨by simp [hmem], hfits⟩

theorem ivCandidates_le {ctx : TrackContext} {iv : Nat} (h : iv ∈ ivCandidates ctx) :
    iv ≤ 255 := by
  have hmem : iv ∈ [ctx.ivSize, 8, 16, 0] := by
    simpa [ivCandidates, List.mem_eraseDups] using h
  have hctx := ctx.ivSize_le
  simp only [List.mem_cons, List.not_mem_nil, or_false] at hmem
  omega

/-- A senc read under some IV size gives the encryption data of the chunk. -/
theorem readSenc_encryption {chunk : Bytes} {senc : Box} {sizes : List Nat}
    {ctx : TrackContext} {iv : Nat} {ivs : Bytes} {counts : Option (List Nat)}
    {clear prot : List Nat} (hstop : senc.stop ≤ chunk.length)
    (h : readSenc chunk senc sizes ctx = some (iv, ivs, counts, clear, prot))
    {eff : EffectiveValues} (hsizes : eff.sizes = sizes)
    (hcount : eff.sampleCount = sizes.length) (hiv : eff.ivSize = iv) (hivs : eff.ivs = ivs)
    (hcounts : eff.subsampleCounts = counts) (hclear : eff.clearBytes = clear)
    (hprot : eff.protectedBytes = prot) :
    iv ≤ 255 ∧ eff.ivs.length = iv * eff.sampleCount ∧ SubsampleMap eff := by
  unfold readSenc at h
  simp only [bind, Option.bind_eq_some_iff, Option.guard_eq_some', exists_const] at h
  obtain ⟨-, sflags, -, count, -, -, ⟨tiv, entries⟩, htile, h⟩ := h
  obtain ⟨hmem, hfits⟩ := tilingIv_fits hstop htile
  split_ifs at h with hmapped
  · simp only [Option.bind_eq_some_iff, Option.guard_eq_some', exists_const] at h
    obtain ⟨⟨haux, hcover⟩, h⟩ := h
    cases h
    refine ⟨ivCandidates_le hmem, by rw [hivs, hcount]; exact hfits.ivs_length, ?_⟩
    unfold SubsampleMap
    rw [hcounts]
    simp only
    rw [hclear, hprot, hcount, hsizes]
    refine ⟨?_, hfits.counts_length hmapped.1, hfits.clear_length, hfits.protected_length,
      ?_, hfits.clear_le, hfits.protected_le, hcover⟩
    · simpa using hmapped.2
    · intro c hc
      have := List.all_eq_true.mp haux c hc
      simp only [decide_eq_true_eq] at this
      simp only [u16Max]
      omega
  · cases h
    refine ⟨ivCandidates_le hmem, by rw [hivs, hcount]; exact hfits.ivs_length, ?_⟩
    unfold SubsampleMap
    rw [hcounts]
    exact ⟨hclear, hprot⟩

theorem mem_of_boxNamed {boxes : List Box} {name : String} {b : Box}
    (h : boxNamed boxes name = some b) : b ∈ boxes :=
  List.mem_of_find?_eq_some h

/-- Everything `parse_chunk` establishes about a chunk inside the field model. -/
theorem readChunk_source {chunk : Bytes} {ctx : TrackContext} {eff : EffectiveValues}
    {sencIv : Option Nat} (h : readChunk chunk ctx = some (eff, sencIv)) :
    Source eff sencIv ctx := by
  unfold readChunk at h
  simp only [bind, Option.bind_eq_some_iff, Option.guard_eq_some', exists_const] at h
  obtain ⟨top, htop, boxes, hboxes, tfhd, -, tfdt, -, trun, -, tf, htf, bmdt, hbmdt,
    samples, hsamples, hsum, h⟩ := h
  have htfFits := readTfhd_fits htf
  obtain ⟨hcount, hfits⟩ := readTrun_fits htfFits hsamples
  have hmap : ∀ {α : Type} (f : Sample → α) (P : α → Prop),
      (∀ s ∈ samples, P (f s)) → ∀ v ∈ samples.map f, P v := by
    intro α f P hP v hv
    obtain ⟨s, hs, rfl⟩ := List.mem_map.mp hv
    exact hP s hs
  split at h
  · simp only [Option.bind_eq_some_iff, Option.guard_eq_some', exists_const] at h
    obtain ⟨hclear, h⟩ := h
    cases h
    refine ⟨by simpa [EffectiveValues.sampleCount] using hcount,
      by simp [EffectiveValues.sampleCount], by simp [EffectiveValues.sampleCount],
      by simp [EffectiveValues.sampleCount], readTfdt_le hbmdt, htfFits.sdi,
      hmap _ _ fun s hs => (hfits s hs).duration, hmap _ _ fun s hs => (hfits s hs).size,
      hmap _ _ fun s hs => (hfits s hs).flags,
      hmap _ _ fun s hs => ⟨(hfits s hs).cto_ge, (hfits s hs).cto_le⟩, hsum, ?_⟩
    refine ⟨rfl, rfl, rfl, rfl, rfl, ?_⟩
    simpa [EffectiveValues.sampleCount] using hclear
  · next senc hsenc =>
      simp only [Option.bind_eq_some_iff, Option.guard_eq_some', exists_const] at h
      obtain ⟨hprotected, ⟨iv, ivs, counts, clear, prot⟩, hread, h⟩ := h
      cases h
      have hstop : senc.stop ≤ chunk.length :=
        ((readTraf_bounds hboxes senc (mem_of_boxNamed hsenc)).2).trans
          (readTop_moof_stop htop)
      refine ⟨by simpa [EffectiveValues.sampleCount] using hcount,
        by simp [EffectiveValues.sampleCount], by simp [EffectiveValues.sampleCount],
        by simp [EffectiveValues.sampleCount], readTfdt_le hbmdt, htfFits.sdi,
        hmap _ _ fun s hs => (hfits s hs).duration, hmap _ _ fun s hs => (hfits s hs).size,
        hmap _ _ fun s hs => (hfits s hs).flags,
        hmap _ _ fun s hs => ⟨(hfits s hs).cto_ge, (hfits s hs).cto_le⟩, hsum, ?_⟩
      refine ⟨hprotected, rfl, ?_⟩
      exact readSenc_encryption hstop hread rfl
        (by simp only [EffectiveValues.sampleCount, List.length_map]) rfl rfl rfl rfl rfl

end AioMoqt.Media.Locmaf
