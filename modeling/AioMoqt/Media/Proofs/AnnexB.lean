import AioMoqt.Media.AnnexB
import Mathlib.Data.List.Forall2

/-!
# Annex B assembly does not depend on the chunks

What stays buffered between two chunks is a function of the bytes so far: what the splitter at
start codes leaves, cut to two bytes where no start code has come.
-/

namespace AioMoqt.Media

open AioMoqt.Lib AioMoqt.Lib.BigEndian AioMoqt.Lib.Delimited

theorem startCode_ne : startCode ≠ [] := by decide

/-! ## Extraction -/

/-- The NAL units that are complete in a byte string. -/
def completeNals (b : Bytes) : List Nal := ((split startCode b).1.getD []).filterMap nalOf

/-- What stays buffered of a byte string. -/
def buffered (b : Bytes) : Bytes :=
  match split startCode b with
  | (none, rest) => rest.drop (rest.length - 2)
  | (some _, rest) => startCode ++ rest

/-- The loop takes what the splitter takes. -/
theorem nalsFrom_run {fuel : Nat} {rest rest' : Bytes} {parts : List Bytes}
    {s : Option (List Bytes)} (hfuel : rest.length ≤ fuel)
    (h : Incremental.run (next startCode) rest.length (some parts) rest = .inl (s, rest')) :
    ∃ new, s = some (parts ++ new) ∧
      nalsFrom fuel rest = (new.filterMap nalOf, startCode ++ rest') := by
  rw [← Incremental.run_of_length_le (next_stable startCode_ne) hfuel] at h
  induction fuel generalizing rest parts with
  | zero =>
      obtain ⟨rfl, rfl⟩ := Prod.mk.inj (Sum.inl.inj h)
      exact ⟨[], by simp, rfl⟩
  | succ fuel ih =>
      cases hfind : find startCode rest with
      | none =>
          simp only [Incremental.run, next, hfind] at h
          obtain ⟨rfl, rfl⟩ := Prod.mk.inj (Sum.inl.inj h)
          exact ⟨[], by simp, by simp [nalsFrom, hfind]⟩
      | some j =>
          have hle := find_le startCode_ne hfind
          have hpos : 0 < startCode.length := by decide
          have hdrop : (rest.drop (j + startCode.length)).length ≤ fuel := by
            rw [List.length_drop]
            omega
          simp only [Incremental.run, next, hfind] at h
          obtain ⟨new, hs, hnals⟩ := ih hdrop h
          refine ⟨rest.take j :: new, by rw [hs, List.append_assoc]; rfl, ?_⟩
          simp only [nalsFrom, hfind, hnals, List.filterMap_cons]
          cases nalOf (rest.take j) <;> rfl

/-- **One extraction** takes the NAL units that the chunk completes. -/
theorem extractNals_buffered (b chunk : Bytes) :
    ∃ new, extractNals (buffered b ++ chunk) = (new, buffered (b ++ chunk)) ∧
      completeNals (b ++ chunk) = completeNals b ++ new := by
  have hrun := run_append_split startCode_ne b chunk
  have hnone := (split_spec startCode_ne b).2
  unfold buffered completeNals
  generalize split startCode (b ++ chunk) = after at hrun ⊢
  generalize hbefore : split startCode b = before at hrun hnone ⊢
  obtain ⟨s, rest⟩ := before
  obtain ⟨s', rest'⟩ := after
  cases s with
  | some parts =>
      have hfind : find startCode (startCode ++ (rest ++ chunk)) = some 0 :=
        find_eq_some (List.prefix_append _ _) (fun j hj => absurd hj (Nat.not_lt_zero j))
          startCode_ne
      have hfuel : (rest ++ chunk).length ≤ (startCode ++ (rest ++ chunk)).length :=
        (List.suffix_append _ _).length_le
      obtain ⟨new, rfl, hnals⟩ := nalsFrom_run hfuel hrun
      refine ⟨new.filterMap nalOf, ?_, by simp⟩
      simp only [extractNals, List.append_assoc, hfind, Nat.zero_add, List.drop_left, hnals]
  | none =>
      simp only at hrun hnone ⊢
      have hlen : startCode.length = 3 := rfl
      have hbuf : rest.drop (rest.length - 2) ++ chunk = (rest ++ chunk).drop (rest.length - 2) :=
        (List.drop_append_of_le_length (by omega)).symm
      have hkeep := find_keep (k := rest.length - 2) startCode_ne hnone (by omega) chunk
      rw [hbuf] at hkeep ⊢
      cases hfind : find startCode ((rest ++ chunk).drop (rest.length - 2)) with
      | none =>
          rw [hfind, Option.map_none] at hkeep
          have hwait : next startCode none (rest ++ chunk) = .wait := by simp [next, hkeep]
          rw [Incremental.run_of_wait hwait] at hrun
          obtain ⟨rfl, rfl⟩ := Prod.mk.inj (Sum.inl.inj hrun)
          refine ⟨[], ?_, by simp⟩
          simp only [extractNals, hfind, List.drop_drop, List.length_drop, List.length_append]
          congr 2
          omega
      | some j =>
          rw [hfind, Option.map_some] at hkeep
          have htake : next startCode none (rest ++ chunk) =
              .take (j + (rest.length - 2) + startCode.length) (some []) := by
            simp [next, hkeep]
          rw [Incremental.run_of_take (next_stable startCode_ne) le_rfl htake] at hrun
          have hdrop : ((rest ++ chunk).drop (rest.length - 2)).drop (j + startCode.length) =
              (rest ++ chunk).drop (j + (rest.length - 2) + startCode.length) := by
            rw [List.drop_drop]
            congr 1
            omega
          have hfuel : ((rest ++ chunk).drop (j + (rest.length - 2) + startCode.length)).length ≤
              ((rest ++ chunk).drop (rest.length - 2)).length := by
            rw [List.length_drop, List.length_drop]
            omega
          obtain ⟨new, rfl, hnals⟩ := nalsFrom_run hfuel hrun
          refine ⟨new.filterMap nalOf, ?_, by simp⟩
          simp only [extractNals, hfind, hdrop, hnals]

/-! ## Pushing NAL units -/

namespace AnnexBAssembler

variable {codec : VideoCodec} {s : AnnexBAssembler} {out : List VideoFrame}

/-- Whether a NAL unit ends the access unit before it. -/
def ends (codec : VideoCodec) (s : AnnexBAssembler) (nal : Nal) : Bool :=
  match codec with
  | .h264 =>
      if nal.avcType = 7 ∨ nal.avcType = 8 then s.auHasVcl
      else if nal.avcType = 9 then true
      else if nal.avcType = 1 ∨ nal.avcType = 5 then nal.highBit 1 && s.auHasVcl
      else s.auHasVcl
  | .hevc =>
      if nal.rest = [] then false
      else if nal.hevcType = hevcAud then true
      else if nal.hevcType < 32 then nal.highBit 2 && s.auHasVcl
      else if nal.hevcType = hevcSeiSuffix then false
      else s.auHasVcl

/-- Whether a NAL unit goes into an access unit. -/
def kept : VideoCodec → Nal → Bool
  | .h264, nal => nal.avcType ≠ 7 && nal.avcType ≠ 8 && nal.avcType ≠ 9
  | .hevc, nal => nal.rest ≠ [] && nal.hevcType ≠ hevcAud

/-- What a NAL unit leaves behind it. -/
def placed (codec : VideoCodec) (s : AnnexBAssembler) (nal : Nal) : AnnexBAssembler :=
  match codec with
  | .h264 =>
      if nal.avcType = 7 then { s with sps := some nal }
      else if nal.avcType = 8 then { s with pps := some nal }
      else if nal.avcType = 9 then s
      else if nal.avcType = 1 ∨ nal.avcType = 5 then { s.append nal with auHasVcl := true }
      else s.append nal
  | .hevc =>
      if nal.rest = [] ∨ nal.hevcType = hevcAud then s
      else if nal.hevcType < 32 then { s.append nal with auHasVcl := true }
      else if nal.hevcType = hevcSeiSuffix then s.append nal
      else (s.keepSets nal).append nal

/-- **One NAL unit**: the access unit before it may end, then it is placed. -/
theorem push_eq (codec : VideoCodec) (s : AnnexBAssembler) (nal : Nal) (out : List VideoFrame) :
    push codec s nal out =
      (fun r => (placed codec r.1 nal, r.2)) <$>
        (if ends codec s nal then flush codec s out else pure (s, out)) := by
  cases codec with
  | h264 =>
      simp only [push, pushAvc, ends, placed, flushVcl]
      by_cases h7 : nal.avcType = 7
      · simp [h7]
      by_cases h8 : nal.avcType = 8
      · simp [h8]
      by_cases h9 : nal.avcType = 9
      · simp [h9]
      by_cases hslice : nal.avcType = 1 ∨ nal.avcType = 5
      · by_cases hfirst : nal.highBit 1 = true <;> simp [h7, h8, h9, hslice, hfirst]
      · simp [h7, h8, h9, hslice]
  | hevc =>
      simp only [push, pushHevc, ends, placed, flushVcl]
      by_cases hshort : nal.rest = []
      · simp [hshort]
      by_cases haud : nal.hevcType = hevcAud
      · simp [hshort, haud]
      by_cases hslice : nal.hevcType < 32
      · by_cases hfirst : nal.highBit 2 = true <;> simp [hshort, haud, hslice, hfirst]
      by_cases hsuffix : nal.hevcType = hevcSeiSuffix
      · simp [hshort, hsuffix, hevcSeiSuffix, hevcAud]
      · simp [hshort, haud, hslice, hsuffix]

/-! ### The buffer is left alone -/

/-- A result over another buffer and behind other frames. -/
def behind (buf : Bytes) (before : List VideoFrame) (r : AnnexBAssembler × List VideoFrame) :
    AnnexBAssembler × List VideoFrame := ({ r.1 with buf := buf }, before ++ r.2)

theorem flush_behind (codec : VideoCodec) (s : AnnexBAssembler) (out before : List VideoFrame)
    (buf : Bytes) :
    flush codec { s with buf := buf } (before ++ out) = behind buf before <$> flush codec s out := by
  unfold flush
  by_cases hau : s.au = []
  · simp [hau, behind]
  · cases lengthPrefixed s.au with
    | error e => simp [hau]
    | ok payload => simp [hau, behind]

theorem placed_buf (codec : VideoCodec) (s : AnnexBAssembler) (nal : Nal) (buf : Bytes) :
    placed codec { s with buf := buf } nal = { placed codec s nal with buf := buf } := by
  cases codec with
  | h264 =>
      simp only [placed, append]
      split_ifs <;> rfl
  | hevc =>
      simp only [placed, append, keepSets]
      split_ifs <;> rfl

theorem push_behind (codec : VideoCodec) (s : AnnexBAssembler) (nal : Nal)
    (out before : List VideoFrame) (buf : Bytes) :
    push codec { s with buf := buf } nal (before ++ out) =
      behind buf before <$> push codec s nal out := by
  have hends : ends codec { s with buf := buf } nal = ends codec s nal := rfl
  rw [push_eq, push_eq, hends]
  cases ends codec s nal with
  | true =>
      simp only [if_true, flush_behind, Functor.map_map, behind, placed_buf]
  | false => simp [behind, placed_buf]

theorem pushAll_cons (codec : VideoCodec) (s : AnnexBAssembler) (nal : Nal) (nals : List Nal)
    (out : List VideoFrame) :
    pushAll codec s (nal :: nals) out =
      push codec s nal out >>= fun r => pushAll codec r.1 nals r.2 := by
  rw [pushAll, List.foldlM_cons]
  rfl

theorem pushAll_append (codec : VideoCodec) (s : AnnexBAssembler) (nals more : List Nal)
    (out : List VideoFrame) :
    pushAll codec s (nals ++ more) out =
      pushAll codec s nals out >>= fun r => pushAll codec r.1 more r.2 := by
  rw [pushAll, List.foldlM_append]
  rfl

theorem pushAll_behind (codec : VideoCodec) (s : AnnexBAssembler) (nals : List Nal)
    (out before : List VideoFrame) (buf : Bytes) :
    pushAll codec { s with buf := buf } nals (before ++ out) =
      behind buf before <$> pushAll codec s nals out := by
  induction nals generalizing s out with
  | nil => rfl
  | cons nal nals ih =>
      rw [pushAll_cons, pushAll_cons, push_behind]
      cases push codec s nal out with
      | error e => rfl
      | ok r =>
          show pushAll codec { r.1 with buf := buf } nals (before ++ r.2) = _
          rw [ih]
          rfl

/-! ### Feeding -/

theorem feedAll_buffered (codec : VideoCodec) (s : AnnexBAssembler) (b : Bytes)
    (chunks : List Bytes) :
    ∃ new, completeNals (b ++ chunks.flatten) = completeNals b ++ new ∧
      feedAll codec { s with buf := buffered b } chunks =
        behind (buffered (b ++ chunks.flatten)) [] <$> pushAll codec s new [] := by
  induction chunks generalizing s b with
  | nil => exact ⟨[], by simp, by simp [feedAll, pushAll, behind]; rfl⟩
  | cons chunk chunks ih =>
      obtain ⟨new, hextract, hnew⟩ := extractNals_buffered b chunk
      have hfeed : feed codec { s with buf := buffered b } chunk =
          behind (buffered (b ++ chunk)) [] <$> pushAll codec s new [] := by
        simp only [feed, hextract]
        exact pushAll_behind codec s new [] [] _
      have hjoin : b ++ (chunk :: chunks).flatten = (b ++ chunk) ++ chunks.flatten := by simp
      cases hpush : pushAll codec s new [] with
      | error e =>
          obtain ⟨rest, hrest, -⟩ := ih s (b ++ chunk)
          refine ⟨new ++ rest, by rw [hjoin, hrest, hnew, List.append_assoc], ?_⟩
          rw [feedAll, hfeed, pushAll_append, hpush]
          rfl
      | ok r =>
          obtain ⟨rest, hrest, hall⟩ := ih r.1 (b ++ chunk)
          refine ⟨new ++ rest, by rw [hjoin, hrest, hnew, List.append_assoc], ?_⟩
          have hbehind := pushAll_behind codec r.1 rest [] r.2 r.1.buf
          rw [List.append_nil] at hbehind
          rw [feedAll, hfeed, pushAll_append, hpush]
          show (feedAll codec { r.1 with buf := buffered (b ++ chunk) } chunks >>= fun t =>
              pure (t.1, [] ++ r.2 ++ t.2)) = _ <$> pushAll codec r.1 rest r.2
          rw [hall, hjoin]
          show _ = _ <$> pushAll codec { r.1 with buf := r.1.buf } rest r.2
          rw [hbehind]
          simp [behind]

/-- **Feeding chunk by chunk** pushes what is complete and buffers the rest. -/
theorem feedAll_eq (codec : VideoCodec) (chunks : List Bytes) :
    feedAll codec {} chunks =
      behind (buffered chunks.flatten) [] <$> pushAll codec {} (completeNals chunks.flatten) [] := by
  obtain ⟨new, hnew, hall⟩ := feedAll_buffered codec {} [] chunks
  rw [List.nil_append] at hnew hall
  rw [hnew]
  exact hall

/-! ## Access units -/

/-- The frame of an access unit. -/
def FrameOf (codec : VideoCodec) (unit : List Nal) (frame : VideoFrame) : Prop :=
  unit ≠ [] ∧ (∀ n ∈ unit, n.bytes.length < 2 ^ 32) ∧
    frame.payload = unit.flatMap (fun n => toBE 4 n.bytes.length ++ n.bytes) ∧
    frame.key = isKey codec unit

/-- The frames are made of access units, which with the open one hold the NAL units in order. -/
def Frames (codec : VideoCodec) (nals : List Nal) (r : AnnexBAssembler × List VideoFrame) : Prop :=
  ∃ units, List.Forall₂ (FrameOf codec) units r.2 ∧
    units.flatten ++ r.1.au = nals.filter (kept codec)

theorem lengthPrefixed_ok {unit : List Nal} {payload : Bytes}
    (h : lengthPrefixed unit = .ok payload) :
    (∀ n ∈ unit, n.bytes.length < 2 ^ 32) ∧
      payload = unit.flatMap fun n => toBE 4 n.bytes.length ++ n.bytes := by
  induction unit generalizing payload with
  | nil =>
      cases h
      exact ⟨by simp, rfl⟩
  | cons n unit ih =>
      rw [lengthPrefixed, packUnsigned] at h
      split at h
      next hlen =>
        cases hrest : lengthPrefixed unit with
        | error e =>
            rw [hrest] at h
            cases h
        | ok rest =>
            obtain ⟨hunit, rfl⟩ := ih hrest
            rw [hrest] at h
            cases h
            refine ⟨fun m hm => ?_, by simp⟩
            rcases List.mem_cons.mp hm with rfl | hm
            · exact hlen
            · exact hunit m hm
      next => cases h

theorem Frames.flush {codec : VideoCodec} {nals : List Nal} {s : AnnexBAssembler}
    {out : List VideoFrame} {r : AnnexBAssembler × List VideoFrame}
    (h : Frames codec nals (s, out)) (hflush : flush codec s out = .ok r) :
    Frames codec nals r ∧ r.1.au = [] := by
  obtain ⟨units, hunits, hnals⟩ := h
  unfold AnnexBAssembler.flush at hflush
  by_cases hau : s.au = []
  · rw [if_pos hau] at hflush
    cases hflush
    exact ⟨⟨units, hunits, by rw [← hnals, hau]⟩, rfl⟩
  · rw [if_neg hau] at hflush
    cases hpayload : lengthPrefixed s.au with
    | error e =>
        rw [hpayload] at hflush
        cases hflush
    | ok payload =>
        rw [hpayload] at hflush
        cases hflush
        obtain ⟨hlen, hjoin⟩ := lengthPrefixed_ok hpayload
        refine ⟨⟨units ++ [s.au], ?_, ?_⟩, rfl⟩
        · exact List.rel_append hunits (.cons ⟨hau, hlen, hjoin, rfl⟩ .nil)
        · rw [List.flatten_append, List.flatten_singleton, List.append_nil]
          exact hnals

theorem placed_au (codec : VideoCodec) (s : AnnexBAssembler) (nal : Nal) :
    (placed codec s nal).au = s.au ++ [nal].filter (kept codec) := by
  cases codec with
  | h264 =>
      simp only [placed, append]
      by_cases h7 : nal.avcType = 7
      · simp [h7, kept]
      by_cases h8 : nal.avcType = 8
      · simp [h8, kept]
      by_cases h9 : nal.avcType = 9
      · simp [h9, kept]
      · split_ifs <;> simp [h7, h8, h9, kept]
  | hevc =>
      simp only [placed, append, keepSets]
      by_cases hdropped : nal.rest = [] ∨ nal.hevcType = hevcAud
      · rcases hdropped with hdropped | hdropped <;> simp [hdropped, kept]
      · have hkept : kept .hevc nal = true := by simpa [kept, not_or] using hdropped
        rw [if_neg hdropped, List.filter_cons_of_pos hkept, List.filter_nil]
        split_ifs <;> rfl

theorem Frames.push {codec : VideoCodec} {nals : List Nal} {nal : Nal}
    {r r' : AnnexBAssembler × List VideoFrame} (h : Frames codec nals r)
    (hpush : push codec r.1 nal r.2 = .ok r') : Frames codec (nals ++ [nal]) r' := by
  have hplace : ∀ t : AnnexBAssembler × List VideoFrame, Frames codec nals t →
      Frames codec (nals ++ [nal]) (placed codec t.1 nal, t.2) := by
    intro t ht
    obtain ⟨units, hunits, hnals⟩ := ht
    refine ⟨units, hunits, ?_⟩
    rw [placed_au, ← List.append_assoc, hnals, List.filter_append]
  rw [push_eq] at hpush
  cases hends : ends codec r.1 nal with
  | false =>
      rw [hends] at hpush
      cases hpush
      exact hplace r h
  | true =>
      rw [hends, if_pos rfl] at hpush
      cases hflush : AnnexBAssembler.flush codec r.1 r.2 with
      | error e =>
          rw [hflush] at hpush
          cases hpush
      | ok t =>
          rw [hflush] at hpush
          cases hpush
          exact hplace t (h.flush hflush).1

theorem Frames.pushAll {codec : VideoCodec} {nals new : List Nal}
    {r r' : AnnexBAssembler × List VideoFrame} (h : Frames codec nals r)
    (hpush : pushAll codec r.1 new r.2 = .ok r') : Frames codec (nals ++ new) r' := by
  induction new generalizing r nals with
  | nil =>
      cases hpush
      rw [List.append_nil]
      exact h
  | cons nal new ih =>
      rw [pushAll_cons] at hpush
      cases hone : AnnexBAssembler.push codec r.1 nal r.2 with
      | error e =>
          rw [hone] at hpush
          cases hpush
      | ok t =>
          rw [hone] at hpush
          have hrest := ih (h.push hone) hpush
          rwa [List.append_assoc] at hrest

theorem Frames.behind {codec : VideoCodec} {nals : List Nal}
    {r : AnnexBAssembler × List VideoFrame} (h : Frames codec nals r) (buf : Bytes) :
    Frames codec nals (behind buf [] r) := h

/-- The frames of the chunks so far. -/
theorem frames_feedAll {codec : VideoCodec} {chunks : List Bytes}
    {r : AnnexBAssembler × List VideoFrame} (h : feedAll codec {} chunks = .ok r) :
    Frames codec (completeNals chunks.flatten) r := by
  rw [feedAll_eq] at h
  cases hpush : AnnexBAssembler.pushAll codec {} (completeNals chunks.flatten) [] with
  | error e =>
      rw [hpush] at h
      cases h
  | ok t =>
      rw [hpush] at h
      cases h
      have hstart : Frames codec [] (({} : AnnexBAssembler), []) := ⟨[], .nil, rfl⟩
      exact (hstart.pushAll hpush).behind _

/-! ## Length fields -/

/-- The NAL units fit the length field in front of them. -/
def Fits (nals : List Nal) : Prop := ∀ n ∈ nals, n.bytes.length < 2 ^ 32

theorem lengthPrefixed_fits {unit : List Nal} (h : Fits unit) :
    ∃ payload, lengthPrefixed unit = .ok payload := by
  induction unit with
  | nil => exact ⟨[], rfl⟩
  | cons n unit ih =>
      obtain ⟨payload, hpayload⟩ := ih fun m hm => h m (List.mem_cons_of_mem n hm)
      have hlen : n.bytes.length < 256 ^ 4 := h n List.mem_cons_self
      rw [lengthPrefixed, packUnsigned, if_pos hlen, hpayload]
      exact ⟨_, rfl⟩

theorem flush_fits (codec : VideoCodec) {s : AnnexBAssembler} (h : Fits s.au)
    (out : List VideoFrame) : ∃ r, flush codec s out = .ok r ∧ r.1.au = [] := by
  unfold AnnexBAssembler.flush
  by_cases hau : s.au = []
  · rw [if_pos hau]
    exact ⟨_, rfl, rfl⟩
  · obtain ⟨payload, hpayload⟩ := lengthPrefixed_fits h
    rw [if_neg hau, hpayload]
    exact ⟨_, rfl, rfl⟩

theorem pushAll_fits (codec : VideoCodec) {nals : List Nal} {s : AnnexBAssembler}
    (h : Fits s.au) (hnals : Fits nals) (out : List VideoFrame) :
    ∃ r, pushAll codec s nals out = .ok r ∧ Fits r.1.au := by
  induction nals generalizing s out with
  | nil => exact ⟨(s, out), rfl, h⟩
  | cons nal nals ih =>
      have hplaced : ∀ s : AnnexBAssembler, Fits s.au → Fits (placed codec s nal).au := by
        intro s hs n hn
        rw [placed_au] at hn
        rcases List.mem_append.mp hn with hold | hnew
        · exact hs n hold
        · have hsame := List.mem_of_mem_filter hnew
          rw [List.mem_singleton.mp hsame]
          exact hnals nal List.mem_cons_self
      have hrest : Fits nals := fun n hn => hnals n (List.mem_cons_of_mem nal hn)
      rw [pushAll_cons, push_eq]
      cases ends codec s nal with
      | false => exact ih (hplaced s h) hrest out
      | true =>
          obtain ⟨⟨t, more⟩, hflush, hempty⟩ := flush_fits codec h out
          rw [if_pos rfl, hflush]
          have ht : Fits t.au := fun n hn => by
            rw [show t.au = [] from hempty] at hn
            cases hn
          exact ih (hplaced t ht) hrest more

/-- Where every NAL unit fits its length field nothing is raised. -/
theorem assemble_fits (codec : VideoCodec) (chunks : List Bytes)
    (h : Fits (completeNals chunks.flatten ++ (lastNal (buffered chunks.flatten)).toList)) :
    ∃ r, assemble codec chunks = .ok r := by
  have hnone : Fits ({} : AnnexBAssembler).au := fun n hn => by cases hn
  obtain ⟨t, hpush, ht⟩ := pushAll_fits codec hnone (fun n hn => h n (List.mem_append_left _ hn)) []
  have hfeed : feedAll codec {} chunks = .ok (behind (buffered chunks.flatten) [] t) := by
    rw [feedAll_eq, hpush]
    rfl
  have hlast : Fits (lastNal (buffered chunks.flatten)).toList :=
    fun n hn => h n (List.mem_append_right _ hn)
  obtain ⟨u, hend, hu⟩ := pushAll_fits codec (s := { t.1 with buf := [] }) ht hlast []
  obtain ⟨r, hflush, -⟩ := flush_fits codec hu u.2
  have hclose : close codec (behind (buffered chunks.flatten) [] t).1 = .ok r := by
    unfold AnnexBAssembler.close
    show (pushAll codec { t.1 with buf := [] } (lastNal (buffered chunks.flatten)).toList [] >>=
      fun u => flush codec u.1 u.2) = .ok r
    rw [hend]
    exact hflush
  unfold assemble
  rw [hfeed]
  show ∃ v, (close codec (behind (buffered chunks.flatten) [] t).1 >>= fun u =>
    pure (u.1, (behind (buffered chunks.flatten) [] t).2 ++ u.2)) = .ok v
  rw [hclose]
  exact ⟨_, rfl⟩

/-! ## The whole stream -/

/-- The NAL units between the start codes; those that are complete, and the last one. -/
theorem nals_of_sections (b : Bytes) :
    ∃ head parts, Sections startCode b head parts ∧
      completeNals b = parts.dropLast.filterMap nalOf ∧
      completeNals b ++ (lastNal (buffered b)).toList = parts.filterMap nalOf := by
  obtain ⟨hreads, hnone⟩ := split_spec startCode_ne b
  unfold completeNals buffered
  generalize split startCode b = waiting at hreads hnone ⊢
  obtain ⟨s, rest⟩ := waiting
  cases s with
  | none =>
      have hb : b = rest := hreads
      subst hb
      have hlen : startCode.length = 3 := rfl
      have hkeep := find_keep (k := b.length - 2) startCode_ne hnone
        (by simp only; omega) []
      rw [List.append_nil, List.append_nil, hnone] at hkeep
      have hbuf : find startCode (b.drop (b.length - 2)) = none :=
        Option.map_eq_none_iff.mp hkeep.symm
      refine ⟨b, [], ⟨by simp, not_infix_of_find_none startCode_ne hnone, by simp⟩, by simp, ?_⟩
      simp [lastNal, hbuf]
  | some parts =>
      obtain ⟨head, hsections⟩ := hreads.sections startCode_ne hnone
      have hfind : find startCode (startCode ++ rest) = some 0 :=
        find_eq_some (List.prefix_append _ _) (fun j hj => absurd hj (Nat.not_lt_zero j))
          startCode_ne
      refine ⟨head, parts ++ [rest], hsections, by simp, ?_⟩
      simp only [lastNal, hfind, Option.bind_some, Nat.zero_add, List.drop_left,
        Option.getD_some, List.filterMap_append]
      cases hlast : nalOf rest with
      | none => simp [hlast]
      | some nal => simp [hlast]

/-- The end of the stream completes the last NAL unit and the last access unit. -/
theorem Frames.close {codec : VideoCodec} {nals : List Nal}
    {r u : AnnexBAssembler × List VideoFrame} (h : Frames codec nals r)
    (hclose : close codec r.1 = .ok u) :
    Frames codec (nals ++ (lastNal r.1.buf).toList) (u.1, r.2 ++ u.2) ∧ u.1.au = [] := by
  unfold AnnexBAssembler.close at hclose
  generalize (lastNal r.1.buf).toList = last at hclose ⊢
  have hfresh := pushAll_behind codec r.1 last [] [] []
  have hmore := pushAll_behind codec r.1 last [] r.2 []
  rw [List.append_nil] at hfresh hmore
  rw [hfresh] at hclose
  cases hpush : AnnexBAssembler.pushAll codec r.1 last [] with
  | error e =>
      rw [hpush] at hclose
      cases hclose
  | ok w =>
      rw [hpush] at hclose hmore
      have hframes : Frames codec (nals ++ last) (AnnexBAssembler.behind [] r.2 w) :=
        Frames.pushAll (h.behind []) hmore
      have hflushed : AnnexBAssembler.flush codec { w.1 with buf := [] } w.2 = .ok u := hclose
      have hall := flush_behind codec { w.1 with buf := [] } w.2 r.2 []
      rw [hflushed] at hall
      exact Frames.flush hframes (r := AnnexBAssembler.behind [] r.2 u) hall

/-- **Annex B assembly does not depend on the chunks.**  The result is the final state, and with
it the parameter sets and the configuration, and the frames.  These are made of access units
that hold, in order and each once, the NAL units between the start codes which are not dropped;
so are the frames of any chunks before the end, of the NAL units that are complete.  Only a NAL
unit that outgrows its length field raises. -/
theorem assemble_chunks (codec : VideoCodec) (chunks : List Bytes) :
    assemble codec chunks = assemble codec [chunks.flatten] ∧
    ∃ head parts, Sections startCode chunks.flatten head parts ∧
      (∀ r, feedAll codec {} chunks = .ok r →
        Frames codec (parts.dropLast.filterMap nalOf) r) ∧
      (Fits (parts.filterMap nalOf) → ∃ r, assemble codec chunks = .ok r) ∧
      (∀ r, assemble codec chunks = .ok r →
        ∃ units, List.Forall₂ (FrameOf codec) units r.2 ∧
          units.flatten = (parts.filterMap nalOf).filter (kept codec)) := by
  have hall : feedAll codec {} chunks = feedAll codec {} [chunks.flatten] := by
    rw [feedAll_eq, feedAll_eq, List.flatten_singleton]
  refine ⟨by rw [assemble, hall, assemble], ?_⟩
  obtain ⟨head, parts, hsections, hcomplete, hlast⟩ := nals_of_sections chunks.flatten
  refine ⟨head, parts, hsections, ?_, ?_, ?_⟩
  · intro r h
    rw [← hcomplete]
    exact frames_feedAll h
  · intro hfits
    rw [← hlast] at hfits
    exact assemble_fits codec chunks hfits
  · intro r h
    unfold assemble at h
    cases hfeed : feedAll codec {} chunks with
    | error e =>
        rw [hfeed] at h
        cases h
    | ok t =>
        rw [hfeed] at h
        have hframes := frames_feedAll hfeed
        have hbuf : t.1.buf = buffered chunks.flatten := by
          rw [feedAll_eq] at hfeed
          cases hpush : AnnexBAssembler.pushAll codec {} (completeNals chunks.flatten) [] with
          | error e =>
              rw [hpush] at hfeed
              cases hfeed
          | ok w =>
              rw [hpush] at hfeed
              cases hfeed
              rfl
        cases hclose : AnnexBAssembler.close codec t.1 with
        | error e =>
            replace h : (AnnexBAssembler.close codec t.1 >>= fun u =>
              pure (u.1, t.2 ++ u.2)) = .ok r := h
            rw [hclose] at h
            cases h
        | ok u =>
            replace h : (AnnexBAssembler.close codec t.1 >>= fun u =>
              pure (u.1, t.2 ++ u.2)) = .ok r := h
            rw [hclose] at h
            cases h
            obtain ⟨⟨units, hunits, hnals⟩, hau⟩ := hframes.close hclose
            rw [hbuf, hlast, hau, List.append_nil] at hnals
            exact ⟨units, hunits, hnals⟩

/-- Two frames in four chunks, cut inside a start code and inside trailing zeros. -/
theorem assemble_chunks_twoFrames :
    ∃ units, List.Forall₂ (FrameOf .h264) units
        [⟨[0, 0, 0, 2, 0x65, 0x88], true⟩, ⟨[0, 0, 0, 2, 0x41, 0x9A], false⟩] ∧
      ∃ head parts, Sections startCode
          [0, 0, 0, 1, 0x67, 1, 0, 0, 1, 0x65, 0x88, 0, 0, 0, 1, 0x41, 0x9A] head parts ∧
        units.flatten = (parts.filterMap nalOf).filter (kept .h264) := by
  obtain ⟨-, head, parts, hsections, -, -, hframes⟩ := assemble_chunks .h264
    [[0, 0], [0, 1, 0x67, 1, 0, 0, 1, 0x65, 0x88, 0], [0, 0], [1, 0x41, 0x9A]]
  obtain ⟨units, hunits, hflatten⟩ := hframes
    ({ sps := some ⟨0x67, [1]⟩ }, [⟨[0, 0, 0, 2, 0x65, 0x88], true⟩,
      ⟨[0, 0, 0, 2, 0x41, 0x9A], false⟩]) (by decide)
  exact ⟨units, hunits, head, parts, hsections, hflatten⟩

end AnnexBAssembler

end AioMoqt.Media
