import AioMoqt.Messages.Proofs.Kvp
import AioMoqt.Messages.Subgroup

/-!
# Subgroup streams read back

Each flag of a type byte tells the reader of one field, and the last Object ID of the writer's
header is the reader's, so that a stream is read back object by object.
-/

namespace AioMoqt.Messages

open AioMoqt.Lib AioMoqt.Lib.BigEndian
open AioMoqt.Lib.Reader (Reads)

/-! ## Types -/

namespace SubgroupHeader

variable (extensionsPresent endOfGroup defaultPriority firstObject : Bool) (mode : SubgroupIdMode)

theorem typeOf_flags :
    let type := typeOf extensionsPresent endOfGroup defaultPriority firstObject mode
    decide (type &&& 0x01 ≠ 0) = extensionsPresent ∧ decide (type &&& 0x08 ≠ 0) = endOfGroup ∧
      decide (type &&& 0x20 ≠ 0) = defaultPriority ∧ decide (type &&& 0x40 ≠ 0) = firstObject ∧
      SubgroupIdMode.ofBits ((type >>> 1) &&& 0x03) = mode := by
  cases extensionsPresent <;> cases endOfGroup <;> cases defaultPriority <;> cases firstObject <;>
    cases mode <;> decide

theorem typeOf_lt : typeOf extensionsPresent endOfGroup defaultPriority firstObject mode < 2 ^ 62 := by
  cases extensionsPresent <;> cases endOfGroup <;> cases defaultPriority <;> cases firstObject <;>
    cases mode <;> decide

end SubgroupHeader

/-! ## Objects -/

namespace ObjectHeader

/-- Properties as they are read back: an empty block as none. -/
def SameProperties (sent got : Option KeyValuePairs) : Prop :=
  match sent.bind KeyValuePairs.orNone with
  | none => got = none
  | some kvps => ∃ out, got = some out ∧ out.dict.Same kvps.dict ∧ out.duplicates = []

/-- An object as it is read back from a stream with properties or without. -/
structure ReadsAs (extensionsPresent : Bool) (sent got : ObjectHeader) : Prop where
  objectId : got.objectId = sent.objectId
  status : got.status = sent.status
  payload : sent.status = .normal → got.payload = sent.payload
  properties : extensionsPresent = true → sent.status = .normal →
    SameProperties sent.extensions got.extensions

/-- An object within the limits of the codec and of the receiver. -/
structure Sendable (code : PrefixCode) (extensionsPresent kvpDelta : Bool) (maxPayload : Nat)
    (obj : ObjectHeader) : Prop where
  objectId : obj.objectId < code.bound
  payload : obj.payload.length < code.bound
  accepted : maxPayload = 0 ∨ obj.payload.length ≤ maxPayload
  properties : extensionsPresent = true → obj.status = .normal →
    ∀ kvps ∈ obj.extensions, kvps.Codable code kvpDelta

variable {code : PrefixCode} {obj : ObjectHeader} {extensionsPresent kvpDelta : Bool}
  {maxPayload : Nat}

theorem objectStatus_code (status : ObjectStatus) : objectStatus status.code = .ok status := by
  cases status <;> rfl

/-- The Object ID follows the last one. -/
theorem pushDelta_reads {prev : Option Nat} (hprev : ∀ id ∈ prev, id < obj.objectId)
    (hid : obj.objectId < code.bound) :
    ∃ delta, pushVint code (obj.delta prev) = .ok (code.enc delta) ∧
      (∀ pos, Reads (pullVint code) pos (code.enc delta) delta) ∧
      prev.elim delta (fun last => last + delta + 1) = obj.objectId := by
  cases prev with
  | none =>
      refine ⟨obj.objectId, ?_, fun pos => pullVint_reads code hid pos, rfl⟩
      exact pushVint_ok code (Int.natCast_nonneg _) (Int.ofNat_lt.mpr hid)
  | some last =>
      have hlast := hprev last rfl
      have hdelta : obj.delta (some last) = ((obj.objectId - last - 1 : Nat) : Int) := by
        show (obj.objectId : Int) - last - 1 = _
        omega
      refine ⟨obj.objectId - last - 1, ?_, fun pos => pullVint_reads code (by omega) pos, ?_⟩
      · rw [hdelta, pushVint_ok code (Int.natCast_nonneg _) (by omega), Int.toNat_natCast]
      · show last + (obj.objectId - last - 1) + 1 = obj.objectId
        omega

/-- The properties of an object, or the empty block of one with a status. -/
theorem pushExtensions_reads (hcode : 2 ^ 62 ≤ code.bound)
    (hobj : obj.Sendable code extensionsPresent kvpDelta maxPayload) :
    ∃ bytes got, obj.pushExtensions code extensionsPresent kvpDelta = .ok bytes ∧
      (∀ pos, Reads (pullExtensions code extensionsPresent kvpDelta) pos bytes got) ∧
      (extensionsPresent = true → obj.status = .normal → SameProperties obj.extensions got) := by
  cases extensionsPresent with
  | false =>
      refine ⟨[], none, rfl, fun pos => Reads.pure pos none, ?_⟩
      intro habsurd
      cases habsurd
  | true =>
      by_cases hstatus : obj.status = .normal
      · have hpush : obj.pushExtensions code true kvpDelta =
            extensionsEncode code obj.extensions true kvpDelta := if_pos ⟨rfl, hstatus⟩
        rw [hpush]
        cases hkvps : obj.extensions.bind KeyValuePairs.orNone with
        | none =>
            have hempty : ∀ kvps ∈ obj.extensions, kvps.dict.entries = [] := by
              intro kvps hmem
              rw [Option.mem_def.mp hmem, Option.bind_some, KeyValuePairs.orNone] at hkvps
              by_contra hne
              rw [if_neg hne] at hkvps
              cases hkvps
            obtain ⟨henc, hread⟩ := extensionsEncode_none_reads hcode kvpDelta kvpDelta hempty
            refine ⟨_, none, henc, hread, ?_⟩
            intro _ _
            rw [SameProperties, hkvps]
        | some kvps =>
            obtain ⟨exts, hexts, hsome⟩ := Option.bind_eq_some_iff.mp hkvps
            have hne : exts.dict.entries ≠ [] := by
              intro hnil
              rw [KeyValuePairs.orNone, if_pos hnil] at hsome
              cases hsome
            rw [KeyValuePairs.orNone, if_neg hne, Option.some.injEq] at hsome
            subst hsome
            rw [hexts]
            obtain ⟨bytes, out, henc, hread, hsame, hdups⟩ :=
              extensionsEncode_decode hcode hne (hobj.properties rfl hstatus exts hexts)
            refine ⟨bytes, some out, henc, hread, ?_⟩
            intro _ _
            rw [SameProperties, ← hexts, hkvps]
            exact ⟨out, rfl, hsame, hdups⟩
      · have hpush : obj.pushExtensions code true kvpDelta = extensionsEncode code none true false := by
          rw [pushExtensions, if_neg (fun h => hstatus h.2), if_pos rfl]
        obtain ⟨henc, hread⟩ := @extensionsEncode_none_reads code hcode false kvpDelta none
          (by intro kvps hmem; cases hmem)
        refine ⟨_, none, hpush.trans henc, hread, ?_⟩
        intro _ hnormal
        exact absurd hnormal hstatus

/-- A payload, or the status of an empty one. -/
theorem pushPayload_reads (hcode : 2 ^ 62 ≤ code.bound)
    (hobj : obj.Sendable code extensionsPresent kvpDelta maxPayload) :
    ∃ bytes got, obj.pushPayload code = .ok bytes ∧
      (∀ pos bufLen, pos + bytes.length ≤ bufLen →
        Reads (pullPayload code bufLen maxPayload) pos bytes (obj.status.code, got)) ∧
      (obj.status = .normal → got = obj.payload) := by
  by_cases hfull : obj.status = .normal ∧ obj.payload ≠ []
  · have hlen := hobj.payload
    have hpush : pushVint code obj.payload.length = .ok (code.enc obj.payload.length) :=
      pushVint_ok code (Int.natCast_nonneg _) (by exact_mod_cast hlen)
    have hpos : obj.payload.length ≠ 0 := by
      intro hzero
      exact hfull.2 (List.length_eq_zero_iff.mp hzero)
    refine ⟨code.enc obj.payload.length ++ obj.payload, obj.payload, ?_, ?_, fun _ => rfl⟩
    · rw [pushPayload, if_pos hfull, hpush]
      rfl
    · intro pos bufLen hbuf
      rw [List.length_append] at hbuf
      have haccepted : ¬ (maxPayload ≠ 0 ∧ maxPayload < obj.payload.length) := by
        have haccepted := hobj.accepted
        omega
      refine (pullVint_reads code hlen pos).bind ?_
      rw [if_neg haccepted]
      refine Reads.bind_nil (Reads.tell _) ?_
      rw [if_neg hpos, if_neg (by omega), hfull.1]
      exact (Reads.bytes MoqtError.underflow obj.payload _).map (Prod.mk 0)
  · have hstatus : obj.status.code < code.bound := by
      have hsmall : obj.status.code ≤ 4 := by cases obj.status <;> decide
      omega
    have hzero : pushVint code 0 = .ok (code.enc 0) := pushVint_ok code le_rfl (by omega)
    have hpush : pushVint code obj.status.code = .ok (code.enc obj.status.code) :=
      pushVint_ok code (Int.natCast_nonneg _) (by exact_mod_cast hstatus)
    refine ⟨code.enc 0 ++ code.enc obj.status.code, [], ?_, ?_, ?_⟩
    · rw [pushPayload, if_neg hfull, hzero, hpush]
      rfl
    · intro pos bufLen _
      refine (pullVint_reads code (show 0 < code.bound by omega) pos).bind ?_
      rw [if_neg (by omega)]
      refine Reads.bind_nil (Reads.tell _) ?_
      rw [if_pos rfl]
      exact (pullVint_reads code hstatus _).map fun status => (status, [])
    · intro hnormal
      by_contra hne
      exact hfull ⟨hnormal, fun hnil => hne hnil.symm⟩

/-- An object, coded against the last Object ID of both sides. -/
theorem serialize_reads (hcode : 2 ^ 62 ≤ code.bound) {prev : Option Nat}
    (hprev : ∀ id ∈ prev, id < obj.objectId)
    (hobj : obj.Sendable code extensionsPresent kvpDelta maxPayload) :
    ∃ bytes got, obj.serialize extensionsPresent prev code kvpDelta = .ok bytes ∧
      (∀ pos bufLen, pos + bytes.length ≤ bufLen →
        Reads (deserializeInto bufLen extensionsPresent prev code kvpDelta maxPayload)
          pos bytes got) ∧
      obj.ReadsAs extensionsPresent got := by
  obtain ⟨delta, hdelta, hreadDelta, hid⟩ := pushDelta_reads hprev hobj.objectId
  obtain ⟨exts, gotExts, hexts, hreadExts, hsame⟩ := pushExtensions_reads hcode hobj
  obtain ⟨body, payload, hbody, hreadBody, hpayload⟩ := pushPayload_reads hcode hobj
  refine ⟨code.enc delta ++ exts ++ body,
    { objectId := obj.objectId, extensions := gotExts, status := obj.status, payload }, ?_, ?_,
    ⟨rfl, rfl, hpayload, hsame⟩⟩
  · simp only [serialize, hdelta, hexts, hbody, bind, Except.bind, pure, Except.pure]
  · intro pos bufLen hbuf
    simp only [List.length_append] at hbuf
    rw [List.append_assoc]
    refine (hreadDelta pos).bind ?_
    refine (hreadExts _).bind ?_
    refine (hreadBody _ bufLen (by omega)).bind_last ?_
    simp only [objectStatus_code, hid]
    exact Reads.pure _ _

end ObjectHeader

/-! ## Streams -/

namespace SubgroupHeader

variable {self : SubgroupHeader}

/-- A header whose fields fit the codec. -/
structure Fits (header : SubgroupHeader) : Prop where
  trackAlias : header.trackAlias < header.code.bound
  groupId : header.groupId < header.code.bound
  subgroupId : ∀ subgroup ∈ header.subgroupId, subgroup < header.code.bound
  publisherPriority : header.publisherPriority < 256

/-- The Subgroup ID that a reader knows behind the header. -/
def sentSubgroupId (self : SubgroupHeader) : Option Nat :=
  match self.subgroupIdMode with
  | .zero => some 0
  | .firstObj => none
  | .explicit => some (self.subgroupId.getD 0)

/-- A header as it is read back, before the first object. -/
def asRead (self : SubgroupHeader) : SubgroupHeader :=
  { self with
    subgroupId := self.sentSubgroupId
    publisherPriority :=
      if self.defaultPriority then defaultPublisherPriority else self.publisherPriority
    firstObject := self.sendsFirstObject
    lastObjectId := none }

theorem bound_code (self : SubgroupHeader) : 2 ^ 62 ≤ self.code.bound := by
  unfold code
  split
  · exact Nat.pow_le_pow_right (by decide) (by decide)
  · exact Nat.le_refl _

theorem pushSubgroupId_reads (hfits : self.Fits) :
    ∃ bytes, self.pushSubgroupId = .ok bytes ∧
      ∀ pos, Reads (pullSubgroupId self.code self.subgroupIdMode) pos bytes self.sentSubgroupId := by
  have hbound := self.bound_code
  unfold pushSubgroupId sentSubgroupId
  cases hmode : self.subgroupIdMode with
  | zero => exact ⟨[], rfl, fun pos => Reads.pure pos (some 0)⟩
  | firstObj => exact ⟨[], rfl, fun pos => Reads.pure pos none⟩
  | explicit =>
      have hsubgroup : self.subgroupId.getD 0 < self.code.bound := by
        cases hid : self.subgroupId with
        | none =>
            show 0 < self.code.bound
            omega
        | some subgroup => exact hfits.subgroupId subgroup hid
      refine ⟨self.code.enc (self.subgroupId.getD 0), ?_, ?_⟩
      · exact pushVint_ok self.code (Int.natCast_nonneg _) (Int.ofNat_lt.mpr hsubgroup)
      · intro pos
        exact (pullVint_reads self.code hsubgroup pos).map some

theorem pushPriority_reads (hfits : self.Fits) :
    ∃ bytes, self.pushPriority = .ok bytes ∧
      ∀ pos, Reads (pullPriority self.defaultPriority) pos bytes self.asRead.publisherPriority := by
  unfold pushPriority pullPriority asRead
  cases self.defaultPriority with
  | true => exact ⟨[], rfl, fun pos => Reads.pure pos defaultPublisherPriority⟩
  | false =>
      have hpriority := hfits.publisherPriority
      refine ⟨[UInt8.ofNat self.publisherPriority], ?_, fun pos => pullUint8_reads hpriority pos⟩
      rw [if_neg Bool.false_ne_true, pushUint8,
        if_pos ⟨Int.natCast_nonneg _, Int.ofNat_lt.mpr hpriority⟩, Int.toNat_natCast]

/-- A header, from its type on. -/
theorem serialize_reads (hfits : self.Fits) :
    ∃ type bytes, self.serialize = .ok (type ++ bytes) ∧
      (∀ pos, Reads (pullVint self.code) pos type self.computeType) ∧
      ∀ pos, Reads (deserialize self.computeType self.prof) pos bytes self.asRead := by
  have hbound := self.bound_code
  have htype : self.computeType < self.code.bound :=
    Nat.lt_of_lt_of_le (typeOf_lt _ _ _ _ _) hbound
  have hpush : ∀ {v : Nat}, v < self.code.bound → pushVint self.code v = .ok (self.code.enc v) :=
    fun hv => pushVint_ok self.code (Int.natCast_nonneg _) (Int.ofNat_lt.mpr hv)
  obtain ⟨subgroup, hsubgroup, hreadSubgroup⟩ := pushSubgroupId_reads hfits
  obtain ⟨priority, hpriority, hreadPriority⟩ := pushPriority_reads hfits
  obtain ⟨hexts, hend, hdefault, hfirst, hmode⟩ := typeOf_flags self.extensionsPresent
    self.endOfGroup self.defaultPriority self.sendsFirstObject self.subgroupIdMode
  refine ⟨self.code.enc self.computeType,
    self.code.enc self.trackAlias ++ (self.code.enc self.groupId ++ (subgroup ++ priority)), ?_,
    fun pos => pullVint_reads self.code htype pos, ?_⟩
  · simp only [serialize, hpush htype, hpush hfits.trackAlias, hpush hfits.groupId, hsubgroup,
      hpriority, bind, Except.bind, pure, Except.pure, List.append_assoc]
  · intro pos
    unfold deserialize
    rw [show computeType self = typeOf _ _ _ _ _ from rfl]
    simp only [hexts, hend, hdefault, hfirst, hmode]
    refine (pullVint_reads self.code hfits.trackAlias pos).bind ?_
    refine (pullVint_reads self.code hfits.groupId _).bind ?_
    refine (hreadSubgroup _).bind ?_
    exact (hreadPriority _).map fun publisherPriority =>
      { self.asRead with publisherPriority }

/-! ## Whole streams -/

/-- A writer's and a reader's header that code the next object alike. -/
structure Alike (w r : SubgroupHeader) : Prop where
  code : r.code = w.code
  extensionsPresent : r.extensionsPresent = w.extensionsPresent
  kvpDelta : r.kvpDelta = w.kvpDelta
  lastObjectId : r.lastObjectId = w.lastObjectId

theorem alike_advance {w r : SubgroupHeader} (halike : Alike w r) (id : Nat) :
    Alike (w.advance id) (r.advance id) :=
  ⟨halike.code, halike.extensionsPresent, halike.kvpDelta, rfl⟩

/-- The header after objects with these ids. -/
def advances (self : SubgroupHeader) (ids : List Nat) : SubgroupHeader := ids.foldl advance self

/-- Objects, from any pair of headers that agree. -/
theorem nextObjects_reads {maxPayload : Nat} (objects : List ObjectHeader) :
    ∀ {w r : SubgroupHeader}, Alike w r →
      (objects.map ObjectHeader.objectId).Pairwise (· < ·) →
      (∀ last ∈ w.lastObjectId, ∀ obj ∈ objects, last < obj.objectId) →
      (∀ obj ∈ objects, obj.Sendable w.code w.extensionsPresent w.kvpDelta maxPayload) →
      ∃ bytes got, w.nextObjects objects = .ok bytes ∧
        List.Forall₂ (ObjectHeader.ReadsAs w.extensionsPresent) objects got ∧
        ∀ pos bufLen, pos + bytes.length ≤ bufLen →
          Reads (readObjects bufLen maxPayload objects.length r) pos bytes
            (got, r.advances (objects.map ObjectHeader.objectId)) := by
  induction objects with
  | nil =>
      intro w r _ _ _ _
      exact ⟨[], [], rfl, List.Forall₂.nil, fun pos _ _ => Reads.pure pos ([], r)⟩
  | cons obj objects ih =>
      intro w r halike hsorted hlast hsend
      rw [List.map_cons, List.pairwise_cons] at hsorted
      obtain ⟨first, gotFirst, hfirst, hreadFirst, hsame⟩ := ObjectHeader.serialize_reads
        w.bound_code (fun last hmem => hlast last hmem obj List.mem_cons_self)
        (hsend obj List.mem_cons_self)
      have hnext : ∀ last ∈ (w.advance obj.objectId).lastObjectId, ∀ other ∈ objects,
          last < other.objectId := by
        intro last hmem other hother
        obtain rfl : obj.objectId = last := Option.some.inj hmem
        exact hsorted.1 _ (List.mem_map_of_mem hother)
      obtain ⟨rest, gotRest, hrest, hsames, hreadRest⟩ := ih (alike_advance halike obj.objectId)
        hsorted.2 hnext (fun other hother => hsend other (List.mem_cons_of_mem _ hother))
      refine ⟨first ++ rest, gotFirst :: gotRest, ?_, List.Forall₂.cons hsame hsames, ?_⟩
      · simp only [nextObjects, nextObject, hfirst, hrest, bind, Except.bind, pure, Except.pure]
      · intro pos bufLen hbuf
        rw [List.length_append] at hbuf
        have hobj : Reads (r.readObject bufLen maxPayload) pos first
            (gotFirst, r.advance obj.objectId) := by
          have hread := hreadFirst pos bufLen (by omega)
          rw [← halike.code, ← halike.extensionsPresent, ← halike.kvpDelta,
            ← halike.lastObjectId] at hread
          rw [← hsame.objectId]
          exact hread.map fun got => (got, r.advance got.objectId)
        refine hobj.bind ?_
        exact (hreadRest _ bufLen (by omega)).map fun entry =>
          (gotFirst :: entry.1, entry.2)

/-- The header as the reader has it behind objects with these ids. -/
def resolved (self : SubgroupHeader) (ids : List Nat) : SubgroupHeader :=
  { self.asRead with
    subgroupId := if self.subgroupIdMode = .firstObj then ids.head? else self.sentSubgroupId
    lastObjectId := ids.getLast? }

theorem advances_eq (self : SubgroupHeader) (ids : List Nat) :
    self.advances ids = { self with
      subgroupId := if self.subgroupIdMode = .firstObj then self.subgroupId.or ids.head?
        else self.subgroupId
      lastObjectId := ids.getLast?.or self.lastObjectId } := by
  induction ids generalizing self with
  | nil => simp [advances]
  | cons id ids ih =>
      rw [advances, List.foldl_cons]
      refine (ih (self.advance id)).trans ?_
      have hlast : ids.getLast?.or (some id) = some (ids.getLast?.getD id) := by
        cases ids.getLast? <;> rfl
      simp only [advance, List.head?_cons, List.getLast?_cons, hlast, Option.some_or]
      obtain ⟨_, _, subgroupId, _, _, _, mode, _, _, _, _⟩ := self
      cases mode <;> cases subgroupId <;> simp

theorem advances_asRead (self : SubgroupHeader) (ids : List Nat) :
    self.asRead.advances ids = self.resolved ids := by
  rw [advances_eq, resolved, asRead, sentSubgroupId]
  cases self.subgroupIdMode <;> simp

/-- A new stream is read back: its header, its objects, and no byte more. -/
theorem stream_round_trip (self : SubgroupHeader) (objects : List ObjectHeader) (maxPayload : Nat)
    (hnew : self.lastObjectId = none) (hfits : self.Fits)
    (hsorted : (objects.map ObjectHeader.objectId).Pairwise (· < ·))
    (hsend : ∀ obj ∈ objects,
      obj.Sendable self.code self.extensionsPresent self.kvpDelta maxPayload) :
    ∃ bytes got, self.writeStream objects = .ok bytes ∧
      List.Forall₂ (ObjectHeader.ReadsAs self.extensionsPresent) objects got ∧
      ∀ bufLen, bytes.length ≤ bufLen →
        Reads (readStream self.prof bufLen maxPayload objects.length) 0 bytes
          (got, self.resolved (objects.map ObjectHeader.objectId)) := by
  obtain ⟨type, header, hheader, hreadType, hreadHeader⟩ := serialize_reads hfits
  have halike : Alike self self.asRead := ⟨rfl, rfl, rfl, hnew.symm⟩
  obtain ⟨body, got, hbody, hsame, hreadBody⟩ := nextObjects_reads objects halike hsorted
    (by rw [hnew]; intro last hlast; cases hlast) hsend
  refine ⟨type ++ header ++ body, got, ?_, hsame, ?_⟩
  · simp only [writeStream, hheader, hbody, bind, Except.bind, pure, Except.pure]
  · intro bufLen hbuf
    simp only [List.length_append] at hbuf
    rw [List.append_assoc]
    refine (hreadType 0).bind ?_
    refine (hreadHeader _).bind ?_
    rw [← advances_asRead]
    exact hreadBody _ bufLen (by omega)

/-- A stream in first-object mode: an object with a property, and the end of the group. -/
def propertiesStream : SubgroupHeader where
  trackAlias := 7
  groupId := 3
  subgroupId := none
  extensionsPresent := true
  endOfGroup := true
  subgroupIdMode := .firstObj
  prof := some (profileFor .d18)

def propertiesObjects : List ObjectHeader :=
  [{ objectId := 4, extensions := some ⟨⟨[(2, .int 9)], by decide⟩, []⟩, payload := [1, 2] },
    { objectId := 6, status := .endOfGroup }]

theorem stream_round_trip_properties :
    ∃ bytes got, propertiesStream.writeStream propertiesObjects = .ok bytes ∧
      List.Forall₂ (ObjectHeader.ReadsAs true) propertiesObjects got ∧
      ∀ bufLen, bytes.length ≤ bufLen →
        Reads (readStream propertiesStream.prof bufLen 0 2) 0 bytes
          (got, propertiesStream.resolved [4, 6]) := by
  refine stream_round_trip propertiesStream propertiesObjects 0 rfl ?_ (by decide) ?_
  · refine ⟨by decide, by decide, ?_, by decide⟩
    intro subgroup hsubgroup
    cases hsubgroup
  · have hplain : ∀ obj ∈ propertiesObjects, obj.objectId < 2 ^ 62 ∧ obj.payload.length < 2 ^ 62 := by
      decide
    intro obj hobj
    refine ⟨?_, ?_, Or.inl rfl, ?_⟩
    · exact Nat.lt_of_lt_of_le (hplain obj hobj).1 propertiesStream.bound_code
    · exact Nat.lt_of_lt_of_le (hplain obj hobj).2 propertiesStream.bound_code
    · intro _ _ kvps hkvps
      obtain rfl | hobj := List.mem_cons.mp hobj
      · obtain rfl : _ = kvps := Option.some.inj hkvps
        have hcoded : KeyValuePairs.coded ⟨⟨[(2, KvpValue.int 9)], by decide⟩, []⟩ true =
            [(2, .int 9)] := by simp [KeyValuePairs.coded, Dict.sorted]
        have hpush : pushKvps propertiesStream.code true 0 [(2, .int 9)] = .ok [2, 9] := rfl
        refine ⟨by decide, by decide, ?_, ?_⟩
        · intro e he
          obtain rfl := List.mem_singleton.mp he
          exact ⟨rfl, by decide⟩
        · intro payload hpayload
          obtain rfl : [2, 9] = payload :=
            Except.ok.inj (hpush.symm.trans ((congrArg _ hcoded).symm.trans hpayload))
          decide
      · obtain rfl := List.mem_singleton.mp hobj
        cases hkvps

/-- In zero mode the Subgroup ID of a header is not sent, whatever it is. -/
def zeroModeStream : SubgroupHeader where
  trackAlias := 1
  groupId := 0
  subgroupId := some 5
  subgroupIdMode := .zero
  prof := some (profileFor .d18)

theorem subgroupId_not_sent :
    ∃ bytes, zeroModeStream.writeStream [] = .ok bytes ∧
      ∃ header last, readStream zeroModeStream.prof bytes.length 0 0 ⟨0, bytes⟩ =
        .ok (([], header), last) ∧ header.subgroupId ≠ zeroModeStream.subgroupId := by
  refine ⟨_, rfl, _, _, rfl, ?_⟩
  decide

end SubgroupHeader

end AioMoqt.Messages
