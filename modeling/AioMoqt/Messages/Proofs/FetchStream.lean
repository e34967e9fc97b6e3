import AioMoqt.Messages.FetchObject
import AioMoqt.Messages.Proofs.Kvp
import Mathlib.Data.List.Chain

/-!
# A FETCH stream read back

Sender and receiver rebuild the prior of the delta coding on their own.  Group,
Object and Priority stay equal along the whole stream.  The Subgroup ID does too,
but for one case: an End of Range marker behind a datagram leaves the sender with
the datagram's own `subgroup_id`, the receiver with 0.
-/

namespace AioMoqt.Messages

open AioMoqt.Lib AioMoqt.Lib.BigEndian
open AioMoqt.Lib.Reader (Reads)

namespace FetchObject

/-! ## Streams the sender may be given -/

/-- The properties as a dictionary; none is an empty one. -/
def props (obj : FetchObject) : Dict Nat KvpValue :=
  match obj.extensions with
  | none => .empty
  | some kvps => kvps.dict

/-- An object, or a marker of the draft, whose fields fit the wire and the
receiver's limits. -/
structure Sendable (prof : DraftProfile) (maxPayload : Nat) (obj : FetchObject) : Prop where
  group_lt : obj.groupId < 2 ^ 64
  object_lt : obj.objectId < 2 ^ 64
  marker_mem : ∀ {marker}, obj.endOfRange = some marker → marker ∈ endOfRangeFlags prof
  subgroup_nonneg : obj.endOfRange = none → 0 ≤ obj.subgroupId
  subgroup_lt : obj.endOfRange = none → obj.subgroupId < 2 ^ 64
  priority_nonneg : obj.endOfRange = none → 0 ≤ obj.publisherPriority
  priority_lt : obj.endOfRange = none → obj.publisherPriority < 256
  status_normal : obj.endOfRange = none → obj.status = .normal
  props_sendable : obj.endOfRange = none → ∀ {kvps}, obj.extensions = some kvps →
    kvps.Sendable prof.vint
  payload_lt : obj.endOfRange = none → obj.payload.length < 2 ^ 64
  payload_le : obj.endOfRange = none → maxPayload ≠ 0 → obj.payload.length ≤ maxPayload

/-- `b` comes after `a` in the group order. -/
def Follows (order : GroupOrder) (a b : FetchObject) : Prop :=
  b.groupId = a.groupId ∧ a.objectId < b.objectId ∨
    if order = .descending then b.groupId < a.groupId else a.groupId < b.groupId

/-- The same marker, or the same object but for the Subgroup ID of a datagram. -/
structure SameObject (a b : FetchObject) : Prop where
  kind : b.endOfRange = a.endOfRange
  group : b.groupId = a.groupId
  object : b.objectId = a.objectId
  priority : a.endOfRange = none → b.publisherPriority = a.publisherPriority
  properties : a.endOfRange = none → b.props.Same a.props
  status : a.endOfRange = none → b.status = a.status
  payload : a.endOfRange = none → b.payload = a.payload
  datagram : a.endOfRange = none → b.datagram = a.datagram
  subgroup : a.endOfRange = none → a.datagram = false → b.subgroupId = a.subgroupId

/-- The Subgroup ID of `obj` is coded against a datagram's own `subgroup_id`:
`last` is the last actual object and `marked` says a marker came after it. -/
def misread (last : Option FetchObject) (marked : Bool) (obj : FetchObject) : Bool :=
  match last with
  | none => false
  | some prev => marked && prev.datagram && prev.subgroupId != 0 && !obj.datagram &&
      (obj.subgroupId == prev.subgroupId || obj.subgroupId == prev.subgroupId + 1)

/-- Some object of the stream has its Subgroup ID misread. -/
def misreads : Option FetchObject → Bool → List FetchObject → Bool
  | _, _, [] => false
  | last, marked, obj :: objects =>
      if obj.endOfRange.isSome then misreads last true objects
      else misread last marked obj || misreads (some obj) false objects

/-! ## The two priors -/

/-- The Subgroup ID the sender's prior has. -/
def rawSubgroup (last : Option FetchObject) : Int :=
  match last with
  | none => -1
  | some prev => prev.subgroupId

/-- The Subgroup ID the sender codes against. -/
def sentSubgroup (last : Option FetchObject) (marked : Bool) : Int :=
  match last with
  | none => -1
  | some prev => if prev.datagram && !marked then 0 else prev.subgroupId

/-- The Subgroup ID the receiver's prior has. -/
def readSubgroup (last : Option FetchObject) : Int :=
  match last with
  | none => -1
  | some prev => if prev.datagram then 0 else prev.subgroupId

/-- The sender's and the receiver's prior after the same part of the stream. -/
structure PriorAgrees (last : Option FetchObject) (marked : Bool) (sent read : FetchObject) :
    Prop where
  group : read.groupId = sent.groupId
  object : read.objectId = sent.objectId
  priority : read.publisherPriority = sent.publisherPriority
  raw : sent.subgroupId = rawSubgroup last
  coded : sent.priorSubgroup = sentSubgroup last marked
  subgroup : read.subgroupId = readSubgroup last

/-- Before the first object there is no prior on either side. -/
def PriorsAgree (last : Option FetchObject) (marked : Bool) :
    Option FetchObject → Option FetchObject → Prop
  | none, none => last = none
  | some sent, some read => PriorAgrees last marked sent read
  | _, _ => False

/-! ## Single fields -/

section Fields

variable {prof : DraftProfile}

theorem bound_vint (hvi64 : prof.vi64 = true) : prof.vint.bound = 2 ^ 64 := by
  simp only [DraftProfile.vint, hvi64, if_true]
  rfl

/-- Writing an optional field and reading it where it is present. -/
theorem pushOpt_ok (hvi64 : prof.vi64 = true) {v : Nat} (hv : v < 2 ^ 64) :
    pushOpt prof.vint (some (v : Int)) = .ok (prof.vint.enc v) := by
  have hbound := bound_vint hvi64
  simp only [pushOpt]
  rw [pushVint_ok prof.vint (by omega) (by omega)]
  rfl

/-- An explicit Subgroup ID. -/
theorem pushPresent_reads (hvi64 : prof.vi64 = true) {subgroup : Int} (hnonneg : 0 ≤ subgroup)
    (hlt : subgroup < 2 ^ 64) {flags : FetchFlags} (hdatagram : flags.datagram = false)
    (hmode : flags.sgMode = sgPresent) (read : Option FetchObject) :
    ∃ bytes, pushOpt prof.vint (some subgroup) = .ok bytes ∧
      ∀ pos, Reads (pullSubgroupId flags read prof) pos bytes subgroup := by
  obtain ⟨v, rfl⟩ := Int.eq_ofNat_of_zero_le hnonneg
  have hv : v < prof.vint.bound := by
    rw [bound_vint hvi64]
    omega
  refine ⟨prof.vint.enc v, pushOpt_ok hvi64 (by omega), ?_⟩
  intro pos
  simp only [pullSubgroupId, hdatagram, hmode, Bool.false_eq_true, if_false, sgPresent, sgZero,
    sgPrior, sgPriorPlus, Fin.reduceEq]
  exact (pullVint_reads prof.vint hv pos).map fun v => (v : Int)

/-- Not coded against a stale Subgroup ID: both sides mean the same one. -/
theorem misread_eq_false {last : Option FetchObject} {marked : Bool} {obj : FetchObject}
    (hdatagram : obj.datagram = false) :
    misread last marked obj = false ↔
      sentSubgroup last marked = readSubgroup last ∨
        obj.subgroupId ≠ sentSubgroup last marked ∧
          obj.subgroupId ≠ sentSubgroup last marked + 1 := by
  cases last with
  | none => simp [misread, sentSubgroup, readSubgroup]
  | some prev =>
      simp only [misread, sentSubgroup, readSubgroup, hdatagram]
      cases prev.datagram <;> cases marked <;> simp
      exact or_iff_not_imp_left.symm

/-- Where the sender refers to a Subgroup ID, the receiver has one. -/
theorem readSubgroup_nonneg {last : Option FetchObject} (marked : Bool)
    (hlast : ∀ prev, last = some prev → 0 ≤ prev.subgroupId)
    (hsent : 0 ≤ sentSubgroup last marked) : 0 ≤ readSubgroup last := by
  cases last with
  | none => simp [sentSubgroup] at hsent
  | some prev =>
      have hprev := hlast prev rfl
      simp only [readSubgroup]
      split <;> omega

theorem referencedSubgroup_reads {read : FetchObject} (h : 0 ≤ read.subgroupId) (pos : Nat) :
    Reads (referencedSubgroup (some read)) pos [] read.subgroupId := by
  simp only [referencedSubgroup]
  rw [if_neg (by omega)]
  exact Reads.pure pos _

/-- The Subgroup ID comes back unless it was coded against a stale one. -/
theorem subgroupField_reads (hvi64 : prof.vi64 = true) {obj : FetchObject}
    (hnonneg : 0 ≤ obj.subgroupId) (hlt : obj.subgroupId < 2 ^ 64)
    {last : Option FetchObject} {marked : Bool}
    (hlast : ∀ prev, last = some prev → 0 ≤ prev.subgroupId)
    {sent read : Option FetchObject} (hprior : PriorsAgree last marked sent read)
    (flags : FetchFlags) (hmode : flags.sgMode = (obj.subgroupField sent).1)
    (hflag : flags.datagram = obj.datagram) :
    ∃ bytes subgroup, pushOpt prof.vint (obj.subgroupField sent).2 = .ok bytes ∧
      (∀ pos, Reads (pullSubgroupId flags read prof) pos bytes subgroup) ∧
      (obj.datagram = true → subgroup = 0) ∧
      (obj.datagram = false → (subgroup = obj.subgroupId ↔ misread last marked obj = false)) := by
  by_cases hdatagram : obj.datagram = true
  · refine ⟨[], 0, by simp [subgroupField, hdatagram, pushOpt], ?_, fun _ => rfl, ?_⟩
    · intro pos
      simp only [pullSubgroupId, hflag, hdatagram, if_true]
      exact Reads.pure pos 0
    · simp [hdatagram]
  have hsub : obj.datagram = false := by simpa using hdatagram
  rw [hsub] at hflag
  by_cases hzero : obj.subgroupId = 0
  · have hfield : obj.subgroupField sent = (sgZero, none) := by
      simp [subgroupField, hsub, hzero]
    rw [hfield] at hmode ⊢
    refine ⟨[], 0, rfl, ?_, by simp [hsub], ?_⟩
    · intro pos
      simp only [pullSubgroupId, hflag, hmode, Bool.false_eq_true, if_false, if_true]
      exact Reads.pure pos 0
    · intro _
      rw [misread_eq_false hsub, hzero]
      refine iff_of_true rfl ?_
      -- 0 is coded by its own mode, so a prior of 0 or -1 is on both sides
      cases last with
      | none => exact .inl rfl
      | some prev =>
          have hprev := hlast prev rfl
          simp only [sentSubgroup, readSubgroup]
          cases prev.datagram <;> cases marked <;> simp
          omega
  cases sent with
  | none =>
      have hfield : obj.subgroupField none = (sgPresent, some obj.subgroupId) := by
        simp [subgroupField, hsub, hzero]
      have hlastNone : last = none := by
        cases read with
        | none => exact hprior
        | some read => exact hprior.elim
      rw [hfield] at hmode ⊢
      obtain ⟨bytes, hbytes, hread⟩ := pushPresent_reads hvi64 hnonneg hlt hflag hmode read
      refine ⟨bytes, obj.subgroupId, hbytes, hread, by simp [hsub], fun _ => ?_⟩
      simp [hlastNone, misread]
  | some sent =>
      obtain ⟨read, rfl, hagree⟩ : ∃ r, read = some r ∧ PriorAgrees last marked sent r := by
        cases read with
        | none => exact hprior.elim
        | some read => exact ⟨read, rfl, hprior⟩
      by_cases hprior : obj.subgroupId = sent.priorSubgroup
      · have hfield : obj.subgroupField (some sent) = (sgPrior, none) := by
          simp only [subgroupField, hsub, hzero, Bool.false_eq_true, if_false, if_pos hprior]
        rw [hfield] at hmode ⊢
        rw [hagree.coded] at hprior
        refine ⟨[], read.subgroupId, rfl, ?_, by simp [hsub], fun _ => ?_⟩
        · intro pos
          have hread : 0 ≤ read.subgroupId := by
            rw [hagree.subgroup]
            exact readSubgroup_nonneg marked hlast (hprior ▸ hnonneg)
          simp only [pullSubgroupId, hflag, hmode, Bool.false_eq_true, if_false, sgPrior, sgZero,
            Fin.reduceEq, if_true]
          exact referencedSubgroup_reads hread pos
        · rw [misread_eq_false hsub, hagree.subgroup, hprior]
          simp [eq_comm]
      · by_cases hplus : obj.subgroupId = sent.priorSubgroup + 1
        · have hfield : obj.subgroupField (some sent) = (sgPriorPlus, none) := by
            simp only [subgroupField, hsub, hzero, Bool.false_eq_true, if_false,
              if_neg hprior, if_pos hplus]
          rw [hfield] at hmode ⊢
          rw [hagree.coded] at hprior hplus
          refine ⟨[], read.subgroupId + 1, rfl, ?_, by simp [hsub], fun _ => ?_⟩
          · intro pos
            have hread : 0 ≤ read.subgroupId := by
              rw [hagree.subgroup]
              exact readSubgroup_nonneg marked hlast (by omega)
            simp only [pullSubgroupId, hflag, hmode, Bool.false_eq_true, if_false, sgPriorPlus,
              sgPrior, sgZero, Fin.reduceEq, if_true]
            exact (referencedSubgroup_reads hread pos).map (· + 1)
          · rw [misread_eq_false hsub, hagree.subgroup, hplus]
            simp [eq_comm]
        · have hfield : obj.subgroupField (some sent) = (sgPresent, some obj.subgroupId) := by
            simp only [subgroupField, hsub, hzero, Bool.false_eq_true, if_false,
              if_neg hprior, if_neg hplus]
          rw [hfield] at hmode ⊢
          rw [hagree.coded] at hprior hplus
          obtain ⟨bytes, hbytes, hread⟩ :=
            pushPresent_reads hvi64 hnonneg hlt hflag hmode (some read)
          refine ⟨bytes, obj.subgroupId, hbytes, hread, by simp [hsub], fun _ => ?_⟩
          rw [misread_eq_false hsub]
          simp [hprior, hplus]

theorem checkObjectId_reads {object : Nat} (hobject : object < 2 ^ 64) (pos : Nat) :
    Reads (checkObjectId object) pos [] object := by
  have hmax : ¬ kvpTypeMax < object := by
    simp only [kvpTypeMax]
    omega
  simp only [checkObjectId, if_neg hmax]
  exact Reads.pure pos _

/-- An Object ID that is carried, by itself or behind the prior's. -/
theorem pullObjectId_reads (hvi64 : prof.vi64 = true) {flags : FetchFlags}
    {read : Option FetchObject} {od object : Nat} (hod : od < 2 ^ 64) (hobject : object < 2 ^ 64)
    (hpresent : flags.objectIdPresent = true) (hresolve : resolveObjectId flags read od = object)
    (pos : Nat) : Reads (pullObjectId flags read prof) pos (prof.vint.enc od) object := by
  simp only [pullObjectId, hpresent, if_true]
  apply (pullVint_reads prof.vint (bound_vint hvi64 ▸ hod) pos).bind_last
  rw [hresolve]
  exact checkObjectId_reads hobject _

/-- A Group ID that is carried, by itself or as a distance. -/
theorem pullGroupId_reads (hvi64 : prof.vi64 = true) {order : GroupOrder} {flags : FetchFlags}
    {read : Option FetchObject} {gd group : Nat} (hgd : gd < 2 ^ 64)
    (hpresent : flags.groupIdPresent = true)
    (hresolve : ∀ pos, Reads (resolveGroupId read order gd) pos [] group) (pos : Nat) :
    Reads (pullGroupId flags read order prof) pos (prof.vint.enc gd) group := by
  simp only [pullGroupId, hpresent, if_true]
  exact (pullVint_reads prof.vint (bound_vint hvi64 ▸ hgd) pos).bind_last (hresolve _)

/-- The Group and Object fields of `obj` behind `sent`, as they are read back behind `read`. -/
def LocationReads (prof : DraftProfile) (order : GroupOrder) (sent read : Option FetchObject)
    (obj : FetchObject) : Prop :=
  ∃ group object groupBytes objectBytes,
    obj.locationFields sent order = .ok (group, object) ∧
    pushOpt prof.vint group = .ok groupBytes ∧
    pushOpt prof.vint object = .ok objectBytes ∧
    (read.isNone → group.isSome ∧ object.isSome) ∧
    ∀ flags : FetchFlags, flags.groupIdPresent = group.isSome →
      flags.objectIdPresent = object.isSome →
      (∀ pos, Reads (pullGroupId flags read order prof) pos groupBytes obj.groupId) ∧
      ∀ pos, Reads (pullObjectId flags read prof) pos objectBytes obj.objectId

section Location

variable {order : GroupOrder} {obj sent read : FetchObject} {last : Option FetchObject}
variable {marked : Bool}

/-- Without a prior both fields are carried as they are. -/
theorem location_first (hvi64 : prof.vi64 = true) (hgroup : obj.groupId < 2 ^ 64)
    (hobject : obj.objectId < 2 ^ 64) : LocationReads prof order none none obj := by
  refine ⟨some obj.groupId, some obj.objectId, _, _, rfl, pushOpt_ok hvi64 hgroup,
    pushOpt_ok hvi64 hobject, by simp, ?_⟩
  intro flags hgroupFlag hobjectFlag
  exact ⟨pullGroupId_reads hvi64 hgroup hgroupFlag fun pos => Reads.pure pos _,
    pullObjectId_reads hvi64 hobject hobject hobjectFlag rfl⟩

/-- In the prior's group the Object ID is the next one, or carried as the distance. -/
theorem location_sameGroup (hvi64 : prof.vi64 = true) (hobject : obj.objectId < 2 ^ 64)
    (hagree : PriorAgrees last marked sent read) (hsame : obj.groupId = sent.groupId)
    (hlater : sent.objectId < obj.objectId) :
    LocationReads prof order (some sent) (some read) obj := by
  have hkeep : ∀ flags : FetchFlags, flags.groupIdPresent = false →
      ∀ pos, Reads (pullGroupId flags (some read) order prof) pos [] obj.groupId := by
    intro flags hflag pos
    simp only [pullGroupId, hflag, Bool.false_eq_true, if_false, Option.map_some,
      Option.getD_some, hagree.group, ← hsame]
    exact Reads.pure pos _
  by_cases hnext : obj.objectId = sent.objectId + 1
  · refine ⟨none, none, [], [], ?_, rfl, rfl, by simp, ?_⟩
    · simp [locationFields, hsame, hnext]
    · intro flags hgroupFlag hobjectFlag
      refine ⟨hkeep flags hgroupFlag, ?_⟩
      intro pos
      simp only [pullObjectId, hobjectFlag, Option.isSome_none, Bool.false_eq_true,
        if_false, Option.map_some, Option.getD_some, hagree.object, ← hnext]
      exact checkObjectId_reads hobject pos
  · have hdelta : ((obj.objectId : Int) - sent.objectId) =
        ((obj.objectId - sent.objectId : Nat) : Int) := by omega
    refine ⟨none, some ((obj.objectId - sent.objectId : Nat) : Int), [], _, ?_, rfl,
      pushOpt_ok hvi64 (by omega), by simp, ?_⟩
    · simp only [locationFields, hsame, ne_eq, not_true_eq_false, if_false, hnext,
        not_false_eq_true, if_true, hdelta]
      rw [if_neg (by omega)]
    · intro flags hgroupFlag hobjectFlag
      have hresolve : resolveObjectId flags (some read) (obj.objectId - sent.objectId) =
          obj.objectId := by
        simp only [resolveObjectId, hgroupFlag, Option.isSome_none, Bool.false_eq_true,
          if_false, hagree.object]
        omega
      exact ⟨hkeep flags hgroupFlag,
        pullObjectId_reads hvi64 (by omega) hobject hobjectFlag hresolve⟩

/-- Into another group its distance from the prior's is carried, less one. -/
theorem location_newGroup (hvi64 : prof.vi64 = true) (hgroup : obj.groupId < 2 ^ 64)
    (hobject : obj.objectId < 2 ^ 64) (hsent : sent.groupId < 2 ^ 64)
    (hagree : PriorAgrees last marked sent read)
    (horder : if order = .descending then obj.groupId < sent.groupId
      else sent.groupId < obj.groupId) :
    LocationReads prof order (some sent) (some read) obj := by
  have hne : obj.groupId ≠ sent.groupId := by
    split_ifs at horder <;> omega
  obtain ⟨delta, hdelta, hresolve⟩ : ∃ delta : Nat,
      (if order = .descending then (sent.groupId : Int) - obj.groupId - 1
        else (obj.groupId : Int) - sent.groupId - 1) = delta ∧
      if order = .descending then obj.groupId + delta + 1 = sent.groupId
        else sent.groupId + delta + 1 = obj.groupId := by
    split_ifs at horder ⊢ with hdesc
    · exact ⟨sent.groupId - obj.groupId - 1, by omega, by omega⟩
    · exact ⟨obj.groupId - sent.groupId - 1, by omega, by omega⟩
  have hdeltaLt : delta < 2 ^ 64 := by
    split_ifs at hresolve <;> omega
  have hread : ∀ pos, Reads (resolveGroupId (some read) order delta) pos [] obj.groupId := by
    intro pos
    have hmax : obj.groupId ≤ kvpTypeMax := by
      simp only [kvpTypeMax]
      omega
    simp only [resolveGroupId, hagree.group]
    split_ifs at hresolve ⊢
    · omega
    · rw [show sent.groupId - delta - 1 = obj.groupId by omega]
      exact Reads.pure pos _
    · omega
    · rw [hresolve]
      exact Reads.pure pos _
  refine ⟨some (delta : Int), some obj.objectId, _, _, ?_, pushOpt_ok hvi64 hdeltaLt,
    pushOpt_ok hvi64 hobject, by simp, ?_⟩
  · simp only [locationFields, ne_eq, hne, not_false_eq_true, if_true, hdelta]
    rw [if_neg (by omega)]
  · intro flags hgroupFlag hobjectFlag
    exact ⟨pullGroupId_reads hvi64 hdeltaLt hgroupFlag hread,
      pullObjectId_reads hvi64 hobject hobject hobjectFlag (by simp [resolveObjectId, hgroupFlag])⟩

end Location

/-- Group and Object fields against priors that agree. -/
theorem locationFields_reads (hvi64 : prof.vi64 = true) {order : GroupOrder}
    {obj : FetchObject} (hgroup : obj.groupId < 2 ^ 64) (hobject : obj.objectId < 2 ^ 64)
    {last : Option FetchObject} {marked : Bool} {sent read : Option FetchObject}
    (hprior : PriorsAgree last marked sent read)
    (hsentLt : ∀ p, sent = some p → p.groupId < 2 ^ 64)
    (hfollows : ∀ p, sent = some p → Follows order p obj) :
    LocationReads prof order sent read obj := by
  cases sent with
  | none =>
      cases read with
      | none => exact location_first hvi64 hgroup hobject
      | some read => exact hprior.elim
  | some sent =>
      cases read with
      | none => exact hprior.elim
      | some read =>
          rcases hfollows sent rfl with ⟨hsame, hlater⟩ | horder
          · exact location_sameGroup hvi64 hobject hprior hsame hlater
          · exact location_newGroup hvi64 hgroup hobject (hsentLt sent rfl) hprior horder

/-- The Priority, carried or the prior's. -/
theorem sendsPriority_reads {obj : FetchObject} (hnonneg : 0 ≤ obj.publisherPriority)
    (hlt : obj.publisherPriority < 256) {last : Option FetchObject} {marked : Bool}
    {sent read : Option FetchObject} (hprior : PriorsAgree last marked sent read) :
    ∃ bytes, obj.pushPriority sent = .ok bytes ∧
      ∀ flags : FetchFlags, flags.priorityPresent = obj.sendsPriority sent →
        ∀ pos, Reads (pullPriority flags read) pos bytes obj.publisherPriority := by
  cases hsends : obj.sendsPriority sent with
  | true =>
      obtain ⟨v, hv⟩ := Int.eq_ofNat_of_zero_le hnonneg
      refine ⟨[UInt8.ofNat v], ?_, ?_⟩
      · simp only [pushPriority, hsends, if_true, pushUint8, hv, Int.toNat_natCast]
        rw [if_pos (by omega)]
      intro flags hflag pos
      simp only [pullPriority, hflag, if_true]
      rw [hv]
      exact (pullUint8_reads (by omega) pos).map fun v => (v : Int)
  | false =>
      refine ⟨[], by simp [pushPriority, hsends], ?_⟩
      intro flags hflag pos
      cases sent with
      | none => simp [sendsPriority] at hsends
      | some sent =>
          obtain ⟨read, rfl, hagree⟩ : ∃ r, read = some r ∧ PriorAgrees last marked sent r := by
            cases read with
            | none => exact hprior.elim
            | some read => exact ⟨read, rfl, hprior⟩
          have hsame : read.publisherPriority = obj.publisherPriority := by
            rw [hagree.priority]
            simp only [sendsPriority, ne_eq, decide_not, Bool.not_eq_false',
              decide_eq_true_eq] at hsends
            exact hsends.symm
          simp only [pullPriority, hflag, Bool.false_eq_true, if_false, hsame, if_pos hnonneg]
          exact Reads.pure pos _

/-- The properties, or their absence. -/
theorem hasProps_reads {obj : FetchObject}
    (hprops : ∀ {kvps}, obj.extensions = some kvps → kvps.Sendable prof.vint) :
    ∃ bytes extensions,
      obj.pushProps prof = .ok bytes ∧
      (∀ flags : FetchFlags, flags.extensionsPresent = obj.hasProps →
        ∀ pos, Reads (pullProps flags prof) pos bytes extensions) ∧
      Dict.Same (match extensions with | none => .empty | some kvps => kvps.dict)
        obj.props := by
  have hcode := prof.vint_bound
  cases hhas : obj.hasProps with
  | false =>
      refine ⟨[], none, by simp [pushProps, hhas], ?_, ?_⟩
      · intro flags hflag pos
        simp only [pullProps, hflag, Bool.false_eq_true, if_false]
        exact Reads.pure pos _
      · intro k
        unfold hasProps at hhas
        unfold props
        cases hexts : obj.extensions with
        | none => rfl
        | some kvps =>
            rw [hexts] at hhas
            simp only [decide_eq_false_iff_not, ne_eq, not_not] at hhas
            simp [Dict.get?, hhas, Dict.empty]
  | true =>
      have hne := hhas
      unfold hasProps at hne
      cases hexts : obj.extensions with
      | none => simp [hexts] at hne
      | some kvps =>
          rw [hexts] at hne
          simp only [decide_eq_true_eq] at hne
          obtain ⟨bytes, out, hbytes, hread, hsame, -⟩ :=
            extensionsEncode_reads hcode hne (hprops hexts)
          refine ⟨bytes, some out, by simp [pushProps, hhas, hexts, hbytes], ?_, ?_⟩
          · intro flags hflag pos
            simp only [pullProps, hflag, if_true]
            exact hread pos
          · simpa only [props, hexts] using hsame

/-- The payload within the receiver's limit. -/
theorem pushPayload_reads (hvi64 : prof.vi64 = true) {obj : FetchObject}
    (hstatus : obj.status = .normal) (hlt : obj.payload.length < 2 ^ 64) {maxPayload : Nat}
    (hle : maxPayload ≠ 0 → obj.payload.length ≤ maxPayload) :
    ∃ bytes, obj.pushPayload prof = .ok bytes ∧
      ∀ extensions pos, Reads (pullPayload extensions maxPayload prof) pos bytes
        (.normal, obj.payload) := by
  have hbound := bound_vint hvi64
  have hlimit : ¬ (maxPayload ≠ 0 ∧ maxPayload < obj.payload.length) := by
    rintro ⟨hne, hlarge⟩
    have := hle hne
    omega
  have hzeroOk : pushVint prof.vint 0 = .ok (prof.vint.enc 0) :=
    pushVint_ok prof.vint (by omega) (by omega)
  by_cases hnil : obj.payload = []
  · have hlen : obj.payload.length = 0 := by rw [hnil]; rfl
    cases hprofStatus : prof.fetchObjectStatus with
    | false =>
        refine ⟨prof.vint.enc 0, ?_, ?_⟩
        · simp [pushPayload, hnil, hzeroOk, hprofStatus, bind, Except.bind, pure, Except.pure]
        · intro extensions pos
          rw [← List.append_nil (prof.vint.enc 0)]
          refine (pullVint_reads prof.vint (by omega) pos).bind ?_
          simp only [Nat.not_lt_zero, and_false, if_false, if_true, hprofStatus,
            Bool.false_eq_true, hnil]
          exact Reads.pure _ _
    | true =>
        refine ⟨prof.vint.enc 0 ++ prof.vint.enc 0, ?_, ?_⟩
        · simp [pushPayload, hnil, hzeroOk, hprofStatus, hstatus, ObjectStatus.code, bind,
            Except.bind, pure, Except.pure]
        · intro extensions pos
          refine (pullVint_reads prof.vint (by omega) pos).bind ?_
          simp only [Nat.not_lt_zero, and_false, if_false, if_true, hprofStatus, hnil]
          rw [← List.append_nil (prof.vint.enc 0)]
          refine (pullVint_reads prof.vint (by omega) _).bind ?_
          simp only [objectStatus, ne_eq, not_true_eq_false, and_false, if_false]
          exact Reads.pure _ _
  · have hpos : obj.payload.length ≠ 0 := by simpa using hnil
    refine ⟨prof.vint.enc obj.payload.length ++ obj.payload, ?_, ?_⟩
    · simp only [pushPayload, ne_eq, hnil, not_false_eq_true, if_true,
        pushVint_ok prof.vint (show (0 : Int) ≤ obj.payload.length by omega) (by omega), bind,
        Except.bind, pure, Except.pure, Int.toNat_natCast]
    · intro extensions pos
      refine (pullVint_reads prof.vint (by omega) pos).bind ?_
      rw [if_neg hlimit, if_neg hpos]
      exact (Reads.bytes _ obj.payload _).map fun payload => (ObjectStatus.normal, payload)

end Fields

/-! ## One object or marker -/

section Step

variable {prof : DraftProfile} (order : GroupOrder) {maxPayload : Nat} {obj : FetchObject}
  {last : Option FetchObject} {marked : Bool} {sent read : Option FetchObject}

theorem endOfRangeFlags_mem {marker : Nat} (h : marker ∈ endOfRangeFlags prof) :
    0x80 ≤ marker ∧ marker < 2 ^ 64 := by
  unfold endOfRangeFlags at h
  split_ifs at h <;>
    simp only [fetchFlagsEndNonExistent, fetchFlagsEndUnknown, fetchFlagsEndTimedOut,
      List.mem_cons, List.not_mem_nil, or_false] at h <;> omega

/-- An actual object is sent without fault and read back with its Subgroup ID as
`misread` says. -/
theorem serializeObject_reads (hvi64 : prof.vi64 = true) (hobj : obj.Sendable prof maxPayload)
    (hkind : obj.endOfRange = none)
    (hlast : ∀ prev, last = some prev → 0 ≤ prev.subgroupId)
    (hprior : PriorsAgree last marked sent read)
    (hsentLt : ∀ p, sent = some p → p.groupId < 2 ^ 64)
    (hfollows : ∀ p, sent = some p → Follows order p obj) :
    ∃ bytes got, obj.serializeD18 sent order prof = .ok bytes ∧
      (∀ pos, Reads (deserializeD18 read order prof maxPayload) pos bytes got) ∧
      bytes ≠ [] ∧ (SameObject obj got ↔ misread last marked obj = false) ∧
      (misread last marked obj = false →
        PriorsAgree (some obj) false (some (obj.sentPrior sent)) (some got)) := by
  have hbound := bound_vint hvi64
  obtain ⟨group, object, groupBytes, objectBytes, hloc, hgroupBytes, hobjectBytes, hfirst,
    hlocRead⟩ := locationFields_reads hvi64 hobj.group_lt hobj.object_lt hprior hsentLt hfollows
  obtain ⟨subBytes, subgroup, hsubBytes, hsubRead, hsubDatagram, hsub⟩ :=
    subgroupField_reads hvi64 (hobj.subgroup_nonneg hkind) (hobj.subgroup_lt hkind) hlast hprior
      (obj.flags sent group object) rfl rfl
  obtain ⟨prioBytes, hprioBytes, hprioRead⟩ := sendsPriority_reads
    (hobj.priority_nonneg hkind) (hobj.priority_lt hkind) hprior
  obtain ⟨propBytes, extensions, hpropBytes, hpropRead, hsameProps⟩ :=
    hasProps_reads (hobj.props_sendable hkind)
  obtain ⟨payBytes, hpayBytes, hpayRead⟩ := pushPayload_reads hvi64
    (hobj.status_normal hkind) (hobj.payload_lt hkind) (hobj.payload_le hkind)
  have hflagsLt := (obj.flags sent group object).toNat_lt
  have hflagsBound : (obj.flags sent group object).toNat < prof.vint.bound := by omega
  have hflags : pushVint prof.vint (obj.flags sent group object).toNat =
      .ok (prof.vint.enc (obj.flags sent group object).toNat) :=
    pushVint_ok prof.vint (by omega) (by omega)
  have hfault : obj.statusFault prof = none := by
    simp [statusFault, hobj.status_normal hkind]
  obtain ⟨hgroupRead, hobjectRead⟩ := hlocRead (obj.flags sent group object) rfl rfl
  refine ⟨prof.vint.enc (obj.flags sent group object).toNat ++ groupBytes ++ subBytes ++
    objectBytes ++ prioBytes ++ propBytes ++ payBytes,
    { groupId := obj.groupId, subgroupId := subgroup, objectId := obj.objectId
      publisherPriority := obj.publisherPriority, extensions, status := .normal
      payload := obj.payload, datagram := obj.datagram }, ?_, ?_, ?_, ?_, ?_⟩
  · simp only [serializeD18, hkind, serializeObject, hloc, hfault, hflags, hgroupBytes,
      hsubBytes, hobjectBytes, hprioBytes, hpropBytes, hpayBytes, bind, Except.bind, pure,
      Except.pure]
  · intro pos
    simp only [List.append_assoc]
    refine (pullVint_reads prof.vint hflagsBound pos).bind ?_
    rw [if_neg fun hmem => absurd (endOfRangeFlags_mem hmem).1 (by omega),
      if_neg (by omega), FetchFlags.ofNat_toNat]
    have hpresent : ¬ (read.isNone = true ∧
        (¬ (obj.flags sent group object).groupIdPresent = true ∨
          ¬ (obj.flags sent group object).objectIdPresent = true)) := by
      rintro ⟨hnone, hmissing⟩
      obtain ⟨hgroup, hobject⟩ := hfirst hnone
      simp [flags, hgroup, hobject] at hmissing
    simp only [deserializeObject, if_neg hpresent]
    refine (hgroupRead _).bind ((hsubRead _).bind ((hobjectRead _).bind
      ((hprioRead _ rfl _).bind ((hpropRead _ rfl _).bind ?_))))
    exact (hpayRead extensions _).map _
  · have hpos := prof.vint.length_enc_pos hflagsBound
    intro hnil
    simp only [List.append_eq_nil_iff] at hnil
    simp [hnil] at hpos
  · constructor
    · intro hsame
      cases hdatagram : obj.datagram with
      | true => cases last <;> simp [misread, hdatagram]
      | false => exact (hsub hdatagram).mp (hsame.subgroup hkind hdatagram)
    · intro hclear
      exact ⟨hkind.symm, rfl, rfl, fun _ => rfl, fun _ => hsameProps,
        fun _ => (hobj.status_normal hkind).symm, fun _ => rfl, fun _ => rfl,
        fun _ hdatagram => (hsub hdatagram).mpr hclear⟩
  · intro hclear
    have hprior' : obj.sentPrior sent = obj := by simp [sentPrior, hkind]
    rw [hprior']
    refine ⟨rfl, rfl, rfl, rfl, ?_, ?_⟩
    · simp only [priorSubgroup, sentSubgroup]
      cases obj.datagram <;> simp
    · simp only [readSubgroup]
      split
      · next hdatagram => exact hsubDatagram hdatagram
      · next hdatagram => exact (hsub (by simpa using hdatagram)).mpr hclear

/-- A marker is sent and read back; both sides keep the last object's Subgroup. -/
theorem serializeMarker_reads (hvi64 : prof.vi64 = true) (hobj : obj.Sendable prof maxPayload)
    {marker : Nat} (hkind : obj.endOfRange = some marker)
    (hprior : PriorsAgree last marked sent read) :
    ∃ bytes got, obj.serializeD18 sent order prof = .ok bytes ∧
      (∀ pos, Reads (deserializeD18 read order prof maxPayload) pos bytes got) ∧
      bytes ≠ [] ∧ SameObject obj got ∧
      PriorsAgree last true (some (obj.sentPrior sent)) (some got) := by
  have hbound := bound_vint hvi64
  have hmem := hobj.marker_mem hkind
  have hmarker := (endOfRangeFlags_mem hmem).2
  have hpush : ∀ {v : Nat}, v < 2 ^ 64 → pushVint prof.vint v = .ok (prof.vint.enc v) := by
    intro v hv
    exact pushVint_ok prof.vint (by omega) (by omega)
  refine ⟨prof.vint.enc marker ++ prof.vint.enc obj.groupId ++ prof.vint.enc obj.objectId,
    { groupId := obj.groupId, objectId := obj.objectId, endOfRange := some marker
      subgroupId := (read.map (·.subgroupId)).getD (-1)
      publisherPriority := (read.map (·.publisherPriority)).getD (-1) }, ?_, ?_, ?_, ?_, ?_⟩
  · simp only [serializeD18, hkind, serializeMarker, hmem, not_true_eq_false, if_false,
      hpush hmarker, hpush hobj.group_lt, hpush hobj.object_lt, bind, Except.bind, pure,
      Except.pure]
  · intro pos
    rw [List.append_assoc]
    refine (pullVint_reads prof.vint (by omega) pos).bind ?_
    rw [if_pos hmem]
    refine (pullVint_reads prof.vint (hbound ▸ hobj.group_lt) _).bind ?_
    exact (pullVint_reads prof.vint (hbound ▸ hobj.object_lt) _).map _
  · have hpos := prof.vint.length_enc_pos (show marker < prof.vint.bound by omega)
    intro hnil
    simp only [List.append_eq_nil_iff] at hnil
    simp [hnil] at hpos
  · have habsurd : ∀ {P : Prop}, obj.endOfRange = none → P := by
      intro P h
      simp [hkind] at h
    exact ⟨hkind.symm, rfl, rfl, habsurd, habsurd, habsurd, habsurd, habsurd, habsurd⟩
  · cases sent with
    | none =>
        cases read with
        | some read => exact hprior.elim
        | none =>
            have hnone : last = none := hprior
            subst hnone
            refine ⟨?_, ?_, ?_, ?_, ?_, ?_⟩ <;>
              simp [sentPrior, hkind, priorSubgroup, rawSubgroup, sentSubgroup, readSubgroup]
    | some sent =>
        cases read with
        | none => exact hprior.elim
        | some read =>
            have hagree : PriorAgrees last marked sent read := hprior
            refine ⟨?_, ?_, ?_, ?_, ?_, ?_⟩
            · simp [sentPrior, hkind]
            · simp [sentPrior, hkind]
            · simp [sentPrior, hkind, hagree.priority]
            · simp [sentPrior, hkind, hagree.raw]
            · simp only [sentPrior, hkind, priorSubgroup, Option.map_some, Option.getD_some,
                hagree.raw, Bool.false_eq_true, if_false]
              cases last <;> simp [rawSubgroup, sentSubgroup]
            · simpa using hagree.subgroup

end Step

/-! ## Whole streams -/

section Stream

variable {prof : DraftProfile} {order : GroupOrder} {maxPayload : Nat}

theorem sentPrior_location (obj : FetchObject) (sent : Option FetchObject) :
    (obj.sentPrior sent).groupId = obj.groupId ∧ (obj.sentPrior sent).objectId = obj.objectId := by
  unfold sentPrior
  split <;> exact ⟨rfl, rfl⟩

theorem sentPrior_follows {obj next : FetchObject} (sent : Option FetchObject)
    (h : Follows order obj next) : Follows order (obj.sentPrior sent) next := by
  obtain ⟨hgroup, hobject⟩ := obj.sentPrior_location sent
  unfold Follows
  rwa [hgroup, hobject]

/-- The prior a receiver that read `obj` right would have. -/
theorem priorsAgree_sent {obj : FetchObject} (hkind : obj.endOfRange = none)
    (sent : Option FetchObject) :
    PriorsAgree (some obj) false (some (obj.sentPrior sent))
      (some { obj with subgroupId := readSubgroup (some obj) }) := by
  have hsent : obj.sentPrior sent = obj := by simp [sentPrior, hkind]
  rw [hsent]
  refine ⟨rfl, rfl, rfl, rfl, ?_, rfl⟩
  simp only [priorSubgroup, sentSubgroup]
  cases obj.datagram <;> simp

/-- One decoded object in front of a stream. -/
theorem fetchStream_cons {read : Option FetchObject} {bytes rest : Bytes} {got : FetchObject}
    (hread : ∀ pos, Reads (deserializeD18 read order prof maxPayload) pos bytes got)
    (hne : bytes ≠ []) {fuel : Nat} (hfuel : (bytes ++ rest).length ≤ fuel) (pos : Nat) :
    ∃ fuel', rest.length ≤ fuel' ∧
      fetchStream prof order maxPayload fuel read ⟨pos, bytes ++ rest⟩ =
        (fetchStream prof order maxPayload fuel' (some got) ⟨pos + bytes.length, rest⟩).map
          (got :: ·) := by
  have hpos : 0 < bytes.length := List.length_pos_iff.mpr hne
  simp only [List.length_append] at hfuel
  obtain ⟨fuel, rfl⟩ : ∃ k, fuel = k + 1 := ⟨fuel - 1, by omega⟩
  refine ⟨fuel, by omega, ?_⟩
  rw [fetchStream]
  rw [if_neg (by simp [hne])]
  simp only [hread pos rest, bind, Except.bind]
  cases fetchStream prof order maxPayload fuel (some got) ⟨pos + bytes.length, rest⟩ <;> rfl

/-- Comparing a stream with one that has an object decoded in front. -/
theorem sameStream_cons {obj got : FetchObject} {objects : List FetchObject}
    {rest : Except MoqtError (List FetchObject)} :
    (∃ out, rest.map (got :: ·) = .ok out ∧ List.Forall₂ SameObject (obj :: objects) out) ↔
      SameObject obj got ∧ ∃ out, rest = .ok out ∧ List.Forall₂ SameObject objects out := by
  cases rest with
  | error e => simp [Except.map]
  | ok out => simp [Except.map]

/-- From agreeing priors: the stream is written, and it is read back as it was
sent exactly when no Subgroup ID of it is misread. -/
theorem fetchStream_serveFetch (hvi64 : prof.vi64 = true) {objects : List FetchObject}
    (hvalid : ∀ obj ∈ objects, obj.Sendable prof maxPayload)
    (hchain : objects.IsChain (Follows order)) :
    ∀ {last : Option FetchObject} {marked : Bool} {sent read : Option FetchObject},
      (∀ prev, last = some prev → 0 ≤ prev.subgroupId) → PriorsAgree last marked sent read →
      (∀ p, sent = some p → p.groupId < 2 ^ 64) →
      (∀ p, sent = some p → ∀ obj ∈ objects.head?, Follows order p obj) →
      ∃ bytes, serveFetch prof order sent objects = .ok bytes ∧
        ∀ fuel pos, bytes.length ≤ fuel →
          ((∃ out, fetchStream prof order maxPayload fuel read ⟨pos, bytes⟩ = .ok out ∧
              List.Forall₂ SameObject objects out) ↔
            misreads last marked objects = false) := by
  induction objects with
  | nil =>
      intro last marked sent read _ _ _ _
      refine ⟨[], rfl, ?_⟩
      intro fuel pos _
      refine iff_of_true ⟨[], ?_, .nil⟩ rfl
      unfold fetchStream
      simp
  | cons obj objects ih =>
      intro last marked sent read hlast hprior hsentLt hfollows
      have hobj := hvalid obj (by simp)
      have htail : ∀ o ∈ objects, o.Sendable prof maxPayload :=
        fun o ho => hvalid o (by simp [ho])
      have hchainTail : objects.IsChain (Follows order) := hchain.tail
      have hsentLt' : ∀ p, some (obj.sentPrior sent) = some p → p.groupId < 2 ^ 64 := by
        rintro p ⟨rfl⟩
        rw [(obj.sentPrior_location sent).1]
        exact hobj.group_lt
      have hfollows' : ∀ p, some (obj.sentPrior sent) = some p →
          ∀ o ∈ objects.head?, Follows order p o := by
        rintro p ⟨rfl⟩ o ho
        refine sentPrior_follows sent ?_
        cases objects with
        | nil => simp at ho
        | cons next objects =>
            simp only [List.head?_cons, Option.mem_def, Option.some.injEq] at ho
            subst ho
            exact (List.isChain_cons_cons.mp hchain).1
      have hskip : ¬ (¬ prof.fetchObjectStatus = true ∧ obj.endOfRange = none ∧
          obj.status ≠ .normal) := by
        rintro ⟨-, hkind, hstatus⟩
        exact hstatus (hobj.status_normal hkind)
      cases hkind : obj.endOfRange with
      | some marker =>
          obtain ⟨bytes, got, hbytes, hread, hne, hsame, hprior'⟩ :=
            serializeMarker_reads order hvi64 hobj hkind hprior
          obtain ⟨rest, hrest, hiff⟩ := ih htail hchainTail hlast hprior' hsentLt' hfollows'
          refine ⟨bytes ++ rest, ?_, ?_⟩
          · simp only [serveFetch, if_neg hskip, hbytes, hrest, bind, Except.bind, pure,
              Except.pure]
          · intro fuel pos hfuel
            obtain ⟨fuel', hfuel', hstep⟩ := fetchStream_cons hread hne hfuel pos
            rw [hstep, sameStream_cons, hiff fuel' (pos + bytes.length) hfuel']
            simp [misreads, hkind, hsame]
      | none =>
          obtain ⟨bytes, got, hbytes, hread, hne, hsame, hprior'⟩ :=
            serializeObject_reads order hvi64 hobj hkind hlast hprior hsentLt
              (fun p hp => hfollows p hp obj (by simp))
          have hlast' : ∀ prev, some obj = some prev → 0 ≤ prev.subgroupId := by
            rintro prev ⟨rfl⟩
            exact hobj.subgroup_nonneg hkind
          by_cases hclear : misread last marked obj = false
          · obtain ⟨rest, hrest, hiff⟩ :=
              ih htail hchainTail hlast' (hprior' hclear) hsentLt' hfollows'
            refine ⟨bytes ++ rest, ?_, ?_⟩
            · simp only [serveFetch, if_neg hskip, hbytes, hrest, bind, Except.bind, pure,
                Except.pure]
            · intro fuel pos hfuel
              obtain ⟨fuel', hfuel', hstep⟩ := fetchStream_cons hread hne hfuel pos
              rw [hstep, sameStream_cons, hiff fuel' (pos + bytes.length) hfuel', hsame]
              simp [misreads, hkind, hclear]
          · -- the sender goes on whatever the receiver made of the object
            obtain ⟨rest, hrest, -⟩ :=
              ih htail hchainTail hlast' (priorsAgree_sent hkind sent) hsentLt' hfollows'
            refine ⟨bytes ++ rest, ?_, ?_⟩
            · simp only [serveFetch, if_neg hskip, hbytes, hrest, bind, Except.bind, pure,
                Except.pure]
            · intro fuel pos hfuel
              obtain ⟨fuel', -, hstep⟩ := fetchStream_cons hread hne hfuel pos
              rw [hstep, sameStream_cons, hsame]
              simp [misreads, hkind, hclear]

/-- A stream from its first object on. -/
theorem fetchStream_serveFetch_start (hvi64 : prof.vi64 = true) {objects : List FetchObject}
    (hvalid : ∀ obj ∈ objects, obj.Sendable prof maxPayload)
    (hchain : objects.IsChain (Follows order)) :
    (∃ bytes out, serveFetch prof order none objects = .ok bytes ∧
        fetchStream prof order maxPayload bytes.length none ⟨0, bytes⟩ = .ok out ∧
        List.Forall₂ SameObject objects out) ↔ misreads none false objects = false := by
  have hstart : PriorsAgree none false none none := rfl
  obtain ⟨bytes, hbytes, hiff⟩ := fetchStream_serveFetch hvi64 hvalid hchain (by simp) hstart
    (by simp) (by simp)
  rw [← hiff bytes.length 0 le_rfl]
  constructor
  · rintro ⟨bytes', out, hbytes', hout, hsame⟩
    rw [hbytes] at hbytes'
    cases hbytes'
    exact ⟨out, hout, hsame⟩
  · rintro ⟨out, hout, hsame⟩
    exact ⟨bytes, out, hbytes, hout, hsame⟩

end Stream

/-- A FETCH stream of any draft with `vi64` integers, in either group order, is
written without fault and read back object by object, if and only if no Subgroup
ID of it is coded against a datagram's own `subgroup_id` across a marker. -/
theorem fetch_stream_round_trip (draft : Draft) (hvi64 : (profileFor draft).vi64 = true)
    (order : GroupOrder) (maxPayload : Nat) (objects : List FetchObject)
    (hvalid : ∀ obj ∈ objects, obj.Sendable (profileFor draft) maxPayload)
    (hchain : objects.IsChain (Follows order)) :
    (∃ bytes out, serveFetch (profileFor draft) order none objects = .ok bytes ∧
        fetchStream (profileFor draft) order maxPayload bytes.length none ⟨0, bytes⟩ = .ok out ∧
        List.Forall₂ SameObject objects out) ↔ misreads none false objects = false :=
  fetchStream_serveFetch_start hvi64 hvalid hchain

/-- A plain object without properties is sendable. -/
theorem sendable_plain {prof : DraftProfile} {obj : FetchObject} (hgroup : obj.groupId < 2 ^ 64)
    (hobject : obj.objectId < 2 ^ 64) (hkind : obj.endOfRange = none)
    (hsubgroup : 0 ≤ obj.subgroupId ∧ obj.subgroupId < 2 ^ 64)
    (hpriority : 0 ≤ obj.publisherPriority ∧ obj.publisherPriority < 256)
    (hstatus : obj.status = .normal) (hprops : obj.extensions = none)
    (hpayload : obj.payload.length < 2 ^ 64) : obj.Sendable prof 0 where
  group_lt := hgroup
  object_lt := hobject
  marker_mem := by simp [hkind]
  subgroup_nonneg := fun _ => hsubgroup.1
  subgroup_lt := fun _ => hsubgroup.2
  priority_nonneg := fun _ => hpriority.1
  priority_lt := fun _ => hpriority.2
  status_normal := fun _ => hstatus
  props_sendable := by simp [hprops]
  payload_lt := fun _ => hpayload
  payload_le := fun _ h => absurd rfl h

theorem sendable_marker {prof : DraftProfile} {obj : FetchObject} {marker maxPayload : Nat}
    (hgroup : obj.groupId < 2 ^ 64) (hobject : obj.objectId < 2 ^ 64)
    (hkind : obj.endOfRange = some marker) (hmem : marker ∈ endOfRangeFlags prof) :
    obj.Sendable prof maxPayload where
  group_lt := hgroup
  object_lt := hobject
  marker_mem := by
    intro m hm
    rw [hkind] at hm
    cases hm
    exact hmem
  subgroup_nonneg := by simp [hkind]
  subgroup_lt := by simp [hkind]
  priority_nonneg := by simp [hkind]
  priority_lt := by simp [hkind]
  status_normal := by simp [hkind]
  props_sendable := by simp [hkind]
  payload_lt := by simp [hkind]
  payload_le := by simp [hkind]

/-- A datagram, a marker and an object of subgroup `subgroup`. -/
def markedDatagram (subgroup : Int) : List FetchObject :=
  [{ groupId := 3, objectId := 1, subgroupId := 5, datagram := true, payload := [1] },
    { groupId := 3, objectId := 7, endOfRange := some fetchFlagsEndNonExistent },
    { groupId := 3, objectId := 8, subgroupId := subgroup, payload := [2] }]

theorem markedDatagram_sendable {subgroup : Int} (h : 0 ≤ subgroup ∧ subgroup < 2 ^ 64) :
    ∀ obj ∈ markedDatagram subgroup, obj.Sendable (profileFor .d18) 0 := by
  intro obj hobj
  simp only [markedDatagram, List.mem_cons, List.not_mem_nil, or_false] at hobj
  rcases hobj with rfl | rfl | rfl
  · exact sendable_plain (by decide) (by decide) rfl (by decide) (by decide) rfl rfl (by decide)
  · exact sendable_marker (by decide) (by decide) rfl (by decide)
  · exact sendable_plain (by simp) (by simp) rfl h (by simp) rfl rfl (by simp)

theorem markedDatagram_follows (subgroup : Int) :
    (markedDatagram subgroup).IsChain (Follows .ascending) := by
  simp [markedDatagram, Follows]

theorem fetch_stream_round_trip_markedDatagram :
    misreads none false (markedDatagram 9) = false ∧
    ∃ bytes out, serveFetch (profileFor .d18) .ascending none (markedDatagram 9) = .ok bytes ∧
      fetchStream (profileFor .d18) .ascending 0 bytes.length none ⟨0, bytes⟩ = .ok out ∧
      List.Forall₂ SameObject (markedDatagram 9) out :=
  ⟨by decide, (fetch_stream_round_trip .d18 rfl .ascending 0 (markedDatagram 9)
    (markedDatagram_sendable (by decide)) (markedDatagram_follows 9)).mpr (by decide)⟩

/-- Subgroup 5 behind a marker behind a datagram of `subgroup_id` 5 is read as 0. -/
theorem fetch_stream_misread_markedDatagram :
    ¬ ∀ (draft : Draft), (profileFor draft).vi64 = true →
      ∀ (order : GroupOrder) (maxPayload : Nat) (objects : List FetchObject),
        (∀ obj ∈ objects, obj.Sendable (profileFor draft) maxPayload) →
        objects.IsChain (Follows order) →
        ∃ bytes out, serveFetch (profileFor draft) order none objects = .ok bytes ∧
          fetchStream (profileFor draft) order maxPayload bytes.length none ⟨0, bytes⟩ =
            .ok out ∧ List.Forall₂ SameObject objects out := by
  intro h
  have hvalid := markedDatagram_sendable (show (0 : Int) ≤ 5 ∧ (5 : Int) < 2 ^ 64 by decide)
  have hsame := h .d18 rfl .ascending 0 (markedDatagram 5) hvalid (markedDatagram_follows 5)
  rw [fetchStream_serveFetch_start rfl hvalid (markedDatagram_follows 5)] at hsame
  exact absurd hsame (by decide)

end FetchObject

end AioMoqt.Messages
