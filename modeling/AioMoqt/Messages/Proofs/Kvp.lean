import AioMoqt.Messages.Base

/-!
# Key-Value-Pair blocks read back

A delta-coded block that the encoder writes is read back pair by pair; the
decoded dictionary is the encoded one, in ascending order of its types.
-/

namespace AioMoqt.Messages

open AioMoqt.Lib AioMoqt.Lib.BigEndian
open AioMoqt.Lib.Reader (Reads)

section Kvp

variable {code : PrefixCode}

/-- A value its type can carry and the decoder accepts. -/
def ValueFits (code : PrefixCode) (extId : Nat) : KvpValue → Prop
  | .int v => extId % 2 = 0 ∧ v < code.bound
  | .bytes v => extId % 2 = 1 ∧ v.length ≤ kvpValueMax

/-- Properties within the decoder's limits. -/
structure KeyValuePairs.Sendable (code : PrefixCode) (kvps : KeyValuePairs) : Prop where
  type_le : ∀ e ∈ kvps.dict.entries, e.1 ≤ kvpTypeMax
  type_lt : ∀ e ∈ kvps.dict.entries, e.1 < code.bound
  value_fits : ∀ e ∈ kvps.dict.entries, ValueFits code e.1 e.2
  length_le : ∀ payload, pushKvps code true 0 kvps.dict.sorted = .ok payload →
    payload.length ≤ extensionsLenLimit

theorem pushKvpValue_reads (hcode : 2 ^ 62 ≤ code.bound) {extId : Nat} {value : KvpValue}
    (hfits : ValueFits code extId value) :
    ∃ body, pushKvpValue code extId value = .ok body ∧
      ∀ mode extsEnd pos, pos + body.length ≤ extsEnd →
        Reads (pullKvpValue code mode extsEnd extId) pos body value := by
  cases value with
  | int v =>
      obtain ⟨heven, hv⟩ := hfits
      refine ⟨code.enc v, ?_, ?_⟩
      · simp only [pushKvpValue, if_pos heven]
        exact pushVint_ok code (by omega) (by omega)
      · intro mode extsEnd pos _
        simp only [pullKvpValue, if_pos heven]
        exact (pullVint_reads code hv pos).map KvpValue.int
  | bytes v =>
      obtain ⟨hodd, hlen⟩ := hfits
      have hbound : v.length < code.bound := by
        simp only [kvpValueMax] at hlen
        omega
      have hpush : pushVint code v.length = .ok (code.enc v.length) :=
        pushVint_ok code (by omega) (by omega)
      refine ⟨code.enc v.length ++ v, ?_, ?_⟩
      · simp only [pushKvpValue, if_neg (show ¬ extId % 2 = 0 by omega), hpush, bind,
          Except.bind, pure, Except.pure]
      · intro mode extsEnd pos hend
        simp only [List.length_append] at hend
        have hbytes : Reads (pullKvpBytes code mode extsEnd extId) pos
            (code.enc v.length ++ v) v := by
          refine (pullVint_reads code hbound pos).bind ?_
          refine Reads.bind_nil (Reads.tell _) ?_
          rw [if_neg (by omega), if_neg (by omega)]
          exact Reads.bytes _ v _
        simp only [pullKvpValue, if_neg (show ¬ extId % 2 = 0 by omega)]
        exact hbytes.map KvpValue.bytes

/-- One pair; a delta-coded type follows the one before it. -/
theorem pushKvp_reads (hcode : 2 ^ 62 ≤ code.bound) {delta : Bool} {extId prev : Nat}
    {value : KvpValue} (hprev : delta = true → prev ≤ extId) (hle : extId ≤ kvpTypeMax)
    (hlt : extId < code.bound) (hfits : ValueFits code extId value) :
    ∃ type body, pushVint code (if delta then (extId : Int) - prev else extId) = .ok type ∧
      pushKvpValue code extId value = .ok body ∧ 0 < type.length ∧
      ∀ mode extsEnd pos, mode.delta = delta → pos + (type ++ body).length ≤ extsEnd →
        Reads (pullKvp code mode extsEnd prev) pos (type ++ body) (extId, value) := by
  have hdelta : (if delta then extId - prev else extId) < code.bound := by
    split <;> omega
  have hpush : pushVint code (if delta then (extId : Int) - prev else extId) =
      .ok (code.enc (if delta then extId - prev else extId)) := by
    cases delta with
    | false => exact pushVint_ok code (by simp) (by simpa using hlt)
    | true =>
        simp only [if_true] at hdelta ⊢
        rw [← Nat.cast_sub (hprev rfl)]
        exact pushVint_ok code (by omega) (by omega)
  obtain ⟨body, hbody, hreads⟩ := pushKvpValue_reads hcode hfits
  refine ⟨code.enc (if delta then extId - prev else extId), body, hpush, hbody,
    code.length_enc_pos hdelta, ?_⟩
  intro mode extsEnd pos hmode hend
  simp only [List.length_append] at hend
  refine (pullVint_reads code hdelta pos).bind ?_
  have htype : (if mode.delta = true then (if delta then extId - prev else extId) + prev
      else if delta then extId - prev else extId) = extId := by
    rw [hmode]
    cases delta with
    | false => rfl
    | true => exact Nat.sub_add_cancel (hprev rfl)
  simp only [htype]
  rw [if_neg (by omega)]
  exact (hreads mode extsEnd _ (by omega)).map (Prod.mk extId)

theorem KeyValuePairs.put_new {kvps : KeyValuePairs} {extId : Nat} (value : KvpValue)
    (h : extId ∉ kvps.dict.keys) :
    (kvps.put extId value).dict.entries = kvps.dict.entries ++ [(extId, value)] ∧
      (kvps.put extId value).duplicates = kvps.duplicates := by
  refine ⟨Dict.insert_new value h, ?_⟩
  simp [put, h]

/-- A block of distinct types, delta-coded ones ascending, from any position and any pairs read
before. -/
theorem pullKvps_pushKvps (hcode : 2 ^ 62 ≤ code.bound) {delta : Bool}
    {es : List (Nat × KvpValue)} :
    ∀ {prev : Nat}, (delta = true → ∀ e ∈ es, prev ≤ e.1) → (es.map Prod.fst).Nodup →
      (delta = true → (es.map Prod.fst).Pairwise (· < ·)) →
      (∀ e ∈ es, e.1 ≤ kvpTypeMax ∧ e.1 < code.bound ∧ ValueFits code e.1 e.2) →
      ∃ payload, pushKvps code delta prev es = .ok payload ∧
        ∀ {kvps : KeyValuePairs}, (∀ e ∈ es, e.1 ∉ kvps.dict.keys) → ∃ out,
          out.dict.entries = kvps.dict.entries ++ es ∧ out.duplicates = kvps.duplicates ∧
          ∀ mode fuel pos, mode.delta = delta → payload.length ≤ fuel →
            Reads (pullKvps code mode (pos + payload.length) fuel prev kvps)
              pos payload out := by
  induction es with
  | nil =>
      intro prev _ _ _ _
      refine ⟨[], rfl, ?_⟩
      intro kvps _
      refine ⟨kvps, by simp, rfl, ?_⟩
      intro mode fuel pos _ _ rest
      cases fuel with
      | zero => rfl
      | succ fuel => simp [pullKvps]
  | cons e es ih =>
      intro prev hprev hnodup hsorted hfits
      obtain ⟨extId, value⟩ := e
      simp only [List.map_cons, List.pairwise_cons, List.mem_map, forall_exists_index, and_imp,
        forall_apply_eq_imp_iff₂] at hsorted
      rw [List.map_cons, List.nodup_cons] at hnodup
      obtain ⟨hle, hlt, hvalue⟩ := hfits (extId, value) (by simp)
      obtain ⟨type, body, htype, hbody, hpos, hread⟩ :=
        pushKvp_reads hcode (fun h => hprev h (extId, value) (by simp)) hle hlt hvalue
      obtain ⟨tail, htail, hrest⟩ := ih (fun h e he => ((hsorted h).1 e he).le) hnodup.2
        (fun h => (hsorted h).2) (fun e he => hfits e (by simp [he]))
      refine ⟨type ++ body ++ tail, ?_, ?_⟩
      · simp only [pushKvps, htype, hbody, htail, bind, Except.bind, pure, Except.pure]
      · intro kvps hkeys
        have hnew : extId ∉ kvps.dict.keys := hkeys (extId, value) (by simp)
        obtain ⟨hentries, hdups⟩ := KeyValuePairs.put_new value hnew
        have hkeys' : ∀ e ∈ es, e.1 ∉ (kvps.put extId value).dict.keys := by
          intro e he hmem
          simp only [Dict.keys, hentries, List.map_append, List.map_cons, List.map_nil,
            List.mem_append, List.mem_singleton] at hmem
          rcases hmem with hmem | hmem
          · exact hkeys e (by simp [he]) hmem
          · exact hnodup.1 (List.mem_map.mpr ⟨e, he, hmem⟩)
        obtain ⟨out, houtEntries, houtDups, hout⟩ := hrest hkeys'
        refine ⟨out, by rw [houtEntries, hentries]; simp, houtDups.trans hdups, ?_⟩
        intro mode fuel pos hmode hfuel rest
        simp only [List.length_append] at hfuel
        obtain ⟨fuel, rfl⟩ : ∃ k, fuel = k + 1 := ⟨fuel - 1, by omega⟩
        have hone := hread mode (pos + (type ++ body ++ tail).length) pos hmode
          (by simp only [List.length_append]; omega) (tail ++ rest)
        have hmore := hout mode fuel (pos + (type ++ body).length) hmode (by omega) rest
        have hstop : pos + (type ++ body).length + tail.length =
            pos + (type ++ body ++ tail).length := by
          simp only [List.length_append]
          omega
        rw [hstop] at hmore
        rw [List.append_assoc (type ++ body)]
        unfold pullKvps
        rw [if_neg (by simp only [List.length_append]; omega), hone]
        simp only
        rw [if_neg (by simp only [List.length_append]; omega)]
        exact hmore

/-- The pairs in the order they are coded. -/
def KeyValuePairs.coded (kvps : KeyValuePairs) (delta : Bool) : List (Nat × KvpValue) :=
  if delta then kvps.dict.sorted else kvps.dict.entries

theorem KeyValuePairs.coded_perm (kvps : KeyValuePairs) (delta : Bool) :
    (kvps.coded delta).Perm kvps.dict.entries := by
  unfold coded
  split
  · exact kvps.dict.sorted_perm
  · exact List.Perm.refl _

/-- A block within the decoder's limits, delta-coded or not. -/
structure KeyValuePairs.Codable (code : PrefixCode) (delta : Bool) (kvps : KeyValuePairs) :
    Prop where
  type_le : ∀ e ∈ kvps.dict.entries, e.1 ≤ kvpTypeMax
  type_lt : ∀ e ∈ kvps.dict.entries, e.1 < code.bound
  value_fits : ∀ e ∈ kvps.dict.entries, ValueFits code e.1 e.2
  length_le : ∀ payload, pushKvps code delta 0 (kvps.coded delta) = .ok payload →
    payload.length ≤ extensionsLenLimit

theorem KeyValuePairs.Sendable.codable {kvps : KeyValuePairs} (hsend : kvps.Sendable code) :
    kvps.Codable code true :=
  ⟨hsend.type_le, hsend.type_lt, hsend.value_fits, hsend.length_le⟩

/-- A block behind its length, decoded. -/
theorem extensionsEncode_decode (hcode : 2 ^ 62 ≤ code.bound) {delta : Bool} {kvps : KeyValuePairs}
    (hne : kvps.dict.entries ≠ []) (hsend : kvps.Codable code delta) :
    ∃ bytes out, extensionsEncode code (some kvps) true delta = .ok bytes ∧
      (∀ pos, Reads (extensionsDecode code delta) pos bytes (some out)) ∧
      out.dict.Same kvps.dict ∧ out.duplicates = [] := by
  have hperm := kvps.coded_perm delta
  have hmem : ∀ e ∈ kvps.coded delta, e ∈ kvps.dict.entries := fun e he => (hperm.mem_iff).mp he
  have hnodup : ((kvps.coded delta).map Prod.fst).Nodup :=
    ((hperm.map Prod.fst).nodup_iff).mpr kvps.dict.nodup
  have hsorted : delta = true → ((kvps.coded delta).map Prod.fst).Pairwise (· < ·) := by
    rintro rfl
    exact kvps.dict.sorted_strict
  obtain ⟨payload, hpayload, hread⟩ := pullKvps_pushKvps hcode
    (fun _ _ _ => Nat.zero_le _) hnodup hsorted
    (fun e he => ⟨hsend.type_le e (hmem e he), hsend.type_lt e (hmem e he),
      hsend.value_fits e (hmem e he)⟩)
  have hlen := hsend.length_le payload hpayload
  have hlimit : payload.length < code.bound := by
    simp only [extensionsLenLimit] at hlen
    omega
  have hcodedNe : kvps.coded delta ≠ [] := by
    intro hnil
    rw [hnil] at hperm
    exact hne hperm.nil_eq.symm
  obtain ⟨out, hentries, hdups, hout⟩ :=
    @hread ⟨.empty, []⟩ (by simp [Dict.keys, Dict.empty])
  have houtNe : out.dict.entries ≠ [] := by
    rw [hentries]
    simpa [Dict.empty] using hcodedNe
  have hpayloadNe : payload.length ≠ 0 := by
    intro hzero
    have hstop := hout { delta } 0 0 rfl hzero.le []
    have hnone := (Reader.pure_eq_ok.mp hstop).1
    rw [← hnone] at houtNe
    exact houtNe rfl
  have hpairs : (if delta then kvps.dict.sorted else kvps.dict.entries) = kvps.coded delta := rfl
  refine ⟨code.enc payload.length ++ payload, out, ?_, ?_, ?_, hdups⟩
  · simp only [extensionsEncode, if_neg hne, if_true, hpairs, hpayload, bind, Except.bind,
      pushVint_ok code (show (0 : Int) ≤ payload.length by omega) (by omega), pure, Except.pure,
      Int.toNat_natCast]
  · intro pos
    refine Reads.bind_nil (Reads.tell _) ?_
    refine (pullVint_reads code hlimit pos).bind ?_
    rw [if_neg (Nat.not_lt.mpr hlen), if_neg hpayloadNe]
    refine Reads.bind_nil (Reads.tell _) ?_
    have hblock := (hout { delta } payload.length (pos + (code.enc payload.length).length) rfl le_rfl).map
      KeyValuePairs.orNone
    simpa only [KeyValuePairs.orNone, if_neg houtNe] using hblock
  · refine Dict.same_of_perm ?_
    rw [hentries]
    simpa [Dict.empty] using hperm

/-- A sendable block behind its length, decoded. -/
theorem extensionsEncode_reads (hcode : 2 ^ 62 ≤ code.bound) {kvps : KeyValuePairs}
    (hne : kvps.dict.entries ≠ []) (hsend : kvps.Sendable code) :
    ∃ bytes out, extensionsEncode code (some kvps) true true = .ok bytes ∧
      (∀ pos, Reads (extensionsDecode code true) pos bytes (some out)) ∧
      out.dict.Same kvps.dict ∧ out.duplicates = [] :=
  extensionsEncode_decode hcode hne hsend.codable

/-- An empty block decodes as none. -/
theorem extensionsEncode_none_reads (hcode : 2 ^ 62 ≤ code.bound) (encDelta delta : Bool)
    {exts : Option KeyValuePairs} (hempty : ∀ kvps ∈ exts, kvps.dict.entries = []) :
    extensionsEncode code exts true encDelta = .ok (code.enc 0) ∧
      ∀ pos, Reads (extensionsDecode code delta) pos (code.enc 0) none := by
  have hzero : pushVint code 0 = .ok (code.enc 0) :=
    pushVint_ok code le_rfl (by omega)
  refine ⟨?_, ?_⟩
  · cases exts with
    | none => exact hzero
    | some kvps => simp only [extensionsEncode, if_pos (hempty kvps rfl), if_true, hzero]
  · intro pos
    refine Reads.bind_nil (Reads.tell _) ?_
    refine (pullVint_reads code (show 0 < code.bound by omega) pos).bind_last ?_
    rw [if_neg (Nat.not_lt_zero _), if_pos rfl]
    exact Reads.pure _ _

end Kvp

end AioMoqt.Messages
