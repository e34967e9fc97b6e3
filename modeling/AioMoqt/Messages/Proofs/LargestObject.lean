import AioMoqt.Messages.Namespace
import AioMoqt.Messages.Publish
import AioMoqt.Messages.Proofs.Kvp
import AioMoqt.Messages.Proofs.ParamBlocks

/-!
# LARGEST_OBJECT of draft 18

The Location is written as two bare integers, and a peer may put a length before them.  The
simplified grammar that decides between the two readings accepts the rest of every message
the encoder writes, so its Location is always read inline.
-/

namespace AioMoqt.Messages

open AioMoqt.Lib AioMoqt.Lib.BigEndian AioMoqt.Lib.Reader

/-! ## The rest of the message in the simplified grammar -/

section Suffix

variable {prof : DraftProfile} {bufEnd : Nat}

theorem skipSized_reads {bs raw : Bytes} (h : pushSized prof raw = .ok bs) {pos : Nat}
    (hend : pos + bs.length ≤ bufEnd) : Reads (skipSized prof bufEnd) pos bs () := by
  obtain ⟨len, hlen, h⟩ := except_bind_eq_ok.mp h
  cases h
  rw [List.length_append] at hend
  apply (pullVint_reads_of hlen pos).bind
  apply Reads.tell_bind
  apply Reads.guard (by omega)
  exact (Reads.bytes _ raw _).map fun _ => ()

/-- The parity of a type and the lists of the draft give the form of its value. -/
theorem d18_kind_shape {ptype : Nat} {kind : ParamKind}
    (h : paramKind (profileFor .d18) ptype = some kind) (hnotNs : ptype ≠ 0x34) :
    (kind = .location ∧ ptype = 0x09) ∨
      (kind = .bytes ∧ ptype ≠ 0x09 ∧ ptype % 2 = 1) ∨
      (kind = .uint8 ∧ ptype ≠ 0x09 ∧ ptype % 2 = 0 ∧ ptype ∈ [0x10, 0x20, 0x22]) ∨
      (kind = .varint ∧ ptype ≠ 0x09 ∧ ptype % 2 = 0 ∧ ptype ∉ [0x10, 0x20, 0x22]) := by
  have hlookup : d18ParamKinds.lookup ptype = some kind := by
    simpa [paramKind, profileFor] using h
  obtain ⟨before, after, hsplit, _⟩ := List.lookup_eq_some_iff.mp hlookup
  have hmem : (ptype, kind) ∈ d18ParamKinds := by
    rw [hsplit]
    simp
  simp only [d18ParamKinds, List.mem_cons, Prod.mk.injEq, List.not_mem_nil, or_false] at hmem
  rcases hmem with ⟨rfl, rfl⟩ | ⟨rfl, rfl⟩ | ⟨rfl, rfl⟩ | ⟨rfl, rfl⟩ | ⟨rfl, rfl⟩ | ⟨rfl, rfl⟩ |
    ⟨rfl, rfl⟩ | ⟨rfl, rfl⟩ | ⟨rfl, rfl⟩ | ⟨rfl, rfl⟩ | ⟨rfl, rfl⟩ | ⟨rfl, rfl⟩ | ⟨rfl, rfl⟩
  all_goals first | exact absurd rfl hnotNs | decide

theorem pushBytesValue_sized {ptype : Nat} {value : PlainValue} {bs : Bytes}
    (h : pushBytesValue prof ptype value = .ok bs) : ∃ raw, pushSized prof raw = .ok bs := by
  unfold pushBytesValue at h
  split at h
  · obtain ⟨raw, _, hsized⟩ := except_bind_eq_ok.mp h
    exact ⟨raw, hsized⟩
  · split at h
    · next raw => exact ⟨raw, h⟩
    · cases h

/-- The simplified grammar takes what a parameter of draft 18 is written as. -/
theorem skipParamValue_reads {ptype : Nat} {value : PlainValue} {bs : Bytes}
    (h : pushPlainValue (profileFor .d18) ptype value = .ok bs) (hnotNs : ptype ≠ 0x34) {pos : Nat}
    (hend : pos + bs.length ≤ bufEnd) :
    Reads (skipParamValue (profileFor .d18) bufEnd ptype) pos bs () := by
  unfold pushPlainValue at h
  rw [if_pos (by decide)] at h
  unfold skipParamValue
  have hlocs : (profileFor .d18).locationParams = [0x09] := rfl
  have hbytes : (profileFor .d18).uint8Params = [0x10, 0x20, 0x22] := rfl
  cases hkind : paramKind (profileFor .d18) ptype with
  | none => simp [hkind] at h
  | some kind =>
      simp only [hkind] at h
      rw [hlocs, hbytes]
      rcases d18_kind_shape hkind hnotNs with ⟨rfl, rfl⟩ | ⟨rfl, hloc, hodd⟩ |
        ⟨rfl, hloc, heven, hmem⟩ | ⟨rfl, hloc, heven, hmem⟩
      · rw [if_pos (by decide)]
        cases value with
        | location group object =>
            obtain ⟨head, hhead, h⟩ := except_bind_eq_ok.mp h
            obtain ⟨tail, htail, h⟩ := except_bind_eq_ok.mp h
            cases h
            refine Reads.map (a := (group, object)) ?_ fun _ => ()
            exact (pullVint_reads_of hhead pos).bind ((pullVint_reads_of htail _).map _)
        | _ => cases h
      · rw [if_neg (by simpa using hloc), if_pos hodd]
        have hpush : pushBytesValue (profileFor .d18) ptype value = .ok bs := by
          cases value <;> exact h
        obtain ⟨raw, hsized⟩ := pushBytesValue_sized hpush
        exact skipSized_reads hsized hend
      · rw [if_neg (by simpa using hloc), if_neg (by omega), if_pos hmem]
        cases value with
        | int v => exact (pullUint8_reads_of h pos).map fun _ => ()
        | _ => cases h
      · rw [if_neg (by simpa using hloc), if_neg (by omega), if_neg hmem]
        cases value with
        | int v => exact (pullVint_reads_of h pos).map fun _ => ()
        | _ => cases h

/-- A value of draft 18 is no block. -/
theorem pushParamValue_d18 {ptype : Nat} {value : ParamValue} {bs : Bytes}
    (h : pushParamValue (profileFor .d18) ptype value = .ok bs) :
    ∃ plain, value = .plain plain ∧ pushPlainValue (profileFor .d18) ptype plain = .ok bs := by
  cases value with
  | plain plain => exact ⟨plain, rfl, h⟩
  | fill params =>
      have hkind := (pushParamValue_fill h).1.2
      by_cases hnotNs : ptype = 0x34
      · subst hnotNs
        cases hkind
      · rcases d18_kind_shape hkind hnotNs with h | h | h | h <;> cases h.1

/-- The parameters still to come. -/
theorem skipParams_reads {items : List (Nat × ParamValue)} :
    ∀ {prevKey : Nat} {bs : Bytes},
      pushItems (profileFor .d18) (pushParamValue (profileFor .d18)) prevKey
        (items.map fun item => (item.1, .one item.2)) = .ok bs →
      (∀ item ∈ items, item.1 ≠ 0x34) → ∀ {bufEnd pos : Nat}, pos + bs.length ≤ bufEnd →
      Reads (skipParams (profileFor .d18) bufEnd items.length prevKey) pos bs () := by
  induction items with
  | nil =>
      intro prevKey bs h _ bufEnd pos _
      cases h
      exact Reads.pure pos ()
  | cons item items ih =>
      intro prevKey bs h hnotNs bufEnd pos hend
      obtain ⟨key, hkey, h⟩ := except_bind_eq_ok.mp h
      obtain ⟨value, hvalue, h⟩ := except_bind_eq_ok.mp h
      obtain ⟨tail, htail, h⟩ := except_bind_eq_ok.mp h
      cases h
      obtain ⟨raw, hraw, htype⟩ := wire_key hkey
      obtain ⟨plain, _, hplain⟩ := pushParamValue_d18 hvalue
      simp only [List.length_append] at hend
      rw [List.append_assoc]
      apply (pullVint_reads_of hraw pos).bind
      simp only [htype]
      apply (skipParamValue_reads hplain (hnotNs item (by simp)) (by omega)).bind
      apply Reads.tell_bind
      apply Reads.guard (by omega)
      exact ih htail (fun other hother => hnotNs other (by simp [hother])) (by omega)

/-- The pairs behind the parameters, which end the message. -/
theorem skipKvps_reads {es : List (Nat × KvpValue)} :
    ∀ {prev : Nat} {bs : Bytes}, pushKvps prof.vint true prev es = .ok bs → ∀ {fuel : Nat},
      bs.length ≤ fuel → ∀ pos, Reads (skipKvps prof (pos + bs.length) fuel prev) pos bs () := by
  induction es with
  | nil =>
      intro prev bs h fuel _ pos
      cases h
      cases fuel with
      | zero => exact Reads.pure pos ()
      | succ fuel =>
          apply Reads.tell_bind
          rw [if_neg (by simp)]
          exact Reads.pure pos ()
  | cons e es ih =>
      intro prev bs h fuel hfuel pos
      obtain ⟨extId, value⟩ := e
      obtain ⟨type, htype, h⟩ := except_bind_eq_ok.mp h
      obtain ⟨body, hbody, h⟩ := except_bind_eq_ok.mp h
      obtain ⟨tail, htail, h⟩ := except_bind_eq_ok.mp h
      cases h
      have hpos := length_pushVint_pos htype
      obtain ⟨raw, hraw, hsum⟩ := wire_key htype
      rw [if_pos rfl] at hsum
      simp only [List.length_append] at hfuel
      obtain ⟨fuel, rfl⟩ : ∃ k, fuel = k + 1 := ⟨fuel - 1, by omega⟩
      have hvalue : ∀ {start bufEnd : Nat}, start + body.length ≤ bufEnd →
          Reads (skipKvpValue prof bufEnd extId) start body () := by
        intro start bufEnd hend
        unfold skipKvpValue
        unfold pushKvpValue at hbody
        cases value with
        | int v =>
            simp only at hbody
            split at hbody
            · next heven =>
                rw [if_neg (by omega)]
                exact (pullVint_reads_of hbody start).map fun _ => ()
            · cases hbody
        | bytes v =>
            simp only at hbody
            split at hbody
            · cases hbody
            · next hodd =>
                rw [if_pos (by omega)]
                exact skipSized_reads hbody hend
      have hstop : pos + (type ++ body ++ tail).length =
          pos + type.length + body.length + tail.length := by
        simp only [List.length_append]
        omega
      rw [List.append_assoc]
      apply Reads.tell_bind
      rw [if_pos (by simp only [List.length_append]; omega)]
      apply (pullVint_reads_of hraw pos).bind
      simp only [hsum]
      apply (hvalue (by simp only [List.length_append]; omega)).bind
      apply Reads.tell_bind
      apply Reads.guard (by simp only [List.length_append]; omega)
      rw [← List.append_assoc, hstop]
      exact ih htail (by omega) _

/-- The rest of a message behind its Location parses. -/
theorem suffixParses_of_pushed {items : List (Nat × ParamValue)} {prevKey : Nat} {tail : Bytes}
    (htail : pushItems (profileFor .d18) (pushParamValue (profileFor .d18)) prevKey
      (items.map fun item => (item.1, .one item.2)) = .ok tail)
    (hnotNs : ∀ item ∈ items, item.1 ≠ 0x34) {es : List (Nat × KvpValue)} {props : Bytes}
    (hprops : pushKvps (profileFor .d18).vint true 0 es = .ok props) (pos : Nat) (rest : Bytes) :
    suffixParses (profileFor .d18) (pos + tail.length + props.length) items.length prevKey
      ⟨pos, tail ++ (props ++ rest)⟩ = true := by
  have hend : pos + tail.length ≤ pos + tail.length + props.length := by omega
  have hfuel : props.length ≤ pos + tail.length + props.length - (pos + tail.length) := by omega
  have hparams := skipParams_reads htail hnotNs hend (props ++ rest)
  have hpairs := skipKvps_reads hprops hfuel (pos + tail.length) rest
  unfold suffixParses
  rw [hparams]
  simp only
  rw [hpairs]
  exact decide_eq_true rfl

/-! ## The choice between the two readings -/

theorem pullLocation_reads {group object : Nat} {head tail : Bytes}
    (hhead : pushVint prof.vint (group : Int) = .ok head)
    (htail : pushVint prof.vint (object : Int) = .ok tail) (pos : Nat) :
    Reads (pullLocation prof) pos (head ++ tail) (group, object) :=
  (pullVint_reads_of hhead pos).bind ((pullVint_reads_of htail _).map _)

/-- The inline reading is taken where the rest of the message parses behind it. -/
theorem pullLocationParam_inline {loc : Nat × Nat} {remaining prevKey pos : Nat} {bs rest : Bytes}
    (hreads : Reads (pullLocation prof) pos bs loc) (hend : pos + bs.length ≤ bufEnd)
    (hsuffix : suffixParses prof bufEnd remaining prevKey ⟨pos + bs.length, rest⟩ = true) :
    ReadsBefore (pullLocationParam prof bufEnd remaining prevKey) pos bs rest loc := by
  have hinline : inlineLocation prof bufEnd ⟨pos, bs ++ rest⟩ =
      some (loc, ⟨pos + bs.length, rest⟩) := by
    unfold inlineLocation
    rw [hreads rest]
    exact if_pos hend
  unfold ReadsBefore pullLocationParam
  rw [hinline]
  cases prefixedLocation prof bufEnd ⟨pos, bs ++ rest⟩ with
  | none => rfl
  | some sized =>
      simp only [hsuffix]
      rw [if_neg (by simp)]

theorem pullVint_next {code : PrefixCode} {cur next : Cursor} {v : Nat}
    (h : pullVint code cur = .ok (v, next)) : cur.pos ≤ next.pos := by
  unfold pullVint Reader.int at h
  split at h
  · cases h
  · cases h
    exact Nat.le_add_right _ _

/-- Where the prefixed reading succeeds so does the inline one: its two integers are the first
two of the three. -/
theorem inline_of_prefixed {cur : Cursor} (h : (prefixedLocation prof bufEnd cur).isSome) :
    (inlineLocation prof bufEnd cur).isSome := by
  unfold prefixedLocation at h
  cases hlen : pullVint prof.vint cur with
  | error e => simp [hlen] at h
  | ok sized =>
      obtain ⟨len, start⟩ := sized
      simp only [hlen] at h
      split at h
      · cases h
      · next hfits =>
          cases hloc : pullLocation prof start with
          | error e => simp [hloc] at h
          | ok found =>
              obtain ⟨loc, next⟩ := found
              simp only [hloc] at h
              split at h
              · next hstop =>
                  obtain ⟨group, mid, hgroup, hrest⟩ := bind_eq_ok.mp hloc
                  obtain ⟨object, last, hobject, hpure⟩ := bind_eq_ok.mp hrest
                  have hle := pullVint_next hobject
                  obtain ⟨_, rfl⟩ := pure_eq_ok.mp hpure
                  have hinline : pullLocation prof cur = .ok ((len, group), mid) := by
                    unfold pullLocation
                    rw [bind_eq_ok]
                    refine ⟨len, start, hlen, ?_⟩
                    rw [bind_eq_ok]
                    exact ⟨group, mid, hgroup, rfl⟩
                  unfold inlineLocation
                  simp only [hinline]
                  rw [if_pos (by omega)]
                  rfl
              · cases h

/-- The prefixed reading is taken only where the rest of the message does not parse behind the
inline one. -/
theorem pullLocationParam_prefixed {remaining prevKey : Nat} {cur next : Cursor} {loc : Nat × Nat}
    (h : pullLocationParam prof bufEnd remaining prevKey cur = .ok (loc, next)) :
    ∃ inline stop, inlineLocation prof bufEnd cur = some (inline, stop) ∧
      ((loc, next) = (inline, stop) ∨ suffixParses prof bufEnd remaining prevKey stop = false) := by
  unfold pullLocationParam at h
  cases hinline : inlineLocation prof bufEnd cur with
  | none =>
      cases hsized : prefixedLocation prof bufEnd cur with
      | none => simp [hinline, hsized] at h
      | some sized =>
          have hsome : (inlineLocation prof bufEnd cur).isSome :=
            inline_of_prefixed (by rw [hsized]; rfl)
          rw [hinline] at hsome
          cases hsome
  | some found =>
      obtain ⟨inline, stop⟩ := found
      refine ⟨inline, stop, rfl, ?_⟩
      cases hsized : prefixedLocation prof bufEnd cur with
      | none =>
          simp only [hinline, hsized] at h
          cases h
          exact Or.inl rfl
      | some sized =>
          simp only [hinline, hsized] at h
          split at h
          · next hchoice =>
              right
              simpa using hchoice.2.1
          · cases h
            exact Or.inl rfl

end Suffix

/-! ## A block with a value whose reading depends on the rest -/

section Block

variable {α : Type} {prof : DraftProfile}
variable {pushValue : Nat → α → Except MoqtError Bytes}
variable {pullValue : Nat → Nat → Reader MoqtError α} {bufEnd : Nat} {back : Nat → α → α}

theorem pushItems_append {xs ys : List (Nat × Slot α)} :
    ∀ {prevKey : Nat} {bs : Bytes}, pushItems prof pushValue prevKey (xs ++ ys) = .ok bs →
      ∃ head tail, pushItems prof pushValue prevKey xs = .ok head ∧
        pushItems prof pushValue (lastKey prevKey xs) ys = .ok tail ∧ bs = head ++ tail := by
  induction xs with
  | nil =>
      intro prevKey bs h
      exact ⟨[], bs, rfl, h, rfl⟩
  | cons item xs ih =>
      intro prevKey bs h
      obtain ⟨ptype, slot⟩ := item
      obtain ⟨key, hkey, h⟩ := except_bind_eq_ok.mp h
      cases slot with
      | many vs => cases h
      | one v =>
          obtain ⟨value, hvalue, h⟩ := except_bind_eq_ok.mp h
          obtain ⟨tail, htail, h⟩ := except_bind_eq_ok.mp h
          cases h
          obtain ⟨head, last, hhead, hlast, rfl⟩ := ih htail
          refine ⟨key ++ value ++ head, last, ?_, ?_, ?_⟩
          · simp only [pushItems, hkey, hvalue, hhead, bind, Except.bind, pure, Except.pure]
          · rwa [lastKey_cons]
          · rw [List.append_assoc (key ++ value)]

theorem lastKey_one (prevKey : Nat) (items : List (Nat × α)) :
    lastKey prevKey (items.map fun item => (item.1, Slot.one item.2)) = lastKey prevKey items := by
  rw [lastKey, lastKey, List.map_map]
  rfl

variable (scalar : α → Option Nat) (scope : Option ParamScope)

/-- A block one of whose values is read in front of the instances behind it. -/
theorem pullCounted_around {front tail : List (Nat × α)} {item : Nat × α} {count body rest : Bytes}
    (hcount : pushVint prof.vint (front ++ item :: tail).length = .ok count)
    (hbody : pushItems prof pushValue 0
      ((front ++ item :: tail).map fun item => (item.1, .one item.2)) = .ok body)
    (hreads : ∀ other ∈ front ++ tail, ValueReads pushValue pullValue bufEnd back other)
    (hfits : ∀ other ∈ front ++ item :: tail, InstanceFits scalar scope prof back other)
    (hfresh : ((front ++ item :: tail).map Prod.fst).Pairwise fun a b => a = b → a ∈ repeatable)
    {pos : Nat} (hend : pos + (count ++ body).length ≤ bufEnd)
    (hitem : ∀ value last, pushValue item.1 item.2 = .ok value →
      pushItems prof pushValue item.1 (tail.map fun item => (item.1, .one item.2)) = .ok last →
      ∀ start, start + value.length + last.length = pos + (count ++ body).length →
      ReadsBefore (pullValue item.1 tail.length) start value (last ++ rest)
        (back item.1 item.2)) :
    ReadsBefore (pullCounted prof scalar pullValue bufEnd scope) pos (count ++ body) rest
      ((front ++ item :: tail).map (receivedItem back)) := by
  rw [List.map_append, List.map_cons] at hbody
  obtain ⟨head, behind, hhead, hbehind, rfl⟩ := pushItems_append hbody
  obtain ⟨key, hkey, h⟩ := except_bind_eq_ok.mp hbehind
  obtain ⟨value, hvalue, h⟩ := except_bind_eq_ok.mp h
  obtain ⟨last, hlast, h⟩ := except_bind_eq_ok.mp h
  cases h
  rw [lastKey_one] at hkey
  simp only [List.length_append] at hend hitem
  apply ((pullVint_reads_of hcount pos).before _).bind
  -- the instances in front
  have hfront := pullInstances_front scalar scope (front ++ item :: tail).length (tail.length + 1)
    hhead (fun other h => hreads other (by simp [h])) (fun other h => hfits other (by simp [h]))
    [] (hfresh.sublist (by simp)) (pos + count.length) (by omega)
    (key ++ value ++ last ++ rest)
  -- the one that looks ahead
  have hmid : ReadsBefore (pullInstance prof scalar pullValue bufEnd scope tail.length
      (lastKey 0 front) (front.map (receivedItem back))) (pos + count.length + head.length)
      (key ++ value) (last ++ rest) (receivedItem back item) := by
    apply pullInstance_before scalar scope hkey
    · apply hitem value last hvalue hlast
      omega
    · exact hfits item (by simp)
    · intro hmem
      rw [List.map_append, List.pairwise_append] at hfresh
      rw [List.map_map] at hmem
      exact hfresh.2.2 item.1 hmem item.1 (by simp) rfl
    · rw [List.length_append]
      omega
  have hstep := pullInstances_step scalar scope (front ++ item :: tail).length hmid (by
    have hpos := length_pushVint_pos hkey
    omega)
  -- the instances behind
  have hback := pullInstances_front scalar scope (front ++ item :: tail).length 0 hlast
    (fun other h => hreads other (by simp [h])) (fun other h => hfits other (by simp [h]))
    (front.map (receivedItem back) ++ [receivedItem back item])
    (by
      have hkeys : (front.map (receivedItem back) ++ [receivedItem back item]).map Prod.fst ++
          tail.map Prod.fst = (front ++ item :: tail).map Prod.fst := by
        simp [receivedItem]
      rw [hkeys]
      exact hfresh)
    (pos + count.length + head.length + (key ++ value).length)
    (by rw [List.length_append]; omega) rest
  have hlen : front.length + (tail.length + 1) = (front ++ item :: tail).length := by simp
  have hall : front.map (receivedItem back) ++ [receivedItem back item] ++
      tail.map (receivedItem back) = (front ++ item :: tail).map (receivedItem back) := by simp
  have hstop : pos + count.length + head.length + (key ++ value).length + last.length =
      pos + count.length + (head ++ (key ++ value ++ last)).length := by
    simp only [List.length_append]
    omega
  rw [hlen, List.nil_append] at hfront
  rw [hall, hstop, Nat.add_zero] at hback
  unfold ReadsBefore
  rw [List.append_assoc head, hfront, List.append_assoc (key ++ value), hstep]
  exact hback

end Block

/-! ## A block of draft 18 -/

section D18

/-- The parameters of a message of draft 18 that carries a Location: in its scope, and no
TRACK_NAMESPACE_PREFIX, which only a REQUEST_UPDATE has. -/
structure CarriesLocation (cls : MessageClass) (params : Params) : Prop
    extends Admissible (profileFor .d18) (.message cls) (ParamValue.Fits (profileFor .d18)) params where
  noPrefix : ∀ entry ∈ params.entries, entry.1 ≠ 0x34

/-- The parameters but the Location are read whatever follows them. -/
theorem d18_paramValue_reads {ptype : Nat} (hloc : ptype ≠ ParamType.largestObject)
    {value : ParamValue} (hfits : value.Fits (profileFor .d18) ptype) (bufEnd : Nat) :
    ValueReads (pushParamValue (profileFor .d18)) (pullParamValue (profileFor .d18) false bufEnd)
      bufEnd (ParamValue.received (profileFor .d18)) (ptype, value) := by
  intro bs h remaining pos hend
  obtain ⟨plain, rfl, hplain⟩ := pushParamValue_d18 h
  have hnofill : ¬ ((profileFor .d18).draft18 = true ∧
      paramKind (profileFor .d18) ptype = some .fill) := by
    rintro ⟨_, hkind⟩
    simp [pushPlainValue, show (profileFor .d18).draft18 = true from rfl, hkind,
      pushKindValue] at hplain
  have hnoloc : paramKind (profileFor .d18) ptype = some .location →
      (profileFor .d18).draft20 = true := by
    intro hkind
    by_cases hnotNs : ptype = 0x34
    · subst hnotNs
      cases hkind
    · rcases d18_kind_shape hkind hnotNs with h | h | h | h
      · exact absurd h.2 hloc
      all_goals cases h.1
  unfold pullParamValue
  rw [if_neg hnofill]
  exact (pullPlainValue_reads rfl hnoloc hfits hplain hend remaining).map _

/-- The Location is read inline, in front of the rest of its message. -/
theorem d18_location_before {group object : Nat} {value : Bytes}
    (hvalue : pushParamValue (profileFor .d18) ParamType.largestObject
      (.plain (.location group object)) = .ok value)
    {items : List (Nat × ParamValue)} {last props : Bytes}
    (hlast : pushItems (profileFor .d18) (pushParamValue (profileFor .d18)) ParamType.largestObject
      (items.map fun item => (item.1, .one item.2)) = .ok last)
    (hnotNs : ∀ item ∈ items, item.1 ≠ 0x34) {es : List (Nat × KvpValue)}
    (hprops : pushKvps (profileFor .d18).vint true 0 es = .ok props) (start : Nat) (rest : Bytes) :
    ReadsBefore (pullParamValue (profileFor .d18) false
        (start + value.length + last.length + props.length) ParamType.largestObject items.length)
      start value (last ++ (props ++ rest)) (.plain (.location group object)) := by
  obtain ⟨head, hhead, h⟩ := except_bind_eq_ok.mp hvalue
  obtain ⟨tail, htail, h⟩ := except_bind_eq_ok.mp h
  cases h
  have hsuffix := suffixParses_of_pushed hlast hnotNs hprops (start + (head ++ tail).length) rest
  have hend : start + (head ++ tail).length ≤
      start + (head ++ tail).length + last.length + props.length := by omega
  have hloc := pullLocationParam_inline (pullLocation_reads hhead htail start) hend hsuffix
  have hread := (hloc.map fun loc => PlainValue.location loc.1 loc.2).map ParamValue.plain
  exact hread

theorem deserializeItems_before {prof : DraftProfile} {bufEnd pos : Nat} {scope : Option ParamScope}
    {bs rest : Bytes} {items : List (Nat × ParamValue)}
    (h : ReadsBefore (pullParams prof false bufEnd scope) pos bs rest items)
    (hfill : ∀ item ∈ items, item.2.isFill = false) :
    ReadsBefore (deserializeItems prof bufEnd scope) pos bs rest items := by
  unfold ReadsBefore at *
  unfold deserializeItems
  rw [h]
  exact if_pos (Or.inl (by simpa using hfill))

/-- A block with a Location decodes to what was encoded, in front of the properties that end its
message. -/
theorem deserializeParams_before {cls : MessageClass} {params : Params}
    (hadm : CarriesLocation cls params) {group object : Nat}
    (hloc : params.get? ParamType.largestObject = some (.one (.plain (.location group object))))
    {bs : Bytes} (h : serializeParams (profileFor .d18) params = .ok bs)
    {es : List (Nat × KvpValue)} {props : Bytes}
    (hprops : pushKvps (profileFor .d18).vint true 0 es = .ok props) (pos : Nat) (rest : Bytes) :
    ReadsBefore
      (deserializeParams (profileFor .d18) (pos + bs.length + props.length) (some (.message cls)))
      pos bs (props ++ rest) (receivedParams (profileFor .d18) params) := by
  obtain ⟨count, hcount, h⟩ := except_bind_eq_ok.mp h
  obtain ⟨body, hbody, h⟩ := except_bind_eq_ok.mp h
  cases h
  obtain ⟨hrepeats, hitems⟩ := paramItems_instances rfl hbody
  rw [hitems] at hcount hbody
  rw [List.length_map] at hcount
  -- the Location among the instances
  obtain ⟨front, tail, hsplit⟩ := List.append_of_mem
    (params.sorted_perm.mem_iff.mpr (Dict.get?_eq_some.mp hloc))
  have hinstances : instances params =
      (front.flatMap fun entry => entry.2.values.map fun v => (entry.1, v)) ++
        (ParamType.largestObject, .plain (.location group object)) ::
          tail.flatMap fun entry => entry.2.values.map fun v => (entry.1, v) := by
    rw [instances, hsplit, List.flatMap_append, List.flatMap_cons]
    rfl
  have hother : ∀ entry ∈ front ++ tail, entry.1 ≠ ParamType.largestObject := by
    have hstrict := params.sorted_strict
    rw [hsplit, List.pairwise_map, List.pairwise_append, List.pairwise_cons] at hstrict
    intro entry hmem heq
    rcases List.mem_append.mp hmem with hmem | hmem
    · have hlt := hstrict.2.2 entry hmem _ List.mem_cons_self
      omega
    · have hlt := hstrict.2.1.1 entry hmem
      omega
  have hknown : ∀ item ∈ instances params, paramKind (profileFor .d18) item.1 ≠ none := by
    intro item hitem
    obtain ⟨value, hvalue⟩ := pushValue_of_pushItems hbody item hitem
    obtain ⟨plain, _, hplain⟩ := pushParamValue_d18 hvalue
    exact paramKind_of_push rfl hplain
  have hfits := hadm.toAdmissible.instanceFits ParamValue.scalar hknown
    fun ptype v hfits => ParamValue.Fits.check hfits _
  have hfresh := instances_fresh hrepeats
  have hcollect : collectParams (profileFor .d18)
      ((instances params).map (receivedItem (ParamValue.received (profileFor .d18)))) =
      receivedParams (profileFor .d18) params := collectParams_instances hadm.nonempty hrepeats
  -- the instances of the other entries
  have hentry : ∀ {entries : List (Nat × Slot ParamValue)} {item : Nat × ParamValue},
      item ∈ (entries.flatMap fun entry => entry.2.values.map fun v => (entry.1, v)) →
      ∃ entry ∈ entries, entry.1 = item.1 ∧ item.2 ∈ entry.2.values := by
    intro entries item hitem
    obtain ⟨entry, hmem, hitem⟩ := List.mem_flatMap.mp hitem
    obtain ⟨v, hv, rfl⟩ := List.mem_map.mp hitem
    exact ⟨entry, hmem, rfl, hv⟩
  have hmem : ∀ entry ∈ front ++ tail, entry ∈ params.entries := by
    intro entry hentry
    apply params.sorted_perm.mem_iff.mp
    rw [hsplit]
    rcases List.mem_append.mp hentry with h | h <;> simp [h]
  have hpull : ReadsBefore (pullParams (profileFor .d18) false
      (pos + (count ++ body).length + props.length) (some (.message cls))) pos (count ++ body)
      (props ++ rest) ((instances params).map
        (receivedItem (ParamValue.received (profileFor .d18)))) := by
    rw [hinstances] at hcount hbody hfits hfresh ⊢
    apply pullCounted_around ParamValue.scalar (some (.message cls)) hcount hbody _ hfits hfresh
      (by omega)
    · intro value last hvalue hlast start hstop
      have hbefore := d18_location_before hvalue hlast (fun item hitem => by
        obtain ⟨entry, hin, hkey, _⟩ := hentry hitem
        rw [← hkey]
        exact hadm.noPrefix entry (hmem entry (by simp [hin]))) hprops start rest
      rw [hstop] at hbefore
      exact hbefore
    · intro item hitem
      rw [← List.flatMap_append] at hitem
      obtain ⟨entry, hin, hkey, hv⟩ := hentry hitem
      apply d18_paramValue_reads
      · rw [← hkey]
        exact hother entry hin
      · rw [← hkey]
        exact hadm.fits entry (hmem entry hin) _ hv
  have hread := (deserializeItems_before hpull ?_).map (collectParams (profileFor .d18))
  · rw [hcollect] at hread
    exact hread
  · intro item hitem
    obtain ⟨sent, hsent, rfl⟩ := List.mem_map.mp hitem
    obtain ⟨value, hvalue⟩ := pushValue_of_pushItems hbody sent hsent
    obtain ⟨plain, hplain, _⟩ := pushParamValue_d18 hvalue
    simp [receivedItem, hplain, ParamValue.received, ParamValue.isFill]

end D18

/-! ## Track Properties -/

section Properties

/-- The value of a property, if there is a block that has it. -/
def extensionOf (exts : Option KeyValuePairs) (type : Nat) : Option KvpValue :=
  exts.bind fun exts => exts.dict.get? type

/-- Track Properties the decoder has no objection to. -/
structure PropertiesFit (props : Dict Nat KvpValue) : Prop where
  type_le : ∀ e ∈ props.entries, e.1 ≤ kvpTypeMax
  value_fits : ∀ e ∈ props.entries, ValueFits (profileFor .d18).vint e.1 e.2
  check : checkTrackProperties (profileFor .d18) (some { dict := props }) = .ok ()

/-- The block as it comes back: by ascending type, and none for an empty one. -/
def receivedProperties (props : Dict Nat KvpValue) : Option KeyValuePairs :=
  if props.entries = [] then none else some { dict := props.ascending }

theorem extensionOf_received (props : Dict Nat KvpValue) (type : Nat) :
    extensionOf (receivedProperties props) type = props.get? type := by
  unfold receivedProperties extensionOf
  split
  · next hempty =>
      apply Eq.symm
      apply Dict.get?_eq_none
      simp [Dict.keys, hempty]
  · exact props.get?_ascending type

theorem checkPropertyRanges_congr {props other : Dict Nat KvpValue} (h : props.Same other)
    (ranges : List (Nat × String × Nat × Nat)) :
    checkPropertyRanges props ranges = checkPropertyRanges other ranges := by
  induction ranges with
  | nil => rfl
  | cons range ranges ih =>
      obtain ⟨ptype, name, lo, hi⟩ := range
      unfold checkPropertyRanges
      rw [h ptype, ih]

/-- The checks look properties up by type. -/
theorem checkTrackProperties_congr {prof : DraftProfile} {props other : KeyValuePairs}
    (h : props.dict.Same other.dict) :
    checkTrackProperties prof (some props) = checkTrackProperties prof (some other) := by
  simp only [checkTrackProperties, checkProperties, checkDeliveryTimeout,
    checkPropertyRanges_congr h, h _]

theorem PropertiesFit.check_received {props : Dict Nat KvpValue} (hfits : PropertiesFit props) :
    checkTrackProperties (profileFor .d18) (receivedProperties props) = .ok () := by
  unfold receivedProperties
  split
  · rfl
  · have hcheck := hfits.check
    have hsame : (KeyValuePairs.mk props []).dict.Same (KeyValuePairs.mk props.ascending []).dict :=
      Dict.same_of_perm props.sorted_perm.symm
    rwa [checkTrackProperties_congr hsame] at hcheck

theorem d18_bound : (profileFor .d18).vint.bound = 2 ^ 64 := rfl

theorem pushKvps_ne_nil {code : PrefixCode} {delta : Bool} {prev : Nat} {e : Nat × KvpValue}
    {es : List (Nat × KvpValue)} {bs : Bytes} (h : pushKvps code delta prev (e :: es) = .ok bs) :
    bs ≠ [] := by
  obtain ⟨type, htype, h⟩ := except_bind_eq_ok.mp h
  obtain ⟨body, hbody, h⟩ := except_bind_eq_ok.mp h
  obtain ⟨tail, htail, h⟩ := except_bind_eq_ok.mp h
  cases h
  have hpos := length_pushVint_pos htype
  apply List.ne_nil_of_length_pos
  simp only [List.length_append]
  omega

/-- What the encoder writes of the properties is read back up to the end of the message. -/
theorem PropertiesFit.reads {props : Dict Nat KvpValue} (hfits : PropertiesFit props) :
    ∃ bs, extensionsEncode (profileFor .d18).vint (some { dict := props }) false true = .ok bs ∧
      pushKvps (profileFor .d18).vint true 0 props.sorted = .ok bs ∧
      (bs = [] → receivedProperties props = none) ∧
      ∀ pos, Reads (extensionsDecodeTo (profileFor .d18).vint (pos + bs.length) true true false)
        pos bs (receivedProperties props) := by
  have hmem : ∀ e ∈ props.sorted, e ∈ props.entries := fun e he =>
    props.sorted_perm.mem_iff.mp he
  have hcode := (profileFor .d18).vint_bound
  obtain ⟨bs, hpush, hread⟩ := pullKvps_pushKvps hcode
    (fun (_ : true = true) _ _ => Nat.zero_le _) props.ascending.nodup
    (fun _ => props.sorted_strict) (fun e he => by
      have hle := hfits.type_le e (hmem e he)
      refine ⟨hle, ?_, hfits.value_fits e (hmem e he)⟩
      rw [d18_bound]
      unfold kvpTypeMax at hle
      omega)
  have hsorted : pushKvps (profileFor .d18).vint true 0 props.sorted = .ok bs := hpush
  by_cases hempty : props.entries = []
  · have hnil : props.sorted = [] := (props.sorted_perm.trans (by rw [hempty])).eq_nil
    rw [hnil] at hsorted
    cases hsorted
    refine ⟨[], ?_, by rw [hnil]; rfl, fun _ => if_pos hempty, ?_⟩
    · simp [extensionsEncode, hempty]
    · intro pos
      rw [receivedProperties, if_pos hempty]
      apply Reads.tell_bind
      rw [if_pos (by simp)]
      exact Reads.pure pos none
  · have hne : props.sorted ≠ [] := by
      intro hnil
      have hperm := props.sorted_perm
      rw [hnil] at hperm
      exact hempty hperm.nil_eq.symm
    have hbs : bs ≠ [] := by
      cases hcases : props.sorted with
      | nil => exact absurd hcases hne
      | cons e es =>
          rw [hcases] at hsorted
          exact pushKvps_ne_nil hsorted
    refine ⟨bs, ?_, hsorted, fun hnil => absurd hnil hbs, ?_⟩
    · simp [extensionsEncode, hempty, hsorted, bind, Except.bind, pure, Except.pure]
    · intro pos
      have hnew : ∀ e ∈ props.ascending.entries, e.1 ∉ (Dict.empty : Dict Nat KvpValue).keys :=
        fun e _ => List.not_mem_nil
      obtain ⟨out, hentries, hdups, hout⟩ := @hread ⟨.empty, []⟩ hnew
      have hout' : out = { dict := props.ascending } := by
        obtain ⟨dict, duplicates⟩ := out
        cases hdups
        congr
        exact Dict.ext hentries
      subst hout'
      have hlen := List.length_pos_iff.mpr hbs
      apply Reads.tell_bind
      rw [if_neg (by omega), receivedProperties, if_neg hempty]
      have hsome : (KeyValuePairs.mk props.ascending []).orNone =
          some (KeyValuePairs.mk props.ascending []) := if_neg hne
      rw [← hsome]
      refine Reads.map ?_ KeyValuePairs.orNone
      exact hout _ _ pos rfl (by omega)

/-- The properties that are written: with the descending order among them. -/
def sentProperties (exts : Option KeyValuePairs) (groupOrder : Option Nat) : Dict Nat KvpValue :=
  let props := (exts.map KeyValuePairs.dict).getD .empty
  if groupOrder = some 2 then props.insert defaultGroupOrder (.int 2) else props

theorem get?_sentProperties (exts : Option KeyValuePairs) (groupOrder : Option Nat) {type : Nat}
    (htype : type ≠ defaultGroupOrder) :
    (sentProperties exts groupOrder).get? type = extensionOf exts type := by
  have hget : ((exts.map KeyValuePairs.dict).getD .empty).get? type = extensionOf exts type := by
    cases exts <;> rfl
  unfold sentProperties
  dsimp only
  split_ifs
  · rw [Dict.get?_insert, if_neg htype, hget]
  · exact hget

/-- The group order of a message: ascending where the properties do not name one. -/
def publisherOrder (props : Dict Nat KvpValue) : Nat :=
  match props.get? defaultGroupOrder with
  | some (.int v) => v
  | _ => 1

/-- A property that passed the checks is in its range. -/
theorem checkRange_of_ranges {props : Dict Nat KvpValue} {ptype lo hi v : Nat} {name : String}
    {ranges : List (Nat × String × Nat × Nat)}
    (h : checkPropertyRanges props ((ptype, name, lo, hi) :: ranges) = .ok ())
    (hget : props.get? ptype = some (.int v)) : checkRange name v lo hi = .ok () := by
  unfold checkPropertyRanges at h
  simp only [hget] at h
  obtain ⟨_, hrange, _⟩ := except_bind_eq_ok.mp h
  exact hrange

theorem PropertiesFit.order {props : Dict Nat KvpValue} (hfits : PropertiesFit props) :
    extensionsOrder (receivedProperties props) = .ok (publisherOrder props) := by
  have hcheck := hfits.check
  obtain ⟨_, hproperties, _⟩ := except_bind_eq_ok.mp hcheck
  obtain ⟨_, hranges, _⟩ := except_bind_eq_ok.mp hproperties
  have hget : (receivedProperties props).bind (fun exts => exts.dict.get? defaultGroupOrder) =
      props.get? defaultGroupOrder := extensionOf_received props defaultGroupOrder
  unfold extensionsOrder publisherOrder
  rw [hget]
  cases horder : props.get? defaultGroupOrder with
  | none => rfl
  | some value =>
      cases value with
      | bytes raw => rfl
      | int v =>
          have hrange := checkRange_of_ranges hranges horder
          simp only [hrange]
          rfl

theorem PropertiesFit.pullTrackExtensions_reads {props : Dict Nat KvpValue}
    (hfits : PropertiesFit props) {pos : Nat} {bs : Bytes} {bufEnd : Nat}
    (hreads : Reads (extensionsDecodeTo (profileFor .d18).vint bufEnd true true false) pos bs
      (receivedProperties props)) :
    Reads (pullTrackExtensions (profileFor .d18) bufEnd) pos bs (receivedProperties props) := by
  apply hreads.bind_last
  apply (Reads.ofExcept hfits.check_received _).bind_nil
  exact Reads.pure _ _

end Properties

/-! ## The messages -/

section Messages

theorem CarriesLocation.setPlain {cls : MessageClass} {params : Params}
    (h : CarriesLocation cls params) {ptype : Nat} {value : PlainValue}
    (hin : ∀ allowed, paramScope (profileFor .d18) (some (.message cls)) = some allowed →
      ptype ∈ allowed)
    (hfits : value.Fits (profileFor .d18) ptype) (hnotNs : ptype ≠ 0x34) :
    CarriesLocation cls (params.setPlain ptype value) := by
  have hentries : ∀ {p : Nat × Slot ParamValue → Prop}, p (ptype, .one (.plain value)) →
      (∀ entry ∈ params.entries, p entry) →
      ∀ entry ∈ (params.setPlain ptype value).entries, p entry := by
    intro p hnew hold entry hentry
    obtain ⟨key, slot⟩ := entry
    rcases Dict.mem_entries_insert.mp hentry with ⟨rfl, rfl⟩ | ⟨_, hmem⟩
    · exact hnew
    · exact hold _ hmem
  constructor
  · constructor
    · intro allowed hallowed
      exact hentries (hin allowed hallowed) (h.inScope allowed hallowed)
    · exact hentries (List.cons_ne_nil _ _) h.nonempty
    · apply hentries _ h.fits
      intro v hv
      cases List.mem_singleton.mp hv
      exact hfits
  · exact hentries hnotNs h.noPrefix

theorem CarriesLocation.setInt {cls : MessageClass} {params : Params}
    (h : CarriesLocation cls params) {ptype : Nat} {value : Option Nat}
    (hin : ∀ allowed, paramScope (profileFor .d18) (some (.message cls)) = some allowed →
      ptype ∈ allowed)
    (hfits : ∀ v ∈ value, (PlainValue.int v).Fits (profileFor .d18) ptype)
    (hnotNs : ptype ≠ 0x34) : CarriesLocation cls (params.setInt ptype value) := by
  cases value with
  | none => exact h
  | some v => exact h.setPlain hin (hfits v rfl) hnotNs

theorem location_fits (group object : Nat) :
    (PlainValue.location group object).Fits (profileFor .d18) ParamType.largestObject where
  locationFilter := by simp
  tuple := by simp
  bytes := by simp
  token := by simp [ParamType.largestObject, ParamType.authToken]
  bounds := by simp
  timeout := by simp

/-- The Location among the parameters that came back. -/
theorem largest?_received {params : Params} {group object : Nat}
    (hloc : params.get? ParamType.largestObject = some (.one (.plain (.location group object)))) :
    (receivedParams (profileFor .d18) params).largest? = .ok (some (group, object)) := by
  have hplain : (receivedParams (profileFor .d18) params).plain? ParamType.largestObject =
      some (.location group object) := by
    unfold Params.plain? receivedParams
    rw [get?_arrived, hloc]
    rfl
  unfold Params.largest?
  rw [hplain]

/-- The parameters of a message with its Location and one that stands for a field. -/
def sentParams (params : Params) (ptype : Nat) (value : Option Nat) (group object : Nat) : Params :=
  (params.setInt ptype value).setPlain ParamType.largestObject (.location group object)

theorem get?_sentParams (params : Params) (ptype : Nat) (value : Option Nat) (group object : Nat)
    {other : Nat} (hother : other ≠ ptype) (hloc : other ≠ ParamType.largestObject) :
    (sentParams params ptype value group object).get? other = params.get? other := by
  rw [sentParams, Params.setPlain, Dict.get?_insert, if_neg hloc]
  cases value with
  | none => rfl
  | some v => rw [Params.setInt, Dict.get?_insert, if_neg hother]

theorem get?_sentParams_largest (params : Params) (ptype : Nat) (value : Option Nat)
    (group object : Nat) :
    (sentParams params ptype value group object).get? ParamType.largestObject =
      some (.one (.plain (.location group object))) := by
  rw [sentParams, Params.setPlain, Dict.get?_insert, if_pos rfl]

/-- The integer that stands for a field: the field's, or that of the parameters. -/
theorem int?_sentParams (params : Params) {ptype : Nat} (htype : ptype ≠ ParamType.largestObject)
    (value : Option Nat) (group object : Nat) :
    (sentParams params ptype value group object).int? ptype = value.or (params.int? ptype) := by
  cases value with
  | none =>
      have hget : (sentParams params ptype none group object).get? ptype = params.get? ptype := by
        rw [sentParams, Params.setPlain, Dict.get?_insert, if_neg htype]
        rfl
      unfold Params.int? Params.plain?
      rw [hget]
      rfl
  | some v =>
      have hget : (sentParams params ptype (some v) group object).get? ptype =
          some (.one (.plain (.int v))) := by
        rw [sentParams, Params.setPlain, Dict.get?_insert, if_neg htype, Params.setInt,
          Dict.get?_insert, if_pos rfl]
      unfold Params.int? Params.plain?
      rw [hget]
      rfl

/-- Only a token changes its form on the way. -/
theorem received_of_pushed {ptype : Nat} (htoken : ptype ≠ ParamType.authToken) {value : ParamValue}
    {bs : Bytes} (h : pushParamValue (profileFor .d18) ptype value = .ok bs) :
    value.received (profileFor .d18) ptype = value := by
  obtain ⟨plain, rfl, hplain⟩ := pushParamValue_d18 h
  have hsame : plain.received (profileFor .d18) ptype = plain := by
    unfold PlainValue.received
    rw [if_neg htoken]
    unfold pushPlainValue at hplain
    rw [if_pos (by decide)] at hplain
    cases hkind : paramKind (profileFor .d18) ptype with
    | none => simp [hkind] at hplain
    | some kind =>
        simp only [hkind] at hplain
        cases plain with
        | locationFilter filter =>
            by_cases hnotNs : ptype = 0x34
            · subst hnotNs
              cases hkind
              cases hplain
            · rcases d18_kind_shape hkind hnotNs with ⟨rfl, _⟩ | ⟨rfl, _⟩ | ⟨rfl, _⟩ | ⟨rfl, _⟩
              · cases hplain
              · have hpush : pushBytesValue (profileFor .d18) ptype (.locationFilter filter) =
                    .ok bs := hplain
                unfold pushBytesValue at hpush
                rw [if_neg htoken] at hpush
                cases hpush
              · cases hplain
              · cases hplain
        | rangeFilter filter =>
            by_cases hnotNs : ptype = 0x34
            · subst hnotNs
              cases hkind
              cases hplain
            · rcases d18_kind_shape hkind hnotNs with ⟨rfl, _⟩ | ⟨rfl, _⟩ | ⟨rfl, _⟩ | ⟨rfl, _⟩
              · cases hplain
              · have hpush : pushBytesValue (profileFor .d18) ptype (.rangeFilter filter) = .ok bs :=
                  hplain
                unfold pushBytesValue at hpush
                rw [if_neg htoken] at hpush
                cases hpush
              · cases hplain
              · cases hplain
        | _ => rfl
  exact congrArg ParamValue.plain hsame

/-- What came back of the parameters that were written. -/
theorem get?_received {params : Params} {bs : Bytes}
    (h : serializeParams (profileFor .d18) params = .ok bs) {ptype : Nat}
    (htoken : ptype ≠ ParamType.authToken) :
    (receivedParams (profileFor .d18) params).get? ptype = params.get? ptype := by
  obtain ⟨count, hcount, h⟩ := except_bind_eq_ok.mp h
  obtain ⟨body, hbody, h⟩ := except_bind_eq_ok.mp h
  obtain ⟨hrepeats, hitems⟩ := paramItems_instances rfl hbody
  rw [hitems] at hbody
  unfold receivedParams
  rw [get?_arrived]
  cases hget : params.get? ptype with
  | none => rfl
  | some slot =>
      have hmem := Dict.get?_eq_some.mp hget
      cases slot with
      | many vs => cases ((hrepeats _ hmem).many vs rfl).1
      | one v =>
          have hitem : (ptype, v) ∈ instances params :=
            mem_instances.mpr ⟨.one v, hmem, List.mem_singleton_self v⟩
          obtain ⟨value, hvalue⟩ := pushValue_of_pushItems hbody (ptype, v) hitem
          have hsame := received_of_pushed htoken hvalue
          simp [Slot.values, Slot.collected, hsame, show (profileFor .d18).draft20 = false from rfl]

theorem int?_received {params : Params} {bs : Bytes}
    (h : serializeParams (profileFor .d18) params = .ok bs) {ptype : Nat}
    (htoken : ptype ≠ ParamType.authToken) :
    (receivedParams (profileFor .d18) params).int? ptype = params.int? ptype := by
  unfold Params.int? Params.plain?
  rw [get?_received h htoken]

/-- The parameters in front of the properties that end a message, and the properties. -/
theorem params_props_before {cls : MessageClass} {params : Params}
    (hadm : CarriesLocation cls params) {group object : Nat}
    (hloc : params.get? ParamType.largestObject = some (.one (.plain (.location group object))))
    {block : Bytes} (hblock : serializeParams (profileFor .d18) params = .ok block)
    {props : Dict Nat KvpValue} (hprops : PropertiesFit props) {bs : Bytes}
    (hbs : extensionsEncode (profileFor .d18).vint (some { dict := props }) false true = .ok bs)
    (pos : Nat) (rest : Bytes) :
    ReadsBefore
        (deserializeParams (profileFor .d18) (pos + (block ++ bs).length) (some (.message cls)))
        pos block (bs ++ rest) (receivedParams (profileFor .d18) params) ∧
      Reads (extensionsDecodeTo (profileFor .d18).vint (pos + (block ++ bs).length) true true false)
        (pos + block.length) bs (receivedProperties props) ∧
      (bs = [] → receivedProperties props = none) := by
  obtain ⟨bs', hencode, hpush, hempty, hreads⟩ := hprops.reads
  rw [hbs] at hencode
  cases hencode
  rw [List.length_append, ← Nat.add_assoc]
  exact ⟨deserializeParams_before hadm hloc hblock hpush pos rest, hreads _, hempty⟩

/-- The end of a SUBSCRIBE_OK or PUBLISH: its Location is taken out of the parameters, its group
order out of the properties. -/
theorem trackTail_before {α : Type} {cls : MessageClass} {params : Params}
    (hadm : CarriesLocation cls params) {group object : Nat}
    (hloc : params.get? ParamType.largestObject = some (.one (.plain (.location group object))))
    {block : Bytes} (hblock : serializeParams (profileFor .d18) params = .ok block)
    {props : Dict Nat KvpValue} (hprops : PropertiesFit props) {bs : Bytes}
    (hbs : extensionsEncode (profileFor .d18).vint (some { dict := props }) false true = .ok bs)
    (f : Params → Option (Nat × Nat) → Option KeyValuePairs → Nat → α) {pos bufEnd : Nat}
    (hend : pos + (block ++ bs).length = bufEnd) (rest : Bytes) :
    ReadsBefore
      (do
        let params ← deserializeParams (profileFor .d18) bufEnd (some (.message cls))
        let largest ← Reader.ofExcept params.largest?
        let exts ← pullTrackExtensions (profileFor .d18) bufEnd
        let groupOrder ← Reader.ofExcept (extensionsOrder exts)
        return f params largest exts groupOrder)
      pos (block ++ bs) rest
      (f (receivedParams (profileFor .d18) params) (some (group, object)) (receivedProperties props)
        (publisherOrder props)) := by
  subst hend
  obtain ⟨hparams, hexts, _⟩ := params_props_before hadm hloc hblock hprops hbs pos rest
  apply hparams.bind
  apply ((Reads.ofExcept (largest?_received hloc) _).before _).bind_nil
  apply ((hprops.pullTrackExtensions_reads hexts).before rest).bind_last
  apply ((Reads.ofExcept hprops.order _).before _).bind_nil
  exact (Reads.pure _ _).before rest

theorem setLargest_d18 (params : Params) (group object : Nat) :
    params.setLargest (profileFor .d18) (some group) (some object) =
      .ok (params.setPlain ParamType.largestObject (.location group object)) := rfl

/-- What is left of the parameters without those that stand for fields. -/
theorem get?_rest {params : Params} {ptype : Nat} {value : Option Nat} {group object : Nat}
    {bs : Bytes}
    (h : serializeParams (profileFor .d18) (sentParams params ptype value group object) = .ok bs)
    {other : Nat} (hother : other ≠ ptype) (hloc : other ≠ ParamType.largestObject)
    (htoken : other ≠ ParamType.authToken) :
    (((receivedParams (profileFor .d18) (sentParams params ptype value group object)).erase
        ptype).erase ParamType.largestObject).get? other = params.get? other := by
  rw [Dict.get?_erase, if_neg hloc, Dict.get?_erase, if_neg hother, get?_received h htoken,
    get?_sentParams params ptype value group object hother hloc]

/-- A token that came back. -/
theorem get?_token {params : Params} {ptype : Nat} (htype : ParamType.authToken ≠ ptype)
    (value : Option Nat) (group object : Nat) :
    (((receivedParams (profileFor .d18) (sentParams params ptype value group object)).erase
        ptype).erase ParamType.largestObject).get? ParamType.authToken =
      (receivedParams (profileFor .d18) params).get? ParamType.authToken := by
  unfold receivedParams
  rw [Dict.get?_erase, if_neg (by decide), Dict.get?_erase, if_neg htype, get?_arrived,
    get?_arrived, get?_sentParams params ptype value group object htype (by decide)]

theorem extensionOf_withoutOrder (exts : Option KeyValuePairs) {type : Nat}
    (htype : type ≠ defaultGroupOrder) :
    extensionOf (withoutOrder exts) type = extensionOf exts type := by
  cases exts with
  | none => rfl
  | some exts =>
      have hget : (exts.dict.erase defaultGroupOrder).get? type = exts.dict.get? type := by
        rw [Dict.get?_erase, if_neg htype]
      exact hget

/-- `got` is `message` as it comes back: EXPIRES and the group order stand in fields. -/
structure SubscribeOk.ComesBack (message got : SubscribeOk) (group object : Nat) : Prop where
  trackAlias : got.trackAlias = message.trackAlias
  largest : got.largestGroupId = some group ∧ got.largestObjectId = some object
  expires : got.expires = message.expires.or (message.parameters.int? ParamType.expires)
  parameters : ∀ ptype, ptype ≠ ParamType.expires → ptype ≠ ParamType.largestObject →
    ptype ≠ ParamType.authToken → got.parameters.get? ptype = message.parameters.get? ptype
  token : got.parameters.get? ParamType.authToken =
    (receivedParams (profileFor .d18) message.parameters).get? ParamType.authToken
  groupOrder : got.groupOrder =
    some (publisherOrder (sentProperties message.trackExtensions message.groupOrder))
  properties : ∀ type, type ≠ defaultGroupOrder →
    extensionOf got.trackExtensions type = extensionOf message.trackExtensions type

theorem SubscribeOk.largest_reads {message : SubscribeOk} {group object : Nat}
    (hgroup : message.largestGroupId = some group) (hobject : message.largestObjectId = some object)
    (hparams : CarriesLocation .subscribeOk message.parameters)
    (hprops : PropertiesFit (sentProperties message.trackExtensions message.groupOrder))
    {bs : Bytes} (h : message.body (profileFor .d18) = .ok bs) (pos : Nat) :
    ∃ got, Reads (SubscribeOk.deserialize (profileFor .d18) (pos + bs.length)) pos bs got ∧
      message.ComesBack got group object := by
  obtain ⟨requestId, hrequest, h⟩ := except_bind_eq_ok.mp h
  obtain ⟨trackAlias, halias, h⟩ := except_bind_eq_ok.mp h
  obtain ⟨tail, htail, h⟩ := except_bind_eq_ok.mp h
  cases hrequest
  cases h
  have hpush : message.pushTail (profileFor .d18) = .ok tail := htail
  unfold SubscribeOk.pushTail at hpush
  rw [hgroup, hobject, setLargest_d18] at hpush
  obtain ⟨_, ⟨⟩, hpush⟩ := except_bind_eq_ok.mp hpush
  obtain ⟨block, hblock, hpush⟩ := except_bind_eq_ok.mp hpush
  obtain ⟨exts, hexts, hpush⟩ := except_bind_eq_ok.mp hpush
  cases hpush
  have hcarries : CarriesLocation .subscribeOk
      (sentParams message.parameters ParamType.expires message.expires group object) := by
    apply CarriesLocation.setPlain _ (fun allowed h => by cases h) (location_fits group object)
      (by decide)
    apply hparams.setInt (fun allowed h => by cases h) _ (by decide)
    intro v _
    exact int_fits (by decide) (by decide) (fun lo hi h => by cases h)
  apply Exists.intro
  refine ⟨fun rest => ?reads, ?back⟩
  case reads =>
    have hend : pos + trackAlias.length + (block ++ exts).length =
        pos + ([] ++ trackAlias ++ (block ++ exts)).length := by
      simp only [List.length_append, List.length_nil]
      omega
    have htail := trackTail_before hcarries (get?_sentParams_largest _ _ _ _ _) hblock hprops hexts
      (fun params largest exts groupOrder =>
        ({ requestId := none, trackAlias := message.trackAlias
           expires := params.int? ParamType.expires, groupOrder := some groupOrder
           contentExists := some (if largest.isSome then 1 else 0)
           largestGroupId := largest.map Prod.fst, largestObjectId := largest.map Prod.snd
           parameters := (params.erase ParamType.expires).erase ParamType.largestObject
           trackExtensions := withoutOrder exts } : SubscribeOk)) hend rest
    exact ReadsBefore.bind_nil ((Reads.pure pos none).before _)
      (((pullVint_reads_of halias pos).before _).bind htail)
  case back =>
    refine ⟨rfl, ⟨rfl, rfl⟩, ?_, ?_, get?_token (by decide) _ _ _, rfl, ?_⟩
    · exact (int?_received hblock (by decide)).trans (int?_sentParams _ (by decide) _ _ _)
    · exact fun ptype hexpires hlargest htoken => get?_rest hblock hexpires hlargest htoken
    · intro type htype
      rw [extensionOf_withoutOrder _ htype, extensionOf_received, get?_sentProperties _ _ htype]

/-- `got` is `message` as it comes back: FORWARD and the group order stand in fields. -/
structure Publish.ComesBack (message got : Publish) (group object : Nat) : Prop where
  requestId : got.requestId = message.requestId
  name : got.trackNamespace = message.trackNamespace ∧ got.trackName = message.trackName
  trackAlias : got.trackAlias = message.trackAlias
  largest : got.largestGroupId = some group ∧ got.largestObjectId = some object
  forward : got.forward = message.forward.or (message.parameters.int? ParamType.forward)
  parameters : ∀ ptype, ptype ≠ ParamType.forward → ptype ≠ ParamType.largestObject →
    ptype ≠ ParamType.authToken → got.parameters.get? ptype = message.parameters.get? ptype
  token : got.parameters.get? ParamType.authToken =
    (receivedParams (profileFor .d18) message.parameters).get? ParamType.authToken
  groupOrder : got.groupOrder =
    some (publisherOrder (sentProperties message.trackExtensions message.groupOrder))
  properties : ∀ type, type ≠ defaultGroupOrder →
    extensionOf got.trackExtensions type = extensionOf message.trackExtensions type

theorem Publish.largest_reads {message : Publish} {group object : Nat}
    (hgroup : message.largestGroupId = some group) (hobject : message.largestObjectId = some object)
    (hname : FullNameFits message.trackNamespace message.trackName)
    (hforward : ∀ v ∈ message.forward, v ≤ 1)
    (hparams : CarriesLocation .publish message.parameters)
    (hprops : PropertiesFit (sentProperties message.trackExtensions message.groupOrder))
    {bs : Bytes} (h : message.body (profileFor .d18) = .ok bs) (pos : Nat) :
    ∃ got, Reads (Publish.deserialize (profileFor .d18) (pos + bs.length)) pos bs got ∧
      message.ComesBack got group object := by
  obtain ⟨requestId, hrequest, h⟩ := except_bind_eq_ok.mp h
  obtain ⟨name, hfull, h⟩ := except_bind_eq_ok.mp h
  obtain ⟨trackAlias, halias, h⟩ := except_bind_eq_ok.mp h
  obtain ⟨tail, htail, h⟩ := except_bind_eq_ok.mp h
  cases h
  have hpush : message.pushTail (profileFor .d18) = .ok tail := htail
  unfold Publish.pushTail at hpush
  rw [hgroup, hobject, setLargest_d18] at hpush
  obtain ⟨_, ⟨⟩, hpush⟩ := except_bind_eq_ok.mp hpush
  obtain ⟨block, hblock, hpush⟩ := except_bind_eq_ok.mp hpush
  obtain ⟨exts, hexts, hpush⟩ := except_bind_eq_ok.mp hpush
  cases hpush
  have hin : ∀ ptype ∈ [ParamType.forward, ParamType.largestObject], ∀ allowed,
      paramScope (profileFor .d18) (some (.message .publish)) = some allowed → ptype ∈ allowed := by
    rintro ptype hmem allowed ⟨⟩
    revert ptype
    decide
  have hcarries : CarriesLocation .publish
      (sentParams message.parameters ParamType.forward message.forward group object) := by
    apply CarriesLocation.setPlain _ (hin _ (by simp)) (location_fits group object) (by decide)
    apply hparams.setInt (hin _ (by simp)) _ (by decide)
    intro v hv
    apply int_fits (by decide) (by decide)
    rintro lo hi ⟨⟩
    exact ⟨Nat.zero_le v, hforward v hv⟩
  apply Exists.intro
  refine ⟨fun rest => ?reads, ?back⟩
  case reads =>
    have hassoc : requestId ++ name ++ trackAlias ++ (block ++ exts) =
        requestId ++ (name ++ (trackAlias ++ (block ++ exts))) := by
      simp only [List.append_assoc]
    rw [hassoc]
    have hend : pos + requestId.length + name.length + trackAlias.length + (block ++ exts).length =
        pos + (requestId ++ (name ++ (trackAlias ++ (block ++ exts)))).length := by
      simp only [List.length_append]
      omega
    have htail := trackTail_before hcarries (get?_sentParams_largest _ _ _ _ _) hblock hprops hexts
      (fun params largest exts groupOrder =>
        ({ requestId := message.requestId, trackNamespace := message.trackNamespace
           trackName := message.trackName, trackAlias := message.trackAlias
           groupOrder := some groupOrder
           contentExists := some (if largest.isSome then 1 else 0)
           largestGroupId := largest.map Prod.fst, largestObjectId := largest.map Prod.snd
           forward := params.int? ParamType.forward
           parameters := (params.erase ParamType.forward).erase ParamType.largestObject
           trackExtensions := withoutOrder exts } : Publish)) hend rest
    apply ((pullVint_reads_of hrequest pos).before _).bind
    apply ((pullFullTrackName_reads hname hfull _).before _).bind
    exact ((pullVint_reads_of halias _).before _).bind htail
  case back =>
    refine ⟨rfl, ⟨rfl, rfl⟩, rfl, ⟨rfl, rfl⟩, ?_, ?_, get?_token (by decide) _ _ _, rfl, ?_⟩
    · exact (int?_received hblock (by decide)).trans (int?_sentParams _ (by decide) _ _ _)
    · exact fun ptype hforward hlargest htoken => get?_rest hblock hforward hlargest htoken
    · intro type htype
      rw [extensionOf_withoutOrder _ htype, extensionOf_received, get?_sentProperties _ _ htype]

/-- The properties of a REQUEST_OK as they are looked up. -/
def propertiesOf (exts : Option KeyValuePairs) : Dict Nat KvpValue :=
  (exts.map KeyValuePairs.dict).getD .empty

theorem get?_propertiesOf (exts : Option KeyValuePairs) (type : Nat) :
    (propertiesOf exts).get? type = extensionOf exts type := by
  cases exts <;> rfl

/-- `got` is `message` as it comes back, the Location among its parameters. -/
structure RequestOk.ComesBack (message got : RequestOk) (group object : Nat) : Prop where
  largest : got.parameters.largest? = .ok (some (group, object))
  parameters : ∀ ptype, ptype ≠ ParamType.authToken →
    got.parameters.get? ptype = message.parameters.get? ptype
  token : got.parameters.get? ParamType.authToken =
    (receivedParams (profileFor .d18) message.parameters).get? ParamType.authToken
  properties : ∀ type,
    extensionOf got.trackProperties type = extensionOf message.trackProperties type

theorem RequestOk.largest_reads {message : RequestOk} {group object : Nat}
    (hloc : message.parameters.get? ParamType.largestObject =
      some (.one (.plain (.location group object))))
    (hparams : CarriesLocation .requestOk message.parameters)
    (hprops : PropertiesFit (propertiesOf message.trackProperties))
    {bs : Bytes} (h : message.body (profileFor .d18) = .ok bs) (pos : Nat) :
    ∃ got, Reads (RequestOk.deserialize (profileFor .d18) (pos + bs.length)) pos bs got ∧
      message.ComesBack got group object := by
  obtain ⟨requestId, hrequest, h⟩ := except_bind_eq_ok.mp h
  obtain ⟨block, hblock, h⟩ := except_bind_eq_ok.mp h
  obtain ⟨exts, hexts, h⟩ := except_bind_eq_ok.mp h
  cases hrequest
  cases h
  have hencode : extensionsEncode (profileFor .d18).vint
      (some { dict := propertiesOf message.trackProperties }) false true = .ok exts := by
    have hencode : extensionsEncode (profileFor .d18).vint message.trackProperties false true =
        .ok exts := hexts
    rw [← hencode]
    cases message.trackProperties <;> rfl
  refine ⟨{ requestId := none
            parameters := receivedParams (profileFor .d18) message.parameters
            trackProperties := receivedProperties (propertiesOf message.trackProperties) },
    ?_, largest?_received hloc, fun ptype htoken => get?_received hblock htoken, rfl, ?_⟩
  · intro rest
    obtain ⟨hblockReads, hextsReads, hempty⟩ :=
      params_props_before hparams hloc hblock hprops hencode pos rest
    have hpull : Reads (RequestOk.pullProperties (profileFor .d18) (pos + (block ++ exts).length))
        (pos + block.length) exts
        (receivedProperties (propertiesOf message.trackProperties)) := by
      apply Reads.tell_bind
      by_cases hnil : exts = []
      · rw [if_neg (by simp [hnil]), hempty hnil, hnil]
        exact Reads.pure _ none
      · have hlen := List.length_pos_iff.mpr hnil
        rw [if_pos ⟨rfl, by rw [List.length_append]; omega⟩]
        apply hextsReads.bind_last
        apply (Reads.ofExcept hprops.check_received _).bind_nil
        exact Reads.pure _ _
    apply ReadsBefore.bind_nil ((Reads.pure pos none).before _)
    apply hblockReads.bind
    exact (hpull.map fun props => ({ requestId := none
                                     parameters := receivedParams (profileFor .d18)
                                       message.parameters
                                     trackProperties := props } : RequestOk)).before rest
  · intro type
    rw [extensionOf_received, get?_propertiesOf]

/-- A LARGEST_OBJECT of draft 18 is never misread: every message that carries one decodes to what
was encoded, and the reading behind a length is taken only where the rest of the message does not
parse behind the inline one. -/
theorem largest_read_inline :
    (∀ (message : SubscribeOk) (group object : Nat), message.largestGroupId = some group →
      message.largestObjectId = some object → CarriesLocation .subscribeOk message.parameters →
      PropertiesFit (sentProperties message.trackExtensions message.groupOrder) →
      ∀ bs, message.body (profileFor .d18) = .ok bs → ∀ pos,
      ∃ got, Reads (SubscribeOk.deserialize (profileFor .d18) (pos + bs.length)) pos bs got ∧
        message.ComesBack got group object) ∧
    (∀ (message : Publish) (group object : Nat), message.largestGroupId = some group →
      message.largestObjectId = some object →
      FullNameFits message.trackNamespace message.trackName → (∀ v ∈ message.forward, v ≤ 1) →
      CarriesLocation .publish message.parameters →
      PropertiesFit (sentProperties message.trackExtensions message.groupOrder) →
      ∀ bs, message.body (profileFor .d18) = .ok bs → ∀ pos,
      ∃ got, Reads (Publish.deserialize (profileFor .d18) (pos + bs.length)) pos bs got ∧
        message.ComesBack got group object) ∧
    (∀ (message : RequestOk) (group object : Nat),
      message.parameters.get? ParamType.largestObject =
        some (.one (.plain (.location group object))) →
      CarriesLocation .requestOk message.parameters →
      PropertiesFit (propertiesOf message.trackProperties) →
      ∀ bs, message.body (profileFor .d18) = .ok bs → ∀ pos,
      ∃ got, Reads (RequestOk.deserialize (profileFor .d18) (pos + bs.length)) pos bs got ∧
        message.ComesBack got group object) ∧
    ∀ (bufEnd remaining prevKey : Nat) (cur next : Cursor) (loc : Nat × Nat),
      pullLocationParam (profileFor .d18) bufEnd remaining prevKey cur = .ok (loc, next) →
      ∃ inline stop, inlineLocation (profileFor .d18) bufEnd cur = some (inline, stop) ∧
        ((loc, next) = (inline, stop) ∨
          suffixParses (profileFor .d18) bufEnd remaining prevKey stop = false) := by
  refine ⟨?_, ?_, ?_, ?_⟩
  · intro message group object hgroup hobject hparams hprops bs h pos
    exact SubscribeOk.largest_reads hgroup hobject hparams hprops h pos
  · intro message group object hgroup hobject hname hforward hparams hprops bs h pos
    exact Publish.largest_reads hgroup hobject hname hforward hparams hprops h pos
  · intro message group object hloc hparams hprops bs h pos
    exact RequestOk.largest_reads hloc hparams hprops h pos
  · intro bufEnd remaining prevKey cur next loc h
    exact pullLocationParam_prefixed h

/-- The Location (2, 5) in front of a property of type 0x30, which together read as a Location
behind its length. -/
def collidingSubscribeOk : SubscribeOk :=
  { largestGroupId := some 2, largestObjectId := some 5, parameters := .empty
    trackExtensions := some { dict := .ofEntries [(0x30, .int 1)] } }

theorem collidingSubscribeOk_body :
    collidingSubscribeOk.body (profileFor .d18) = .ok [0, 1, 9, 2, 5, 0x30, 1] := by
  have hparams : serializeParams (profileFor .d18)
      (sentParams .empty ParamType.expires none 2 5) = .ok [1, 9, 2, 5] := by
    unfold serializeParams serializeWith paramItems
    rw [Dict.sorted_of_pairwise (by decide)]
    rfl
  have hprops : pushTrackExtensions (profileFor .d18) collidingSubscribeOk.trackExtensions none =
      .ok [0x30, 1] := by
    have hsorted : (sentProperties collidingSubscribeOk.trackExtensions none).sorted =
        [(0x30, .int 1)] := Dict.sorted_of_pairwise (by decide)
    unfold pushTrackExtensions extensionsEncode
    simp only [sentProperties] at hsorted
    simp only [hsorted]
    decide +kernel
  have htail : collidingSubscribeOk.pushTail (profileFor .d18) = .ok [1, 9, 2, 5, 0x30, 1] := by
    refine except_bind_eq_ok.mpr ⟨sentParams .empty ParamType.expires none 2 5, rfl, ?_⟩
    refine except_bind_eq_ok.mpr ⟨[1, 9, 2, 5], hparams, ?_⟩
    exact except_bind_eq_ok.mpr ⟨[0x30, 1], hprops, rfl⟩
  refine except_bind_eq_ok.mpr ⟨[], rfl, ?_⟩
  refine except_bind_eq_ok.mpr ⟨[0], by decide +kernel, ?_⟩
  exact except_bind_eq_ok.mpr ⟨[1, 9, 2, 5, 0x30, 1], htail, rfl⟩

theorem largest_read_inline_colliding :
    ∃ got, Reads (SubscribeOk.deserialize (profileFor .d18) 7) 0 [0, 1, 9, 2, 5, 0x30, 1] got ∧
      collidingSubscribeOk.ComesBack got 2 5 := by
  apply largest_read_inline.1 collidingSubscribeOk 2 5 rfl rfl _ _ _ collidingSubscribeOk_body 0
  · exact ⟨⟨by simp [collidingSubscribeOk, Dict.empty], by simp [collidingSubscribeOk, Dict.empty],
      by simp [collidingSubscribeOk, Dict.empty]⟩, by simp [collidingSubscribeOk, Dict.empty]⟩
  · constructor
    · decide
    · intro e he
      cases List.mem_singleton.mp he
      exact ⟨rfl, by rw [d18_bound]; decide⟩
    · decide

end Messages

end AioMoqt.Messages
