import AioMoqt.Delivery.EncodeOnce

/-!
# Shared encodings are each peer's own

The bytes of an object are a function of the key and the extensions they are kept under, so the
shared list is a memo of that function.
-/

namespace AioMoqt.Delivery

open AioMoqt.Lib AioMoqt.Lib.BigEndian AioMoqt.Lib.Reader AioMoqt.Messages

/-! ## Extensions that encode alike -/

theorem entries_eq_of_keys {d e : Dict Nat KvpValue} (hkeys : d.keys = e.keys)
    (hvalues : ∀ entry ∈ d.entries, e.get? entry.1 = some entry.2) : d = e := by
  apply Dict.ext
  have hlength : d.entries.length = e.entries.length := by
    have hkeyed := congrArg List.length hkeys
    rw [Dict.keys, Dict.keys, List.length_map, List.length_map] at hkeyed
    exact hkeyed
  apply List.ext_getElem hlength
  intro i hd he
  -- the entries at a place have the same key, hence the same value
  have hkey : d.entries[i].1 = e.entries[i].1 := by
    have hat := List.getElem_of_eq hkeys (by simpa [Dict.keys] using hd)
    simpa [Dict.keys] using hat
  have hown : e.get? e.entries[i].1 = some e.entries[i].2 :=
    Dict.get?_eq_some.mpr (List.getElem_mem he)
  have hother := hvalues d.entries[i] (List.getElem_mem hd)
  rw [hkey, hown] at hother
  exact Prod.ext hkey (Option.some.inj hother).symm

theorem sameExtensions_dict {a b : Option KeyValuePairs} (h : sameExtensions a b = true) :
    a.map KeyValuePairs.dict = b.map KeyValuePairs.dict := by
  cases a with
  | none =>
      cases b with
      | none => rfl
      | some b => cases h
  | some a =>
      cases b with
      | none => cases h
      | some b =>
          unfold sameExtensions dictEq at h
          rw [Bool.and_eq_true, decide_eq_true_eq, decide_eq_true_eq] at h
          obtain ⟨⟨_, hvalues⟩, hkeys⟩ := h
          have hall : ∀ entry ∈ a.dict.entries, b.dict.get? entry.1 = some entry.2 := by
            intro entry hmem
            exact of_decide_eq_true (List.all_eq_true.mp hvalues entry hmem)
          exact congrArg some (entries_eq_of_keys hkeys hall)

theorem extensionsEncode_congr {code : PrefixCode} {a b : Option KeyValuePairs}
    (h : a.map KeyValuePairs.dict = b.map KeyValuePairs.dict) (withLength delta : Bool) :
    extensionsEncode code a withLength delta = extensionsEncode code b withLength delta := by
  cases a with
  | none =>
      cases b with
      | none => rfl
      | some b => cases h
  | some a =>
      cases b with
      | none => cases h
      | some b =>
          have hdict : a.dict = b.dict := Option.some.inj h
          unfold extensionsEncode
          dsimp only
          rw [hdict]

/-! ## The bytes under a key -/

section

variable (encode : ObjectEncoder) (obj : FanoutObject)

/-- The bytes of the object under a key and extensions. -/
def bytesUnder : EncodingKey × Option KeyValuePairs → Except MoqtError Bytes
  | (.stream vi64 kvpDelta extensionsPresent lastObjectId, extensions) =>
      encode vi64 (objectDelta lastObjectId obj.objectId) (extensions.map KeyValuePairs.dict)
        ObjectStatus.normal.code obj.payload extensionsPresent kvpDelta
  | (.datagram trackAlias priority vi64 merged delta, extensions) =>
      ({ trackAlias, groupId := obj.groupId, objectId := obj.objectId
         publisherPriority := priority, extensions, payload := obj.payload } :
        ObjectDatagram).push vi64 merged delta

theorem push_congr (datagram : ObjectDatagram) {a b : Option KeyValuePairs}
    (h : a.map KeyValuePairs.dict = b.map KeyValuePairs.dict) (vi64 merged delta : Bool) :
    ({ datagram with extensions := a } : ObjectDatagram).push vi64 merged delta =
      ({ datagram with extensions := b } : ObjectDatagram).push vi64 merged delta := by
  have hany : ∀ kvps : Option KeyValuePairs, (kvps.any fun kvps => kvps.dict.entries ≠ []) =
      ((kvps.map KeyValuePairs.dict).any fun dict => dict.entries ≠ []) := by
    intro kvps
    cases kvps <;> rfl
  have hhas : ({ datagram with extensions := a } : ObjectDatagram).hasExtensions =
      ({ datagram with extensions := b } : ObjectDatagram).hasExtensions := by
    change (a.any fun kvps => kvps.dict.entries ≠ []) = (b.any fun kvps => kvps.dict.entries ≠ [])
    rw [hany, hany, h]
  have htype : ({ datagram with extensions := a } : ObjectDatagram).typeVal merged =
      ({ datagram with extensions := b } : ObjectDatagram).typeVal merged := by
    unfold ObjectDatagram.typeVal
    rw [hhas]
    rfl
  unfold ObjectDatagram.push
  rw [htype, hhas]
  dsimp only
  rw [extensionsEncode_congr h]
  rfl

/-- Keys that count as the same have the same bytes. -/
theorem bytesUnder_same (a b : EncodingKey × Option KeyValuePairs)
    (h : sameEncoding a b = true) : bytesUnder encode obj a = bytesUnder encode obj b := by
  obtain ⟨key, exts⟩ := a
  obtain ⟨key', exts'⟩ := b
  obtain ⟨hkey, hexts⟩ := of_decide_eq_true h
  have hdict := sameExtensions_dict hexts
  have hsame : key = key' := hkey
  subst hsame
  cases key with
  | stream vi64 kvpDelta extensionsPresent lastObjectId =>
      unfold bytesUnder
      dsimp only
      rw [hdict]
  | datagram trackAlias priority vi64 merged delta =>
      exact push_congr { trackAlias, groupId := obj.groupId, objectId := obj.objectId
                         publisherPriority := priority, payload := obj.payload } hdict vi64 merged delta

theorem nextObjectBytes_eq (hdr : SubgroupHeader) (extensions : Option KeyValuePairs) :
    nextObjectBytes encode hdr obj.objectId obj.payload extensions =
      (bytesUnder encode obj (encodingState hdr, extensions)).map
        fun data => (data, hdr.advance obj.objectId) := by
  unfold nextObjectBytes
  cases hbytes : bytesUnder encode obj (encodingState hdr, extensions) with
  | error e =>
      change encode _ _ _ _ _ _ _ = .error e at hbytes
      rw [hbytes]
      rfl
  | ok data =>
      change encode _ _ _ _ _ _ _ = .ok data at hbytes
      rw [hbytes]
      rfl

theorem serialize_eq (delivery : DatagramDelivery) (extensions : Option KeyValuePairs) :
    (datagramOf obj delivery extensions).serialize delivery.prof =
      bytesUnder encode obj (datagramKey delivery, extensions) := rfl

/-! ## One peer -/

variable {encode obj}

/-- The shared list is a memo of `bytesUnder`. -/
abbrev Kept (encode : ObjectEncoder) (obj : FanoutObject) (encoded : Encodings) : Prop :=
  Memo.Holds (bytesUnder encode obj) encoded

theorem objectBytes_shared {encoded : Encodings} (hkept : Kept encode obj encoded)
    (hdr : SubgroupHeader) (extensions : Option KeyValuePairs) :
    ∃ encoded', Kept encode obj encoded' ∧
      objectBytes encode obj hdr extensions (some encoded) =
        ((objectBytes encode obj hdr extensions none).1,
          (objectBytes encode obj hdr extensions none).2.1, some encoded') := by
  unfold objectBytes
  dsimp only
  rw [nextObjectBytes_eq]
  cases hfound : cached encoded (encodingState hdr) extensions with
  | some data =>
      have hbytes := hkept.lookup (bytesUnder_same encode obj) hfound
      rw [hbytes]
      exact ⟨encoded, hkept, rfl⟩
  | none =>
      cases hbytes : bytesUnder encode obj (encodingState hdr, extensions) with
      | error e => exact ⟨encoded, hkept, rfl⟩
      | ok data =>
          have hstored := hkept.store hbytes encodingsMax
          exact ⟨cache encoded (encodingState hdr) extensions data, hstored, rfl⟩

theorem datagramBytes_shared {encoded : Encodings} (hkept : Kept encode obj encoded)
    (delivery : DatagramDelivery) (extensions : Option KeyValuePairs) :
    ∃ encoded', Kept encode obj encoded' ∧
      datagramBytes obj delivery extensions (some encoded) =
        ((datagramBytes obj delivery extensions none).1, some encoded') := by
  unfold datagramBytes
  dsimp only
  rw [serialize_eq encode]
  by_cases hshared : delivery.datagramsShared = true
  · rw [if_pos hshared]
    cases hfound : cached encoded (datagramKey delivery) extensions with
    | some data =>
        have hbytes := hkept.lookup (bytesUnder_same encode obj) hfound
        rw [hbytes]
        exact ⟨encoded, hkept, rfl⟩
    | none =>
        cases hbytes : bytesUnder encode obj (datagramKey delivery, extensions) with
        | error e => exact ⟨encoded, hkept, rfl⟩
        | ok data =>
            have hstored := hkept.store hbytes encodingsMax
            exact ⟨cache encoded (datagramKey delivery) extensions data, hstored, rfl⟩
  · rw [if_neg hshared]
    exact ⟨encoded, hkept, rfl⟩

theorem write_shared {encoded : Encodings} (hkept : Kept encode obj encoded) (writer : Writer) :
    ∃ encoded', Kept encode obj encoded' ∧
      writer.write encode obj (some encoded) = (writer.writeAlone encode obj, some encoded') := by
  cases writer with
  | stream hdr extensions =>
      obtain ⟨encoded', hkept', hbytes⟩ := objectBytes_shared hkept hdr extensions
      refine ⟨encoded', hkept', ?_⟩
      unfold Writer.writeAlone Writer.write
      dsimp only
      rw [hbytes]
  | datagram delivery extensions =>
      obtain ⟨encoded', hkept', hbytes⟩ := datagramBytes_shared hkept delivery extensions
      refine ⟨encoded', hkept', ?_⟩
      unfold Writer.writeAlone Writer.write
      dsimp only
      rw [hbytes]

/-! ## All peers -/

theorem writeAll_kept (writers : List Writer) :
    ∀ {encoded : Encodings}, Kept encode obj encoded →
      writeAll encode obj (some encoded) writers = writers.map (·.writeAlone encode obj) := by
  induction writers with
  | nil => intros; rfl
  | cons writer writers ih =>
      intro encoded hkept
      obtain ⟨encoded', hkept', hwrite⟩ := write_shared hkept writer
      rw [writeAll, hwrite, List.map_cons, ← ih hkept']

end

/-- Through one shared list every peer gets the bytes, and every header the state, that the object
gives it alone, whatever the peers' states, extensions and order. -/
theorem encode_once (encode : ObjectEncoder) (obj : FanoutObject) (writers : List Writer) :
    writeAll encode obj (some []) writers = writers.map (·.writeAlone encode obj) :=
  writeAll_kept writers Memo.Holds.nil

end AioMoqt.Delivery
