import AioMoqt.Media.Locmaf.Object

/-!
# Objects survive serialization

`parse_object` inverts `serialize_object`: whatever the sender manages to
serialize, the receiver reads back field by field.
-/

namespace AioMoqt.Media.Locmaf

open AioMoqt.Lib AioMoqt.Lib.BigEndian

theorem ofCode?_code (f : FieldId) : FieldId.ofCode? f.code = some f := by
  rcases f with id | id | _ | _ | _ <;> try cases id
  all_goals rfl

theorem code_scalar_even (id : ScalarId) : (FieldId.scalar id).code % 2 = 0 := by
  cases id <;> rfl

theorem code_list_odd (id : ListId) : (FieldId.list id).code % 2 = 1 := by
  cases id <;> rfl

theorem code_injective {f g : FieldId} (h : f.code = g.code) : f = g := by
  have hg := ofCode?_code g
  rw [← h, ofCode?_code] at hg
  exact Option.some.inj hg

theorem mem_all (f : FieldId) : f ∈ FieldId.all := by
  rcases f with id | id | _ | _ | _ <;> try cases id
  all_goals decide

theorem nodup_all : FieldId.all.Nodup := by decide

section Wire

variable {code : PrefixCode}

theorem pushInt_ok {v : Nat} {bs : Bytes} (h : pushInt code v = .ok bs) :
    v < code.bound ∧ bs = code.enc v := by
  unfold pushInt at h
  split_ifs at h with hv
  cases h
  exact ⟨hv, rfl⟩

theorem pushInts_ok {vs : List Nat} {bs : Bytes} (h : pushInts code vs = .ok bs) :
    (∀ v ∈ vs, v < code.bound) ∧ bs = code.encList vs := by
  unfold pushInts at h
  split_ifs at h with hvs
  cases h
  exact ⟨by simpa using hvs, rfl⟩

theorem pullInt_pushed {v : Nat} {bs : Bytes} (h : pushInt code v = .ok bs) (rest : Bytes) :
    pullInt code (bs ++ rest) = .ok (v, rest) := by
  obtain ⟨hv, rfl⟩ := pushInt_ok h
  simp [pullInt, code.dec_enc hv]

theorem pushed_length_pos {v : Nat} {bs : Bytes} (h : pushInt code v = .ok bs) :
    0 < bs.length := by
  obtain ⟨hv, rfl⟩ := pushInt_ok h
  exact code.length_enc_pos hv

theorem pushSized_ok {raw bs : Bytes} (h : pushSized code raw = .ok bs) :
    ∃ len, pushInt code raw.length = .ok len ∧ bs = len ++ raw := by
  unfold pushSized at h
  cases hlen : pushInt code raw.length with
  | error e => simp [hlen, bind, Except.bind] at h
  | ok len =>
      simp only [hlen, bind, Except.bind, pure, Except.pure, Except.ok.injEq] at h
      exact ⟨len, rfl, h.symm⟩

/-- A length-prefixed run of integers, as the list fields carry it. -/
theorem pushSizedInts_ok {vs : List Nat} {bs : Bytes}
    (h : (do pushSized code (← pushInts code vs)) = Except.ok bs) :
    ∃ len, (∀ v ∈ vs, v < code.bound) ∧
      pushInt code (code.encList vs).length = .ok len ∧ bs = len ++ code.encList vs := by
  cases hints : pushInts code vs with
  | error e => simp [hints, bind, Except.bind] at h
  | ok raw =>
      simp only [hints, bind, Except.bind] at h
      obtain ⟨hvs, rfl⟩ := pushInts_ok hints
      obtain ⟨len, hlen, hbs⟩ := pushSized_ok h
      exact ⟨len, hvs, hlen, hbs⟩

/-! ## Header fields -/

/-- Reading an odd field: its extent is cut out, then its value is read. -/
theorem parseFields_odd {f : FieldId} (hodd : f.code % 2 = 1) {idBytes lenBytes raw : Bytes}
    (hid : pushInt code f.code = .ok idBytes) (hlen : pushInt code raw.length = .ok lenBytes)
    {v : f.Wire} (hvalue : readValue code f raw = .ok (some v)) (rest : Bytes)
    {seen : List Nat} (hseen : f.code ∉ seen) (out : WireFields) (fuel : Nat) :
    parseFields code (fuel + 1) (idBytes ++ (lenBytes ++ raw) ++ rest) seen out =
      parseFields code fuel rest (f.code :: seen) (Function.update out f (some v)) := by
  obtain ⟨b, data, hcons⟩ : ∃ b data, idBytes ++ (lenBytes ++ raw) ++ rest = b :: data := by
    have hpos := pushed_length_pos hid
    refine List.exists_cons_of_ne_nil ?_
    intro hnil
    simp_all
  have hpullId : pullInt code (b :: data) = .ok (f.code, lenBytes ++ (raw ++ rest)) := by
    rw [← hcons, List.append_assoc, List.append_assoc]
    exact pullInt_pushed hid _
  have hpullLen := pullInt_pushed hlen (raw ++ rest)
  rw [hcons]
  simp only [parseFields, hpullId, bind, Except.bind, if_neg hseen,
    if_neg (show ¬ f.code % 2 = 0 by omega), hpullLen, ofCode?_code]
  rw [if_neg (by simp), List.take_left, List.drop_left, hvalue]

theorem parseFields_scalar {id : ScalarId} {v : Nat} {idBytes valueBytes : Bytes}
    (hid : pushInt code (FieldId.scalar id).code = .ok idBytes)
    (hvalue : pushInt code v = .ok valueBytes) (rest : Bytes) {seen : List Nat}
    (hseen : (FieldId.scalar id).code ∉ seen) (out : WireFields) (fuel : Nat) :
    parseFields code (fuel + 1) (idBytes ++ valueBytes ++ rest) seen out =
      parseFields code fuel rest ((FieldId.scalar id).code :: seen)
        (Function.update out (.scalar id) (some v)) := by
  obtain ⟨b, data, hcons⟩ : ∃ b data, idBytes ++ valueBytes ++ rest = b :: data := by
    have hpos := pushed_length_pos hid
    refine List.exists_cons_of_ne_nil ?_
    intro hnil
    simp_all
  have hpullId : pullInt code (b :: data) =
      .ok ((FieldId.scalar id).code, valueBytes ++ rest) := by
    rw [← hcons, List.append_assoc]
    exact pullInt_pushed hid _
  have hpullValue := pullInt_pushed hvalue rest
  rw [hcons]
  simp only [parseFields, hpullId, bind, Except.bind, if_neg hseen,
    if_pos (code_scalar_even id), hpullValue, ofCode?_code]

/-- Reading one serialized field back. -/
theorem parseFields_step {f : FieldId} {v : f.Wire} {idBytes valueBytes : Bytes}
    (hid : pushInt code f.code = .ok idBytes) (hvalue : pushValue code f v = .ok valueBytes)
    (rest : Bytes) {seen : List Nat} (hseen : f.code ∉ seen) (out : WireFields)
    (fuel : Nat) :
    parseFields code (fuel + 1) (idBytes ++ valueBytes ++ rest) seen out =
      parseFields code fuel rest (f.code :: seen) (Function.update out f (some v)) := by
  cases f with
  | scalar id => exact parseFields_scalar hid hvalue rest hseen out fuel
  | list id =>
      obtain ⟨len, hvs, hlen, rfl⟩ := pushSizedInts_ok hvalue
      exact parseFields_odd (code_list_odd id) hid hlen
        (by simp [readValue, code.decList_encList hvs]) rest hseen out fuel
  | compositionOffsets =>
      obtain ⟨len, hvs, hlen, rfl⟩ := pushSizedInts_ok hvalue
      exact parseFields_odd rfl hid hlen
        (by simp [readValue, code.decList_encList hvs]) rest hseen out fuel
  | ivs =>
      obtain ⟨len, hlen, rfl⟩ := pushSized_ok hvalue
      exact parseFields_odd rfl hid hlen rfl rest hseen out fuel
  | deleted =>
      obtain ⟨len, hvs, hlen, rfl⟩ := pushSizedInts_ok hvalue
      exact parseFields_odd rfl hid hlen
        (by simp [readValue, code.decList_encList hvs]) rest hseen out fuel

/-- Serializing one more present field. -/
theorem pushFields_cons {wire : WireFields} {f : FieldId} {ids : List FieldId} {bs : Bytes}
    {v : f.Wire} (hv : wire f = some v) (h : pushFields code wire (f :: ids) = .ok bs) :
    ∃ idBytes valueBytes rest, pushInt code f.code = .ok idBytes ∧
      pushValue code f v = .ok valueBytes ∧ pushFields code wire ids = .ok rest ∧
      bs = idBytes ++ valueBytes ++ rest := by
  simp only [pushFields, hv, bind, Except.bind] at h
  split at h
  · simp at h
  next idBytes hid =>
    split at h
    · simp at h
    next valueBytes hvalue =>
      split at h
      · simp at h
      next rest hrest =>
        cases h
        exact ⟨idBytes, valueBytes, rest, hid, hvalue, hrest, rfl⟩

theorem parseFields_pushFields {wire : WireFields} {ids : List FieldId} (hnodup : ids.Nodup) :
    ∀ {bs : Bytes}, pushFields code wire ids = .ok bs → ∀ {fuel : Nat}, bs.length ≤ fuel →
      ∀ (seen : List Nat), (∀ f ∈ ids, f.code ∉ seen) →
      ∀ (out : WireFields), (∀ f ∈ ids, out f = none) →
      parseFields code fuel bs seen out =
        .ok fun f => if f ∈ ids then wire f else out f := by
  induction ids with
  | nil =>
      intro bs h fuel _ seen _ out _
      cases h
      cases fuel <;> simp [parseFields]
  | cons f ids ih =>
      intro bs h fuel hfuel seen hseen out hout
      rw [List.nodup_cons] at hnodup
      cases hv : wire f with
      | none =>
          have htail : pushFields code wire ids = .ok bs := by simpa [pushFields, hv] using h
          rw [ih hnodup.2 htail hfuel seen (fun g hg => hseen g (by simp [hg])) out
            (fun g hg => hout g (by simp [hg]))]
          congr 1
          funext g
          by_cases hg : g = f
          · subst hg
            simp [hnodup.1, hv, hout g (by simp)]
          · simp [hg]
      | some v =>
          obtain ⟨idBytes, valueBytes, rest, hid, hvalue, hrest, rfl⟩ := pushFields_cons hv h
          have hpos := pushed_length_pos hid
          simp only [List.length_append] at hfuel
          obtain ⟨fuel, rfl⟩ : ∃ k, fuel = k + 1 := ⟨fuel - 1, by omega⟩
          rw [parseFields_step hid hvalue rest (hseen f (by simp)) out fuel]
          have hseen' : ∀ g ∈ ids, g.code ∉ f.code :: seen := by
            intro g hg hmem
            rcases List.mem_cons.mp hmem with heq | hmem
            · exact hnodup.1 (code_injective heq ▸ hg)
            · exact hseen g (by simp [hg]) hmem
          have hout' : ∀ g ∈ ids, Function.update out f (some v) g = none := by
            intro g hg
            have hne : g ≠ f := fun heq => hnodup.1 (heq ▸ hg)
            rw [Function.update_of_ne hne]
            exact hout g (by simp [hg])
          rw [ih hnodup.2 hrest (by omega) _ hseen' _ hout']
          congr 1
          funext g
          by_cases hg : g = f
          · subst hg
            simp [hnodup.1, hv]
          · simp [hg]

/-- A header the parser accepts in its position: field 27 only in a delta
header, field 10 only in a full one. -/
def HeaderOk (full : Bool) (wire : WireFields) : Prop :=
  if full then wire .deleted = none else wire (.scalar .baseMediaDecodeTime) = none

theorem parseProps_propsBytes {wire : WireFields} {full : Bool} {bs : Bytes}
    (h : propsBytes code wire = .ok bs) (hok : HeaderOk full wire) :
    parseProps code bs full = .ok wire := by
  have hparse := parseFields_pushFields nodup_all h le_rfl []
    (fun _ _ => by simp) (fun _ => none) (fun _ _ => rfl)
  have hwire : (fun f => if f ∈ FieldId.all then wire f else none) = wire := by
    funext f
    simp [mem_all f]
  rw [hwire] at hparse
  unfold parseProps
  rw [hparse]
  cases full <;> simp_all [HeaderOk, bind, Except.bind, pure, Except.pure]

/-! ## Elements -/

theorem pushGenBoxes_cons {box : GenBox} {boxes : List GenBox} {bs : Bytes}
    (h : pushGenBoxes code (box :: boxes) = .ok bs) :
    ∃ tag size rest, box.name.length = 4 ∧ 4 + box.payload.length ≤ 0xFFFFFFFB ∧
      pushInt code elementGenBox = .ok tag ∧
      pushInt code (4 + box.payload.length) = .ok size ∧
      pushGenBoxes code boxes = .ok rest ∧
      bs = tag ++ size ++ box.name ++ box.payload ++ rest := by
  simp only [pushGenBoxes] at h
  split_ifs at h with hname hsize
  simp only [bind, Except.bind] at h
  split at h
  · simp at h
  next tag htag =>
    split at h
    · simp at h
    next size hlen =>
      split at h
      · simp at h
      next rest hrest =>
        cases h
        exact ⟨tag, size, rest, by simpa using hname, by omega, htag, hlen, hrest, rfl⟩

theorem parseElements_genBoxes {boxes : List GenBox} :
    ∀ {bs : Bytes}, pushGenBoxes code boxes = .ok bs → ∀ (tail : Bytes) (gen : List GenBox)
      (fuel : Nat), bs.length + tail.length < fuel →
      ∃ fuel', tail.length < fuel' ∧
        parseElements code fuel (bs ++ tail) gen = parseElements code fuel' tail (gen ++ boxes) := by
  induction boxes with
  | nil =>
      intro bs h tail gen fuel hfuel
      cases h
      exact ⟨fuel, by simpa using hfuel, by simp⟩
  | cons box boxes ih =>
      intro bs h tail gen fuel hfuel
      obtain ⟨tag, size, rest, hname, hsize, htag, hlen, hrest, rfl⟩ := pushGenBoxes_cons h
      have hpos := pushed_length_pos htag
      simp only [List.length_append] at hfuel
      obtain ⟨fuel, rfl⟩ : ∃ k, fuel = k + 1 := ⟨fuel - 1, by omega⟩
      obtain ⟨fuel', hfuel', htail⟩ := ih hrest tail (gen ++ [box]) fuel (by omega)
      refine ⟨fuel', hfuel', ?_⟩
      have hdata : tag ++ size ++ box.name ++ box.payload ++ rest ++ tail =
          tag ++ (size ++ (box.name ++ (box.payload ++ (rest ++ tail)))) := by
        simp
      have hne : tag ++ (size ++ (box.name ++ (box.payload ++ (rest ++ tail)))) ≠ [] := by
        intro hnil
        simp_all
      rw [hdata]
      simp only [parseElements, if_neg hne, pullInt_pushed htag, pullInt_pushed hlen, bind,
        Except.bind, if_true]
      rw [if_neg (by omega), if_neg (by simp [hname])]
      have htake : (box.name ++ (box.payload ++ (rest ++ tail))).take 4 = box.name :=
        List.take_left' hname
      have hdrop : (box.name ++ (box.payload ++ (rest ++ tail))).drop 4 =
          box.payload ++ (rest ++ tail) := List.drop_left' hname
      have hdropAll : (box.name ++ (box.payload ++ (rest ++ tail))).drop
          (4 + box.payload.length) = rest ++ tail := by
        rw [← List.drop_drop, hdrop, List.drop_left]
      rw [htake, hdrop, hdropAll, Nat.add_sub_cancel_left, List.take_left, htail]
      simp

/-- Whatever serializes reads back. -/
theorem parseObject_serializeObject {obj : LocmafObject} {bs : Bytes}
    (h : serializeObject code obj = .ok bs)
    (hok : ∀ full wire gen mdat, obj = .moof full wire gen mdat → HeaderOk full wire) :
    parseObject code bs = .ok obj := by
  cases obj with
  | raw boxes =>
      simp only [serializeObject, bind, Except.bind, checkRawBoxes] at h
      split_ifs at h with hempty
      split at h
      · simp at h
      next hcheck =>
        split at hcheck
        · simp at hcheck
        next hfault =>
          split at h
          · simp at h
          next tag htag =>
            cases h
            have hpos := pushed_length_pos htag
            have hne : tag ++ boxes ≠ [] := by
              intro hnil
              simp_all
            unfold parseObject
            simp only [parseElements, if_neg hne, pullInt_pushed htag, bind, Except.bind,
              pure, Except.pure, elementRawBoxes, elementGenBox, elementFullHeader,
              elementDeltaHeader, checkRawBoxes, hfault, if_neg hempty]
            simp
  | moof full wire gen mdat =>
      simp only [serializeObject, bind, Except.bind] at h
      split at h
      · simp at h
      next genBytes hgen =>
        split at h
        · simp at h
        next props hprops =>
          split at h
          · simp at h
          next tag htag =>
            split at h
            · simp at h
            next sized hsized =>
              cases h
              obtain ⟨len, hlen, rfl⟩ := pushSized_ok hsized
              have hpos := pushed_length_pos htag
              unfold parseObject
              have hassoc : genBytes ++ tag ++ (len ++ props) ++ mdat =
                  genBytes ++ (tag ++ (len ++ (props ++ mdat))) := by simp
              rw [hassoc]
              obtain ⟨fuel, hfuel, hparse⟩ := parseElements_genBoxes hgen
                (tag ++ (len ++ (props ++ mdat))) []
                ((genBytes ++ (tag ++ (len ++ (props ++ mdat)))).length + 1) (by simp)
              rw [hparse]
              obtain ⟨fuel, rfl⟩ : ∃ k, fuel = k + 1 := ⟨fuel - 1, by omega⟩
              have hne : tag ≠ [] := by
                intro hnil
                simp [hnil] at hpos
              have hprops' := parseProps_propsBytes hprops (hok full wire gen mdat rfl)
              cases full <;>
                simp [parseElements, hne, pullInt_pushed htag, pullInt_pushed hlen,
                  bind, Except.bind, pure, Except.pure, elementGenBox, elementFullHeader,
                  elementDeltaHeader, hprops']

end Wire

end AioMoqt.Media.Locmaf
