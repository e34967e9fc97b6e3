import AioMoqt.Messages.Proofs.ParamReads

/-!
# Parameter blocks with FILL_PARAMETERS

A block is read back instance by instance, the value of FILL_PARAMETERS as a block of its
own.  The decoder tries a count before the value of FILL_PARAMETERS and its length as sized
first, and these readings fit what the encoder writes: the tolerant ones are never reached.
-/

namespace AioMoqt.Messages

open AioMoqt.Lib AioMoqt.Lib.BigEndian AioMoqt.Lib.Reader

/-! ## The instances of a block -/

section Block

variable {α : Type} {prof : DraftProfile}
variable {pushValue : Nat → α → Except MoqtError Bytes}
variable {pullValue : Nat → Nat → Reader MoqtError α} {bufEnd : Nat} {back : Nat → α → α}

/-- The decoder of a value takes what the encoder wrote of it, up to `bufEnd`. -/
def ValueReads (pushValue : Nat → α → Except MoqtError Bytes)
    (pullValue : Nat → Nat → Reader MoqtError α) (bufEnd : Nat) (back : Nat → α → α)
    (item : Nat × α) : Prop :=
  ∀ bs, pushValue item.1 item.2 = .ok bs → ∀ remaining pos, pos + bs.length ≤ bufEnd →
    Reads (pullValue item.1 remaining) pos bs (back item.1 item.2)

/-- An instance as it comes back. -/
def receivedItem (back : Nat → α → α) (item : Nat × α) : Nat × α := (item.1, back item.1 item.2)

variable (scalar : α → Option Nat) (scope : Option ParamScope)

/-- An instance the decoder has no objection to. -/
structure InstanceFits (prof : DraftProfile) (back : Nat → α → α) (item : Nat × α) : Prop where
  type : checkParamType prof scope item.1 = .ok ()
  value : checkParamValue prof scope item.1 (scalar (back item.1 item.2)) = .ok ()

/-- The type on the wire and the type it stands for. -/
theorem wire_key {code : PrefixCode} {delta : Bool} {ptype prevKey : Nat} {key : Bytes}
    (h : pushVint code (if delta then (ptype : Int) - prevKey else ptype) = .ok key) :
    ∃ raw : Nat, pushVint code (raw : Int) = .ok key ∧
      (if delta then prevKey + raw else raw) = ptype := by
  cases delta with
  | false => exact ⟨ptype, h, rfl⟩
  | true =>
      rw [if_pos rfl] at h
      have hnonneg : (0 : Int) ≤ (ptype : Int) - prevKey := by
        unfold pushVint at h
        split at h
        · next hv => exact hv.1
        · cases h
      refine ⟨ptype - prevKey, ?_, ?_⟩
      · rwa [Int.ofNat_sub (by omega)]
      · rw [if_pos rfl]
        omega

/-- An instance whose value is read in front of `rest`. -/
theorem pullInstance_before {item : Nat × α} {prevKey remaining : Nat} {key value rest : Bytes}
    (hkey : pushVint prof.vint
      (if prof.paramsDeltaCoded then (item.1 : Int) - prevKey else item.1) = .ok key) {pos : Nat}
    (hvalue : ReadsBefore (pullValue item.1 remaining) (pos + key.length) value rest
      (back item.1 item.2))
    (hfits : InstanceFits scalar scope prof back item) {before : List (Nat × α)}
    (hfresh : item.1 ∈ before.map Prod.fst → item.1 ∈ repeatable)
    (hend : pos + (key ++ value).length ≤ bufEnd) :
    ReadsBefore (pullInstance prof scalar pullValue bufEnd scope remaining prevKey before) pos
      (key ++ value) rest (receivedItem back item) := by
  obtain ⟨raw, hraw, htype⟩ := wire_key hkey
  rw [List.length_append] at hend
  apply ((pullVint_reads_of hraw pos).before _).bind
  simp only [htype, hfits.type]
  apply hvalue.bind_last
  apply Reads.before
  apply Reads.tell_bind
  apply Reads.guard (by omega)
  simp only [hfits.value]
  apply Reads.guard
  · intro h
    exact h.2.2 (hfresh h.2.1)
  · exact Reads.pure _ (receivedItem back item)

/-- The type of the last instance, which the next one counts from. -/
def lastKey {β : Type} (prevKey : Nat) (items : List (Nat × β)) : Nat :=
  (items.map Prod.fst).getLastD prevKey

theorem lastKey_cons {β : Type} (prevKey : Nat) (item : Nat × β) (items : List (Nat × β)) :
    lastKey prevKey (item :: items) = lastKey item.1 items := by
  rw [lastKey, List.map_cons, List.getLastD_cons]
  rfl

/-- One instance is read off the front of a block that has not ended. -/
theorem pullInstances_step (declared : Nat) {n prevKey : Nat} {before : List (Nat × α)} {pos : Nat}
    {bs rest : Bytes} {got : Nat × α}
    (hread : ReadsBefore (pullInstance prof scalar pullValue bufEnd scope n prevKey before) pos bs
      rest got) (hpos : pos < bufEnd) :
    pullInstances prof scalar pullValue bufEnd scope declared (n + 1) prevKey before
        ⟨pos, bs ++ rest⟩ =
      pullInstances prof scalar pullValue bufEnd scope declared n got.1 (before ++ [got])
        ⟨pos + bs.length, rest⟩ := by
  have hloop : pullInstances prof scalar pullValue bufEnd scope declared (n + 1) prevKey before
      ⟨pos, bs ++ rest⟩ =
      (if bufEnd ≤ pos then
          Reader.fail (.violation
            s!"parameters declared {declared} but buffer exhausted at {pos}/{bufEnd}")
        else pullInstance prof scalar pullValue bufEnd scope n prevKey before >>= fun item =>
          pullInstances prof scalar pullValue bufEnd scope declared n item.1 (before ++ [item]))
        ⟨pos, bs ++ rest⟩ := rfl
  unfold ReadsBefore at hread
  rw [hloop, if_neg (by omega)]
  simp only [Bind.bind, StateT.bind, hread, Except.bind]

/-- The instances of a block are read off its front, whatever is declared behind them. -/
theorem pullInstances_front (declared m : Nat) {items : List (Nat × α)} :
    ∀ {prevKey : Nat} {bs : Bytes},
      pushItems prof pushValue prevKey (items.map fun item => (item.1, .one item.2)) = .ok bs →
      (∀ item ∈ items, ValueReads pushValue pullValue bufEnd back item) →
      (∀ item ∈ items, InstanceFits scalar scope prof back item) → ∀ before : List (Nat × α),
      (before.map Prod.fst ++ items.map Prod.fst).Pairwise (fun a b => a = b → a ∈ repeatable) →
      ∀ pos, pos + bs.length ≤ bufEnd → ∀ rest,
      pullInstances prof scalar pullValue bufEnd scope declared (items.length + m) prevKey before
          ⟨pos, bs ++ rest⟩ =
        pullInstances prof scalar pullValue bufEnd scope declared m (lastKey prevKey items)
          (before ++ items.map (receivedItem back)) ⟨pos + bs.length, rest⟩ := by
  induction items with
  | nil =>
      intro prevKey bs h _ _ before _ pos _ rest
      cases h
      simp [lastKey]
  | cons item items ih =>
      intro prevKey bs h hreads hfits before hfresh pos hend rest
      obtain ⟨key, hkey, h⟩ := except_bind_eq_ok.mp h
      obtain ⟨value, hvalue, h⟩ := except_bind_eq_ok.mp h
      obtain ⟨tail, htail, h⟩ := except_bind_eq_ok.mp h
      cases h
      have hpos := length_pushVint_pos hkey
      simp only [List.length_append] at hend
      have hhead : Reads (pullInstance prof scalar pullValue bufEnd scope (items.length + m) prevKey
          before) pos (key ++ value) (receivedItem back item) := by
        intro rest
        apply pullInstance_before scalar scope hkey
          (hreads item (by simp) value hvalue _ _ (by omega) rest) (hfits item (by simp))
        · intro hmem
          rw [List.pairwise_append] at hfresh
          exact hfresh.2.2 item.1 hmem item.1 (by simp) rfl
        · rw [List.length_append]
          omega
      have hsame : (before ++ [receivedItem back item]).map Prod.fst ++ items.map Prod.fst =
          before.map Prod.fst ++ (item :: items).map Prod.fst := by
        simp [receivedItem]
      have hrest := ih htail (fun other hother => hreads other (by simp [hother]))
        (fun other hother => hfits other (by simp [hother])) (before ++ [receivedItem back item])
        (by rwa [hsame]) (pos + (key ++ value).length)
        (by rw [List.length_append]; omega) rest
      have hlen : (item :: items).length + m = items.length + m + 1 := by
        rw [List.length_cons]
        omega
      have hstep := pullInstances_step scalar scope declared (hhead.before (tail ++ rest)) (by omega)
      rw [hlen, List.append_assoc (key ++ value) tail rest, hstep]
      have hstop : pos + (key ++ value).length + tail.length =
          pos + (key ++ value ++ tail).length := by
        rw [@List.length_append _ (key ++ value), Nat.add_assoc]
      rw [hstop] at hrest
      rw [List.append_assoc before, List.singleton_append] at hrest
      rw [lastKey_cons, List.map_cons]
      exact hrest

/-- An instance that is read has passed the checks. -/
theorem fits_of_pullInstance {item : Nat × α} {prevKey remaining : Nat} {key value : Bytes}
    (hkey : pushVint prof.vint
      (if prof.paramsDeltaCoded then (item.1 : Int) - prevKey else item.1) = .ok key) {pos : Nat}
    (hvalue : Reads (pullValue item.1 remaining) (pos + key.length) value (back item.1 item.2))
    {before : List (Nat × α)} {rest : Bytes} {result : (Nat × α) × Cursor}
    (h : pullInstance prof scalar pullValue bufEnd scope remaining prevKey before
      ⟨pos, key ++ (value ++ rest)⟩ = .ok result) : InstanceFits scalar scope prof back item := by
  obtain ⟨raw, hraw, htype⟩ := wire_key hkey
  unfold pullInstance at h
  rw [(pullVint_reads_of hraw pos).bind_apply] at h
  simp only [htype] at h
  cases htypeOk : checkParamType prof scope item.1 with
  | error e =>
      simp only [htypeOk] at h
      cases h
  | ok _ =>
      simp only [htypeOk] at h
      rw [hvalue.bind_apply, tell_bind_apply] at h
      split at h
      · cases h
      · cases hvalueOk : checkParamValue prof scope item.1 (scalar (back item.1 item.2)) with
        | error e =>
            simp only [hvalueOk] at h
            cases h
        | ok _ => exact ⟨htypeOk, hvalueOk⟩

theorem fits_of_pullInstances (declared : Nat) {items : List (Nat × α)} :
    ∀ {prevKey : Nat} {bs : Bytes},
      pushItems prof pushValue prevKey (items.map fun item => (item.1, .one item.2)) = .ok bs →
      (∀ item ∈ items, ValueReads pushValue pullValue bufEnd back item) →
      ∀ before : List (Nat × α),
      (before.map Prod.fst ++ items.map Prod.fst).Pairwise (fun a b => a = b → a ∈ repeatable) →
      ∀ pos, pos + bs.length ≤ bufEnd → ∀ rest result,
      pullInstances prof scalar pullValue bufEnd scope declared items.length prevKey before
        ⟨pos, bs ++ rest⟩ = .ok result →
      ∀ item ∈ items, InstanceFits scalar scope prof back item := by
  induction items with
  | nil => simp
  | cons item items ih =>
      intro prevKey bs h hreads before hfresh pos hend rest result hread
      obtain ⟨key, hkey, h⟩ := except_bind_eq_ok.mp h
      obtain ⟨value, hvalue, h⟩ := except_bind_eq_ok.mp h
      obtain ⟨tail, htail, h⟩ := except_bind_eq_ok.mp h
      cases h
      have hpos := length_pushVint_pos hkey
      simp only [List.length_append] at hend
      have htaken : Reads (pullValue item.1 items.length) (pos + key.length) value
          (back item.1 item.2) :=
        hreads item (by simp) value hvalue _ _ (by omega)
      -- the first instance was read, so it passed the checks
      have hfirst : InstanceFits scalar scope prof back item := by
        have hloop := hread
        rw [List.length_cons, pullInstances, tell_bind_apply, if_neg (by dsimp only; omega),
          List.append_assoc, List.append_assoc] at hloop
        obtain ⟨_, _, hinstance, -⟩ := bind_eq_ok.mp hloop
        exact fits_of_pullInstance scalar scope hkey htaken hinstance
      have hhead : ReadsBefore (pullInstance prof scalar pullValue bufEnd scope items.length
          prevKey before) pos (key ++ value) (tail ++ rest) (receivedItem back item) := by
        apply pullInstance_before scalar scope hkey (htaken _) hfirst
        · intro hmem
          rw [List.pairwise_append] at hfresh
          exact hfresh.2.2 item.1 hmem item.1 (by simp) rfl
        · rw [List.length_append]
          omega
      have hstep := pullInstances_step scalar scope declared hhead (by omega)
      rw [List.length_cons, List.append_assoc (key ++ value), hstep] at hread
      have hsame : (before ++ [receivedItem back item]).map Prod.fst ++ items.map Prod.fst =
          before.map Prod.fst ++ (item :: items).map Prod.fst := by
        simp [receivedItem]
      have hrest := ih htail (fun other hother => hreads other (by simp [hother])) _
        (by rwa [hsame]) _ (by rw [List.length_append]; omega) rest result hread
      intro other hother
      rcases List.mem_cons.mp hother with rfl | hother
      · exact hfirst
      · exact hrest other hother

/-- A block is read, and as it comes back, if the decoder objects to none of its instances. -/
theorem pullCounted_decides {items : List (Nat × α)} {count body : Bytes}
    (hcount : pushVint prof.vint items.length = .ok count)
    (hbody : pushItems prof pushValue 0 (items.map fun item => (item.1, .one item.2)) = .ok body)
    (hreads : ∀ item ∈ items, ValueReads pushValue pullValue bufEnd back item)
    (hfresh : (items.map Prod.fst).Pairwise fun a b => a = b → a ∈ repeatable) {pos : Nat}
    (hend : pos + (count ++ body).length ≤ bufEnd) :
    Decides (pullCounted prof scalar pullValue bufEnd scope) pos (count ++ body)
      (∀ item ∈ items, InstanceFits scalar scope prof back item)
      (items.map (receivedItem back)) := by
  rw [List.length_append] at hend
  apply (pullVint_reads_of hcount pos).bind_decides
  constructor
  · intro hfits rest
    have hfront := pullInstances_front scalar scope items.length 0 hbody hreads hfits []
      hfresh (pos + count.length) (by omega) rest
    rw [Nat.add_zero] at hfront
    rw [hfront, List.nil_append]
    rfl
  · intro rest result hread
    exact fits_of_pullInstances scalar scope items.length hbody hreads [] hfresh _ (by omega) rest
      result hread

/-- A block of ascending types is written if its values can be. -/
theorem pushItems_ok {items : List (Nat × α)} :
    ∀ prevKey : Nat, (prevKey :: items.map Prod.fst).Pairwise (· ≤ ·) →
      (∀ item ∈ items, item.1 ≤ fullTrackNameMax) →
      (∀ item ∈ items, ∃ bs, pushValue item.1 item.2 = .ok bs) →
      ∃ bs, pushItems prof pushValue prevKey (items.map fun item => (item.1, .one item.2)) =
        .ok bs := by
  induction items with
  | nil => exact fun _ _ _ _ => ⟨[], rfl⟩
  | cons item items ih =>
      intro prevKey hsorted hkeys hvalues
      rw [List.map_cons, List.pairwise_cons] at hsorted
      have hle := hsorted.1 item.1 (by simp)
      have hmax := hkeys item (by simp)
      obtain ⟨key, hkey⟩ : ∃ key, pushVint prof.vint
          (if prof.paramsDeltaCoded then (item.1 : Int) - prevKey else item.1) = .ok key := by
        split
        · rw [← Int.ofNat_sub hle]
          exact pushVint_short prof (by omega)
        · exact pushVint_short prof hmax
      obtain ⟨value, hvalue⟩ := hvalues item (by simp)
      obtain ⟨tail, htail⟩ := ih item.1 hsorted.2
        (fun other hother => hkeys other (by simp [hother]))
        fun other hother => hvalues other (by simp [hother])
      refine ⟨key ++ value ++ tail, ?_⟩
      rw [List.map_cons, pushItems, hkey]
      dsimp only
      rw [hvalue, htail]
      rfl

/-! ## The instances of a dictionary -/

/-- One instance for each value, by ascending type. -/
def instances (params : Dict Nat (Slot α)) : List (Nat × α) :=
  params.sorted.flatMap fun entry => entry.2.values.map fun v => (entry.1, v)

theorem mem_instances {params : Dict Nat (Slot α)} {item : Nat × α} :
    item ∈ instances params ↔ ∃ slot, (item.1, slot) ∈ params.entries ∧ item.2 ∈ slot.values := by
  unfold instances
  rw [List.mem_flatMap]
  constructor
  · rintro ⟨⟨ptype, slot⟩, hmem, hitem⟩
    obtain ⟨v, hv, rfl⟩ := List.mem_map.mp hitem
    exact ⟨slot, params.sorted_perm.mem_iff.mp hmem, hv⟩
  · rintro ⟨slot, hmem, hv⟩
    exact ⟨(item.1, slot), params.sorted_perm.mem_iff.mpr hmem, List.mem_map.mpr ⟨item.2, hv, rfl⟩⟩

/-- A block that is written has no list among its instances. -/
theorem one_of_pushItems {items : List (Nat × Slot α)} :
    ∀ {prevKey : Nat} {bs : Bytes}, pushItems prof pushValue prevKey items = .ok bs →
      ∀ item ∈ items, ∃ v, item.2 = .one v := by
  induction items with
  | nil => simp
  | cons item items ih =>
      intro prevKey bs h other hother
      obtain ⟨ptype, slot⟩ := item
      obtain ⟨key, hkey, h⟩ := except_bind_eq_ok.mp h
      cases slot with
      | many vs => cases h
      | one v =>
          obtain ⟨value, hvalue, h⟩ := except_bind_eq_ok.mp h
          obtain ⟨tail, htail, h⟩ := except_bind_eq_ok.mp h
          rcases List.mem_cons.mp hother with rfl | hother
          · exact ⟨v, rfl⟩
          · exact ih htail other hother

/-- What one entry of a dictionary is written as. -/
def entryItems (prof : DraftProfile) (entry : Nat × Slot α) : List (Nat × Slot α) :=
  match entry.2 with
  | .many vs => if prof.draft20 ∧ entry.1 ∈ repeatable then vs.map fun v => (entry.1, .one v)
      else [entry]
  | .one _ => [entry]

/-- A list is written only of a parameter that may be repeated. -/
structure Repeats (prof : DraftProfile) (entry : Nat × Slot α) : Prop where
  many : ∀ vs, entry.2 = .many vs → prof.draft20 = true ∧ entry.1 ∈ repeatable

theorem repeats_of_one {entry : Nat × Slot α}
    (h : ∀ item ∈ entryItems prof entry, ∃ v, item.2 = .one v) : Repeats prof entry := by
  constructor
  intro vs hvs
  by_contra hnot
  have hitems : entryItems prof entry = [entry] := by
    unfold entryItems
    simp only [hvs, if_neg hnot]
  obtain ⟨v, hv⟩ := h entry (by simp [hitems])
  rw [hvs] at hv
  cases hv

theorem entryItems_eq {entry : Nat × Slot α} (h : Repeats prof entry) :
    entryItems prof entry = entry.2.values.map fun v => (entry.1, .one v) := by
  obtain ⟨ptype, slot⟩ := entry
  cases slot with
  | one v => rfl
  | many vs =>
      unfold entryItems
      exact if_pos (h.many vs rfl)

/-- A dictionary that is written: its lists are of repeatable parameters, and what goes on
the wire are its instances. -/
theorem paramItems_instances {params : Dict Nat (Slot α)} (hdelta : prof.paramsDeltaCoded = true)
    {prevKey : Nat} {bs : Bytes} (h : pushItems prof pushValue prevKey (paramItems prof params) = .ok bs) :
    (∀ entry ∈ params.entries, Repeats prof entry) ∧
      paramItems prof params = (instances params).map fun item => (item.1, .one item.2) := by
  have hitems : paramItems prof params = params.sorted.flatMap (entryItems prof) := by
    unfold paramItems
    rw [if_pos hdelta]
    rfl
  have hone := one_of_pushItems h
  have hrepeats : ∀ entry ∈ params.sorted, Repeats prof entry := by
    intro entry hmem
    apply repeats_of_one
    intro item hitem
    apply hone
    rw [hitems]
    exact List.mem_flatMap.mpr ⟨entry, hmem, hitem⟩
  constructor
  · intro entry hmem
    exact hrepeats entry (params.sorted_perm.mem_iff.mpr hmem)
  · rw [hitems, instances, List.map_flatMap]
    apply List.flatMap_congr
    intro entry hmem
    rw [entryItems_eq (hrepeats entry hmem), List.map_map]
    rfl

/-- A type recurs among the instances only if it is repeatable. -/
theorem instances_fresh {params : Dict Nat (Slot α)}
    (hrepeats : ∀ entry ∈ params.entries, Repeats prof entry) :
    ((instances params).map Prod.fst).Pairwise fun a b => a = b → a ∈ repeatable := by
  have hstrict := params.sorted_strict
  rw [List.pairwise_map] at hstrict ⊢
  unfold instances
  rw [List.pairwise_flatMap]
  constructor
  · intro entry hmem
    rw [List.pairwise_map]
    cases hslot : entry.2 with
    | one v => exact List.pairwise_singleton _ _
    | many vs =>
        have hrep := (hrepeats entry (params.sorted_perm.mem_iff.mp hmem)).many vs hslot
        exact List.pairwise_of_forall fun _ _ _ => hrep.2
  · refine hstrict.imp ?_
    intro a b hlt x hx y hy heq
    obtain ⟨v, _, rfl⟩ := List.mem_map.mp hx
    obtain ⟨w, _, rfl⟩ := List.mem_map.mp hy
    dsimp only at heq
    omega

/-! ## The dictionary of the instances -/

/-- What the instances of one type leave: a list of a range filter, and of any type that came
more than once. -/
def Slot.collected (prof : DraftProfile) (ptype : Nat) : List α → Slot α
  | [v] => if prof.draft20 ∧ ptype ∈ rangeFilters then .many [v] else .one v
  | vs => .many vs

/-- A dictionary as it comes back: by ascending type, each value as it is received. -/
def arrived (prof : DraftProfile) (back : Nat → α → α) (params : Dict Nat (Slot α)) :
    Dict Nat (Slot α) :=
  params.ascending.mapWithKey fun ptype slot =>
    Slot.collected prof ptype (slot.values.map (back ptype))

theorem get?_arrived (params : Dict Nat (Slot α)) (ptype : Nat) :
    (arrived prof back params).get? ptype =
      (params.get? ptype).map fun slot => Slot.collected prof ptype (slot.values.map (back ptype)) := by
  rw [arrived, Dict.get?_mapWithKey, Dict.get?_ascending]

/-- The first instance of a type. -/
theorem storeParam_new {params : Dict Nat (Slot α)} {ptype : Nat} (h : ptype ∉ params.keys) (v : α) :
    storeParam prof params (ptype, v) = params.insert ptype (Slot.collected prof ptype [v]) := by
  unfold storeParam Slot.collected
  by_cases hdraft : prof.draft20
  · simp [hdraft, Dict.get?_eq_none h]
  · simp [hdraft]

/-- One more instance of a type. -/
theorem storeParam_more (hdraft : prof.draft20 = true) (params : Dict Nat (Slot α)) (ptype : Nat)
    {vs : List α} (hvs : vs ≠ []) (v : α) :
    storeParam prof (params.insert ptype (Slot.collected prof ptype vs)) (ptype, v) =
      params.insert ptype (Slot.collected prof ptype (vs ++ [v])) := by
  unfold storeParam
  rw [if_pos hdraft, Dict.get?_insert, if_pos rfl]
  match vs with
  | [] => exact absurd rfl hvs
  | [first] =>
      simp only [Slot.collected, hdraft, true_and, List.singleton_append]
      by_cases hrange : ptype ∈ rangeFilters
      · simp only [if_pos hrange, Dict.insert_insert, List.singleton_append]
      · simp only [if_neg hrange, Dict.insert_insert]
  | first :: second :: rest =>
      simp only [Slot.collected, List.cons_append, Dict.insert_insert]

theorem foldl_storeParam_more (hdraft : prof.draft20 = true) (params : Dict Nat (Slot α))
    (ptype : Nat) (vs : List α) : ∀ {prior : List α}, prior ≠ [] →
    (vs.map fun v => (ptype, v)).foldl (storeParam prof)
        (params.insert ptype (Slot.collected prof ptype prior)) =
      params.insert ptype (Slot.collected prof ptype (prior ++ vs)) := by
  induction vs with
  | nil =>
      intro prior _
      rw [List.append_nil]
      rfl
  | cons v vs ih =>
      intro prior hprior
      rw [List.map_cons, List.foldl_cons, storeParam_more hdraft params ptype hprior v,
        ih (by simp), List.append_assoc, List.singleton_append]

/-- The instances of one entry. -/
theorem foldl_storeParam {params : Dict Nat (Slot α)} {ptype : Nat} (h : ptype ∉ params.keys)
    {vs : List α} (hvs : vs ≠ []) (hmany : prof.draft20 = true ∨ vs.length = 1) :
    (vs.map fun v => (ptype, v)).foldl (storeParam prof) params =
      params.insert ptype (Slot.collected prof ptype vs) := by
  cases vs with
  | nil => exact absurd rfl hvs
  | cons v vs =>
      rw [List.map_cons, List.foldl_cons, storeParam_new h]
      rcases hmany with hdraft | hone
      · exact foldl_storeParam_more hdraft params ptype vs (by simp)
      · have hnil : vs = [] := by simpa using hone
        subst hnil
        rfl

/-- Entries put in one after the other, each as its instances. -/
theorem foldl_instances (entries : List (Nat × Slot α)) :
    ∀ {params : Dict Nat (Slot α)}, (entries.map Prod.fst).Nodup →
      (∀ entry ∈ entries, entry.1 ∉ params.keys) → (∀ entry ∈ entries, entry.2.values ≠ []) →
      (∀ entry ∈ entries, prof.draft20 = true ∨ entry.2.values.length = 1) →
      ((entries.flatMap fun entry => entry.2.values.map fun v => (entry.1, v)).map
          (receivedItem back)).foldl (storeParam prof) params =
        params.insertAll (entries.map fun entry =>
          (entry.1, Slot.collected prof entry.1 (entry.2.values.map (back entry.1)))) := by
  induction entries with
  | nil => intros; rfl
  | cons entry entries ih =>
      intro params hnodup hnew hvalues hmany
      rw [List.map_cons, List.nodup_cons] at hnodup
      have hfirst : (entry.2.values.map fun v => (entry.1, v)).map (receivedItem back) =
          (entry.2.values.map (back entry.1)).map fun v => (entry.1, v) := by
        rw [List.map_map, List.map_map]
        rfl
      have hsome : entry.2.values.map (back entry.1) ≠ [] := by
        simpa using hvalues entry (by simp)
      have hlist : prof.draft20 = true ∨ (entry.2.values.map (back entry.1)).length = 1 := by
        simpa using hmany entry (by simp)
      have hfold := foldl_storeParam (hnew entry (by simp)) hsome hlist
      rw [List.flatMap_cons, List.map_append, List.foldl_append, hfirst, hfold, List.map_cons,
        Dict.insertAll_cons]
      apply ih hnodup.2
      · intro other hother
        rw [Dict.keys_insert, if_neg (hnew entry (by simp)), List.mem_append, not_or,
          List.mem_singleton]
        refine ⟨hnew other (by simp [hother]), ?_⟩
        intro heq
        exact hnodup.1 (heq ▸ List.mem_map_of_mem hother)
      · exact fun other hother => hvalues other (by simp [hother])
      · exact fun other hother => hmany other (by simp [hother])

/-- The instances of a dictionary leave the dictionary as it comes back. -/
theorem collectParams_instances {params : Dict Nat (Slot α)}
    (hvalues : ∀ entry ∈ params.entries, entry.2.values ≠ [])
    (hrepeats : ∀ entry ∈ params.entries, Repeats prof entry) :
    collectParams prof ((instances params).map (receivedItem back)) = arrived prof back params := by
  have hmem : ∀ entry ∈ params.sorted, entry ∈ params.entries := fun entry h =>
    params.sorted_perm.mem_iff.mp h
  unfold collectParams instances
  rw [foldl_instances params.sorted params.ascending.nodup]
  · exact Dict.ofEntries_entries (arrived prof back params)
  · intro entry _
    exact List.not_mem_nil
  · exact fun entry h => hvalues entry (hmem entry h)
  · intro entry h
    cases hslot : entry.2 with
    | one v => exact Or.inr rfl
    | many vs => exact Or.inl ((hrepeats entry (hmem entry h)).many vs hslot).1

/-! ## A block -/

/-- A dictionary that the block of a scope may carry. -/
structure Admissible (prof : DraftProfile) (scope : ParamScope) (fits : Nat → α → Prop)
    (params : Dict Nat (Slot α)) : Prop where
  inScope : ∀ allowed, paramScope prof (some scope) = some allowed →
    ∀ entry ∈ params.entries, entry.1 ∈ allowed
  nonempty : ∀ entry ∈ params.entries, entry.2.values ≠ []
  fits : ∀ entry ∈ params.entries, ∀ v ∈ entry.2.values, fits entry.1 v

theorem pushValue_of_pushItems {items : List (Nat × α)} :
    ∀ {prevKey : Nat} {bs : Bytes},
      pushItems prof pushValue prevKey (items.map fun item => (item.1, .one item.2)) = .ok bs →
      ∀ item ∈ items, ∃ value, pushValue item.1 item.2 = .ok value := by
  induction items with
  | nil => simp
  | cons item items ih =>
      intro prevKey bs h other hother
      obtain ⟨key, hkey, h⟩ := except_bind_eq_ok.mp h
      obtain ⟨value, hvalue, h⟩ := except_bind_eq_ok.mp h
      obtain ⟨tail, htail, h⟩ := except_bind_eq_ok.mp h
      rcases List.mem_cons.mp hother with rfl | hother
      · exact ⟨value, hvalue⟩
      · exact ih htail other hother

theorem checkParamType_ok {scope : Option ParamScope} {ptype : Nat} (hknown : paramKind prof ptype ≠ none)
    (hscope : ∀ allowed, paramScope prof scope = some allowed → ptype ∈ allowed) :
    checkParamType prof scope ptype = .ok () := by
  unfold checkParamType
  rw [if_neg (fun h => hknown h.2), if_neg]
  rw [Option.any_eq_true]
  rintro ⟨allowed, hallowed, hnot⟩
  exact of_decide_eq_true hnot (hscope allowed hallowed)

/-- The instances of an admissible dictionary pass the checks of the decoder. -/
theorem Admissible.instanceFits {scope : ParamScope} {fits : Nat → α → Prop}
    {params : Dict Nat (Slot α)} (hadm : Admissible prof scope fits params)
    (hknown : ∀ item ∈ instances params, paramKind prof item.1 ≠ none)
    (hcheck : ∀ ptype v, fits ptype v →
      checkParamValue prof (some scope) ptype (scalar (back ptype v)) = .ok ()) :
    ∀ item ∈ instances params, InstanceFits scalar (some scope) prof back item := by
  intro item hitem
  obtain ⟨slot, hslot, hv⟩ := mem_instances.mp hitem
  constructor
  · apply checkParamType_ok (hknown item hitem)
    intro allowed hallowed
    exact hadm.inScope allowed hallowed _ hslot
  · exact hcheck item.1 item.2 (hadm.fits _ hslot item.2 hv)

/-- The instances of an admissible dictionary are read off its block, and leave the dictionary
as it comes back. -/
theorem pullCounted_instances {scope : ParamScope} {fits : Nat → α → Prop}
    {params : Dict Nat (Slot α)} (hdelta : prof.paramsDeltaCoded = true)
    (hadm : Admissible prof scope fits params)
    (hknown : ∀ ptype v bs, pushValue ptype v = .ok bs → paramKind prof ptype ≠ none)
    (hcheck : ∀ ptype v, fits ptype v →
      checkParamValue prof (some scope) ptype (scalar (back ptype v)) = .ok ())
    (hreads : ∀ ptype v, fits ptype v → ValueReads pushValue pullValue bufEnd back (ptype, v))
    {bs : Bytes} (h : serializeWith prof pushValue params = .ok bs) {pos : Nat}
    (hend : pos + bs.length ≤ bufEnd) :
    Reads (pullCounted prof scalar pullValue bufEnd (some scope)) pos bs
        ((instances params).map (receivedItem back)) ∧
      collectParams prof ((instances params).map (receivedItem back)) =
        arrived prof back params := by
  obtain ⟨count, hcount, h⟩ := except_bind_eq_ok.mp h
  obtain ⟨body, hbody, h⟩ := except_bind_eq_ok.mp h
  cases h
  obtain ⟨hrepeats, hitems⟩ := paramItems_instances hdelta hbody
  rw [hitems] at hcount hbody
  rw [List.length_map] at hcount
  constructor
  · apply (pullCounted_decides scalar (some scope) hcount hbody _ (instances_fresh hrepeats)
      hend).reads
    · apply hadm.instanceFits scalar _ hcheck
      intro item hitem
      obtain ⟨value, hvalue⟩ := pushValue_of_pushItems hbody item hitem
      exact hknown item.1 item.2 value hvalue
    · intro item hitem
      obtain ⟨slot, hslot, hv⟩ := mem_instances.mp hitem
      exact hreads item.1 item.2 (hadm.fits _ hslot item.2 hv)
  · exact collectParams_instances hadm.nonempty hrepeats

end Block

/-! ## FILL_PARAMETERS -/

section Fill

variable {prof : DraftProfile}

/-- A value as it comes back; that of FILL_PARAMETERS is a block of its own. -/
def ParamValue.received (prof : DraftProfile) (ptype : Nat) : ParamValue → ParamValue
  | .plain value => .plain (value.received prof ptype)
  | .fill params => .fill (arrived prof (PlainValue.received prof) params)

/-- A value the decoder has no objection to. -/
def ParamValue.Fits (prof : DraftProfile) (ptype : Nat) : ParamValue → Prop
  | .plain value => value.Fits prof ptype
  | .fill params =>
      Admissible prof .fillParameters (fun ptype value => value.Fits prof ptype) params

/-- The parameters of a message as they come back. -/
def receivedParams (prof : DraftProfile) (params : Params) : Params :=
  arrived prof (ParamValue.received prof) params

theorem draft18_of_draft20 (h : prof.draft20 = true) : prof.draft18 = true :=
  (Bool.and_eq_true_iff.mp h).1

/-- The counted reading of FILL_PARAMETERS ends where its block ends. -/
theorem pullFillCounted_reads (hdraft : prof.draft20 = true) (hdelta : prof.paramsDeltaCoded = true)
    {params : Dict Nat (Slot PlainValue)}
    (hadm : Admissible prof .fillParameters (fun ptype value => value.Fits prof ptype) params)
    {bs : Bytes} (h : serializeWith prof (pushPlainValue prof) params = .ok bs) {pos valueEnd : Nat}
    (hend : pos + bs.length ≤ valueEnd) :
    Reads (pullFillCounted prof valueEnd) pos bs
        ((instances params).map (receivedItem (PlainValue.received prof))) ∧
      collectParams prof ((instances params).map (receivedItem (PlainValue.received prof))) =
        arrived prof (PlainValue.received prof) params := by
  have h18 := draft18_of_draft20 hdraft
  apply pullCounted_instances PlainValue.scalar hdelta hadm _ _ _ h hend
  · exact fun ptype v bs hpush => paramKind_of_push h18 hpush
  · intro ptype v hfits
    rw [PlainValue.scalar_received]
    exact hfits.check _
  · intro ptype v hfits bs hpush remaining at' hat
    exact pullPlainValue_reads h18 (fun _ => hdraft) hfits hpush hat remaining

/-- So it is the reading that is taken, whatever the first integer is. -/
theorem pullFillValue_reads {params : Dict Nat (Slot PlainValue)} {bs : Bytes}
    (h : serializeWith prof (pushPlainValue prof) params = .ok bs)
    {items : List (Nat × PlainValue)} {pos : Nat}
    (hreads : Reads (pullFillCounted prof (pos + bs.length)) pos bs items) :
    Reads (pullFillValue prof (pos + bs.length)) pos bs items := by
  obtain ⟨count, hcount, h⟩ := except_bind_eq_ok.mp h
  obtain ⟨body, hbody, h⟩ := except_bind_eq_ok.mp h
  cases h
  intro rest
  have hfirst := pullVint_reads_of hcount pos (body ++ rest)
  have hread := hreads rest
  rw [← List.append_assoc] at hfirst
  unfold pullFillValue
  simp only [hfirst, hread]
  split_ifs <;> rfl

theorem pullFillSized_reads {params : Dict Nat (Slot PlainValue)} {inner : Bytes}
    (hinner : serializeWith prof (pushPlainValue prof) params = .ok inner)
    {items : List (Nat × PlainValue)}
    (hreads : ∀ pos, Reads (pullFillCounted prof (pos + inner.length)) pos inner items) {bs : Bytes}
    (h : pushSized prof inner = .ok bs) {pos bufEnd : Nat} (hend : pos + bs.length ≤ bufEnd) :
    Reads (pullFillSized prof bufEnd) pos bs items := by
  obtain ⟨len, hlen, h⟩ := except_bind_eq_ok.mp h
  cases h
  have hpos : 0 < inner.length := by
    obtain ⟨count, hcount, hinner⟩ := except_bind_eq_ok.mp hinner
    obtain ⟨body, hbody, hinner⟩ := except_bind_eq_ok.mp hinner
    cases hinner
    have hcountpos := length_pushVint_pos hcount
    rw [List.length_append]
    omega
  rw [List.length_append] at hend
  apply (pullVint_reads_of hlen pos).bind
  apply Reads.tell_bind
  apply Reads.guard (by omega)
  rw [if_neg (by omega)]
  apply (pullFillValue_reads hinner (hreads _)).bind_last
  apply Reads.tell_bind
  exact Reads.guard (by simp) (Reads.pure _ items)

/-- FILL_PARAMETERS is written as its block behind its length. -/
theorem pushParamValue_fill {ptype : Nat} {params : Dict Nat (Slot PlainValue)} {bs : Bytes}
    (h : pushParamValue prof ptype (.fill params) = .ok bs) :
    (prof.draft18 = true ∧ paramKind prof ptype = some .fill) ∧
      ∃ inner, serializeWith prof (pushPlainValue prof) params = .ok inner ∧
        pushSized prof inner = .ok bs := by
  unfold pushParamValue at h
  by_cases hfill : prof.draft18 = true ∧ paramKind prof ptype = some .fill
  · simp only [if_pos hfill] at h
    exact ⟨hfill, except_bind_eq_ok.mp h⟩
  · simp only [if_neg hfill] at h
    cases h

theorem pushParamValue_plain (ptype : Nat) (v : PlainValue) :
    pushParamValue prof ptype (.plain v) = pushPlainValue prof ptype v := rfl

/-- A value that is written is not one of FILL_PARAMETERS, which has a block. -/
theorem pullParamValue_reads {ptype : Nat} {value back : PlainValue} {bs : Bytes}
    (h : pushPlainValue prof ptype value = .ok bs) {bufEnd remaining pos : Nat}
    (hread : Reads (pullPlainValue prof bufEnd ptype remaining) pos bs back) (fillCounted : Bool) :
    Reads (pullParamValue prof fillCounted bufEnd ptype remaining) pos bs (.plain back) := by
  have hnofill : ¬ (prof.draft18 = true ∧ paramKind prof ptype = some .fill) := by
    rintro ⟨hdraft, hkind⟩
    simp [pushPlainValue, hdraft, hkind, pushKindValue] at h
  unfold pullParamValue
  rw [if_neg hnofill]
  exact hread.map _

theorem paramValue_reads (hdraft : prof.draft20 = true) (hdelta : prof.paramsDeltaCoded = true)
    {ptype : Nat} {value : ParamValue} (hfits : value.Fits prof ptype) (bufEnd : Nat) :
    ValueReads (pushParamValue prof) (pullParamValue prof false bufEnd) bufEnd
      (ParamValue.received prof) (ptype, value) := by
  have h18 := draft18_of_draft20 hdraft
  intro bs h remaining pos hend
  cases value with
  | plain value =>
      have hpush : pushPlainValue prof ptype value = .ok bs := h
      exact pullParamValue_reads hpush
        (pullPlainValue_reads h18 (fun _ => hdraft) hfits hpush hend remaining) false
  | fill params =>
      obtain ⟨hfill, inner, hinner, hsized⟩ := pushParamValue_fill h
      have hcounted := fun start =>
        pullFillCounted_reads hdraft hdelta hfits hinner (Nat.le_refl (start + inner.length))
      have hread := (pullFillSized_reads hinner (fun start => (hcounted start).1) hsized hend).map
        fun items => ParamValue.fill (collectParams prof items)
      rw [(hcounted 0).2] at hread
      unfold pullParamValue
      rw [if_pos hfill]
      exact hread

theorem ParamValue.Fits.check {ptype : Nat} {value : ParamValue} (hfits : value.Fits prof ptype)
    (scope : Option ParamScope) :
    checkParamValue prof scope ptype (value.received prof ptype).scalar = .ok () := by
  cases value with
  | plain value =>
      have hcheck := PlainValue.Fits.check hfits scope
      rwa [← @PlainValue.scalar_received prof ptype] at hcheck
  | fill params =>
      unfold checkParamValue
      rw [if_neg]
      · cases paramBounds prof ptype <;> rfl
      · rintro ⟨_, _, _, hzero⟩
        cases hzero

/-- A block whose sized reading ends the message is not read again. -/
theorem deserializeItems_reads {scope : Option ParamScope} {bs : Bytes}
    {items : List (Nat × ParamValue)} {pos : Nat}
    (h : Reads (pullParams prof false (pos + bs.length) scope) pos bs items) :
    Reads (deserializeItems prof (pos + bs.length) scope) pos bs items := by
  intro rest
  unfold deserializeItems
  rw [h rest]
  exact if_pos (Or.inr rfl)

/-- Both readings of a block without FILL_PARAMETERS are the same. -/
theorem deserializeItems_decides {scope : Option ParamScope} {bs : Bytes} {c : Prop}
    {items : List (Nat × ParamValue)} {pos : Nat}
    (h : ∀ fillCounted,
      Decides (pullParams prof fillCounted (pos + bs.length) scope) pos bs c items) :
    Decides (deserializeItems prof (pos + bs.length) scope) pos bs c items := by
  refine ⟨fun hc => deserializeItems_reads ((h false).reads hc), ?_⟩
  intro rest result hread
  unfold deserializeItems at hread
  cases hfirst : pullParams prof false (pos + bs.length) scope ⟨pos, bs ++ rest⟩ with
  | ok found => exact (h false).holds rest found hfirst
  | error e =>
      simp only [hfirst] at hread
      split at hread
      · exact (h true).holds rest result hread
      · cases hread

/-- The parameters of a message decode to what was encoded, as it comes back.  The sized
reading of the block ends where the message ends, and the counted reading of the value of
FILL_PARAMETERS where its length says, so the decoder never falls back on another. -/
theorem params_survive_wire {draft : Draft} (hdraft : draft = .d20 ∨ draft = .d22)
    (cls : MessageClass) {params : Params}
    (hadm : Admissible (profileFor draft) (.message cls) (ParamValue.Fits (profileFor draft)) params)
    {bs : Bytes} (h : serializeParams (profileFor draft) params = .ok bs) (pos : Nat) :
    Reads (deserializeParams (profileFor draft) (pos + bs.length) (some (.message cls))) pos bs
        (receivedParams (profileFor draft) params) ∧
      (∃ items, Reads (pullParams (profileFor draft) false (pos + bs.length)
        (some (.message cls))) pos bs items) ∧
      ∀ entry ∈ params.entries, ∀ inner, .fill inner ∈ entry.2.values → ∀ raw,
        serializeWith (profileFor draft) (pushPlainValue (profileFor draft)) inner = .ok raw →
        ∀ start, ∃ items,
          Reads (pullFillCounted (profileFor draft) (start + raw.length)) start raw items := by
  have h20 : (profileFor draft).draft20 = true := by
    rcases hdraft with rfl | rfl <;> rfl
  have hdelta : (profileFor draft).paramsDeltaCoded = true := by
    rcases hdraft with rfl | rfl <;> rfl
  have h18 := draft18_of_draft20 h20
  have hknown : ∀ ptype v bs, pushParamValue (profileFor draft) ptype v = .ok bs →
      paramKind (profileFor draft) ptype ≠ none := by
    intro ptype v bs hpush
    cases v with
    | plain value => exact paramKind_of_push h18 hpush
    | fill params =>
        rw [(pushParamValue_fill hpush).1.2]
        simp
  obtain ⟨hpull, hcollect⟩ := pullCounted_instances ParamValue.scalar hdelta hadm hknown
    (fun ptype v hfits => ParamValue.Fits.check hfits _)
    (fun ptype v hfits => paramValue_reads h20 hdelta hfits (pos + bs.length)) h (Nat.le_refl _)
  refine ⟨?_, ⟨_, hpull⟩, ?_⟩
  · have hread := (deserializeItems_reads hpull).map (collectParams (profileFor draft))
    rw [hcollect] at hread
    exact hread
  · intro entry hentry inner hinner raw hraw start
    have hfits := hadm.fits entry hentry _ hinner
    exact ⟨_, (pullFillCounted_reads h20 hdelta hfits hraw (Nat.le_refl _)).1⟩

theorem int_fits {ptype v : Nat} (htype : ptype ≠ ParamType.deliveryTimeout)
    (htoken : ptype ≠ ParamType.authToken)
    (hbounds : ∀ lo hi, paramBounds prof ptype = some (lo, hi) → lo ≤ v ∧ v ≤ hi) :
    (PlainValue.int v).Fits prof ptype where
  locationFilter := by simp
  tuple := by simp
  bytes := by simp
  token h := absurd h htoken
  bounds := by
    rintro w ⟨⟩
    exact hbounds
  timeout h := absurd h htype

theorem rangeFilter_fits {ptype : Nat} {filter : RangeFilter} (htoken : ptype ≠ ParamType.authToken) :
    (PlainValue.rangeFilter filter).Fits prof ptype where
  locationFilter := by simp
  tuple := by simp
  bytes := by simp
  token h := absurd h htoken
  bounds := by simp
  timeout := by simp

/-- Ten filters of one kind inside FILL_PARAMETERS, so that the count is no smaller than a
type. -/
def tenRangeFilters : Dict Nat (Slot PlainValue) :=
  .ofEntries [(0x20, .one (.int 5)),
    (0x25, .many ((List.range 10).map fun i =>
      .rangeFilter { setId := some i, ranges := [(i, some (i + 1))] }))]

/-- FORWARD, a FILL_PARAMETERS with a count of eleven, and a range filter of the message. -/
def filledParams : Params :=
  .ofEntries [(0x10, .one (.plain (.int 1))), (0x23, .one (.fill tenRangeFilters)),
    (0x25, .many [.plain (.rangeFilter { ranges := [(4, none)] })])]

def tenRangeFiltersWire : Bytes :=
  [11, 0x20, 5] ++ (List.range 10).flatMap fun i =>
    [if i = 0 then 5 else 0, 3, UInt8.ofNat i, UInt8.ofNat i, 1]

theorem tenRangeFilters_wire :
    serializeWith (profileFor .d22) (pushPlainValue (profileFor .d22)) tenRangeFilters =
      .ok tenRangeFiltersWire := by
  unfold serializeWith paramItems
  rw [Dict.sorted_of_pairwise (by decide)]
  decide +kernel

theorem filledParams_wire :
    serializeParams (profileFor .d22) filledParams =
      .ok ([3, 0x10, 1, 0x13, 53] ++ tenRangeFiltersWire ++ [2, 2, 0, 4]) := by
  have hfill : pushParamValue (profileFor .d22) 0x23 (.fill tenRangeFilters) =
      .ok (53 :: tenRangeFiltersWire) := by
    unfold pushParamValue
    dsimp only
    rw [if_pos (by decide), tenRangeFilters_wire]
    decide +kernel
  have hitems : paramItems (profileFor .d22) filledParams =
      [(0x10, .one (.plain (.int 1))), (0x23, .one (.fill tenRangeFilters)),
        (0x25, .one (.plain (.rangeFilter { ranges := [(4, none)] })))] := by
    unfold paramItems
    rw [Dict.sorted_of_pairwise (by decide)]
    rfl
  unfold serializeParams serializeWith
  rw [hitems]
  simp only [pushItems, hfill, pushParamValue_plain]
  decide +kernel

theorem tenRangeFilters_admissible :
    Admissible (profileFor .d22) .fillParameters
      (fun ptype value => value.Fits (profileFor .d22) ptype) tenRangeFilters where
  inScope := by
    intro allowed h
    cases h
    decide
  nonempty := by
    decide
  fits := by
    intro entry hentry v hv
    change entry ∈ [(0x20, _), (0x25, _)] at hentry
    rcases List.mem_pair.mp hentry with rfl | rfl
    · cases List.mem_singleton.mp hv
      apply int_fits (by decide) (by decide)
      rintro lo hi ⟨⟩
      decide
    · obtain ⟨i, _, rfl⟩ := List.mem_map.mp hv
      exact rangeFilter_fits (by decide)

theorem filledParams_admissible :
    Admissible (profileFor .d22) (.message .subscribe) (ParamValue.Fits (profileFor .d22))
      filledParams where
  inScope := by
    intro allowed h
    cases h
    decide
  nonempty := by
    intro entry hentry
    change entry ∈ [(0x10, _), (0x23, _), (0x25, _)] at hentry
    simp only [List.mem_cons, List.not_mem_nil, or_false] at hentry
    rcases hentry with rfl | rfl | rfl <;> exact List.cons_ne_nil _ _
  fits := by
    intro entry hentry v hv
    change entry ∈ [(0x10, _), (0x23, _), (0x25, _)] at hentry
    simp only [List.mem_cons, List.not_mem_nil, or_false] at hentry
    rcases hentry with rfl | rfl | rfl
    · cases List.mem_singleton.mp hv
      apply int_fits (by decide) (by decide)
      rintro lo hi ⟨⟩
      decide
    · cases List.mem_singleton.mp hv
      exact tenRangeFilters_admissible
    · cases List.mem_singleton.mp hv
      exact rangeFilter_fits (by decide)

/-- The value of FILL_PARAMETERS starts with a count that could be a type. -/
theorem params_survive_wire_filled :
    Reads (deserializeParams (profileFor .d22) 62 (some (.message .subscribe))) 0
      ([3, 0x10, 1, 0x13, 53] ++ tenRangeFiltersWire ++ [2, 2, 0, 4])
      (receivedParams (profileFor .d22) filledParams) :=
  (params_survive_wire (.inr rfl) .subscribe filledParams_admissible filledParams_wire 0).1

/-- An open filter from the start of the track. -/
def openFilterParams : Params :=
  .ofEntries [(0x21, .one (.plain (.locationFilter (.absoluteStart 0 0))))]

theorem openFilterParams_admissible :
    Admissible (profileFor .d20) (.message .subscribe) (ParamValue.Fits (profileFor .d20))
      openFilterParams where
  inScope := by
    intro allowed h
    cases h
    decide
  nonempty := by
    intro entry hentry
    cases List.mem_singleton.mp hentry
    exact List.cons_ne_nil _ _
  fits := by
    intro entry hentry v hv
    cases List.mem_singleton.mp hentry
    cases List.mem_singleton.mp hv
    constructor
    · rintro filter ⟨⟩
      rfl
    all_goals simp [ParamType.authToken, ParamType.deliveryTimeout]

/-- Draft 20 writes the open filter from the start of the track as the unfiltered one. -/
theorem open_filter_unfiltered :
    Admissible (profileFor .d20) (.message .subscribe) (ParamValue.Fits (profileFor .d20))
        openFilterParams ∧
      serializeParams (profileFor .d20) openFilterParams = .ok [1, 0x21, 0] ∧
      deserializeParams (profileFor .d20) 3 (some (.message .subscribe)) ⟨0, [1, 0x21, 0]⟩ =
        .ok (.ofEntries [(0x21, .one (.plain (.locationFilter .none)))], ⟨3, []⟩) ∧
      (.ofEntries [(0x21, .one (.plain (.locationFilter .none)))] : Params) ≠ openFilterParams := by
  refine ⟨openFilterParams_admissible, ?_, rfl, ?_⟩
  · unfold serializeParams serializeWith paramItems
    rw [Dict.sorted_of_pairwise (by decide)]
    rfl
  · intro heq
    have hget := congrArg (fun params : Params => params.get? 0x21) heq
    cases hget

end Fill

end AioMoqt.Messages
