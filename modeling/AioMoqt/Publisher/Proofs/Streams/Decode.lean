import AioMoqt.Publisher.Generator

/-!
# What a receiver reads off a stream

The object ids of a subgroup stream are coded as distances, so what a receiver reads
depends on all the objects in front.  These lemmas say what one more object adds.
-/

namespace AioMoqt.Publisher

/-- The id that is read last. -/
def endId : Option Nat → List Item → Option Nat
  | last, [] => last
  | last, item :: rest => endId (some (last.elim 0 (· + 1) + item.delta)) rest

/-- The id of one more object. -/
def nextDecoded (last : Option Nat) (items : List Item) (item : Item) : Nat :=
  (endId last items).elim 0 (· + 1) + item.delta

variable (last : Option Nat) (items : List Item) (item : Item)

theorem decodeIds_append :
    decodeIds last (items ++ [item]) = decodeIds last items ++ [nextDecoded last items item] := by
  induction items generalizing last with
  | nil => rfl
  | cons head rest ih =>
      rw [List.cons_append, decodeIds, decodeIds, ih, List.cons_append]
      rfl

theorem endId_append :
    endId last (items ++ [item]) = some (nextDecoded last items item) := by
  induction items generalizing last with
  | nil => rfl
  | cons head rest ih =>
      rw [List.cons_append, endId, ih]
      rfl

theorem decodeIds_length : (decodeIds last items).length = items.length := by
  induction items generalizing last with
  | nil => rfl
  | cons head rest ih => rw [decodeIds, List.length_cons, ih, List.length_cons]

theorem le_of_mem_decodeIds {id : Nat} (h : id ∈ decodeIds last items) : last.elim 0 (· + 1) ≤ id := by
  induction items generalizing last with
  | nil => simp [decodeIds] at h
  | cons head rest ih =>
      rw [decodeIds, List.mem_cons] at h
      obtain rfl | h := h
      · exact Nat.le_add_right ..
      · have hle := ih _ h
        simp only [Option.elim_some] at hle
        omega

/-- A delta is not negative, so the ids ascend, whatever is on the stream. -/
theorem decodeIds_sorted : (decodeIds last items).Pairwise (· < ·) := by
  induction items generalizing last with
  | nil => exact List.Pairwise.nil
  | cons head rest ih =>
      rw [decodeIds, List.pairwise_cons]
      refine ⟨?_, ih _⟩
      intro id hid
      have hle := le_of_mem_decodeIds _ _ hid
      simp only [Option.elim_some] at hle
      omega

/-! ## Streams -/

namespace Stream

variable (s : Stream)

/-- The ids on a stream. -/
def ids : List Nat := decodeIds none s.items

/-- The objects on a stream, with their ids. -/
def objects : List (Nat × Item) := s.ids.zip s.items

/-- The objects of a stream are what the generator made at their Locations, and what was
handed over for it; a marker stands at the end of the group. -/
structure Decodes (cfg : Config) (written : List Written) : Prop where
  ascending : s.ids.Pairwise (· < ·)
  normal : ∀ id item, (id, item) ∈ s.objects → item.status = .normal →
    item.payload = cfg.payload s.group id ∧ id % cfg.numSubgroups = s.subgroup ∧
      ⟨s.peer, s.trackAlias, s.group, id, item.payload⟩ ∈ written
  marker : ∀ id item, (id, item) ∈ s.objects → item.status ≠ .normal →
    item.status = .endOfGroup ∧ id = cfg.groupSize

/-- The id that is read next off a stream, of this object. -/
def nextOf (item : Item) : Nat := nextDecoded none s.items item

variable {s} {cfg : Config} {written written' : List Written} {item : Item}

theorem objects_append (s' : Stream) (h : s'.items = s.items ++ [item]) :
    s'.objects = s.objects ++ [(s.nextOf item, item)] := by
  have hlength : (decodeIds none s.items).length = s.items.length := decodeIds_length ..
  rw [objects, ids, h, decodeIds_append, List.zip_append hlength]
  rfl

theorem ids_append (s' : Stream) (h : s'.items = s.items ++ [item]) :
    s'.ids = s.ids ++ [s.nextOf item] := by
  rw [ids, h, decodeIds_append]
  rfl

/-- A stream that carries nothing. -/
theorem decodes_of_items_eq_nil (h : s.items = []) : s.Decodes cfg written where
  ascending := by simp [ids, h, decodeIds]
  normal := by simp [objects, h]
  marker := by simp [objects, h]

/-- What a stream decodes to follows from its objects. -/
theorem Decodes.congr (h : s.Decodes cfg written) (s' : Stream) (hitems : s'.items = s.items)
    (hgroup : s'.group = s.group) (hsubgroup : s'.subgroup = s.subgroup) (hpeer : s'.peer = s.peer)
    (halias : s'.trackAlias = s.trackAlias) (hsub : written ⊆ written') :
    s'.Decodes cfg written' := by
  have hids : s'.ids = s.ids := by rw [ids, hitems, ids]
  have hobjects : s'.objects = s.objects := by rw [objects, hids, hitems, objects]
  constructor
  case ascending => rw [hids]; exact h.ascending
  case normal =>
    intro id item hmem hstatus
    rw [hobjects] at hmem
    rw [hgroup, hsubgroup, hpeer, halias]
    obtain ⟨hpayload, hslot, hwritten⟩ := h.normal id item hmem hstatus
    exact ⟨hpayload, hslot, hsub hwritten⟩
  case marker =>
    rw [hobjects]
    exact h.marker

theorem Decodes.subset (h : s.Decodes cfg written) (hsub : written ⊆ written') :
    s.Decodes cfg written' := h.congr s rfl rfl rfl rfl rfl hsub

/-- One more object on a stream. -/
theorem Decodes.append (h : s.Decodes cfg written) (item : Item) (s' : Stream)
    (hitems : s'.items = s.items ++ [item]) (hgroup : s'.group = s.group)
    (hsubgroup : s'.subgroup = s.subgroup) (hpeer : s'.peer = s.peer)
    (halias : s'.trackAlias = s.trackAlias) (hsub : written ⊆ written')
    (hnormal : item.status = .normal → item.payload = cfg.payload s.group (s.nextOf item) ∧
      s.nextOf item % cfg.numSubgroups = s.subgroup ∧
        ⟨s.peer, s.trackAlias, s.group, s.nextOf item, item.payload⟩ ∈ written')
    (hmarker : item.status ≠ .normal → item.status = .endOfGroup ∧ s.nextOf item = cfg.groupSize) :
    s'.Decodes cfg written' := by
  constructor
  case ascending => exact decodeIds_sorted ..
  case normal =>
    intro id other hmem hstatus
    rw [hgroup, hsubgroup, hpeer, halias]
    rw [objects_append s' hitems] at hmem
    obtain hmem | hmem := List.mem_append.mp hmem
    · obtain ⟨hpayload, hslot, hwritten⟩ := h.normal id other hmem hstatus
      exact ⟨hpayload, hslot, hsub hwritten⟩
    · obtain ⟨rfl, rfl⟩ := Prod.mk.inj (List.mem_singleton.mp hmem)
      exact hnormal hstatus
  case marker =>
    intro id other hmem hstatus
    rw [objects_append s' hitems] at hmem
    obtain hmem | hmem := List.mem_append.mp hmem
    · exact h.marker id other hmem hstatus
    · obtain ⟨rfl, rfl⟩ := Prod.mk.inj (List.mem_singleton.mp hmem)
      exact hmarker hstatus

end Stream

end AioMoqt.Publisher
