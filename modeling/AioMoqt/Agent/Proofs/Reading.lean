import AioMoqt.Agent.Spec
import AioMoqt.Lib.Reader

/-!
# Reading a spec

What it takes for `from_dict` to succeed: what it says of the object itself, of each field on its
own, and of the instance as a whole.
-/

namespace AioMoqt.Agent

open AioMoqt.Lib AioMoqt.Lib.JsonSchema AioMoqt.Lib.Reader

variable {κ : Type}

theorem attrOf_map {fields : List (Field κ)} (hnodup : (fields.map Field.name).Nodup)
    {f : Field κ} (hf : f ∈ fields) (a : Field κ → Attr κ) :
    attrOf (fields.map fun f => (f.name, a f)) f.name = a f := by
  induction fields with
  | nil => cases hf
  | cons g fields ih =>
      rw [List.map_cons, List.nodup_cons] at hnodup
      rw [attrOf, List.map_cons, List.lookup_cons]
      rcases List.mem_cons.mp hf with rfl | hmem
      · rw [beq_self_eq_true]
        rfl
      · have hne : f.name ≠ g.name := by
          intro heq
          exact hnodup.1 (heq ▸ List.mem_map_of_mem hmem)
        rw [beq_false_of_ne hne]
        exact ih hnodup.2 hmem

theorem attrs_ext {attrs attrs' : List (String × Attr κ)}
    (hnames : attrs.map Prod.fst = attrs'.map Prod.fst) (hnodup : (attrs.map Prod.fst).Nodup)
    (h : ∀ name ∈ attrs.map Prod.fst, attrOf attrs name = attrOf attrs' name) : attrs = attrs' := by
  induction attrs generalizing attrs' with
  | nil => exact (List.map_eq_nil_iff.mp hnames.symm).symm
  | cons first attrs ih =>
      cases attrs' with
      | nil => cases hnames
      | cons first' attrs' =>
          obtain ⟨name, a⟩ := first
          obtain ⟨name', a'⟩ := first'
          rw [List.map_cons, List.map_cons, List.cons.injEq] at hnames
          obtain ⟨rfl, hrest⟩ := hnames
          rw [List.map_cons, List.nodup_cons] at hnodup
          rw [List.map_cons, List.forall_mem_cons] at h
          obtain ⟨hfirst, hothers⟩ := h
          have ha : a = a' := by
            simpa [attrOf, List.lookup_cons] using hfirst
          have hattrs : attrs = attrs' := by
            refine ih hrest hnodup.2 fun name' hname' => ?_
            have hne : name' ≠ name := fun heq => hnodup.1 (heq ▸ hname')
            have hother := hothers name' hname'
            rwa [attrOf, attrOf, List.lookup_cons, List.lookup_cons, beq_false_of_ne hne] at hother
          rw [ha, hattrs]

theorem forM_eq_ok {α : Type} {check : α → Except Raised Unit} {xs : List α} :
    forM xs check = .ok () ↔ ∀ x ∈ xs, check x = .ok () := by
  induction xs with
  | nil => exact iff_of_true rfl nofun
  | cons x xs ih =>
      rw [List.forM_cons, except_bind_eq_ok, List.forall_mem_cons, ← ih]
      constructor
      · rintro ⟨⟨⟩, hx, hxs⟩
        exact ⟨hx, hxs⟩
      · exact fun ⟨hx, hxs⟩ => ⟨(), hx, hxs⟩

section Fields

variable {spelled : Spelled} {lenient : Bool} {cls : SpecClass κ} {data : JsonValue}
  {recurse recurse' : κ → JsonValue → Except Raised (Attr κ)} {fields : List (Field κ)}

/-- Only what lies deeper is read in turn. -/
theorem readFields_congr (h : ∀ k x, x.depth < data.depth → recurse k x = recurse' k x) :
    readFields spelled lenient recurse cls data fields =
      readFields spelled lenient recurse' cls data fields := by
  induction fields with
  | nil => rfl
  | cons f fields ih =>
      rw [readFields, readFields, ih]
      split
      · rfl
      next x hx =>
        have hfield : readField spelled lenient recurse cls f x =
            readField spelled lenient recurse' cls f x := by
          rw [readField, readField, readValue, readValue]
          cases f.target with
          | spec inner =>
              dsimp only
              rw [h inner x (JsonValue.depth_get?_lt hx)]
          | _ => rfl
        rw [hfield]

/-- What was given for a field, and how it was read. -/
def Given (spelled : Spelled) (lenient : Bool) (recurse : κ → JsonValue → Except Raised (Attr κ))
    (cls : SpecClass κ) (data : JsonValue) (f : Field κ) (given : Option (Attr κ)) : Prop :=
  match data.get? f.name with
  | none => given = none
  | some x => ∃ a, given = some a ∧ readField spelled lenient recurse cls f x = .ok a

theorem readFields_lookup {given : List (String × Attr κ)}
    (h : readFields spelled lenient recurse cls data fields = .ok given) :
    (∀ name, name ∉ fields.map Field.name → given.lookup name = none) ∧
      ((fields.map Field.name).Nodup →
        ∀ f ∈ fields, Given spelled lenient recurse cls data f (given.lookup f.name)) := by
  induction fields generalizing given with
  | nil =>
      obtain rfl := Except.ok.inj h
      exact ⟨fun _ _ => rfl, fun _ => nofun⟩
  | cons f fields ih =>
      rw [readFields] at h
      split at h
      next hget =>
        obtain ⟨hother, hfields⟩ := ih h
        refine ⟨fun name hname => hother name fun hmem => hname (List.mem_cons_of_mem _ hmem), ?_⟩
        rw [List.map_cons, List.nodup_cons, List.forall_mem_cons]
        refine fun hnodup => ⟨?_, hfields hnodup.2⟩
        rw [Given, hget]
        exact hother f.name hnodup.1
      next x hget =>
        obtain ⟨a, ha, h⟩ := except_bind_eq_ok.mp h
        obtain ⟨rest, hrest, h⟩ := except_bind_eq_ok.mp h
        obtain rfl := Except.ok.inj h
        obtain ⟨hother, hfields⟩ := ih hrest
        constructor
        · intro name hname
          rw [List.map_cons, List.mem_cons, not_or] at hname
          rw [List.lookup_cons, beq_false_of_ne hname.1]
          exact hother name hname.2
        · rw [List.map_cons, List.nodup_cons, List.forall_mem_cons]
          refine fun hnodup => ⟨?_, fun g hg => ?_⟩
          · rw [Given, hget, List.lookup_cons, beq_self_eq_true]
            exact ⟨a, rfl, ha⟩
          · have hne : g.name ≠ f.name := by
              intro heq
              exact hnodup.1 (heq ▸ List.mem_map_of_mem hg)
            rw [List.lookup_cons, beq_false_of_ne hne]
            exact hfields hnodup.2 g hg

theorem readFields_total
    (h : ∀ f ∈ fields, ∀ x ∈ data.get? f.name,
      ∃ a, readField spelled lenient recurse cls f x = .ok a) :
    ∃ given, readFields spelled lenient recurse cls data fields = .ok given := by
  induction fields with
  | nil => exact ⟨[], rfl⟩
  | cons f fields ih =>
      rw [List.forall_mem_cons] at h
      obtain ⟨rest, hrest⟩ := ih h.2
      rw [readFields]
      split
      · exact ⟨rest, hrest⟩
      next x hget =>
        obtain ⟨a, ha⟩ := h.1 x hget
        rw [ha, hrest]
        exact ⟨(f.name, a) :: rest, rfl⟩

/-- A field as it was read of what is given for it, or with its default. -/
def Read (spelled : Spelled) (recurse : κ → JsonValue → Except Raised (Attr κ)) (cls : SpecClass κ)
    (member : Option JsonValue) (f : Field κ) (a : Attr κ) : Prop :=
  match member with
  | none => a = f.default.getD .none
  | some x => readField spelled false recurse cls f x = .ok a

theorem Given.lookup_eq_none {f : Field κ} {given : Option (Attr κ)}
    (h : Given spelled lenient recurse cls data f given) : given = none ↔ data.get? f.name = none := by
  rw [Given] at h
  split at h
  next hget => exact iff_of_true h hget
  next x hget =>
    obtain ⟨a, rfl, -⟩ := h
    exact iff_of_false nofun (by rw [hget]; exact nofun)

theorem Given.read_iff {f : Field κ} {given : Option (Attr κ)} {a : Attr κ}
    (h : Given spelled false recurse cls data f given) :
    Read spelled recurse cls (data.get? f.name) f a ↔ a = given.getD (f.default.getD .none) := by
  rw [Given] at h
  cases hget : data.get? f.name with
  | none =>
      rw [hget] at h
      rw [h, Option.getD_none]
      exact Iff.rfl
  | some x =>
      rw [hget] at h
      obtain ⟨b, rfl, hb⟩ := h
      rw [Option.getD_some, Read, hb, Except.ok.injEq, eq_comm]

theorem Read.unique {member : Option JsonValue} {f : Field κ} {a b : Attr κ}
    (h : Read spelled recurse cls member f a) (h' : Read spelled recurse cls member f b) :
    a = b := by
  cases member with
  | none => exact h.trans (Eq.symm h')
  | some x => exact Except.ok.inj ((Eq.symm h).trans h')

end Fields

/-! ## The whole object -/

section Spec

variable [DecidableEq κ] {reg : Registry κ} {spelled : Spelled} {lenient : Bool} {k : κ}
  {data : JsonValue} {recurse recurse' : κ → JsonValue → Except Raised (Attr κ)}

theorem readSpec_congr (h : ∀ k x, x.depth < data.depth → recurse k x = recurse' k x) :
    readSpec reg spelled lenient recurse k data = readSpec reg spelled lenient recurse' k data := by
  cases data with
  | obj entries =>
      rw [readSpec, readSpec]
      dsimp only
      rw [readFields_congr h]
  | _ => rfl

theorem fromDictWithin_eq {limit limit' : Nat} (h : data.depth < limit) (h' : data.depth < limit') :
    fromDictWithin reg spelled lenient limit k data =
      fromDictWithin reg spelled lenient limit' k data := by
  induction limit generalizing limit' k data with
  | zero => exact absurd h (Nat.not_lt_zero _)
  | succ limit ih =>
      cases limit' with
      | zero => exact absurd h' (Nat.not_lt_zero _)
      | succ limit' =>
          rw [fromDictWithin, fromDictWithin]
          refine readSpec_congr fun k x hx => ih ?_ ?_
          · omega
          · omega

/-- `from_dict` reads nested specs by itself. -/
theorem fromDict_eq : fromDict reg spelled lenient k data =
    readSpec reg spelled lenient (fromDict reg spelled lenient) k data := by
  rw [fromDict, fromDictWithin]
  exact readSpec_congr fun k x hx => fromDictWithin_eq hx (Nat.lt_succ_self _)

/-- An instance that is complete: each field has a value that its check lets through, and so does
the check of the whole. -/
structure Sound (reg : Registry κ) (k : κ) (attrs : List (String × Attr κ)) : Prop where
  names : attrs.map Prod.fst = (reg.cls k).keys
  checked : ∀ f ∈ (reg.cls k).fields,
    checkField reg (reg.cls k) f (attrOf attrs f.name) = .ok ()
  whole : (reg.cls k).postInit (attrOf attrs) = .ok ()

theorem construct_eq_ok {given : List (String × Attr κ)} {o : Attr κ} :
    construct reg k given [] = .ok o ↔
      ∃ attrs, o = .spec k attrs [] ∧ Sound reg k attrs ∧
        ∀ f ∈ (reg.cls k).fields,
          attrOf attrs f.name = (given.lookup f.name).getD (f.default.getD .none) := by
  set filled := (reg.cls k).fields.map fun f =>
    (f.name, (given.lookup f.name).getD (f.default.getD .none)) with hfilled
  have hof : ∀ f ∈ (reg.cls k).fields,
      attrOf filled f.name = (given.lookup f.name).getD (f.default.getD .none) :=
    fun f hf => attrOf_map (reg.cls k).nodup hf _
  have hnames : filled.map Prod.fst = (reg.cls k).keys := by
    rw [hfilled, List.map_map]
    rfl
  rw [construct, except_bind_eq_ok, checkInstance]
  constructor
  · rintro ⟨⟨⟩, hchecked, h⟩
    obtain ⟨⟨⟩, hwhole, h⟩ := except_bind_eq_ok.mp h
    obtain ⟨⟨⟩, hchecked, -⟩ := except_bind_eq_ok.mp hchecked
    exact ⟨filled, (Except.ok.inj h).symm, ⟨hnames, forM_eq_ok.mp hchecked, hwhole⟩, hof⟩
  · rintro ⟨attrs, rfl, hsound, hattrs⟩
    have heq : filled = attrs := by
      refine attrs_ext (hnames.trans hsound.names.symm) (hnames ▸ (reg.cls k).nodup) ?_
      rw [hnames, SpecClass.keys, List.forall_mem_map]
      exact fun f hf => (hof f hf).trans (hattrs f hf).symm
    rw [← hfilled, heq]
    refine ⟨(), ?_, except_bind_eq_ok.mpr ⟨(), hsound.whole, rfl⟩⟩
    exact except_bind_eq_ok.mpr ⟨(), forM_eq_ok.mpr hsound.checked, rfl⟩

/-- `from_dict` succeeds on an object whose keys are fields, with all that have no default among
them, when each field is read and the instance is complete. -/
theorem readSpec_eq_ok {o : Attr κ} :
    readSpec reg spelled false recurse k data = .ok o ↔
      data.isObj = true ∧ (∀ name ∈ data.keys, name ∈ (reg.cls k).keys) ∧
        (∀ f ∈ (reg.cls k).fields, f.default.isNone = true → data.get? f.name ≠ none) ∧
        ∃ attrs, o = .spec k attrs [] ∧ Sound reg k attrs ∧
          ∀ f ∈ (reg.cls k).fields,
            Read spelled recurse (reg.cls k) (data.get? f.name) f (attrOf attrs f.name) := by
  cases data with
  | obj entries =>
      have hkeys : (entries.map Prod.fst).filter (· ∉ (reg.cls k).keys) = [] ↔
          ∀ name ∈ (JsonValue.obj entries).keys, name ∈ (reg.cls k).keys := by
        rw [List.filter_eq_nil_iff]
        simp only [decide_eq_true_eq, not_not]
        rfl
      by_cases hunknown : (entries.map Prod.fst).filter (· ∉ (reg.cls k).keys) = []
      · have hextra : entries.filter (fun entry => entry.1 ∉ (reg.cls k).keys) = [] := by
          rw [List.filter_map, List.map_eq_nil_iff] at hunknown
          exact hunknown
        rw [readSpec]
        dsimp only
        rw [if_neg (fun h => h.1 hunknown), hextra, ite_self, except_bind_eq_ok]
        rw [and_iff_right (show (JsonValue.obj entries).isObj = true from rfl),
          and_iff_right (hkeys.mp hunknown)]
        have hmissing : ∀ given : List (String × Attr κ),
            readFields spelled false recurse (reg.cls k) (.obj entries) (reg.cls k).fields =
              .ok given →
            (((reg.cls k).fields.filter fun f =>
                f.name ∉ given.map Prod.fst ∧ f.default.isNone).map Field.name = [] ↔
              ∀ f ∈ (reg.cls k).fields, f.default.isNone = true →
                (JsonValue.obj entries).get? f.name ≠ none) := by
          intro given hgiven
          have hlookup := (readFields_lookup hgiven).2 (reg.cls k).nodup
          rw [List.map_eq_nil_iff, List.filter_eq_nil_iff]
          refine forall_congr' fun f => forall_congr' fun hf => ?_
          have hnone := (hlookup f hf).lookup_eq_none
          rw [decide_eq_true_eq, mem_map_fst_iff_lookup, not_not, hnone, not_and']
        constructor
        · rintro ⟨given, hgiven, h⟩
          have hlookup := (readFields_lookup hgiven).2 (reg.cls k).nodup
          split at h
          · cases h
          next hnone =>
            rw [not_not] at hnone
            obtain ⟨attrs, rfl, hsound, hattrs⟩ := construct_eq_ok.mp h
            refine ⟨(hmissing given hgiven).mp hnone, attrs, rfl, hsound, fun f hf => ?_⟩
            exact (hlookup f hf).read_iff.mpr (hattrs f hf)
        · rintro ⟨hgiven', attrs, rfl, hsound, hread⟩
          have htotal : ∀ f ∈ (reg.cls k).fields, ∀ x ∈ (JsonValue.obj entries).get? f.name,
              ∃ a, readField spelled false recurse (reg.cls k) f x = .ok a := by
            intro f hf x hx
            have hreadf := hread f hf
            rw [Option.mem_def.mp hx] at hreadf
            exact ⟨_, hreadf⟩
          obtain ⟨given, hgiven⟩ := readFields_total htotal
          have hlookup := (readFields_lookup hgiven).2 (reg.cls k).nodup
          refine ⟨given, hgiven, ?_⟩
          rw [if_neg (not_not.mpr ((hmissing given hgiven).mpr hgiven'))]
          refine construct_eq_ok.mpr ⟨attrs, rfl, hsound, fun f hf => ?_⟩
          exact (hlookup f hf).read_iff.mp (hread f hf)
      · refine iff_of_false ?_ fun h => hunknown (hkeys.mpr h.2.1)
        rw [readSpec]
        dsimp only
        rw [if_pos ⟨hunknown, Bool.false_ne_true⟩]
        exact nofun
  | _ => exact iff_of_false nofun fun h => Bool.false_ne_true h.1

end Spec

end AioMoqt.Agent
