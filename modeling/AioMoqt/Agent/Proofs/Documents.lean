import AioMoqt.Agent.Proofs.Fields

/-!
# Valid documents

What `from_dict` accepts among the documents that a class schema validates.
-/

namespace AioMoqt.Agent

open AioMoqt.Lib AioMoqt.Lib.JsonSchema AioMoqt.Lib.Reader

section Classes

variable {κ : Type}

theorem SpecClass.validates_schema {cls : SpecClass κ} {defs : κ → Option (Schema κ)}
    {v : JsonValue} :
    Validates defs cls.schema v ↔
      v.isObj = true ∧ (∀ name ∈ v.keys, name ∈ cls.keys) ∧
        (∀ f ∈ cls.fields, f.default.isNone = true → f.optional = false →
          v.get? f.name ≠ none) ∧
        (∀ f ∈ cls.fields, ∀ x ∈ v.get? f.name, Validates defs f.node x) ∧
        ∀ s ∈ cls.schemaConstraints, Validates defs s v := by
  have hrequired : (∀ name ∈ cls.required, (v.get? name).isSome = true) ↔
      ∀ f ∈ cls.fields, f.default.isNone = true → f.optional = false → v.get? f.name ≠ none := by
    rw [required, List.forall_mem_map]
    simp only [List.mem_filter, Bool.and_eq_true, Bool.not_eq_true', and_imp,
      Option.isSome_iff_ne_none]
  have hkeys : (cls.fields.map fun f => (f.name, f.node)).map Prod.fst = cls.keys := by
    rw [List.map_map]
    rfl
  have hplain : cls.schema.plain v = true ↔
      v.isObj = true ∧ (∀ name ∈ cls.required, (v.get? name).isSome = true) ∧
        ∀ name ∈ v.keys, name ∈ cls.keys := by
    rw [schema, Schema.plain, hkeys]
    cases hobj : v.isObj with
    | false => simp [JsonType.has, hobj]
    | true => simp [JsonType.has, hobj]
  rw [validates_iff, hplain, hrequired]
  simp only [schema, List.forall_mem_map]
  constructor
  · rintro ⟨⟨hobj, hgiven, hknown⟩, hfields, -, hconstraints, -⟩
    exact ⟨hobj, hknown, hgiven, hfields, hconstraints⟩
  · rintro ⟨hobj, hknown, hgiven, hfields, hconstraints⟩
    exact ⟨⟨hobj, hgiven, hknown⟩, hfields, by simp, hconstraints, by simp⟩

variable [DecidableEq κ]

/-- What schema and reader both rest on in a field. -/
structure Field.Regular (reg : Registry κ) (cls : SpecClass κ) (f : Field κ) : Prop where
  kind : (∃ t, f.target.jsonType? = some t) ∨
    ∃ k, f.target = .spec k ∧ f.choices = none ∧ f.range = none
  float : f.target = .float → f.range = some { minimum := some 0 } ∧ f.choices = none
  optional : f.optional = true ↔ f.default = some .none
  default : checkField reg cls f (f.default.getD .none) = .ok ()

/-- Whether a field is regular. -/
def Field.regular (reg : Registry κ) (cls : SpecClass κ) (f : Field κ) : Bool :=
  (f.target.jsonType?.isSome || f.target?.isSome && f.choices.isNone && f.range.isNone) &&
    (f.target ≠ .float || f.range = some { minimum := some 0 } && f.choices.isNone) &&
    f.optional == (match f.default with | some .none => true | _ => false) &&
    (match checkField reg cls f (f.default.getD .none) with | .ok () => true | _ => false)

theorem Field.Regular.of_regular {reg : Registry κ} {cls : SpecClass κ} {f : Field κ}
    (h : f.regular reg cls = true) : f.Regular reg cls := by
  rw [regular, Bool.and_eq_true, Bool.and_eq_true, Bool.and_eq_true, beq_iff_eq] at h
  obtain ⟨⟨⟨hkind, hfloat⟩, hoptional⟩, hdefault⟩ := h
  refine ⟨?_, ?_, ?_, ?_⟩
  · rw [Field.target?] at hkind
    cases htarget : f.target <;> rw [htarget] at hkind <;> simp_all [Target.jsonType?]
  · intro htarget
    simpa [htarget] using hfloat
  · rw [hoptional]
    cases f.default with
    | none => simp
    | some a => cases a <;> simp
  · cases hcheck : checkField reg cls f (f.default.getD .none) with
    | ok u => rfl
    | error e =>
        rw [hcheck] at hdefault
        exact Bool.noConfusion hdefault

variable {reg : Registry κ} {spelled : Spelled} {k : κ} {v : JsonValue}
  {defs : κ → Option (Schema κ)}

theorem fromDict_instance {o : Attr κ} (h : fromDict reg spelled false k v = .ok o) :
    v.isObj = true ∧ ∃ attrs, o = .spec k attrs [] ∧ Sound reg k attrs := by
  rw [fromDict_eq, readSpec_eq_ok] at h
  obtain ⟨hobj, -, -, attrs, ho, hsound, -⟩ := h
  exact ⟨hobj, attrs, ho, hsound⟩

/-- What a regular field is read as passes its check. -/
theorem Field.Regular.readField {cls : SpecClass κ} {f : Field κ} (h : f.Regular reg cls)
    (spelled : Spelled)     (hvalid : Validates defs f.node v) :
    ((∃ a, readField spelled false (fromDict reg spelled false) cls f v = .ok a) ↔
        (∀ t, f.target = .spec t → ∃ o, fromDict reg spelled false t v = .ok o) ∧
          (f.target = .float → ∀ n, v = .int n → floatOfInt n ≠ none)) ∧
      ∀ a, readField spelled false (fromDict reg spelled false) cls f v = .ok a →
        checkField reg cls f a = .ok () := by
  rcases h.kind with ⟨t, hjson⟩ | ⟨t, htarget, hchoices, hrange⟩
  · obtain ⟨hread, hcheck⟩ := readField_scalar reg spelled
      (fromDict reg spelled false) cls hjson (fun hf => (h.float hf).1)
      (fun hf => (h.float hf).2) (Field.validates_node.mp hvalid).1
    have hnested : ∀ t, f.target ≠ .spec t := by
      intro t htarget
      rw [htarget] at hjson
      cases hjson
    refine ⟨hread.trans ?_, fun a ha => (hcheck a ha).1⟩
    rw [and_iff_right fun t ht => absurd ht (hnested t)]
  · simp only [readField_spec htarget hchoices hrange]
    constructor
    · constructor
      · rintro ⟨a, -, ha⟩
        refine ⟨fun t' ht' => ?_, fun hfloat => ?_⟩
        · obtain rfl := Target.spec.inj (htarget.symm.trans ht')
          exact ⟨a, ha⟩
        · rw [htarget] at hfloat
          cases hfloat
      · rintro ⟨hnested, -⟩
        obtain ⟨o, ho⟩ := hnested t htarget
        exact ⟨o, (fromDict_instance ho).1, ho⟩
    · rintro a ⟨-, ha⟩
      obtain ⟨-, attrs, rfl, -⟩ := fromDict_instance ha
      have hsome : (.spec t attrs [] : Attr κ) ≠ .none := by simp
      refine (checkField_eq_ok hsome).mpr ⟨?_, ?_⟩
      · rw [htarget, checkType, if_pos rfl]
      · rw [Field.fits_iff, Field.allows, hchoices, hrange]
        exact ⟨rfl, by simp⟩

/-- A valid document is read when its nested specs are, its integers fit a double where a float is
wanted, and the check of the whole lets it through. -/
theorem fromDict_ok_iff (hregular : ∀ f ∈ (reg.cls k).fields, f.Regular reg (reg.cls k))
    (hvalid : Validates defs (reg.cls k).schema v) :
    (∃ o, fromDict reg spelled false k v = .ok o) ↔
      (∀ f ∈ (reg.cls k).fields, ∀ x ∈ v.get? f.name,
        (∀ t, f.target = .spec t → ∃ o, fromDict reg spelled false t x = .ok o) ∧
          (f.target = .float → ∀ n, x = .int n → floatOfInt n ≠ none)) ∧
      ∀ attrs, attrs.map Prod.fst = (reg.cls k).keys →
        (∀ f ∈ (reg.cls k).fields,
          Read spelled (fromDict reg spelled false) (reg.cls k) (v.get? f.name) f
            (attrOf attrs f.name)) →
          (reg.cls k).postInit (attrOf attrs) = .ok () := by
  obtain ⟨hobj, hknown, hgiven, hfields, -⟩ := SpecClass.validates_schema.mp hvalid
  rw [fromDict_eq]
  simp only [readSpec_eq_ok]
  constructor
  · rintro ⟨o, -, -, -, attrs, rfl, hsound, hread⟩
    constructor
    · intro f hf x hx
      have hreadf := hread f hf
      rw [Option.mem_def.mp hx] at hreadf
      exact ((hregular f hf).readField spelled (hfields f hf x hx)).1.mp ⟨_, hreadf⟩
    · intro attrs' hnames' hread'
      have heq : attrs = attrs' := by
        refine attrs_ext (hsound.names.trans hnames'.symm) (hsound.names ▸ (reg.cls k).nodup) ?_
        rw [hsound.names, SpecClass.keys, List.forall_mem_map]
        exact fun f hf => (hread f hf).unique (hread' f hf)
      rw [← heq]
      exact hsound.whole
  · rintro ⟨hnested, hwhole⟩
    have hfield : ∀ f, ∃ a, f ∈ (reg.cls k).fields →
        Read spelled (fromDict reg spelled false) (reg.cls k) (v.get? f.name) f a ∧
          checkField reg (reg.cls k) f a = .ok () := by
      intro f
      by_cases hf : f ∈ (reg.cls k).fields
      · cases hx : v.get? f.name with
        | none =>
            exact ⟨f.default.getD .none, fun _ => ⟨rfl, (hregular f hf).default⟩⟩
        | some x =>
            obtain ⟨hread, hcheck⟩ :=
              (hregular f hf).readField spelled (hfields f hf x hx)
            obtain ⟨a, ha⟩ := hread.mpr (hnested f hf x hx)
            exact ⟨a, fun _ => ⟨ha, hcheck a ha⟩⟩
      · exact ⟨.none, fun h => absurd h hf⟩
    choose a ha using hfield
    have hof : ∀ f ∈ (reg.cls k).fields,
        attrOf ((reg.cls k).fields.map fun f => (f.name, a f)) f.name = a f :=
      fun f hf => attrOf_map (reg.cls k).nodup hf a
    have hnames : ((reg.cls k).fields.map fun f => (f.name, a f)).map Prod.fst =
        (reg.cls k).keys := by
      rw [List.map_map]
      rfl
    have hread : ∀ f ∈ (reg.cls k).fields,
        Read spelled (fromDict reg spelled false) (reg.cls k) (v.get? f.name) f
          (attrOf ((reg.cls k).fields.map fun f => (f.name, a f)) f.name) := by
      intro f hf
      rw [hof f hf]
      exact (ha f hf).1
    refine ⟨_, hobj, hknown, ?_, _, rfl, ⟨hnames, ?_, hwhole _ hnames hread⟩, hread⟩
    · intro f hf hdefault
      refine hgiven f hf hdefault (Bool.eq_false_iff.mpr fun hoptional => ?_)
      rw [(hregular f hf).optional.mp hoptional] at hdefault
      cases hdefault
    · intro f hf
      rw [hof f hf]
      exact (ha f hf).2

/-- A class that holds no nested spec and no float. -/
def SpecClass.Leaf (cls : SpecClass κ) : Prop :=
  ∀ f ∈ cls.fields, f.target? = none ∧ f.target ≠ .float

instance (cls : SpecClass κ) : Decidable cls.Leaf := List.decidableBAll _ _

theorem fromDict_leaf (hleaf : (reg.cls k).Leaf)
    (hregular : ∀ f ∈ (reg.cls k).fields, f.Regular reg (reg.cls k))
    (hvalid : Validates defs (reg.cls k).schema v) :
    (∃ o, fromDict reg spelled false k v = .ok o) ↔
      ∀ attrs, attrs.map Prod.fst = (reg.cls k).keys →
        (∀ f ∈ (reg.cls k).fields,
          Read spelled (fromDict reg spelled false) (reg.cls k) (v.get? f.name) f
            (attrOf attrs f.name)) →
          (reg.cls k).postInit (attrOf attrs) = .ok () := by
  refine (fromDict_ok_iff hregular hvalid).trans (and_iff_right fun f hf x _ => ⟨fun t ht => ?_, ?_⟩)
  · have hnone := (hleaf f hf).1
    rw [Field.target?, ht] at hnone
    cases hnone
  · exact fun hfloat => absurd hfloat (hleaf f hf).2

/-- A field of a valid document, as it was read. -/
theorem Read.value (reg : Registry κ) {cls : SpecClass κ} {f : Field κ} {t : JsonType} {a : Attr κ}
    {recurse : κ → JsonValue → Except Raised (Attr κ)} (hjson : f.target.jsonType? = some t)
    (hfloat : f.target ≠ .float) (hvalid : ∀ x ∈ v.get? f.name, Validates defs f.node x)
    (h : Read spelled recurse cls (v.get? f.name) f a) :
    (v.get? f.name = none ∧ a = f.default.getD .none) ∨
      ∃ x, v.get? f.name = some x ∧ t.has x = true ∧ Carries x a ∧
        checkType reg f.target a (cls.place f.name) = .ok () := by
  cases hget : v.get? f.name with
  | none =>
      rw [hget] at h
      exact Or.inl ⟨rfl, h⟩
  | some x =>
      rw [hget] at h
      have hplain := (Field.validates_node.mp (hvalid x hget)).1
      obtain ⟨hcheck, hcarries⟩ := (readField_scalar reg spelled recurse cls hjson
        (fun hf => absurd hf hfloat) (fun hf => absurd hf hfloat) hplain).2 a h
      have hsome : a ≠ .none := by
        rintro rfl
        cases hcarries hfloat
      exact Or.inr ⟨x, rfl, (Field.plain_node.mp hplain).1 t hjson, hcarries hfloat,
        ((checkField_eq_ok hsome).mp hcheck).1⟩

end Classes

end AioMoqt.Agent
