import AioMoqt.Agent.Proofs.Documents

/-!
# Constructed instances

What `to_dict` writes of an instance, and when the schema validates it and `from_dict` gives the
instance back.
-/

namespace AioMoqt.Agent

open AioMoqt.Lib AioMoqt.Lib.JsonSchema AioMoqt.Lib.Reader

section Writing

variable {κ : Type}

/-- What is written of an attribute, where anything is. -/
def Attr.written (a : Attr κ) : Option JsonValue := (toDict a).filter fun v => !omits a v

theorem entriesOf_cons {name : String} {a : Attr κ} {attrs : List (String × Attr κ)}
    {entries : List (String × JsonValue)} :
    entriesOf ((name, a) :: attrs) = some entries ↔
      ∃ v rest, toDict a = some v ∧ entriesOf attrs = some rest ∧
        entries = if omits a v then rest else (name, v) :: rest := by
  rw [entriesOf]
  simp only [Option.bind_eq_bind, Option.bind_eq_some_iff, Option.some.injEq]
  constructor
  · rintro ⟨v, hv, rest, hrest, rfl⟩
    exact ⟨v, rest, hv, hrest, rfl⟩
  · rintro ⟨v, rest, hv, hrest, rfl⟩
    exact ⟨v, hv, rest, hrest, rfl⟩

/-- An instance is written where each of its attributes is. -/
theorem entriesOf_ne_none {attrs : List (String × Attr κ)} :
    entriesOf attrs ≠ none ↔ ∀ entry ∈ attrs, toDict entry.2 ≠ none := by
  induction attrs with
  | nil => exact iff_of_true nofun nofun
  | cons entry attrs ih =>
      obtain ⟨name, a⟩ := entry
      rw [List.forall_mem_cons, ← ih, Option.ne_none_iff_exists', Option.ne_none_iff_exists',
        Option.ne_none_iff_exists']
      simp only [entriesOf_cons]
      constructor
      · rintro ⟨-, v, rest, hv, hrest, -⟩
        exact ⟨⟨v, hv⟩, rest, hrest⟩
      · rintro ⟨⟨v, hv⟩, rest, hrest⟩
        exact ⟨_, v, rest, hv, hrest, rfl⟩

theorem mem_of_mem_entriesOf {attrs : List (String × Attr κ)} {entries : List (String × JsonValue)}
    (h : entriesOf attrs = some entries) {name : String} (hname : name ∈ entries.map Prod.fst) :
    name ∈ attrs.map Prod.fst := by
  induction attrs generalizing entries with
  | nil =>
      rw [entriesOf] at h
      obtain rfl := Option.some.inj h
      exact hname
  | cons entry attrs ih =>
      obtain ⟨name', a⟩ := entry
      obtain ⟨v, rest, -, hrest, rfl⟩ := entriesOf_cons.mp h
      split at hname
      · exact List.mem_cons_of_mem _ (ih hrest hname)
      · rw [List.map_cons, List.mem_cons] at hname ⊢
        exact hname.imp_right (ih hrest)

/-- Under the name of each attribute stands what is written of it. -/
theorem lookup_entriesOf {attrs : List (String × Attr κ)} {entries : List (String × JsonValue)}
    (h : entriesOf attrs = some entries) (hnodup : (attrs.map Prod.fst).Nodup) {name : String}
    (hname : name ∈ attrs.map Prod.fst) : entries.lookup name = (attrOf attrs name).written := by
  induction attrs generalizing entries with
  | nil => cases hname
  | cons entry attrs ih =>
      obtain ⟨name', a⟩ := entry
      obtain ⟨v, rest, hv, hrest, rfl⟩ := entriesOf_cons.mp h
      rw [List.map_cons, List.nodup_cons] at hnodup
      rw [List.map_cons, List.mem_cons] at hname
      by_cases heq : name = name'
      · subst heq
        have hattr : attrOf ((name, a) :: attrs) name = a := by
          rw [attrOf, List.lookup_cons, beq_self_eq_true]
          rfl
        have hnew : rest.lookup name = none := by
          by_contra hne
          exact hnodup.1 (mem_of_mem_entriesOf hrest (mem_map_fst_iff_lookup.mpr hne))
        rw [hattr, Attr.written, hv]
        cases homits : omits a v with
        | true =>
            rw [if_pos rfl, hnew, Option.filter_some, homits]
            rfl
        | false =>
            rw [if_neg Bool.false_ne_true, List.lookup_cons, beq_self_eq_true, Option.filter_some,
              homits]
            rfl
      · have hattr : attrOf ((name', a) :: attrs) name = attrOf attrs name := by
          rw [attrOf, List.lookup_cons, beq_false_of_ne heq]
          rfl
        have hskip : (if omits a v then rest else (name', v) :: rest).lookup name =
            rest.lookup name := by
          split
          · rfl
          · rw [List.lookup_cons, beq_false_of_ne heq]
        rw [hattr, hskip]
        exact ih hrest hnodup.2 (hname.resolve_left heq)

theorem toDict_spec {k : κ} {attrs : List (String × Attr κ)} :
    toDict (.spec k attrs []) = (entriesOf attrs).map .obj := by
  rw [toDict]
  rfl

theorem attrOf_eq_none {attrs : List (String × Attr κ)} {name : String}
    (h : name ∉ attrs.map Prod.fst) : attrOf attrs name = .none := by
  rw [mem_map_fst_iff_lookup, not_not] at h
  rw [attrOf, h]
  rfl

theorem attrOf_of_mem {attrs : List (String × Attr κ)} (hnodup : (attrs.map Prod.fst).Nodup)
    {entry : String × Attr κ} (h : entry ∈ attrs) : attrOf attrs entry.1 = entry.2 := by
  induction attrs with
  | nil => cases h
  | cons first attrs ih =>
      rw [List.map_cons, List.nodup_cons] at hnodup
      rw [attrOf, List.lookup_cons]
      rcases List.mem_cons.mp h with rfl | hmem
      · rw [beq_self_eq_true]
        rfl
      · have hne : entry.1 ≠ first.1 := by
          intro heq
          exact hnodup.1 (heq ▸ List.mem_map_of_mem hmem)
        rw [beq_false_of_ne hne]
        exact ih hnodup.2 hmem

end Writing

/-! ## Equality -/

namespace Attr

variable {κ : Type} {a b : Attr κ}

theorem Same.eq_none (h : Same a b) (hb : b = .none) : a = .none := by
  cases h with
  | rfl => exact hb
  | number _ hb' =>
      rw [hb] at hb'
      cases hb'
  | spec => cases hb

theorem Same.eq_str {s : String} (h : Same a (.str s)) : a = .str s := by
  cases h with
  | rfl => rfl
  | number _ hb => cases hb

theorem Same.number_eq {x : Rat} (h : Same a b) (hb : b.number? = some x) : a.number? = some x := by
  cases h with
  | rfl => exact hb
  | number ha hb' =>
      rw [hb] at hb'
      rw [ha, Option.some.inj hb']
  | spec => cases hb

theorem Same.attrs {k : κ} {attrs : List (String × Attr κ)} {extra : List (String × JsonValue)}
    (h : Same a (.spec k attrs extra)) :
    ∃ attrs', a = .spec k attrs' extra ∧
      ∀ name, Same (attrOf attrs' name) (attrOf attrs name) := by
  cases h with
  | rfl => exact ⟨attrs, Eq.refl _, fun _ => .rfl _⟩
  | number _ hb => cases hb
  | spec hattrs => exact ⟨_, Eq.refl _, hattrs⟩

end Attr

/-! ## One field -/

section Fields

variable {κ : Type} {spelled : Spelled} {defs : κ → Option (Schema κ)}
  {recurse : κ → JsonValue → Except Raised (Attr κ)} {cls : SpecClass κ} {f : Field κ} {a : Attr κ}
  {t : JsonType}

/-- A field that is written, valid, and read as it was. -/
structure Field.Returns (spelled : Spelled) (recurse : κ → JsonValue → Except Raised (Attr κ))
    (defs : κ → Option (Schema κ)) (cls : SpecClass κ) (f : Field κ) (a : Attr κ) : Prop where
  writes : toDict a ≠ none
  given : f.default.isNone = true → f.optional = false → a.written ≠ none
  valid : ∀ x ∈ a.written, Validates defs f.node x
  back : ∃ b, Read spelled recurse cls a.written f b ∧ Attr.Same b a

theorem Field.validates_of_fits {x : JsonValue} (hjson : f.target.jsonType? = some t)
    (htype : t.has x = true) (hcarries : Carries x a) (hfits : f.Fits a) :
    Validates defs f.node x := by
  have hnone : f.target? = none := by
    rw [Field.target?]
    cases htarget : f.target with
    | spec =>
        rw [htarget] at hjson
        cases hjson
    | _ => rfl
  refine Field.validates_node.mpr ⟨Field.plain_node.mpr ⟨?_, hcarries.fits_iff.mp hfits⟩, ?_⟩
  · intro t' ht'
    obtain rfl := Option.some.inj (hjson.symm.trans ht')
    exact htype
  · rw [hnone]
    simp

/-- A value that JSON holds as it is comes back. -/
theorem Field.Returns.of_exact {x : JsonValue} (hjson : f.target.jsonType? = some t)
    (hfits : f.Fits a) (hwrites : toDict a = some x) (homits : omits a x = false)
    (hcarries : Carries x a) (htype : t.has x = true)
    (hcoerce : coerce spelled f.target x (cls.place f.name) = .ok a) :
    f.Returns spelled recurse defs cls a := by
  have hsome : a ≠ .none := by
    rintro rfl
    cases hcarries
  have hwritten : a.written = some x := by
    rw [Attr.written, hwrites, Option.filter_some, homits]
    rfl
  constructor
  · rw [hwrites]
    exact nofun
  · intro _ _
    rw [hwritten]
    exact nofun
  · intro y hy
    rw [hwritten] at hy
    obtain rfl := Option.some.inj hy
    exact Field.validates_of_fits hjson htype hcarries hfits
  · refine ⟨a, ?_, .rfl a⟩
    rw [hwritten, Read, readField, readValue_scalar hjson, hcoerce]
    exact (validate_eq_ok hsome).mpr ⟨rfl, hfits⟩

/-- An integer for a float comes back where a double holds it. -/
theorem Field.returns_int_float {n : Int} (htarget : f.target = .float)
    (hfits : f.Fits (.int n)) (hrange : f.range = some { minimum := some 0 })
    (hchoices : f.choices = none) :
    f.Returns spelled recurse defs cls (.int n) ↔ floatOfInt n = some n := by
  have hwritten : (.int n : Attr κ).written = some (.int n) := rfl
  have hjson : f.target.jsonType? = some .number := by
    rw [htarget]
    rfl
  have hvalid : Validates defs f.node (.int n) :=
    Field.validates_of_fits hjson rfl (.int rfl) hfits
  have hread : ∀ b, Read spelled recurse cls (some (.int n)) f b ↔
      ∃ m : Int, floatOfInt n = some m ∧ b = .float (.finite m) := by
    intro b
    have hnumber : JsonType.number.has (.int n) = true := rfl
    obtain ⟨_, hx, -⟩ | ⟨n', hn', hcoerce⟩ := coerce_float κ spelled (cls.place f.name) hnumber
    · cases hx
    obtain rfl := JsonValue.int.inj hn'
    rw [Read, readField, readValue_scalar hjson, htarget, hcoerce]
    cases hfloat : floatOfInt n with
    | none => exact iff_of_false (by rintro ⟨⟩) (by simp)
    | some m =>
        have hm : (0 : Rat) ≤ m :=
          Int.cast_nonneg (floatOfInt_nonneg ((Field.fits_int hrange hchoices).mp hfits) hfloat)
        have hsome : (.float (.finite m) : Attr κ) ≠ .none := by simp
        have hvalidate : validate cls f (.float (.finite m)) false = .ok b ↔
            b = .float (.finite m) := by
          rw [validate_eq_ok hsome, and_iff_left ((Field.fits_float hrange hchoices).mpr hm)]
        refine hvalidate.trans ?_
        constructor
        · exact fun hb => ⟨m, rfl, hb⟩
        · rintro ⟨m', hm', rfl⟩
          rw [Option.some.inj hm']
  constructor
  · intro h
    obtain ⟨b, hb, hsame⟩ := h.back
    rw [hwritten] at hb
    obtain ⟨m, hm, rfl⟩ := (hread b).mp hb
    have hnumber := hsame.number_eq (show Attr.number? (.int n) = some (n : Rat) from rfl)
    rw [hm, Int.cast_injective (Option.some.inj hnumber)]
  · intro h
    refine ⟨by rintro ⟨⟩, by rintro - - ⟨⟩, ?_, ?_⟩
    · intro x hx
      obtain rfl := Option.some.inj hx
      exact hvalid
    · exact ⟨_, (hread _).mpr ⟨n, h, rfl⟩, .number rfl rfl⟩

variable [DecidableEq κ] {reg : Registry κ}

theorem Field.Regular.returns_none (h : f.Regular reg cls) :
    f.Returns spelled recurse defs cls .none ↔ f.optional = true := by
  have hread : Read spelled recurse cls none f (f.default.getD .none) := rfl
  constructor
  · intro hreturns
    obtain ⟨b, hb, hsame⟩ := hreturns.back
    obtain rfl := hread.unique hb
    have hnone := hsame.eq_none rfl
    cases hdefault : f.default with
    | none =>
        by_contra hoptional
        rw [Bool.not_eq_true] at hoptional
        exact hreturns.given (by rw [hdefault]; rfl) hoptional rfl
    | some d =>
        rw [hdefault] at hnone
        rw [h.optional, hdefault, ← hnone]
        rfl
  · intro hoptional
    have hdefault := h.optional.mp hoptional
    refine ⟨nofun, fun hnone => ?_, nofun, .none, ?_, .rfl _⟩
    · rw [hdefault] at hnone
      cases hnone
    · exact (congrArg (fun d => Option.getD d Attr.none) hdefault).symm

/-- A field that holds no nested spec comes back where it is kept. -/
theorem Field.Regular.returns_scalar (h : f.Regular reg cls) (hjson : f.target.jsonType? = some t)
    (ha : a ≠ .none) (hcheck : checkField reg cls f a = .ok ()) :
    f.Returns spelled recurse defs cls a ↔ f.Keeps a := by
  obtain ⟨htype, hfits⟩ := (checkField_eq_ok ha).mp hcheck
  cases htarget : f.target with
  | bool =>
      rw [htarget] at htype
      cases a with
      | none => exact absurd rfl ha
      | bool b =>
          refine iff_of_true ?_ ⟨nofun, nofun, nofun⟩
          refine .of_exact (t := .boolean) ?_ hfits rfl rfl (.bool b) rfl ?_
          · rw [htarget]; rfl
          · rw [htarget]; rfl
      | _ => cases htype
  | str =>
      rw [htarget] at htype
      cases a with
      | none => exact absurd rfl ha
      | str s =>
          refine iff_of_true ?_ ⟨nofun, nofun, nofun⟩
          refine .of_exact (t := .string) ?_ hfits rfl rfl (.str s) rfl ?_
          · rw [htarget]; rfl
          · rw [htarget]; rfl
      | _ => cases htype
  | int =>
      rw [htarget] at htype
      cases a with
      | none => exact absurd rfl ha
      | int n =>
          refine iff_of_true ?_ ⟨nofun, nofun, fun _ _ hfloat => ?_⟩
          · refine .of_exact (t := .integer) ?_ hfits rfl rfl (.int rfl) rfl ?_
            · rw [htarget]; rfl
            · rw [htarget]; rfl
          · rw [htarget] at hfloat
            cases hfloat
      | _ => cases htype
  | float =>
      obtain ⟨hrange, hchoices⟩ := h.float htarget
      rw [htarget] at htype
      cases a with
      | none => exact absurd rfl ha
      | int n =>
          rw [Field.returns_int_float htarget hfits hrange hchoices]
          constructor
          · refine fun hn => ⟨nofun, nofun, fun n' hn' _ => ?_⟩
            obtain rfl := Attr.int.inj hn'
            exact hn
          · exact fun hkeeps => hkeeps.exact n rfl htarget
      | float x =>
          cases x with
          | finite r =>
              refine iff_of_true ?_ ⟨nofun, fun x hx => ⟨r, (Attr.float.inj hx).symm⟩, nofun⟩
              refine .of_exact (t := .number) ?_ hfits rfl rfl (.float rfl) rfl ?_
              · rw [htarget]; rfl
              · rw [htarget]; rfl
          | infinite negative =>
              refine iff_of_false (fun hreturns => hreturns.writes rfl) fun hkeeps => ?_
              obtain ⟨r, hr⟩ := hkeeps.finite _ rfl
              cases hr
          | nan =>
              refine iff_of_false (fun hreturns => hreturns.writes rfl) fun hkeeps => ?_
              obtain ⟨r, hr⟩ := hkeeps.finite _ rfl
              cases hr
      | _ => cases htype
  | spec =>
      rw [htarget] at hjson
      cases hjson
  | any =>
      rw [htarget] at hjson
      cases hjson

end Fields

/-! ## The whole instance -/

section Whole

variable {κ : Type} [DecidableEq κ] {reg : Registry κ} {spelled : Spelled}
  {defs : κ → Option (Schema κ)} {k : κ} {attrs : List (String × Attr κ)}

/-- An instance is written, valid, and read as it was. -/
def Restores (reg : Registry κ) (spelled : Spelled) (defs : κ → Option (Schema κ)) (k : κ)
    (attrs : List (String × Attr κ)) : Prop :=
  ∃ v, toDict (.spec k attrs []) = some v ∧ Validates defs (reg.cls k).schema v ∧
    ∃ o, fromDict reg spelled false k v = .ok o ∧ Attr.Same o (.spec k attrs [])

theorem Sound.forall_iff (h : Sound reg k attrs) (p : Attr κ → Prop) :
    (∀ entry ∈ attrs, p entry.2) ↔ ∀ f ∈ (reg.cls k).fields, p (attrOf attrs f.name) := by
  have hnodup : (attrs.map Prod.fst).Nodup := h.names ▸ (reg.cls k).nodup
  constructor
  · intro hall f hf
    have hname : f.name ∈ attrs.map Prod.fst := h.names ▸ List.mem_map_of_mem hf
    obtain ⟨entry, hentry, heq⟩ := List.mem_map.mp hname
    rw [← heq, attrOf_of_mem hnodup hentry]
    exact hall entry hentry
  · intro hall entry hentry
    have hname : entry.1 ∈ (reg.cls k).keys := h.names ▸ List.mem_map_of_mem hentry
    obtain ⟨f, hf, heq⟩ := List.mem_map.mp hname
    rw [← attrOf_of_mem hnodup hentry, ← heq]
    exact hall f hf

/-- What the check of the whole and the constraints of a class have to do with one another. -/
structure Coherent (reg : Registry κ) (defs : κ → Option (Schema κ)) (k : κ)
    (attrs : List (String × Attr κ)) : Prop where
  constraints : ∀ v, v.isObj = true →
    (∀ f ∈ (reg.cls k).fields, v.get? f.name = (attrOf attrs f.name).written) →
      (∀ f ∈ (reg.cls k).fields, attrOf attrs f.name = .none → f.optional = true) →
        ∀ s ∈ (reg.cls k).schemaConstraints, Validates defs s v
  whole : ∀ attrs',
    (∀ f ∈ (reg.cls k).fields, checkField reg (reg.cls k) f (attrOf attrs' f.name) = .ok () ∧
      Attr.Same (attrOf attrs' f.name) (attrOf attrs f.name)) →
        (reg.cls k).postInit (attrOf attrs') = .ok ()

/-- An instance comes back where each of its fields does. -/
theorem restores_iff (hregular : ∀ f ∈ (reg.cls k).fields, f.Regular reg (reg.cls k))
    (hsound : Sound reg k attrs) (hcoherent : Coherent reg defs k attrs) :
    Restores reg spelled defs k attrs ↔
      ∀ f ∈ (reg.cls k).fields,
        f.Returns spelled (fromDict reg spelled false) defs (reg.cls k) (attrOf attrs f.name) := by
  have hnodup : (attrs.map Prod.fst).Nodup := hsound.names ▸ (reg.cls k).nodup
  have hmem : ∀ f ∈ (reg.cls k).fields, f.name ∈ attrs.map Prod.fst := fun f hf =>
    hsound.names ▸ List.mem_map_of_mem hf
  have hget : ∀ entries, entriesOf attrs = some entries → ∀ f ∈ (reg.cls k).fields,
      (JsonValue.obj entries).get? f.name = (attrOf attrs f.name).written :=
    fun entries hentries f hf => lookup_entriesOf hentries hnodup (hmem f hf)
  rw [Restores, toDict_spec]
  constructor
  · rintro ⟨v, hv, hvalid, o, ho, hsame⟩
    obtain ⟨entries, hentries, rfl⟩ := Option.map_eq_some_iff.mp hv
    obtain ⟨-, -, hgiven, hvalids, -⟩ := SpecClass.validates_schema.mp hvalid
    rw [fromDict_eq, readSpec_eq_ok] at ho
    obtain ⟨-, -, -, attrs', rfl, -, hread⟩ := ho
    obtain ⟨attrs'', heq, hsames⟩ := hsame.attrs
    obtain ⟨-, rfl, -⟩ := Attr.spec.inj heq
    have hwrites := (hsound.forall_iff (toDict · ≠ none)).mp
      (entriesOf_ne_none.mp (by rw [hentries]; exact nofun))
    intro f hf
    have hwritten := hget entries hentries f hf
    exact ⟨hwrites f hf, hwritten ▸ hgiven f hf, hwritten ▸ hvalids f hf, attrOf attrs' f.name,
      hwritten ▸ hread f hf, hsames f.name⟩
  · intro hreturns
    have hwrites := (hsound.forall_iff (toDict · ≠ none)).mpr fun f hf => (hreturns f hf).writes
    obtain ⟨entries, hentries⟩ := Option.ne_none_iff_exists'.mp (entriesOf_ne_none.mpr hwrites)
    have hwritten := hget entries hentries
    have hknown : ∀ name ∈ (JsonValue.obj entries).keys, name ∈ (reg.cls k).keys :=
      fun name hname => hsound.names ▸ mem_of_mem_entriesOf hentries hname
    have hoptional : ∀ f ∈ (reg.cls k).fields, attrOf attrs f.name = .none → f.optional = true := by
      intro f hf hnone
      have hreturnsf := hreturns f hf
      rw [hnone] at hreturnsf
      exact (hregular f hf).returns_none.mp hreturnsf
    have hgiven : ∀ f ∈ (reg.cls k).fields, f.default.isNone = true → f.optional = false →
        (JsonValue.obj entries).get? f.name ≠ none := by
      intro f hf
      rw [hwritten f hf]
      exact (hreturns f hf).given
    have hvalids : ∀ f ∈ (reg.cls k).fields, ∀ x ∈ (JsonValue.obj entries).get? f.name,
        Validates defs f.node x := by
      intro f hf
      rw [hwritten f hf]
      exact (hreturns f hf).valid
    have hback : ∀ f, ∃ b, f ∈ (reg.cls k).fields →
        Read spelled (fromDict reg spelled false) (reg.cls k)
          ((JsonValue.obj entries).get? f.name) f b ∧ Attr.Same b (attrOf attrs f.name) := by
      intro f
      by_cases hf : f ∈ (reg.cls k).fields
      · obtain ⟨b, hb, hsame⟩ := (hreturns f hf).back
        exact ⟨b, fun _ => ⟨hwritten f hf ▸ hb, hsame⟩⟩
      · exact ⟨.none, fun h => absurd h hf⟩
    choose b hb using hback
    set attrs' := (reg.cls k).fields.map fun f => (f.name, b f) with hattrs'
    have hof : ∀ f ∈ (reg.cls k).fields, attrOf attrs' f.name = b f :=
      fun f hf => attrOf_map (reg.cls k).nodup hf b
    have hnames : attrs'.map Prod.fst = (reg.cls k).keys := by
      rw [hattrs', List.map_map]
      rfl
    have hchecked : ∀ f ∈ (reg.cls k).fields,
        checkField reg (reg.cls k) f (attrOf attrs' f.name) = .ok () := by
      intro f hf
      have hread := (hb f hf).1
      rw [hof f hf]
      cases hx : (JsonValue.obj entries).get? f.name with
      | none =>
          rw [hx] at hread
          rw [show b f = _ from hread]
          exact (hregular f hf).default
      | some x =>
          rw [hx] at hread
          exact ((hregular f hf).readField spelled (hvalids f hf x hx)).2 _ hread
    have hwhole : (reg.cls k).postInit (attrOf attrs') = .ok () := by
      refine hcoherent.whole attrs' fun f hf => ⟨hchecked f hf, ?_⟩
      rw [hof f hf]
      exact (hb f hf).2
    refine ⟨_, by rw [hentries]; rfl, ?_, .spec k attrs' [], ?_, .spec fun name => ?_⟩
    · exact SpecClass.validates_schema.mpr ⟨rfl, hknown, hgiven, hvalids,
        hcoherent.constraints _ rfl hwritten hoptional⟩
    · rw [fromDict_eq, readSpec_eq_ok]
      refine ⟨rfl, hknown, fun f hf hdefault => ?_, attrs', rfl, ⟨hnames, hchecked, hwhole⟩, ?_⟩
      · refine hgiven f hf hdefault (Bool.eq_false_iff.mpr fun hopt => ?_)
        rw [(hregular f hf).optional.mp hopt] at hdefault
        cases hdefault
      · intro f hf
        rw [hof f hf]
        exact (hb f hf).1
    · by_cases hname : name ∈ (reg.cls k).keys
      · obtain ⟨f, hf, rfl⟩ := List.mem_map.mp hname
        rw [hof f hf]
        exact (hb f hf).2
      · rw [attrOf_eq_none (hnames ▸ hname), attrOf_eq_none (hsound.names ▸ hname)]
        exact .rfl _

end Whole

end AioMoqt.Agent
