import AioMoqt.Agent.Proofs.Instances
import AioMoqt.Agent.Proofs.SpecDocuments

/-!
# The schema agrees with the reader

Which valid documents are read and which instances come back, for each of the spec classes.
-/

namespace AioMoqt.Agent

open AioMoqt.Lib AioMoqt.Lib.JsonSchema AioMoqt.Lib.Reader

/-! ## Nested instances -/

section Nested

variable {κ : Type} [DecidableEq κ] {reg : Registry κ} {spelled : Spelled}
  {defs : κ → Option (Schema κ)} {k t : κ} {attrs : List (String × Attr κ)} {f : Field κ}
  {cls : SpecClass κ} {a : Attr κ}

omit [DecidableEq κ] in
theorem restorable_spec_iff {extra : List (String × JsonValue)} :
    Restorable reg (.spec k attrs extra) ↔
      (∀ f ∈ (reg.cls k).fields, f.Keeps (attrOf attrs f.name)) ∧
        ∀ f ∈ (reg.cls k).fields, Restorable reg (attrOf attrs f.name) := by
  constructor
  · intro h
    cases h with
    | value hvalue => exact absurd rfl (hvalue k attrs extra)
    | spec hkeeps hrestorable => exact ⟨hkeeps, hrestorable⟩
  · exact fun ⟨hkeeps, hrestorable⟩ => .spec hkeeps hrestorable

/-- Only a field for a spec class holds an instance, and it is one of that class. -/
theorem target_of_spec {extra : List (String × JsonValue)} (hregular : f.Regular reg cls)
    (hcheck : checkField reg cls f (.spec t attrs extra) = .ok ()) : f.target = .spec t := by
  have hsome : (.spec t attrs extra : Attr κ) ≠ .none := nofun
  obtain ⟨htype, -⟩ := (checkField_eq_ok hsome).mp hcheck
  rcases hregular.kind with ⟨t', hjson⟩ | ⟨t', hspec, -⟩
  · cases htarget : f.target with
    | spec | any =>
        rw [htarget] at hjson
        cases hjson
    | _ =>
        rw [htarget] at htype
        cases htype
  · rw [hspec, checkType] at htype
    split at htype
    next heq => rw [hspec, heq]
    · cases htype

theorem not_spec_of_scalar (htarget : f.target? = none) (hregular : f.Regular reg cls)
    (hcheck : checkField reg cls f a = .ok ()) : ∀ k attrs extra, a ≠ .spec k attrs extra := by
  rintro k attrs extra rfl
  rw [Field.target?, target_of_spec hregular hcheck] at htarget
  cases htarget

theorem returns_scalar_iff (htarget : f.target? = none) (hregular : f.Regular reg cls)
    (hcheck : checkField reg cls f a = .ok ())
    {recurse : κ → JsonValue → Except Raised (Attr κ)} :
    f.Returns spelled recurse defs cls a ↔ f.Keeps a ∧ Restorable reg a := by
  rw [and_iff_left (Restorable.value (not_spec_of_scalar htarget hregular hcheck))]
  by_cases ha : a = .none
  · subst ha
    rw [hregular.returns_none]
    exact ⟨fun h => ⟨fun _ => h, nofun, nofun⟩, fun h => h.optional rfl⟩
  · rcases hregular.kind with ⟨t, hjson⟩ | ⟨k, hspec, -⟩
    · exact hregular.returns_scalar hjson ha hcheck
    · rw [Field.target?, hspec] at htarget
      cases htarget

/-- An instance without nested specs comes back where its fields are kept. -/
theorem restores_leaf (hleaf : (reg.cls k).Leaf)
    (hregular : ∀ f ∈ (reg.cls k).fields, f.Regular reg (reg.cls k))
    (hsound : Sound reg k attrs) (hcoherent : Coherent reg defs k attrs) :
    Restores reg spelled defs k attrs ↔ Restorable reg (.spec k attrs []) := by
  rw [restores_iff hregular hsound hcoherent, restorable_spec_iff, ← forall₂_and]
  exact forall₂_congr fun f hf =>
    returns_scalar_iff (hleaf f hf).1 (hregular f hf) (hsound.checked f hf)

/-- A field that holds an instance without nested specs: it has no default and the instance always
says something, or the default is the instance that is made without arguments. -/
structure Field.Nests (reg : Registry κ) (f : Field κ) (t : κ) : Prop where
  target : f.target = .spec t
  optional : f.optional = false
  leaf : (reg.cls t).Leaf
  default : (f.default = none ∧ ∃ g ∈ (reg.cls t).fields, g.optional = false) ∨
    f.default = some (.spec t (reg.cls t).defaults []) ∧
      ∀ g ∈ (reg.cls t).fields, g.default.isSome = true

/-- An instance of which nothing is written has no attribute that is set. -/
theorem eq_none_of_written (hleaf : (reg.cls t).Leaf)
    (hregular : ∀ f ∈ (reg.cls t).fields, f.Regular reg (reg.cls t)) (hsound : Sound reg t attrs)
    (hentries : entriesOf attrs = some []) :
    ∀ f ∈ (reg.cls t).fields, attrOf attrs f.name = .none := by
  intro f hf
  have hname : f.name ∈ attrs.map Prod.fst := hsound.names ▸ List.mem_map_of_mem hf
  have hwritten := lookup_entriesOf hentries (hsound.names ▸ (reg.cls t).nodup) hname
  have hspec := not_spec_of_scalar (hleaf f hf).1 (hregular f hf) (hsound.checked f hf)
  have hwrites := (hsound.forall_iff (toDict · ≠ none)).mp
    (entriesOf_ne_none.mp (by rw [hentries]; exact nofun)) f hf
  obtain ⟨v, hv⟩ := Option.ne_none_iff_exists'.mp hwrites
  rw [Attr.written, hv, List.lookup_nil, eq_comm, Option.filter_eq_none_iff] at hwritten
  have homits : omits (attrOf attrs f.name) v = true := by
    simpa using hwritten v rfl
  cases ha : attrOf attrs f.name with
  | none => rfl
  | spec k attrs' extra => exact absurd ha (hspec k attrs' extra)
  | _ =>
      rw [ha] at homits
      cases homits

theorem Field.Nests.returns_iff (h : f.Nests reg t) (hf : f.Regular reg cls)
    (hregular : ∀ f ∈ (reg.cls t).fields, f.Regular reg (reg.cls t)) (hsound : Sound reg t attrs)
    (hdefs : defs t = some (reg.cls t).schema)
    (hrestores : Restores reg spelled defs t attrs ↔ Restorable reg (.spec t attrs [])) :
    f.Returns spelled (fromDict reg spelled false) defs cls (.spec t attrs []) ↔
      Restorable reg (.spec t attrs []) := by
  obtain ⟨hchoices, hrange⟩ : f.choices = none ∧ f.range = none := by
    rcases hf.kind with ⟨t', hjson⟩ | ⟨t', -, hmarks⟩
    · rw [h.target] at hjson
      cases hjson
    · exact hmarks
  have hread : ∀ x b, readField spelled false (fromDict reg spelled false) cls f x = .ok b ↔
      fromDict reg spelled false t x = .ok b := by
    intro x b
    rw [readField_spec h.target hchoices hrange]
    exact and_iff_right_of_imp fun hb => (fromDict_instance hb).1
  have hnode : ∀ x, Validates defs f.node x ↔ Validates defs (reg.cls t).schema x := by
    intro x
    have hplain : f.node.plain x = true := by
      rw [Field.plain_node, h.target]
      exact ⟨by rintro _ ⟨⟩, by rw [hchoices]; simp, by rw [hrange]; simp, by rw [hrange]; simp⟩
    have htarget : f.target? = some t := by
      rw [Field.target?, h.target]
    rw [Field.validates_node, and_iff_right hplain, htarget]
    simp [hdefs]
  cases hentries : entriesOf attrs with
  | none =>
      have hwrites : toDict (.spec t attrs []) = none := by
        rw [toDict_spec, hentries]
        rfl
      refine iff_of_false (fun hreturns => hreturns.writes hwrites) fun hrestorable => ?_
      obtain ⟨v, hv, -⟩ := hrestores.mpr hrestorable
      rw [hwrites] at hv
      cases hv
  | some entries =>
      have hwrites : toDict (.spec t attrs []) = some (.obj entries) := by
        rw [toDict_spec, hentries]
        rfl
      cases entries with
      | nil =>
          have hnone := eq_none_of_written h.leaf hregular hsound hentries
          have hwritten : (Attr.spec t attrs []).written = none := by
            rw [Attr.written, hwrites]
            rfl
          have hoptional : Restorable reg (.spec t attrs []) ↔
              ∀ g ∈ (reg.cls t).fields, g.optional = true := by
            rw [restorable_spec_iff, ← forall₂_and]
            refine forall₂_congr fun g hg => ?_
            rw [hnone g hg]
            constructor
            · exact fun hboth => hboth.1.optional rfl
            · exact fun hopt => ⟨⟨fun _ => hopt, by simp, by simp⟩, .value (by simp)⟩
          rw [hoptional]
          rcases h.default with ⟨hdefault, g, hg, hnot⟩ | ⟨hdefault, hall⟩
          · refine iff_of_false (fun hreturns => ?_) fun hopt => ?_
            · exact hreturns.given (by rw [hdefault]; rfl) h.optional hwritten
            · rw [hopt g hg] at hnot
              cases hnot
          · have hmade : ∀ g ∈ (reg.cls t).fields,
                attrOf (reg.cls t).defaults g.name = g.default.getD .none :=
              fun g hg => attrOf_map (reg.cls t).nodup hg _
            have hread' : Read spelled (fromDict reg spelled false) cls
                (Attr.spec t attrs []).written f (.spec t (reg.cls t).defaults []) := by
              rw [hwritten, Read, hdefault]
              rfl
            constructor
            · intro hreturns g hg
              obtain ⟨b, hb, hsame⟩ := hreturns.back
              obtain rfl := hread'.unique hb
              obtain ⟨attrs', heq, hsames⟩ := hsame.attrs
              obtain ⟨-, rfl, -⟩ := Attr.spec.inj heq
              have hg' := (hsames g.name).eq_none (hnone g hg)
              obtain ⟨d, hd⟩ := Option.isSome_iff_exists.mp (hall g hg)
              rw [hmade g hg, hd, Option.getD_some] at hg'
              rw [(hregular g hg).optional, hd, hg']
            · intro hopt
              refine ⟨by rw [hwrites]; simp, fun hnot => ?_, ?_, _, hread', .spec fun name => ?_⟩
              · rw [hdefault] at hnot
                cases hnot
              · rw [hwritten]
                simp
              · by_cases hname : name ∈ (reg.cls t).keys
                · obtain ⟨g, hg, rfl⟩ := List.mem_map.mp hname
                  rw [hmade g hg, hnone g hg, (hregular g hg).optional.mp (hopt g hg)]
                  exact .rfl _
                · have hout : name ∉ attrs.map Prod.fst := hsound.names ▸ hname
                  have hout' : name ∉ (reg.cls t).defaults.map Prod.fst := by
                    rw [SpecClass.defaults, List.map_map]
                    exact hname
                  rw [attrOf_eq_none hout, attrOf_eq_none hout']
                  exact .rfl _
      | cons entry entries =>
          have hwritten : (Attr.spec t attrs []).written = some (.obj (entry :: entries)) := by
            rw [Attr.written, hwrites]
            rfl
          rw [← hrestores]
          constructor
          · intro hreturns
            obtain ⟨b, hb, hsame⟩ := hreturns.back
            rw [hwritten] at hb
            exact ⟨_, hwrites, (hnode _).mp (hreturns.valid _ hwritten), b, (hread _ b).mp hb, hsame⟩
          · rintro ⟨v, hv, hvalid, b, hb, hsame⟩
            obtain rfl := Option.some.inj (hwrites.symm.trans hv)
            refine ⟨by rw [hwrites]; simp, fun _ _ => by rw [hwritten]; simp, ?_, b, ?_,
              hsame⟩
            · intro x hx
              obtain rfl := Option.some.inj (hwritten.symm.trans hx)
              exact (hnode _).mpr hvalid
            · rw [hwritten]
              exact (hread _ b).mpr hb

/-- An instance comes back where each of its fields is kept, and so are those of the instances that
it holds. -/
theorem restores_nested (hregular : ∀ k, ∀ f ∈ (reg.cls k).fields, f.Regular reg (reg.cls k))
    (hnests : ∀ f ∈ (reg.cls k).fields, ∀ t, f.target = .spec t → f.Nests reg t)
    (hdefs : ∀ t ∈ (reg.cls k).targets, defs t = some (reg.cls t).schema)
    (hsound : Sound reg k attrs) (hcoherent : Coherent reg defs k attrs)
    (hinner : ∀ f ∈ (reg.cls k).fields, ∀ t attrs' extra, attrOf attrs f.name = .spec t attrs' extra →
      extra = [] ∧ Sound reg t attrs' ∧ Coherent reg defs t attrs') :
    Restores reg spelled defs k attrs ↔ Restorable reg (.spec k attrs []) := by
  rw [restores_iff (hregular k) hsound hcoherent, restorable_spec_iff, ← forall₂_and]
  refine forall₂_congr fun f hf => ?_
  cases htarget : f.target? with
  | none => exact returns_scalar_iff htarget (hregular k f hf) (hsound.checked f hf)
  | some t =>
      have hspec : f.target = .spec t := by
        rw [Field.target?] at htarget
        split at htarget
        next heq =>
          obtain rfl := Option.some.inj htarget
          exact heq
        · cases htarget
      by_cases hnone : attrOf attrs f.name = .none
      · rw [hnone, (hregular k f hf).returns_none]
        constructor
        · exact fun h => ⟨⟨fun _ => h, by simp, by simp⟩, .value (by simp)⟩
        · exact fun h => h.1.optional rfl
      · have hcheck := hsound.checked f hf
        cases ha : attrOf attrs f.name with
        | spec t' attrs' extra =>
            rw [ha] at hcheck
            have hspec' := target_of_spec (hregular k f hf) hcheck
            obtain ⟨rfl, hsound', hcoherent'⟩ := hinner f hf t' attrs' extra ha
            have hfield := hnests f hf t' hspec'
            have hmem : t' ∈ (reg.cls k).targets := SpecClass.mem_targets.mpr ⟨f, hf, hspec'⟩
            rw [hfield.returns_iff (hregular k f hf) (hregular t') hsound' (hdefs t' hmem)
              (restores_leaf hfield.leaf (hregular t') hsound' hcoherent')]
            exact (and_iff_right ⟨by simp, by simp, by simp⟩).symm
        | _ =>
            have htype := ((checkField_eq_ok hnone).mp hcheck).1
            rw [hspec, ha] at htype
            cases htype

end Nested

/-! ## The agent's specs -/

section Specs

variable {spelled : Spelled} {v : JsonValue} {defs : SpecName → Option (Schema SpecName)}
  {k t : SpecName} {attrs : List (String × Attr SpecName)}

theorem specs_nests (k : SpecName) :
    ∀ f ∈ (specs.cls k).fields, ∀ t, f.target = .spec t → f.Nests specs t := by
  have htrack : ∀ t, trackField.target = .spec t → trackField.Nests specs t := by
    intro t ht
    obtain rfl := Target.spec.inj ht
    exact ⟨rfl, rfl, by decide, Or.inl ⟨rfl, _, List.mem_cons_self, rfl⟩⟩
  have hpriority : ∀ t, priorityField.target = .spec t → priorityField.Nests specs t := by
    intro t ht
    obtain rfl := Target.spec.inj ht
    exact ⟨rfl, rfl, by decide, Or.inr ⟨rfl, by decide⟩⟩
  have hstart : ∀ t, SubscribeSpec.startField.target = .spec t →
      SubscribeSpec.startField.Nests specs t := by
    intro t ht
    obtain rfl := Target.spec.inj ht
    exact ⟨rfl, rfl, by decide, Or.inr ⟨rfl, by decide⟩⟩
  have hfetch : ∀ t, FetchSpec.startField.target = .spec t →
      FetchSpec.startField.Nests specs t := by
    intro t ht
    obtain rfl := Target.spec.inj ht
    exact ⟨rfl, rfl, by decide, Or.inl ⟨rfl, _, List.mem_cons_self, rfl⟩⟩
  intro f hf
  cases k with
  | trackRef | startAt | priority =>
      simp only [specs, trackRef, startAt, priority, List.mem_cons, List.not_mem_nil,
        or_false] at hf
      rcases hf with rfl | rfl | rfl | rfl
      all_goals rintro _ ⟨⟩
  | subscribeSpec =>
      simp only [specs, subscribeSpec, List.mem_cons, List.not_mem_nil, or_false] at hf
      rcases hf with rfl | rfl | rfl | rfl | rfl | rfl | rfl | rfl
      · exact htrack
      · exact hstart
      · exact hpriority
      all_goals rintro _ ⟨⟩
  | fetchSpec =>
      simp only [specs, fetchSpec, List.mem_cons, List.not_mem_nil, or_false] at hf
      rcases hf with rfl | rfl | rfl | rfl | rfl
      · exact htrack
      · exact hfetch
      · exact hpriority
      all_goals rintro _ ⟨⟩
  | publishSpec =>
      simp only [specs, publishSpec, List.mem_cons, List.not_mem_nil, or_false] at hf
      rcases hf with rfl | rfl | rfl | rfl | rfl | rfl | rfl
      · exact htrack
      · exact hpriority
      all_goals rintro _ ⟨⟩

/-- What Python code can make is complete. -/
theorem Constructed.sound (h : Constructed specs (.spec k attrs [])) : Sound specs k attrs := by
  cases h with
  | value hvalue => exact absurd rfl (hvalue k attrs [])
  | spec given hconstruct =>
      obtain ⟨attrs', heq, hsound, -⟩ := construct_eq_ok.mp hconstruct
      obtain ⟨-, rfl, -⟩ := Attr.spec.inj heq
      exact hsound

/-- The instances that an instance holds are complete as well. -/
theorem Constructed.inner (h : Constructed specs (.spec k attrs [])) :
    ∀ f ∈ (specs.cls k).fields, ∀ t attrs' extra, attrOf attrs f.name = .spec t attrs' extra →
      extra = [] ∧ Sound specs t attrs' := by
  have hsound := h.sound
  intro f hf t attrs' extra ha
  have hinner : Constructed specs (.spec t attrs' extra) := by
    cases h with
    | value hvalue => exact absurd rfl (hvalue k attrs [])
    | spec given hconstruct hentries =>
        rw [← ha]
        exact (hsound.forall_iff (Constructed specs)).mp hentries f hf
  have hextra : (specs.cls t).hasExtra = false := by
    have hcheck := hsound.checked f hf
    rw [ha] at hcheck
    have hmem : t ∈ (specs.cls k).targets :=
      SpecClass.mem_targets.mpr ⟨f, hf, target_of_spec (specs_regular k f hf) hcheck⟩
    rcases targets_subset hmem with rfl | rfl | rfl <;> rfl
  cases hinner with
  | value hvalue => exact absurd rfl (hvalue t attrs' extra)
  | spec given hconstruct hentries hhas =>
      have hnil : extra = [] := by
        by_contra hne
        rw [hextra] at hhas
        exact Bool.false_ne_true (hhas hne)
      subst hnil
      exact ⟨rfl, Constructed.sound (.spec given hconstruct hentries hhas)⟩

namespace StartAt

theorem postInit_congr {attr attr' : String → Attr SpecName}
    (h : ∀ name ∈ "mode" :: numbered, attr name = attr' name) : postInit attr = postInit attr' := by
  have hany : (numbered.any fun name => !(attr name).isNone) =
      numbered.any fun name => !(attr' name).isNone := by
    simp only [numbered, List.any_cons, List.any_nil, h "group" (by decide),
      h "object" (by decide), h "end_group" (by decide)]
  rw [postInit, postInit, hany, h "mode" (by decide), h "group" (by decide),
    h "end_group" (by decide)]

theorem modeField_mem : modeField ∈ (specs.cls .startAt).fields := List.mem_cons_self

theorem numberField_mem {name : String} (hname : name ∈ numbered) :
    numberField name ∈ (specs.cls .startAt).fields := by
  simp only [numbered, List.mem_cons, List.not_mem_nil, or_false] at hname
  rcases hname with rfl | rfl | rfl <;> simp [specs, startAt]

/-- The type of a mode that is set. -/
theorem mode_of_check {a : Attr SpecName}
    (hcheck : checkField specs startAt modeField a = .ok ()) (ha : a ≠ .none) :
    ∃ mode, a = .str mode := by
  obtain ⟨htype, -⟩ := (checkField_eq_ok ha).mp hcheck
  cases a with
  | none => exact absurd rfl ha
  | str mode => exact ⟨mode, rfl⟩
  | _ => cases htype

theorem number_of_check {a : Attr SpecName} {name : String}
    (hcheck : checkField specs startAt (numberField name) a = .ok ()) :
    a = .none ∨ ∃ n, a = .int n := by
  by_cases ha : a = .none
  · exact Or.inl ha
  · obtain ⟨htype, -⟩ := (checkField_eq_ok ha).mp hcheck
    cases a with
    | none => exact absurd rfl ha
    | int n => exact Or.inr ⟨n, rfl⟩
    | _ => cases htype

/-- A start whose mode is set. -/
theorem typed_of_sound (hsound : Sound specs .startAt attrs) (hmode : attrOf attrs "mode" ≠ .none) :
    ∃ mode, Typed (attrOf attrs) mode := by
  obtain ⟨mode, heq⟩ := mode_of_check (hsound.checked _ modeField_mem) hmode
  exact ⟨mode, heq, fun name hname =>
    number_of_check (hsound.checked _ (numberField_mem hname))⟩

theorem coherent (hsound : Sound specs .startAt attrs) : Coherent specs defs .startAt attrs := by
  constructor
  · intro v hobj hget hoptional
    have hmode : attrOf attrs "mode" ≠ .none := fun hnone =>
      Bool.false_ne_true (hoptional _ modeField_mem hnone)
    obtain ⟨mode, htyped⟩ := typed_of_sound hsound hmode
    obtain ⟨hgroup, hrange, hlatest⟩ := (postInit_eq_ok htyped).mp hsound.whole
    have hmode' : v.get? "mode" = some (.str mode) :=
      (hget _ modeField_mem).trans (congrArg Attr.written htyped.mode_eq)
    have hmode_iff : ∀ text, v.get? "mode" = some (.str text) ↔ mode = text := by
      intro text
      rw [hmode', Option.some.injEq, JsonValue.str.injEq]
    have hnumber : ∀ name ∈ numbered, v.get? name = (attrOf attrs name).written :=
      fun name hname => hget _ (numberField_mem hname)
    have hwritten : ∀ name ∈ numbered, attrOf attrs name ≠ .none → v.get? name ≠ none := by
      intro name hname hne
      rcases htyped.number name hname with hnone | ⟨n, hn⟩
      · exact absurd hnone hne
      · rw [hnumber name hname, hn]
        exact nofun
    refine (constraints_iff hobj).mpr ⟨?_, ?_, ?_⟩
    · rw [hmode_iff]
      exact fun hg => hwritten "group" (by decide) (hgroup hg)
    · rw [hmode_iff]
      intro hr
      obtain ⟨first, last, hfirst, hlast, -⟩ := hrange hr
      refine ⟨hwritten "group" (by decide) ?_, hwritten "end_group" (by decide) ?_⟩
      · rw [hfirst]
        exact nofun
      · rw [hlast]
        exact nofun
    · rw [hmode_iff, hmode_iff]
      intro hl name hname
      rw [hnumber name hname, hlatest hl name hname]
      exact nofun
  · intro attrs' hattrs'
    rw [← hsound.whole]
    refine postInit_congr fun name hname => ?_
    rcases List.mem_cons.mp hname with rfl | hname
    · obtain ⟨-, hsame⟩ := hattrs' _ modeField_mem
      by_cases hmode : attrOf attrs "mode" = .none
      · rw [hmode]
        exact hsame.eq_none hmode
      · obtain ⟨mode, heq⟩ := mode_of_check (hsound.checked _ modeField_mem) hmode
        change attrOf attrs "mode" = .str mode at heq
        change Attr.Same (attrOf attrs' "mode") (attrOf attrs "mode") at hsame
        rw [heq] at hsame ⊢
        exact hsame.eq_str
    · obtain ⟨hcheck, hsame⟩ := hattrs' _ (numberField_mem hname)
      change Attr.Same (attrOf attrs' name) (attrOf attrs name) at hsame
      rcases number_of_check (hsound.checked _ (numberField_mem hname)) with hnone | ⟨n, hn⟩
      · change attrOf attrs name = .none at hnone
        rw [hnone]
        exact hsame.eq_none hnone
      · change attrOf attrs name = .int n at hn
        have hnumber := hsame.number_eq (show (attrOf attrs name).number? = some (n : Rat) by
          rw [hn]; rfl)
        rcases number_of_check hcheck with hnone' | ⟨n', hn'⟩
        · change attrOf attrs' name = .none at hnone'
          rw [hnone'] at hnumber
          cases hnumber
        · change attrOf attrs' name = .int n' at hn'
          rw [hn'] at hnumber
          rw [hn, hn', Int.cast_injective (Option.some.inj hnumber)]

end StartAt

/-- The start of a fetch that is complete. -/
theorem FetchSpec.start_of_sound (hsound : Sound specs .fetchSpec attrs)
    (hinner : ∀ f ∈ (specs.cls .fetchSpec).fields, ∀ t attrs' extra,
      attrOf attrs f.name = .spec t attrs' extra → extra = [] ∧ Sound specs t attrs') :
    ∃ start, attrOf attrs "start_at" = .spec .startAt start [] ∧ Sound specs .startAt start ∧
      attrOf start "mode" = .str "range" := by
  have hf : FetchSpec.startField ∈ (specs.cls .fetchSpec).fields := by simp [specs, fetchSpec]
  have hwhole : FetchSpec.postInit (attrOf attrs) = .ok () := hsound.whole
  have hcheck := hsound.checked _ hf
  change checkField specs fetchSpec FetchSpec.startField (attrOf attrs "start_at") = .ok () at hcheck
  rw [FetchSpec.postInit] at hwhole
  cases ha : attrOf attrs "start_at" with
  | spec t start extra =>
      rw [ha] at hwhole hcheck
      dsimp only at hwhole
      obtain rfl := Target.spec.inj (target_of_spec (specs_regular .fetchSpec _ hf) hcheck)
      obtain ⟨rfl, hstart⟩ := hinner _ hf _ _ _ ha
      refine ⟨start, rfl, hstart, ?_⟩
      split at hwhole
      next his =>
        cases hmode : attrOf start "mode" with
        | str mode =>
            rw [hmode, Attr.is, decide_eq_true_eq] at his
            rw [his]
        | _ =>
            rw [hmode] at his
            cases his
      · cases hwhole
  | _ =>
      rw [ha] at hwhole
      cases hwhole

theorem FetchSpec.coherent (hsound : Sound specs .fetchSpec attrs)
    (hinner : ∀ f ∈ (specs.cls .fetchSpec).fields, ∀ t attrs' extra,
      attrOf attrs f.name = .spec t attrs' extra → extra = [] ∧ Sound specs t attrs') :
    Coherent specs defs .fetchSpec attrs := by
  have hf : FetchSpec.startField ∈ (specs.cls .fetchSpec).fields := by simp [specs, fetchSpec]
  obtain ⟨start, hstart, hsound', hmode⟩ := FetchSpec.start_of_sound hsound hinner
  constructor
  · intro v _ hget _
    have hwritten : v.get? "start_at" = (Attr.spec .startAt start []).written :=
      (hget _ hf).trans (congrArg Attr.written hstart)
    have hentries : ∀ x ∈ v.get? "start_at", ∃ entries, entriesOf start = some entries ∧
        x = .obj entries := by
      intro x hx
      rw [hwritten, Attr.written, toDict_spec] at hx
      obtain ⟨hx, -⟩ := Option.filter_eq_some_iff.mp hx
      obtain ⟨entries, hentries, rfl⟩ := Option.map_eq_some_iff.mp hx
      exact ⟨entries, hentries, rfl⟩
    refine (FetchSpec.constraints_iff ?_).mpr ?_
    · intro x hx
      obtain ⟨entries, -, rfl⟩ := hentries x hx
      rfl
    · intro x hx
      obtain ⟨entries, hsome, rfl⟩ := hentries x hx
      have hlookup : ∀ name ∈ startAt.keys,
          (JsonValue.obj entries).get? name = (attrOf start name).written := by
        intro name hname
        exact lookup_entriesOf hsome (hsound'.names ▸ startAt.nodup) (hsound'.names ▸ hname)
      obtain ⟨mode, htyped⟩ := StartAt.typed_of_sound hsound' (by rw [hmode]; simp)
      obtain rfl := Attr.str.inj (hmode.symm.trans htyped.mode_eq)
      obtain ⟨first, last, hfirst, hlast, -⟩ :=
        ((StartAt.postInit_eq_ok htyped).mp hsound'.whole).2.1 rfl
      rw [hlookup "mode" (by decide), hlookup "group" (by decide), hlookup "end_group" (by decide),
        hmode, hfirst, hlast]
      exact ⟨rfl, by rintro ⟨⟩, by rintro ⟨⟩⟩
  · intro attrs' hattrs'
    obtain ⟨-, hsame⟩ := hattrs' _ hf
    rw [show attrOf attrs FetchSpec.startField.name = _ from hstart] at hsame
    obtain ⟨start', hstart', hsames⟩ := hsame.attrs
    have hmode' := hsames "mode"
    rw [hmode] at hmode'
    change FetchSpec.postInit (attrOf attrs') = .ok ()
    rw [FetchSpec.postInit, show attrOf attrs' "start_at" = _ from hstart']
    dsimp only
    rw [hmode'.eq_str]
    rfl

theorem coherent_of_sound (hsound : Sound specs k attrs)
    (hinner : ∀ f ∈ (specs.cls k).fields, ∀ t attrs' extra,
      attrOf attrs f.name = .spec t attrs' extra → extra = [] ∧ Sound specs t attrs') :
    Coherent specs defs k attrs := by
  cases k with
  | startAt => exact StartAt.coherent hsound
  | fetchSpec => exact FetchSpec.coherent hsound hinner
  | _ => exact ⟨nofun, fun _ _ => rfl⟩

/-- An instance of each class comes back where all its fields are kept. -/
theorem restores_constructed (spelled : Spelled) (hdefs : Defines defs k)
    (h : Constructed specs (.spec k attrs [])) :
    Restores specs spelled defs k attrs ↔ Restorable specs (.spec k attrs []) := by
  have hinner := h.inner
  refine restores_nested (specs_regular ·) (specs_nests k) hdefs h.sound
    (coherent_of_sound h.sound hinner) fun f hf t attrs' extra ha => ?_
  obtain ⟨hextra, hsound⟩ := hinner f hf t attrs' extra ha
  refine ⟨hextra, hsound, coherent_of_sound hsound fun g hg t' attrs'' extra' ha' => ?_⟩
  -- the instances that an instance holds hold none
  have hcheck := h.sound.checked f hf
  rw [ha] at hcheck
  have hleaf := (specs_nests k f hf t (target_of_spec (specs_regular k f hf) hcheck)).leaf
  exact absurd ha' (not_spec_of_scalar (hleaf g hg).1 (specs_regular t g hg) (hsound.checked g hg)
    t' attrs'' extra')

/-- The published schema and the reader agree just where a document is readable and an instance can
be restored. -/
theorem schema_agrees (spelled : Spelled) (k : SpecName) :
    (∀ v, SchemaValid specs k v →
      ((∃ o, fromDict specs spelled false k v = .ok o) ↔ Readable k v)) ∧
    ∀ attrs, Constructed specs (.spec k attrs []) →
      ((∃ v, toDict (.spec k attrs []) = some v ∧ SchemaValid specs k v ∧
          ∃ o, fromDict specs spelled false k v = .ok o ∧ Attr.Same o (.spec k attrs [])) ↔
        Restorable specs (.spec k attrs [])) := by
  have hdefs := defines_jsonSchema k
  constructor
  · intro v hvalid
    rw [SchemaValid, (jsonSchema_spec specs k).1] at hvalid
    cases k with
    | trackRef => exact iff_of_true (trackRef_reads hvalid) trivial
    | startAt => exact startAt_reads hvalid
    | priority => exact iff_of_true (priority_reads hvalid) trivial
    | subscribeSpec => exact subscribeSpec_reads hdefs hvalid
    | fetchSpec => exact fetchSpec_reads hdefs hvalid
    | publishSpec => exact iff_of_true (publishSpec_reads hdefs hvalid) trivial
  · intro attrs hconstructed
    rw [← restores_constructed spelled hdefs hconstructed, Restores]
    simp only [SchemaValid, (jsonSchema_spec specs k).1]

/-- A range is readable, and the instance it is read as comes back. -/
theorem schema_agrees_range :
    let v := JsonValue.obj [("mode", .str "range"), ("group", .int 4), ("end_group", .int 9)]
    let attrs : List (String × Attr SpecName) :=
      [("mode", .str "range"), ("group", .int 4), ("object", .none), ("end_group", .int 9)]
    (∃ o, fromDict specs ⟨fun _ => none, fun _ => none⟩ false .startAt v = .ok o) ∧
      ∃ v, toDict (.spec .startAt attrs []) = some v ∧ SchemaValid specs .startAt v ∧
        ∃ o, fromDict specs ⟨fun _ => none, fun _ => none⟩ false .startAt v = .ok o ∧
          Attr.Same o (.spec .startAt attrs []) := by
  intro v attrs
  have hvalid : SchemaValid specs .startAt v := ⟨4, by decide +kernel⟩
  have hreadable : Readable .startAt v := by
    refine ⟨by rintro ⟨⟩, ?_⟩
    rintro group hgroup endGroup hend - first hfirst last hlast
    obtain rfl := Option.some.inj hgroup
    obtain rfl := Option.some.inj hend
    obtain rfl := Option.some.inj hfirst
    obtain rfl := Option.some.inj hlast
    decide
  have hvalue : ∀ entry ∈ attrs, ∀ k attrs' extra, entry.2 ≠ .spec k attrs' extra := by
    simp [attrs]
  have hconstructed : Constructed specs (.spec .startAt attrs []) :=
    .spec attrs rfl (fun entry hentry => .value (hvalue entry hentry)) (by simp)
  have hmode : attrOf attrs "mode" = .str "range" := rfl
  have hgroup : attrOf attrs "group" = .int 4 := rfl
  have hobject : attrOf attrs "object" = .none := rfl
  have hend : attrOf attrs "end_group" = .int 9 := rfl
  have hrestorable : Restorable specs (.spec .startAt attrs []) := by
    refine .spec ?_ ?_
    · simp only [specs, startAt, StartAt.modeField, StartAt.numberField, List.forall_mem_cons,
        hmode, hgroup, hobject, hend]
      refine ⟨?_, ?_, ?_, ?_, by simp⟩
      all_goals constructor <;> simp
    · simp only [specs, startAt, StartAt.modeField, StartAt.numberField, List.forall_mem_cons,
        hmode, hgroup, hobject, hend]
      refine ⟨?_, ?_, ?_, ?_, by simp⟩
      all_goals exact .value (by simp)
  exact ⟨((schema_agrees _ .startAt).1 v hvalid).mpr hreadable,
    ((schema_agrees _ .startAt).2 attrs hconstructed).mpr hrestorable⟩

/-- The schema lets a group through that has no mode, which the reader does not; and a start whose
mode is `None` is read back as another. -/
theorem schema_disagrees :
    let v := JsonValue.obj [("group", .int 3)]
    let attrs : List (String × Attr SpecName) :=
      [("mode", .none), ("group", .none), ("object", .none), ("end_group", .none)]
    (SchemaValid specs .startAt v ∧ ∀ spelled o, fromDict specs spelled false .startAt v ≠ .ok o) ∧
      Constructed specs (.spec .startAt attrs []) ∧ toDict (.spec .startAt attrs []) = some (.obj []) ∧
        ∀ spelled o, fromDict specs spelled false .startAt (.obj []) = .ok o →
          ¬ Attr.Same o (.spec .startAt attrs []) := by
  refine ⟨⟨⟨4, rfl⟩, fun spelled o h => ?_⟩, ?_, rfl, ?_⟩
  · have herror : ∃ e, fromDict specs spelled false .startAt (.obj [("group", .int 3)]) = .error e :=
      ⟨_, rfl⟩
    obtain ⟨e, he⟩ := herror
    rw [he] at h
    cases h
  · refine .spec [("mode", .none)] rfl ?_ nofun
    simp only [List.forall_mem_cons]
    exact ⟨.value nofun, .value nofun, .value nofun, .value nofun, nofun⟩
  · intro spelled o ho hsame
    have hdefault : fromDict specs spelled false .startAt (.obj []) =
        .ok (.spec .startAt startAt.defaults []) := rfl
    obtain rfl := Except.ok.inj (hdefault.symm.trans ho)
    obtain ⟨attrs, heq, hsames⟩ := hsame.attrs
    obtain ⟨-, rfl, -⟩ := Attr.spec.inj heq
    cases (hsames "mode").eq_none rfl

end Specs

end AioMoqt.Agent
