import AioMoqt.Agent.Proofs.Documents

/-!
# Valid documents of the agent's specs

Where `from_dict` accepts a valid document of each of the spec classes.
-/

namespace AioMoqt.Agent

open AioMoqt.Lib AioMoqt.Lib.JsonSchema AioMoqt.Lib.Reader

variable {spelled : Spelled} {v : JsonValue} {defs : SpecName → Option (Schema SpecName)}

theorem specs_regular (k : SpecName) :
    ∀ f ∈ (specs.cls k).fields, f.Regular specs (specs.cls k) := by
  have h : (specs.cls k).fields.all (Field.regular specs (specs.cls k)) = true := by
    cases k <;> rfl
  exact fun f hf => .of_regular (List.all_eq_true.mp h f hf)

/-! ## `StartAt` -/

namespace StartAt

variable {attr : String → Attr SpecName} {mode : String}

theorem isNone_iff {a : Attr SpecName} : a.isNone = true ↔ a = .none := by
  cases a <;> simp [Attr.isNone]

/-- The attributes of an instance whose mode is set. -/
structure Typed (attr : String → Attr SpecName) (mode : String) : Prop where
  mode_eq : attr "mode" = .str mode
  number : ∀ name ∈ numbered, attr name = .none ∨ ∃ n, attr name = .int n

/-- The check of the whole, as far as the mode has anything to say. -/
theorem postInit_eq_ok (h : Typed attr mode) :
    postInit attr = .ok () ↔
      (mode = "group" → attr "group" ≠ .none) ∧
        (mode = "range" → ∃ group endGroup,
          attr "group" = .int group ∧ attr "end_group" = .int endGroup ∧ group ≤ endGroup) ∧
        (mode = "latest" ∨ mode = "next_group" → ∀ name ∈ numbered, attr name = .none) := by
  have his : ∀ text, (attr "mode").is text = true ↔ mode = text := by
    intro text
    rw [h.mode_eq, Attr.is, decide_eq_true_eq]
  have hany : (numbered.any fun name => !(attr name).isNone) = true ↔
      ¬ ∀ name ∈ numbered, attr name = .none := by
    rw [List.any_eq_true, not_forall]
    simp only [Bool.not_eq_true', Bool.eq_false_iff, ne_eq, isNone_iff, Classical.not_imp]
  have hlatest : mode = "latest" ∨ mode = "next_group" → mode ≠ "group" ∧ mode ≠ "range" := by
    rintro (rfl | rfl) <;> decide
  rw [postInit]
  by_cases hg : mode = "group"
  · have hr : mode ≠ "range" := by rw [hg]; decide
    have hl : ¬ (mode = "latest" ∨ mode = "next_group") := fun hl => (hlatest hl).1 hg
    by_cases hnone : attr "group" = .none
    · rw [if_pos ⟨(his _).mpr hg, isNone_iff.mpr hnone⟩]
      exact iff_of_false nofun fun hall => hall.1 hg hnone
    · rw [if_neg fun hboth => hnone (isNone_iff.mp hboth.2), if_neg fun hr' => hr ((his _).mp hr'),
        if_neg fun hl' => hl (hl'.imp (his _).mp (his _).mp)]
      exact iff_of_true rfl ⟨fun _ => hnone, fun hr' => absurd hr' hr, fun hl' => absurd hl' hl⟩
  rw [if_neg fun hboth => hg ((his _).mp hboth.1)]
  by_cases hr : mode = "range"
  · have hl : ¬ (mode = "latest" ∨ mode = "next_group") := fun hl => (hlatest hl).2 hr
    rw [if_pos ((his _).mpr hr)]
    rcases h.number "group" (by decide) with hnone | ⟨group, hgroup⟩
    · rw [hnone]
      refine iff_of_false nofun fun hall => ?_
      obtain ⟨group, -, heq, -⟩ := hall.2.1 hr
      cases heq
    rcases h.number "end_group" (by decide) with hnone | ⟨endGroup, hend⟩
    · rw [hgroup, hnone]
      refine iff_of_false nofun fun hall => ?_
      obtain ⟨-, endGroup, -, heq, -⟩ := hall.2.1 hr
      cases heq
    rw [hgroup, hend]
    dsimp only
    by_cases hlt : endGroup < group
    · rw [if_pos hlt]
      refine iff_of_false nofun fun hall => ?_
      obtain ⟨group', endGroup', heq, heq', hle⟩ := hall.2.1 hr
      obtain rfl := Attr.int.inj heq
      obtain rfl := Attr.int.inj heq'
      omega
    · rw [if_neg hlt]
      refine iff_of_true rfl ⟨fun hg' => absurd hg' hg, fun _ => ?_, fun hl' => absurd hl' hl⟩
      exact ⟨group, endGroup, rfl, rfl, not_lt.mp hlt⟩
  · rw [if_neg fun hr' => hr ((his _).mp hr')]
    by_cases hl : mode = "latest" ∨ mode = "next_group"
    · rw [if_pos (hl.imp (his _).mpr (his _).mpr)]
      by_cases hall : ∀ name ∈ numbered, attr name = .none
      · rw [if_neg fun hset => hany.mp hset hall]
        exact iff_of_true rfl ⟨fun hg' => absurd hg' hg, fun hr' => absurd hr' hr, fun _ => hall⟩
      · rw [if_pos (hany.mpr hall)]
        exact iff_of_false nofun fun h' => hall (h'.2.2 hl)
    · rw [if_neg fun hl' => hl (hl'.imp (his _).mp (his _).mp)]
      exact iff_of_true rfl
        ⟨fun hg' => absurd hg' hg, fun hr' => absurd hr' hr, fun hl' => absurd hl' hl⟩

theorem validates_when {test consequence : Schema SpecName} (htest : test.Flat)
    (hobj : v.isObj = true) :
    Validates defs (StartAt.when test consequence) v ↔
      ((∃ x ∈ v.get? "mode", test.plain x = true) → Validates defs consequence v) :=
  validates_condition htest hobj

/-- What the constraints say of an object. -/
theorem constraints_iff (hobj : v.isObj = true) :
    (∀ s ∈ StartAt.schemaConstraints, Validates defs s v) ↔
      (v.get? "mode" = some (.str "group") → v.get? "group" ≠ none) ∧
        (v.get? "mode" = some (.str "range") →
          v.get? "group" ≠ none ∧ v.get? "end_group" ≠ none) ∧
        (v.get? "mode" = some (.str "latest") ∨ v.get? "mode" = some (.str "next_group") →
          ∀ name ∈ numbered, ∀ x ∈ v.get? name, JsonType.null.has x = true) := by
  have hnull : ∀ x, Validates defs ({ type := some .null } : Schema SpecName) x ↔
      JsonType.null.has x = true := by
    intro x
    have hflat : ({ type := some .null } : Schema SpecName).Flat := ⟨rfl, rfl, rfl, rfl⟩
    rw [hflat.validates]
    simp [Schema.plain]
  rw [schemaConstraints, List.forall_mem_cons, List.forall_mem_cons, List.forall_mem_cons,
    validates_when ⟨rfl, rfl, rfl, rfl⟩ hobj, validates_when ⟨rfl, rfl, rfl, rfl⟩ hobj,
    validates_when ⟨rfl, rfl, rfl, rfl⟩ hobj, validates_required hobj, validates_required hobj,
    validates_properties]
  have hlive : (∃ x, v.get? "mode" = some x ∧
        ∃ text ∈ ["latest", "next_group"], x = .str text) ↔
      v.get? "mode" = some (.str "latest") ∨ v.get? "mode" = some (.str "next_group") := by
    simp only [List.mem_cons, List.not_mem_nil, or_false, exists_eq_or_imp, exists_eq_left,
      and_or_left, exists_or, exists_eq_right]
  simp only [plain_const, plain_enum, List.forall_mem_map, hnull, Option.mem_def, hlive,
    exists_eq_right, List.forall_mem_cons, List.not_mem_nil, false_imp_iff, implies_true, and_true]
  refine and_congr ?_ (and_congr_left' ?_)
  · exact forall_congr' fun h => and_iff_right (by rw [h]; simp)
  · exact forall_congr' fun h => and_iff_right (by rw [h]; simp)

section Read

variable {attrs : List (String × Attr SpecName)}
  {recurse : SpecName → JsonValue → Except Raised (Attr SpecName)}

theorem read_number (hvalid : Validates defs startAt.schema v)
    (hread : ∀ f ∈ startAt.fields,
      Read spelled recurse startAt (v.get? f.name) f (attrOf attrs f.name))
    {name : String} (hname : name ∈ numbered) :
    (v.get? name = none ∧ attrOf attrs name = .none) ∨
      ∃ x, v.get? name = some x ∧
        ∃ n : Int, x.number? = some (n : Rat) ∧ attrOf attrs name = .int n := by
  obtain ⟨-, -, -, hfields, -⟩ := SpecClass.validates_schema.mp hvalid
  have hf : numberField name ∈ startAt.fields := by
    simp only [numbered, List.mem_cons, List.not_mem_nil, or_false] at hname
    rcases hname with rfl | rfl | rfl <;> simp [startAt]
  have hfloat : (numberField name).target ≠ .float := nofun
  rcases (hread _ hf).value specs rfl hfloat (hfields _ hf) with
    ⟨hget, ha⟩ | ⟨x, hget, -, hcarries, hcheck⟩
  · exact Or.inl ⟨hget, ha⟩
  · exact Or.inr ⟨x, hget, hcarries.int_of_check hcheck⟩

theorem read_mode (hvalid : Validates defs startAt.schema v)
    (hread : ∀ f ∈ startAt.fields,
      Read spelled recurse startAt (v.get? f.name) f (attrOf attrs f.name)) :
    ∃ mode, attrOf attrs "mode" = .str mode ∧
      ((v.get? "mode" = none ∧ mode = "latest") ∨ v.get? "mode" = some (.str mode)) := by
  obtain ⟨-, -, -, hfields, -⟩ := SpecClass.validates_schema.mp hvalid
  have hf : modeField ∈ startAt.fields := List.mem_cons_self
  have hfloat : modeField.target ≠ .float := by decide
  rcases (hread _ hf).value specs rfl hfloat (hfields _ hf) with
    ⟨hget, ha⟩ | ⟨x, hget, htype, hcarries, -⟩
  · exact ⟨"latest", ha, Or.inl ⟨hget, rfl⟩⟩
  · obtain ⟨mode, rfl, hmode⟩ := hcarries.str_of_has htype
    exact ⟨mode, hmode, Or.inr hget⟩

/-- What was read passes the check of the whole where the document is consistent. -/
theorem postInit_read (hvalid : Validates defs startAt.schema v)
    (hread : ∀ f ∈ startAt.fields,
      Read spelled recurse startAt (v.get? f.name) f (attrOf attrs f.name)) :
    postInit (attrOf attrs) = .ok () ↔ Consistent v := by
  obtain ⟨hobj, -, -, -, hconstraints⟩ := SpecClass.validates_schema.mp hvalid
  obtain ⟨hgroup, hrange, hlatest⟩ := (constraints_iff hobj).mp hconstraints
  have hnumber := fun name (hname : name ∈ numbered) => read_number hvalid hread hname
  obtain ⟨mode, hmode, hget⟩ := read_mode hvalid hread
  have htyped : Typed (attrOf attrs) mode := by
    refine ⟨hmode, fun name hname => ?_⟩
    rcases hnumber name hname with ⟨-, hnone⟩ | ⟨-, -, n, -, hn⟩
    · exact Or.inl hnone
    · exact Or.inr ⟨n, hn⟩
  rw [postInit_eq_ok htyped]
  constructor
  · rintro ⟨-, hr, hl⟩
    constructor
    · intro habsent name hname
      have hmode' : mode = "latest" := by
        rcases hget with ⟨-, hlatest⟩ | hsome
        · exact hlatest
        · rw [habsent] at hsome
          cases hsome
      rcases hnumber name hname with ⟨hnone, -⟩ | ⟨-, -, n, -, hn⟩
      · exact hnone
      · rw [hl (Or.inl hmode') name hname] at hn
        cases hn
    · rintro group hg endGroup he ⟨-, htext, rfl⟩ first hfirst last hlast
      have hmode' : mode = "range" := by
        rcases hget with ⟨hnone, -⟩ | hsome
        · rw [hnone] at htext
          cases htext
        · exact JsonValue.str.inj (Option.some.inj (hsome.symm.trans htext))
      obtain ⟨n, m, hn, hm, hle⟩ := hr hmode'
      have hvalue : ∀ name ∈ numbered, ∀ x ∈ v.get? name, ∀ q ∈ x.number?, ∀ n : Int,
          attrOf attrs name = .int n → q = n := by
        intro name hname x hx q hq n hn
        rcases hnumber name hname with ⟨hnone, -⟩ | ⟨x', hx', n', hn', hattr⟩
        · rw [hnone] at hx
          cases hx
        · obtain rfl := Option.some.inj (hx.symm.trans hx')
          obtain rfl := Attr.int.inj (hattr.symm.trans hn)
          exact Option.some.inj (hq.symm.trans hn')
      rw [hvalue "group" (by decide) group hg first hfirst n hn,
        hvalue "end_group" (by decide) endGroup he last hlast m hm]
      exact Int.cast_le.mpr hle
  · rintro ⟨habsent, hordered⟩
    have hset : ∀ name ∈ numbered, v.get? name ≠ none →
        ∃ x ∈ v.get? name, ∃ n : Int, x.number? = some (n : Rat) ∧ attrOf attrs name = .int n := by
      intro name hname hne
      rcases hnumber name hname with ⟨hnone, -⟩ | ⟨x, hx, hn⟩
      · exact absurd hnone hne
      · exact ⟨x, hx, hn⟩
    have hunset : ∀ name ∈ numbered, v.get? name = none → attrOf attrs name = .none := by
      intro name hname hnone
      rcases hnumber name hname with ⟨-, ha⟩ | ⟨x, hx, -⟩
      · exact ha
      · rw [hnone] at hx
        cases hx
    rcases hget with ⟨hnone, rfl⟩ | hsome
    · refine ⟨fun h => absurd h (by decide), fun h => absurd h (by decide), ?_⟩
      exact fun _ name hname => hunset name hname (habsent hnone name hname)
    refine ⟨?_, ?_, ?_⟩
    · rintro rfl
      obtain ⟨-, -, n, -, hn⟩ := hset "group" (by decide) (hgroup hsome)
      rw [hn]
      exact nofun
    · rintro rfl
      obtain ⟨hg, he⟩ := hrange hsome
      obtain ⟨x, hx, n, hxn, hn⟩ := hset "group" (by decide) hg
      obtain ⟨y, hy, m, hym, hm⟩ := hset "end_group" (by decide) he
      exact ⟨n, m, hn, hm, Int.cast_le.mp (hordered x hx y hy ⟨_, hsome, rfl⟩ n hxn m hym)⟩
    · intro hl name hname
      refine hunset name hname ?_
      by_contra hne
      obtain ⟨x, hx, n, hxn, -⟩ := hset name hname hne
      have hxnull := hlatest (by rcases hl with rfl | rfl <;> simp [hsome]) name hname x hx
      cases x with
      | null => cases hxn
      | _ => cases hxnull

end Read

end StartAt

/-- A start is read where it is consistent. -/
theorem startAt_reads (hvalid : Validates defs startAt.schema v) :
    (∃ o, fromDict specs spelled false .startAt v = .ok o) ↔ StartAt.Consistent v := by
  constructor
  · rintro ⟨o, ho⟩
    rw [fromDict_eq, readSpec_eq_ok] at ho
    obtain ⟨-, -, -, attrs, -, hsound, hread⟩ := ho
    exact (StartAt.postInit_read hvalid hread).mp hsound.whole
  · intro hconsistent
    refine (fromDict_leaf (by decide) (specs_regular .startAt) hvalid).mpr fun attrs _ hread => ?_
    exact (StartAt.postInit_read hvalid hread).mpr hconsistent

theorem trackRef_reads (hvalid : Validates defs trackRef.schema v) :
    ∃ o, fromDict specs spelled false .trackRef v = .ok o :=
  (fromDict_leaf (by decide) (specs_regular .trackRef) hvalid).mpr fun _ _ _ => rfl

theorem priority_reads (hvalid : Validates defs priority.schema v) :
    ∃ o, fromDict specs spelled false .priority v = .ok o :=
  (fromDict_leaf (by decide) (specs_regular .priority) hvalid).mpr fun _ _ _ => rfl

/-! ## The requests -/

/-- The definitions that the fields of a class refer to are there. -/
def Defines (defs : SpecName → Option (Schema SpecName)) (k : SpecName) : Prop :=
  ∀ t ∈ (specs.cls k).targets, defs t = some (specs.cls t).schema

theorem defines_jsonSchema (k : SpecName) : Defines (jsonSchema specs k).2.get? k := by
  have hne : k ∉ (specs.cls k).targets := by cases k <;> decide
  exact fun t ht => (jsonSchema_spec specs k).2.1 t ht fun heq => hne (heq ▸ ht)

theorem validates_nested {k t : SpecName} {f : Field SpecName} {x : JsonValue}
    (hdefs : Defines defs k) (hf : f ∈ (specs.cls k).fields) (htarget : f.target = .spec t)
    (hvalid : Validates defs f.node x) : Validates defs (specs.cls t).schema x := by
  have hmem : t ∈ (specs.cls k).targets := SpecClass.mem_targets.mpr ⟨f, hf, htarget⟩
  obtain ⟨s, hs, hvalid⟩ := (Field.validates_node.mp hvalid).2 t (by rw [Field.target?, htarget]; rfl)
  rw [hdefs t hmem] at hs
  obtain rfl := Option.some.inj hs
  exact hvalid

theorem targets_subset {k t : SpecName} (h : t ∈ (specs.cls k).targets) :
    t = .trackRef ∨ t = .startAt ∨ t = .priority := by
  have hall : ∀ t ∈ (specs.cls k).targets, t = .trackRef ∨ t = .startAt ∨ t = .priority := by
    cases k <;> decide
  exact hall t h

/-- The nested specs of a valid request are read where the start is consistent. -/
theorem nested_reads {k t : SpecName} {f : Field SpecName} {x : JsonValue}
    (hdefs : Defines defs k) (hf : f ∈ (specs.cls k).fields) (htarget : f.target = .spec t)
    (hvalid : Validates defs f.node x) :
    (∃ o, fromDict specs spelled false t x = .ok o) ↔ (t = .startAt → StartAt.Consistent x) := by
  have hnested := validates_nested hdefs hf htarget hvalid
  rcases targets_subset (SpecClass.mem_targets.mpr ⟨f, hf, htarget⟩) with rfl | rfl | rfl
  · exact iff_of_true (trackRef_reads hnested) nofun
  · rw [startAt_reads hnested, forall_prop_of_true rfl]
  · exact iff_of_true (priority_reads hnested) nofun

/-- What is left of the conditions on the fields of a request. -/
theorem request_fields {k : SpecName} (hdefs : Defines defs k)
    (hvalid : Validates defs (specs.cls k).schema v) :
    (∀ f ∈ (specs.cls k).fields, ∀ x ∈ v.get? f.name,
        (∀ t, f.target = .spec t → ∃ o, fromDict specs spelled false t x = .ok o) ∧
          (f.target = .float → ∀ n, x = .int n → floatOfInt n ≠ none)) ↔
      ∀ f ∈ (specs.cls k).fields, ∀ x ∈ v.get? f.name,
        (f.target = .spec .startAt → StartAt.Consistent x) ∧
          (f.target = .float → ∀ n, x = .int n → floatOfInt n ≠ none) := by
  obtain ⟨-, -, -, hfields, -⟩ := SpecClass.validates_schema.mp hvalid
  refine forall_congr' fun f => forall_congr' fun hf => forall_congr' fun x => forall_congr' fun hx =>
    and_congr_left' ?_
  constructor
  · intro h htarget
    exact (nested_reads hdefs hf htarget (hfields f hf x hx)).mp (h _ htarget) rfl
  · intro h t htarget
    refine (nested_reads hdefs hf htarget (hfields f hf x hx)).mpr ?_
    rintro rfl
    exact h htarget

theorem publishSpec_reads (hdefs : Defines defs .publishSpec)
    (hvalid : Validates defs publishSpec.schema v) :
    ∃ o, fromDict specs spelled false .publishSpec v = .ok o := by
  refine (fromDict_ok_iff (specs_regular .publishSpec) hvalid).mpr ⟨?_, fun _ _ _ => rfl⟩
  rw [request_fields hdefs hvalid]
  simp [specs, publishSpec, trackField, priorityField, bufferField]

theorem subscribeSpec_reads (hdefs : Defines defs .subscribeSpec)
    (hvalid : Validates defs subscribeSpec.schema v) :
    (∃ o, fromDict specs spelled false .subscribeSpec v = .ok o) ↔
      (∀ start ∈ v.get? "start_at", StartAt.Consistent start) ∧ DeadlineFits v := by
  rw [fromDict_ok_iff (specs_regular .subscribeSpec) hvalid, request_fields hdefs hvalid]
  refine (and_iff_left fun _ _ _ => rfl).trans ?_
  simp [specs, subscribeSpec, trackField, priorityField, bufferField, decodeField, timeoutField,
    DeadlineFits, SubscribeSpec.startField]

/-- What the constraint says of a start that is an object. -/
theorem FetchSpec.constraints_iff (hobj : ∀ start ∈ v.get? "start_at", start.isObj = true) :
    (∀ s ∈ FetchSpec.schemaConstraints, Validates defs s v) ↔
      ∀ start ∈ v.get? "start_at",
        start.get? "mode" = some (.str "range") ∧
          start.get? "group" ≠ none ∧ start.get? "end_group" ≠ none := by
  have hconst : ∀ mode, Validates defs ({ const := some "range" } : Schema SpecName) mode ↔
      mode = .str "range" := by
    intro mode
    have hflat : ({ const := some "range" } : Schema SpecName).Flat := ⟨rfl, rfl, rfl, rfl⟩
    rw [hflat.validates, plain_const]
  rw [FetchSpec.schemaConstraints, List.forall_mem_singleton, validates_properties,
    List.forall_mem_singleton]
  refine forall_congr' fun start => forall_congr' fun hstart => ?_
  rw [validates_iff]
  have hplain : ∀ properties : List (String × Schema SpecName),
      ({ properties := properties, required := ["mode", "group", "end_group"] } :
        Schema SpecName).plain start = true ↔
        start.get? "mode" ≠ none ∧ start.get? "group" ≠ none ∧ start.get? "end_group" ≠ none := by
    intro properties
    simp [Schema.plain, hobj start hstart, Option.isSome_iff_ne_none]
  rw [hplain, List.forall_mem_singleton]
  simp only [hconst]
  constructor
  · rintro ⟨⟨hmode, hgroup, hend⟩, hrange, -⟩
    obtain ⟨mode, hget⟩ := Option.ne_none_iff_exists'.mp hmode
    exact ⟨hrange mode hget ▸ hget, hgroup, hend⟩
  · rintro ⟨hmode, hgroup, hend⟩
    refine ⟨⟨by rw [hmode]; simp, hgroup, hend⟩, ?_, by simp, by simp, by simp⟩
    intro mode hget
    exact Option.some.inj (hget.symm.trans hmode)

theorem fetchSpec_reads (hdefs : Defines defs .fetchSpec)
    (hvalid : Validates defs fetchSpec.schema v) :
    (∃ o, fromDict specs spelled false .fetchSpec v = .ok o) ↔
      (∀ start ∈ v.get? "start_at", StartAt.Consistent start) ∧ DeadlineFits v := by
  have hfields : (∀ f ∈ (specs.cls .fetchSpec).fields, ∀ x ∈ v.get? f.name,
      (f.target = .spec .startAt → StartAt.Consistent x) ∧
        (f.target = .float → ∀ n, x = .int n → floatOfInt n ≠ none)) ↔
      (∀ start ∈ v.get? "start_at", StartAt.Consistent start) ∧ DeadlineFits v := by
    simp [specs, fetchSpec, trackField, priorityField, decodeField, timeoutField, DeadlineFits,
      FetchSpec.startField]
  rw [fromDict_ok_iff (specs_regular .fetchSpec) hvalid, request_fields hdefs hvalid, hfields]
  refine and_iff_left fun attrs _ hread => ?_
  obtain ⟨-, -, hgiven, hvalids, hconstraints⟩ := SpecClass.validates_schema.mp hvalid
  have hf : FetchSpec.startField ∈ fetchSpec.fields := by simp [fetchSpec]
  obtain ⟨start, hstart⟩ := Option.ne_none_iff_exists'.mp (hgiven FetchSpec.startField hf rfl rfl)
  have hnested : Validates defs startAt.schema start :=
    validates_nested hdefs hf rfl (hvalids FetchSpec.startField hf start hstart)
  have hobj : ∀ start' ∈ v.get? "start_at", start'.isObj = true := by
    intro start' hstart'
    obtain rfl := Option.some.inj (hstart.symm.trans hstart')
    exact (SpecClass.validates_schema.mp hnested).1
  obtain ⟨hmode, -, -⟩ := (FetchSpec.constraints_iff hobj).mp hconstraints start hstart
  have hreadf := hread FetchSpec.startField hf
  rw [hstart] at hreadf
  obtain ⟨-, hreadf⟩ := (readField_spec rfl rfl rfl).mp hreadf
  rw [fromDict_eq, readSpec_eq_ok] at hreadf
  obtain ⟨-, -, -, attrs', ho, -, hread'⟩ := hreadf
  obtain ⟨mode, hmode', hget⟩ := StartAt.read_mode hnested hread'
  have hrange : mode = "range" := by
    rcases hget with ⟨hnone, -⟩ | hsome
    · rw [hnone] at hmode
      cases hmode
    · exact JsonValue.str.inj (Option.some.inj (hsome.symm.trans hmode))
  change FetchSpec.postInit (attrOf attrs) = .ok ()
  rw [FetchSpec.postInit, show attrOf attrs "start_at" = _ from ho]
  dsimp only
  rw [hmode', hrange]
  rfl

end AioMoqt.Agent
