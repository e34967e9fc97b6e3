import AioMoqt.Media.Proofs.Catalog
import AioMoqt.Media.Subscriber
import Mathlib.Data.List.Basic
import Mathlib.Data.List.Induction

/-!
# A catalog subscriber converges

The subscriber is a receiver of the catalog track's log.  It stands where the log stands as
long as no delta overtakes the object before it.
-/

namespace AioMoqt.Media

open AioMoqt.Lib AioMoqt.Messages

variable {published : List (Location × Catalog)}

namespace MediaSubscriber

/-- The catalog and its Location. -/
def view (s : MediaSubscriber) : Receiver Location Catalog := ⟨s.catalog, s.catalogAt⟩

/-- An object of the track is taken as an update of the log is. -/
theorem onCatalogObject_take {s : MediaSubscriber} {entry : Location × Catalog}
    {groupId : Option Nat} {r : Receiver Location Catalog} (hread : entry.2.Readable)
    (hgroup : groupId.getD entry.1.group = entry.1.group)
    (h : catalogUpdates.take s.view entry.1 entry.2 = some r) :
    (s.onCatalogObject (catalogObject entry) groupId).view = r := by
  have hplace : Location.mk (groupId.getD entry.1.group) entry.1.object = entry.1 := by
    rw [hgroup, Location.mk_eta]
  rw [onCatalogObject, if_neg (by simp [catalogObject])]
  simp only [catalogObject, hplace, Option.map_some, entry.2.fromJson_toJson hread]
  rw [Updates.take] at h
  by_cases hold : s.catalogAt.any fun mark => entry.1 ≤ mark
  · have hmark : (s.view.mark.any fun mark => entry.1 ≤ mark) = true := hold
    rw [if_pos hmark] at h
    rw [if_pos hold]
    exact Option.some.inj h
  · have hmark : ¬ (s.view.mark.any fun mark => entry.1 ≤ mark) = true := hold
    rw [if_neg hmark] at h
    rw [if_neg hold, entry.2.written_isDelta]
    cases hdelta : entry.2.isDelta with
    | false =>
        simp only [catalogUpdates, hdelta] at h
        rw [entry.2.written_of_independent hdelta]
        exact Option.some.inj h
    | true =>
        simp only [catalogUpdates, hdelta, if_true] at h
        rw [if_pos rfl]
        cases hcatalog : s.catalog with
        | none =>
            simp only [view, hcatalog] at h
            simp only [view, hcatalog]
            exact Option.some.inj h
        | some catalog =>
            simp only [view, hcatalog] at h
            simp only [catalog.apply_written entry.2]
            split at h
            next result happly =>
                simp only [Option.map_some] at h
                simp only [happly]
                exact Option.some.inj h
            next => cases h

/-- A marker changes nothing. -/
theorem onCatalogObject_marker {s : MediaSubscriber} {msg : CatalogObject} {groupId : Option Nat}
    (h : msg.status ≠ none ∧ msg.status ≠ some .normal) : s.onCatalogObject msg groupId = s := by
  rw [onCatalogObject, if_pos h]

theorem run_concat (before : List Delivery) (d : Delivery) :
    run published (before ++ [d]) = deliver published (run published before) d := by
  rw [run, List.foldl_append]
  rfl

/-- A delivered object is taken, by whichever way it comes. -/
theorem deliver_take {s : MediaSubscriber} {d : Delivery} {i : Nat} {entry : Location × Catalog}
    {r : Receiver Location Catalog} (hobject : d.object? = some i)
    (hentry : published[i]? = some entry) (hread : entry.2.Readable)
    (h : catalogUpdates.take s.view entry.1 entry.2 = some r) :
    (deliver published s d).view = r := by
  cases d with
  | fetch j =>
      obtain rfl : j = i := Option.some.inj hobject
      simp only [deliver, hentry, Option.elim_some, onCatalogFetchObject]
      exact onCatalogObject_take hread rfl h
  | live j =>
      obtain rfl : j = i := Option.some.inj hobject
      simp only [deliver, hentry, Option.elim_some]
      exact onCatalogObject_take hread rfl h
  | marker msg groupId => cases hobject

/-! ## Runs -/

theorem kept_concat_object {before : List Delivery} {d : Delivery} {i : Nat}
    (h : d.object? = some i) : kept published (before ++ [d]) =
      if kept published before = [] ∧ isDeltaAt published i then []
      else kept published before ++ [i] := by
  have hlast : [d].filterMap Delivery.object? = [i] := by simp [h]
  rw [kept, List.filterMap_append, hlast, List.dropWhile_append]
  simp only [kept, List.isEmpty_iff]
  by_cases hnil : (before.filterMap Delivery.object?).dropWhile (isDeltaAt published) = []
  · cases hdelta : isDeltaAt published i <;> simp [hnil, hdelta]
  · simp [hnil]

theorem kept_concat_marker {before : List Delivery} {d : Delivery} (h : d.object? = none) :
    kept published (before ++ [d]) = kept published before := by
  have hlast : [d].filterMap Delivery.object? = [] := by simp [h]
  rw [kept, List.filterMap_append, hlast, List.append_nil, kept]

theorem kept_of_le {before deliveries : List Delivery} (h : before <+: deliveries) :
    kept published before <+: kept published deliveries := by
  obtain ⟨after, rfl⟩ := h
  rw [kept, kept, List.filterMap_append, List.dropWhile_append]
  split
  next hnil =>
      rw [List.isEmpty_iff.mp hnil]
      exact List.nil_prefix
  next => exact List.prefix_append _ _

/-- What is kept is not overtaken. -/
def Near (published : List (Location × Catalog)) (js : List Nat) : Prop :=
  ∀ before i after, js = before ++ i :: after →
    isDeltaAt published i → ∃ j ∈ before, i ≤ j + 1

theorem Near.of_prefix {js ks : List Nat} (h : Near published ks) (hbefore : js <+: ks) :
    Near published js := by
  obtain ⟨rest, rfl⟩ := hbefore
  intro before i after heq
  apply h before i (after ++ rest)
  rw [heq, List.append_assoc, List.cons_append]

/-- The deliveries lead the subscriber along the log. -/
theorem follows_run (hpub : catalogUpdates.Applies published)
    (hread : ∀ entry ∈ published, entry.2.Readable) (deliveries : List Delivery)
    (hrange : ∀ i ∈ deliveries.filterMap Delivery.object?, i < published.length)
    (hmarkers : ∀ msg groupId, Delivery.marker msg groupId ∈ deliveries →
      msg.status ≠ none ∧ msg.status ≠ some .normal)
    (hnear : Near published (kept published deliveries)) :
    catalogUpdates.Follows published (run published deliveries).view
      (kept published deliveries) := by
  induction deliveries using List.reverseRecOn with
  | nil => exact ⟨rfl, rfl⟩
  | append_singleton before d ih =>
      have hkept : kept published before <+: kept published (before ++ [d]) :=
        kept_of_le (List.prefix_append before [d])
      have hbefore := ih
        (fun i hi => hrange i (by rw [List.filterMap_append]; exact List.mem_append_left _ hi))
        (fun msg groupId hmsg => hmarkers msg groupId (List.mem_append_left _ hmsg))
        (hnear.of_prefix hkept)
      rw [run_concat]
      cases hobject : d.object? with
      | none =>
          rw [kept_concat_marker hobject]
          cases d with
          | fetch i => cases hobject
          | live i => cases hobject
          | marker msg groupId =>
              have hmsg := hmarkers msg groupId (List.mem_append_right _ List.mem_cons_self)
              rw [deliver, onCatalogObject_marker hmsg]
              exact hbefore
      | some i =>
          have hi : i < published.length := hrange i (by
            rw [List.filterMap_append]
            apply List.mem_append_right
            simp [hobject])
          have hentry : published[i]? = some published[i] := List.getElem?_eq_getElem hi
          have hentryRead := hread _ (List.getElem_mem hi)
          rw [kept_concat_object hobject] at hnear ⊢
          by_cases hearly : kept published before = [] ∧ isDeltaAt published i
          · rw [if_pos hearly]
            rw [hearly.1] at hbefore
            have hchange : catalogUpdates.full published[i].2 = none := by
              have hdelta := hearly.2
              rw [isDeltaAt, hentry, Option.any_some] at hdelta
              exact catalogUpdates_delta hdelta
            have htake := hbefore.take_early catalogUpdates hchange
            rw [deliver_take hobject hentry hentryRead htake]
            exact hbefore
          · rw [if_neg hearly] at hnear ⊢
            have hcatch : (catalogUpdates.full published[i].2).isSome ∨
                ∃ j ∈ kept published before, i ≤ j + 1 := by
              cases hdelta : published[i].2.isDelta with
              | false =>
                  left
                  rw [catalogUpdates_independent hdelta]
                  rfl
              | true =>
                  right
                  apply hnear _ i [] rfl
                  rw [isDeltaAt, hentry, Option.any_some, hdelta]
            obtain ⟨r, htake, hfollows⟩ :=
              hbefore.take catalogUpdates hpub hentry hcatch
            rw [deliver_take hobject hentry hentryRead htake]
            exact hfollows

/-- In every run of deliveries where no delta overtakes the object before it, the subscriber
holds only catalogs of the publisher and ends with the publisher's. -/
theorem converges_of_caught {deliveries : List Delivery} (hpub : Published published)
    (hjoined : Joined published deliveries) (hcaught : Caught published deliveries) :
    Converges published deliveries := by
  have hfollows : ∀ before, before <+: deliveries →
      catalogUpdates.Follows published (run published before).view (kept published before) := by
    intro before hbefore
    obtain ⟨after, rfl⟩ := hbefore
    apply follows_run hpub.applies hcaught.readable
    · intro i hi
      apply hjoined.range
      rw [List.filterMap_append]
      exact List.mem_append_left _ hi
    · intro msg groupId hmsg
      exact hjoined.markers msg groupId (List.mem_append_left _ hmsg)
    · exact Near.of_prefix hcaught.near (kept_of_le (List.prefix_append before after))
  constructor
  · intro before hbefore
    exact (hfollows before hbefore).held catalogUpdates
  · exact (hfollows deliveries List.prefix_rfl).last catalogUpdates hcaught.last

/-! ## A join -/

/-- A catalog of one track and two deltas that add one each. -/
def joinPublished : List (Location × Catalog) :=
  let track := fun name => CatalogTrack.ofAttrs [(.name, .str name)]
  let add := fun name => { version := .null, deltaUpdate := [⟨.str "add", [track name]⟩] }
  [(.mk 0 0, { tracks := [track "video"] }), (.mk 0 1, add "audio"), (.mk 0 2, add "captions")]

theorem joinPublished_published : Published joinPublished := by
  refine ⟨⟨?_, ?_⟩, ?_⟩ <;> decide +kernel

theorem near_of_take {js : List Nat} (h : ∀ n, (hn : n < js.length) → isDeltaAt published js[n] →
    ∃ j ∈ js.take n, js[n] ≤ j + 1) : Near published js := by
  rintro before i after rfl hdelta
  have hn : before.length < (before ++ i :: after).length := by simp
  have hi : (before ++ i :: after)[before.length] = i := by simp
  have hearlier := h before.length hn (by rw [hi]; exact hdelta)
  rwa [hi, List.take_left'] at hearlier
  rfl

/-- The joining FETCH, with the subscription's first objects in between. -/
theorem converges_join :
    Converges joinPublished [.live 1, .fetch 0, .fetch 1, .live 2, .fetch 2] :=
  converges_of_caught joinPublished_published
    { range := by decide +kernel
      fetchOrder := by decide +kernel
      liveOrder := by decide +kernel
      markers := by simp
      covered := fun _ _ i hi _ => by
        have hall : ∀ i < joinPublished.length, i ∈ [1, 0, 1, 2, 2] := by decide +kernel
        exact hall i hi
      received := by decide +kernel }
    { readable := by decide +kernel
      near := near_of_take (by decide +kernel)
      last := by decide +kernel }

/-- A delta of the subscription that comes before the FETCH is through is applied to an older
catalog, and those the FETCH still brings are dropped. -/
theorem not_converges : ¬ ∀ published deliveries, Published published →
    Joined published deliveries → Converges published deliveries := by
  intro h
  have hjoined : Joined joinPublished [.fetch 0, .live 2, .fetch 1] :=
    { range := by decide +kernel
      fetchOrder := by decide +kernel
      liveOrder := by decide +kernel
      markers := by simp
      covered := fun _ _ i hi _ => by
        have hall : ∀ i < joinPublished.length, i ∈ [0, 2, 1] := by decide +kernel
        exact hall i hi
      received := by decide +kernel }
  have hends := (h _ _ joinPublished_published hjoined).ends
  have hcount : ((run joinPublished [.fetch 0, .live 2, .fetch 1]).catalog.map
        fun c => c.tracks.length) ≠
      (catalogUpdates.replay none (joinPublished.map Prod.snd)).map fun c => c.tracks.length := by
    decide +kernel
  exact hcount (congrArg (Option.map fun c => c.tracks.length) hends)

end MediaSubscriber

end AioMoqt.Media
