import AioMoqt.Relay.Cache
import Mathlib.Algebra.BigOperators.Group.Finset.Basic
import Mathlib.Algebra.BigOperators.Group.List.Lemmas
import Mathlib.Algebra.Order.BigOperators.Group.List

/-!
# The books of the relay's cache

Whatever happens to the caches of a relay's tracks, in whatever order, nothing raises: each
byte counter is the sum of what it counts, the groups are counted one by one, the tracks in
the order of use are those that hold objects, and the bounds hold.  So every turn of
`enforce` finds a group to drop, and the loop ends.
-/

namespace AioMoqt.Relay

open AioMoqt.Lib AioMoqt.Messages

/-! ## One track -/

theorem retained_cons (c : CacheRecord) (cache : List CacheRecord) :
    retained (c :: cache) = c.size + retained cache := rfl

theorem retained_append (cache cache' : List CacheRecord) :
    retained (cache ++ cache') = retained cache + retained cache' := by
  simp [retained]

theorem retained_perm {cache cache' : List CacheRecord} (h : cache.Perm cache') :
    retained cache = retained cache' := (h.map _).sum_eq

/-- The records that go, and those that stay. -/
theorem retained_filter (p : CacheRecord → Prop) [DecidablePred p] (cache : List CacheRecord) :
    retained (cache.filter fun c => p c) + retained (cache.filter fun c => ¬ p c) =
      retained cache := by
  rw [← retained_append]
  apply retained_perm
  simpa using List.filter_append_perm (fun c => decide (p c)) cache

theorem retained_le {cache cache' : List CacheRecord} (h : cache.Sublist cache') :
    retained cache ≤ retained cache' := (h.map _).sum_le_sum fun _ _ => Nat.zero_le _

namespace CachedTrack

/-- The counters of a track are those of its cache. -/
structure Exact (t : CachedTrack) : Prop where
  bytes : t.cacheBytes = retained t.cache
  groups : t.groups.Counts CacheRecord.group t.cache

/-- A track within CACHE_GROUPS and CACHE_BYTES. -/
structure Bounded (t : CachedTrack) : Prop where
  groups : t.groups.size ≤ cacheGroups
  bytes : t.cacheBytes ≤ cacheBytesLimit

/-- A track that gave up records, and the budget's bytes with them. -/
structure Shrunk (t : CachedTrack) (budget : Int) (out : CachedTrack × Int) : Prop where
  exact : out.1.Exact
  books : out.2 - out.1.cacheBytes = budget - t.cacheBytes
  fewer : out.1.cache.Sublist t.cache

variable {t : CachedTrack} {budget : Int} {out : CachedTrack × Int}

theorem Exact.bounded {t' : CachedTrack} (h : t.Exact) (hb : t.Bounded) (h' : t'.Exact)
    (hfewer : t'.cache.Sublist t.cache) : t'.Bounded := by
  have hbytes := retained_le hfewer
  have hsize := h.groups.size_le h'.groups hfewer.subset
  refine ⟨hsize.trans hb.groups, ?_⟩
  have hlimit := hb.bytes
  rw [h.bytes] at hlimit
  rw [h'.bytes]
  omega

@[simp] theorem noteLost_cache (g o : Nat) : (t.noteLost g o).cache = t.cache := by
  unfold noteLost
  split <;> rfl

@[simp] theorem noteLost_cacheBytes (g o : Nat) : (t.noteLost g o).cacheBytes = t.cacheBytes := by
  unfold noteLost
  split <;> rfl

@[simp] theorem noteLost_groups (g o : Nat) : (t.noteLost g o).groups = t.groups := by
  unfold noteLost
  split <;> rfl

@[simp] theorem prune_cache : t.prune.cache = t.cache := by
  unfold prune
  cases t.cache.head? <;> rfl

@[simp] theorem prune_cacheBytes : t.prune.cacheBytes = t.cacheBytes := by
  unfold prune
  cases t.cache.head? <;> rfl

@[simp] theorem prune_groups : t.prune.groups = t.groups := by
  unfold prune
  cases t.cache.head? <;> rfl

/-- A record that is counted leaves without a missing key. -/
theorem uncount_counts {c : CacheRecord} {cache : List CacheRecord}
    (h : t.groups.Counts CacheRecord.group (c :: cache)) :
    ∃ t', t.uncount c = .ok t' ∧ t'.groups.Counts CacheRecord.group cache ∧
      t'.cacheBytes = t.cacheBytes ∧ t'.cache = t.cache := by
  obtain ⟨groups, hdown, hcounts⟩ := h.countDown
  exact ⟨{ t.noteLost c.group c.objectId with groups }, by rw [uncount, hdown], hcounts,
    noteLost_cacheBytes .., noteLost_cache ..⟩

/-- The records of a list leave one by one. -/
theorem uncount_all {cache : List CacheRecord} (out : List CacheRecord)
    (h : t.groups.Counts CacheRecord.group (out ++ cache)) :
    ∃ t', out.foldlM uncount t = .ok t' ∧ t'.groups.Counts CacheRecord.group cache ∧
      t'.cacheBytes = t.cacheBytes ∧ t'.cache = t.cache := by
  induction out generalizing t with
  | nil => exact ⟨t, rfl, h, rfl, rfl⟩
  | cons c out ih =>
    obtain ⟨next, hnext, hcounts, hbytes, hcache⟩ := uncount_counts h
    obtain ⟨t', ht', hcounts', hbytes', hcache'⟩ := ih hcounts
    refine ⟨t', ?_, hcounts', hbytes'.trans hbytes, hcache'.trans hcache⟩
    rw [List.foldlM_cons, hnext]
    exact ht'

/-- The loop of `_evict` ends within both bounds. -/
theorem evict_shrunk (budget : Int) {cache : List CacheRecord}
    (hbytes : t.cacheBytes = retained cache) (hcounts : t.groups.Counts CacheRecord.group cache) :
    ∃ out, t.evict budget cache = .ok out ∧ out.1.Exact ∧ out.1.Bounded ∧
      out.2 - out.1.cacheBytes = budget - t.cacheBytes ∧ out.1.cache.Sublist cache := by
  induction cache generalizing t budget with
  | nil =>
    have hsize : t.groups.size = 0 := by
      rw [← Dict.length_keys, hcounts.keys_eq_nil.mpr rfl]
      rfl
    refine ⟨_, rfl, ⟨hbytes, hcounts⟩, ⟨by simp [hsize], ?_⟩, rfl, List.Sublist.refl _⟩
    simp [hbytes, retained]
  | cons c rest ih =>
    rw [evict]
    split
    · obtain ⟨next, hnext, hrest, hsame, -⟩ := uncount_counts hcounts
      rw [retained_cons] at hbytes
      have hleft : next.cacheBytes - c.size = retained rest := by omega
      obtain ⟨out, hout, hexact, hbounded, hbooks, hfewer⟩ :=
        ih (t := { next with cacheBytes := next.cacheBytes - c.size }) (budget - c.size) hleft hrest
      refine ⟨out, ?_, hexact, hbounded, by simp only at hbooks; omega, hfewer.cons c⟩
      rw [hnext]
      exact hout
    · refine ⟨_, rfl, ⟨hbytes, hcounts⟩, ⟨?_, ?_⟩, rfl, List.Sublist.refl _⟩
      · show t.groups.size ≤ cacheGroups
        omega
      · show t.cacheBytes ≤ cacheBytesLimit
        omega

/-- `_drop_group` of a group that is counted drops one object at least. -/
theorem Exact.dropGroup (h : t.Exact) (budget : Int) {group : Nat} (hgroup : group ∈ t.groups.keys) :
    ∃ out, t.dropGroup budget group = .ok out ∧ t.Shrunk budget out ∧
      out.1.cache.length < t.cache.length := by
  obtain ⟨c, hmem, hc⟩ := h.groups.mem_keys.mp hgroup
  have hlast : ((t.cache.filter (·.group = group)).map CacheRecord.objectId).max? ≠ none := by
    rw [ne_eq, List.max?_eq_none_iff, List.map_eq_nil_iff]
    exact List.ne_nil_of_mem (List.mem_filter.mpr ⟨hmem, by simpa using hc⟩)
  obtain ⟨last, hlast⟩ := Option.ne_none_iff_exists'.mp hlast
  obtain ⟨n, hn⟩ := Option.ne_none_iff_exists'.mp (Dict.mem_keys.mp hgroup)
  have hsplit := retained_filter (·.group = group) t.cache
  refine ⟨_, by unfold CachedTrack.dropGroup; simp only [hlast, hn]; rfl, ⟨⟨?_, ?_⟩, ?_, ?_⟩, ?_⟩
  · show t.cacheBytes - retained _ = _
    rw [h.bytes]
    simp only [ne_eq]
    omega
  · exact h.groups.erase group
  · show budget - _ - (t.cacheBytes - _) = _
    omega
  · exact List.filter_sublist
  · exact List.length_filter_lt_length_iff_exists.mpr ⟨c, hmem, by simpa using hc⟩

/-- `_expire_cache` keeps the counters. -/
theorem Exact.expire (h : t.Exact) (budget : Int) (last : Location) :
    ∃ out, t.expire budget last = .ok out ∧ t.Shrunk budget out := by
  have hperm := List.filter_append_perm (fun c : CacheRecord => decide (c.location ≤ last)) t.cache
  have hstay : (t.cache.filter fun c => ! decide (c.location ≤ last)) =
      t.cache.filter (last < ·.location) := by
    apply List.filter_congr
    intro c _
    simp [← not_le]
  rw [hstay] at hperm
  obtain ⟨next, hnext, hcounts, hbytes, hcache⟩ := uncount_all _ (h.groups.perm hperm.symm)
  have hsum := retained_perm hperm
  rw [retained_append] at hsum
  refine ⟨_, by rw [CachedTrack.expire, hnext]; rfl, ⟨?_, ?_⟩, ?_, ?_⟩
  · show next.cacheBytes - retained _ = retained (next.cache.filter _)
    rw [hbytes, hcache, h.bytes]
    omega
  · show Dict.Counts _ _ (next.cache.filter _)
    rw [hcache]
    exact hcounts
  · show budget - _ - (next.cacheBytes - _) = _
    omega
  · show (next.cache.filter _).Sublist _
    rw [hcache]
    exact List.filter_sublist

end CachedTrack

/-! ## The relay -/

namespace RelayCache

open CachedTrack

variable {κ : Type} [DecidableEq κ]

/-- The books of the relay: its bytes are those of the tracks in the order of use, which
are the tracks that hold objects. -/
structure Books (s : RelayCache κ) : Prop where
  exact : ∀ k, (s.tracks k).Exact
  nodup : s.budget.lru.Nodup
  listed : ∀ k, k ∈ s.budget.lru ↔ (s.tracks k).cache ≠ []
  bytes : s.budget.bytes = (s.budget.lru.map fun k => (s.tracks k).cacheBytes).sum

variable {s s' : RelayCache κ} {k : κ} {limit : Nat} {out : CachedTrack × Int}

/-- A sum over a list, with one set apart that adds nothing where it is not listed. -/
theorem sum_split {M : Type} [AddCommMonoid M] {l : List κ} {w : κ → M} (h : k ∉ l → w k = 0) :
    (l.map w).sum = w k + ((l.erase k).map w).sum := by
  by_cases hk : k ∈ l
  · rw [List.sum_map_erase w hk]
  · rw [List.erase_of_not_mem hk, h hk, zero_add]

omit [DecidableEq κ] in
theorem Books.cache_eq_nil (h : Books s) (hk : k ∉ s.budget.lru) : (s.tracks k).cache = [] := by
  by_contra hne
  exact hk ((h.listed k).mpr hne)

theorem Books.bytes_split (h : Books s) (k : κ) : s.budget.bytes = (s.tracks k).cacheBytes +
    ((s.budget.lru.erase k).map fun k => (s.tracks k).cacheBytes).sum := by
  rw [h.bytes]
  apply sum_split (w := fun k => (s.tracks k).cacheBytes)
  intro hk
  rw [(h.exact k).bytes, h.cache_eq_nil hk]
  rfl

theorem Books.held_split (h : Books s) (k : κ) : s.held = (s.tracks k).cache.length +
    ((s.budget.lru.erase k).map fun k => (s.tracks k).cache.length).sum := by
  apply sum_split (w := fun k => (s.tracks k).cache.length)
  intro hk
  rw [h.cache_eq_nil hk]
  rfl

/-- One track changed, and its place in the order of use. -/
structure Exchanged (s s' : RelayCache κ) (k : κ) : Prop where
  others : ∀ k' ≠ k, s'.tracks k' = s.tracks k'
  order : (s'.budget.lru.erase k).Perm (s.budget.lru.erase k)

theorem Exchanged.sum_eq {M : Type} [AddCommMonoid M] (h : Exchanged s s' k)
    (hnodup : s.budget.lru.Nodup) (w : CachedTrack → M) :
      ((s'.budget.lru.erase k).map fun k => w (s'.tracks k)).sum =
      ((s.budget.lru.erase k).map fun k => w (s.tracks k)).sum := by
  rw [(h.order.map _).sum_eq]
  congr 1
  apply List.map_congr_left
  intro k' hk'
  have hne := (hnodup.mem_erase_iff.mp hk').1
  rw [h.others k' hne]

theorem Books.exchange (h : Books s) (hex : Exchanged s s' k) (hexact : (s'.tracks k).Exact)
    (hnodup : s'.budget.lru.Nodup) (hlisted : k ∈ s'.budget.lru ↔ (s'.tracks k).cache ≠ [])
    (hbytes : s'.budget.bytes - (s'.tracks k).cacheBytes =
      s.budget.bytes - (s.tracks k).cacheBytes) : Books s' := by
  have hexacts : ∀ k', (s'.tracks k').Exact := by
    intro k'
    by_cases hk : k' = k
    · rwa [hk]
    · rw [hex.others k' hk]
      exact h.exact k'
  have hlists : ∀ k', k' ∈ s'.budget.lru ↔ (s'.tracks k').cache ≠ [] := by
    intro k'
    by_cases hk : k' = k
    · rwa [hk]
    · rw [hex.others k' hk, ← h.listed k', ← List.mem_erase_of_ne hk, hex.order.mem_iff,
        List.mem_erase_of_ne hk]
  refine ⟨hexacts, hnodup, hlists, ?_⟩
  have hrest := hex.sum_eq h.nodup CachedTrack.cacheBytes
  have hsplit := h.bytes_split k
  have hsum : (s'.budget.lru.map fun k => (s'.tracks k).cacheBytes).sum =
      (s'.tracks k).cacheBytes +
        ((s'.budget.lru.erase k).map fun k => (s'.tracks k).cacheBytes).sum := by
    apply sum_split (w := fun k => (s'.tracks k).cacheBytes)
    intro hk
    rw [hexact.bytes, not_not.mp (mt hlisted.mpr hk)]
    rfl
  omega

theorem Books.held_exchange (h : Books s) (h' : Books s') (hex : Exchanged s s' k) :
    s'.held + (s.tracks k).cache.length = s.held + (s'.tracks k).cache.length := by
  rw [h.held_split k, h'.held_split k, hex.sum_eq h.nodup fun t => t.cache.length]
  omega

/-! ### What a step does to the books -/

@[simp] theorem put_self : (s.put k out).tracks k = out.1 := Function.update_self ..

theorem put_others {k' : κ} (h : k' ≠ k) : (s.put k out).tracks k' = s.tracks k' :=
  Function.update_of_ne h ..

theorem put_exchanged : Exchanged s (s.put k out) k :=
  ⟨fun _ hk => put_others hk, List.Perm.refl _⟩

/-- `_prune` on a track: it keeps its objects. -/
theorem prune_tracks : (s.prune k).tracks = Function.update s.tracks k (s.tracks k).prune := by
  unfold prune
  dsimp only
  split <;> rfl

theorem prune_bytes : (s.prune k).budget.bytes = s.budget.bytes := by
  unfold prune
  dsimp only
  split <;> rfl

/-- `_prune` on the order of use: a track that holds nothing leaves it. -/
theorem prune_lru : (s.prune k).budget.lru =
    if (s.tracks k).cache = [] then s.budget.lru.erase k else s.budget.lru := by
  unfold prune
  by_cases hempty : (s.tracks k).cache = [] <;> simp [hempty, forget, put]

theorem settled_self : ((s.put k out).prune k).tracks k = out.1.prune := by
  rw [prune_tracks, Function.update_self, put_self]

theorem settled_lru : ((s.put k out).prune k).budget.lru =
    if out.1.cache = [] then s.budget.lru.erase k else s.budget.lru := by
  rw [prune_lru, put_self]
  rfl

/-- A track gave up records, and was pruned. -/
theorem Books.settled (h : Books s) : Exchanged s ((s.put k out).prune k) k := by
  refine ⟨?_, ?_⟩
  · intro k' hk
    rw [prune_tracks, Function.update_of_ne hk, put_others hk]
  · rw [settled_lru]
    split
    · rw [List.erase_of_not_mem h.nodup.not_mem_erase]
    · exact List.Perm.refl _

theorem Books.settle (h : Books s) (hout : (s.tracks k).Shrunk s.budget.bytes out) :
    Books ((s.put k out).prune k) := by
  apply h.exchange h.settled
  · rw [settled_self]
    exact ⟨by simpa using hout.exact.bytes, by simpa using hout.exact.groups⟩
  · rw [settled_lru]
    split
    · exact h.nodup.erase k
    · exact h.nodup
  · rw [settled_lru, settled_self, CachedTrack.prune_cache]
    split
    next hempty => simp [hempty, h.nodup.not_mem_erase]
    next hne =>
      have hold : (s.tracks k).cache ≠ [] := by
        intro hnil
        exact hne (List.sublist_nil.mp (hnil ▸ hout.fewer))
      simp [hne, (h.listed k).mpr hold]
  · rw [settled_self, prune_bytes, prune_cacheBytes]
    exact hout.books

/-- Every track but `k` is within its bounds. -/
def BoundedBut (s : RelayCache κ) (k : κ) : Prop := ∀ k' ≠ k, (s.tracks k').Bounded

theorem Exchanged.bounded (h : Exchanged s s' k) (hb : BoundedBut s k)
    (hk : (s'.tracks k).Bounded) : ∀ k', (s'.tracks k').Bounded := by
  intro k'
  by_cases heq : k' = k
  · rwa [heq]
  · rw [h.others k' heq]
    exact hb k' heq

/-- Books in order, every track within its bounds. -/
structure Sound (s : RelayCache κ) : Prop extends Books s where
  bounded : ∀ k, (s.tracks k).Bounded

theorem Sound.settle (h : Sound s) (hout : (s.tracks k).Shrunk s.budget.bytes out) :
    Sound ((s.put k out).prune k) := by
  refine ⟨h.toBooks.settle hout, h.settled.bounded (fun k' _ => h.bounded k') ?_⟩
  rw [settled_self]
  have hbounded := (h.exact k).bounded (h.bounded k) hout.exact hout.fewer
  exact ⟨by simpa using hbounded.groups, by simpa using hbounded.bytes⟩

/-- What a track gives up, the relay has no longer. -/
theorem Books.settle_bytes (h : Books s) (hout : (s.tracks k).Shrunk s.budget.bytes out) :
    ((s.put k out).prune k).budget.bytes ≤ s.budget.bytes := by
  rw [prune_bytes]
  have hle := retained_le hout.fewer
  have hold := (h.exact k).bytes
  have hnew := hout.exact.bytes
  have hbooks := hout.books
  show out.2 ≤ _
  omega

/-- `_drop_group` of a cached group takes an object at least from the relay. -/
theorem Sound.dropGroup (h : Sound s) {group : Nat} (hgroup : group ∈ (s.tracks k).groups.keys) :
    ∃ s', s.dropGroup k group = .ok s' ∧ Sound s' ∧ s'.held < s.held := by
  obtain ⟨out, hout, hshrunk, hless⟩ := (h.exact k).dropGroup s.budget.bytes hgroup
  have hsettled := h.settle hshrunk
  refine ⟨_, by rw [RelayCache.dropGroup, hout]; rfl, hsettled, ?_⟩
  have hheld := h.toBooks.held_exchange hsettled.toBooks h.settled
  rw [settled_self, CachedTrack.prune_cache] at hheld
  omega

/-- What other code writes of a track counts nothing. -/
theorem Books.put_same (h : Books s) {t : CachedTrack} (hcache : t.cache = (s.tracks k).cache)
    (hbytes : t.cacheBytes = (s.tracks k).cacheBytes) (hgroups : t.groups = (s.tracks k).groups) :
    Books (s.put k (t, s.budget.bytes)) := by
  refine h.exchange put_exchanged ?_ h.nodup ?_ ?_
  · rw [put_self]
    refine ⟨by rw [hbytes, hcache, (h.exact k).bytes], ?_⟩
    rw [hgroups, hcache]
    exact (h.exact k).groups
  · rw [put_self, hcache]
    exact h.listed k
  · rw [put_self, hbytes]
    rfl

theorem Sound.put_same (h : Sound s) {t : CachedTrack} (hcache : t.cache = (s.tracks k).cache)
    (hbytes : t.cacheBytes = (s.tracks k).cacheBytes) (hgroups : t.groups = (s.tracks k).groups) :
    Sound (s.put k (t, s.budget.bytes)) := by
  refine ⟨h.toBooks.put_same hcache hbytes hgroups, ?_⟩
  intro k'
  by_cases hk : k' = k
  · subst hk
    rw [put_self]
    exact ⟨by rw [hgroups]; exact (h.bounded k').groups, by rw [hbytes]; exact (h.bounded k').bytes⟩
  · rw [put_others hk]
    exact h.bounded k'

theorem Sound.dropOldestGroup (h : Sound s) (hk : (s.tracks k).evictable) :
    ∃ s', s.dropOldestGroup k = .ok s' ∧ Sound s' ∧ s'.held < s.held := by
  unfold RelayCache.dropOldestGroup
  cases hmin : (s.tracks k).groups.keys.min? with
  | none =>
    rw [List.min?_eq_none_iff] at hmin
    have hsize : (s.tracks k).groups.size = 0 := by rw [← Dict.length_keys, hmin]; rfl
    simp [evictable, hsize] at hk
  | some group => exact h.dropGroup (List.min?_mem hmin)

theorem Sound.truncateLive (h : Sound s) (hk : k ∈ s.budget.lru) :
    ∃ s', s.truncateLive k = .ok s' ∧ Sound s' ∧ s'.held < s.held := by
  unfold RelayCache.truncateLive
  cases hmax : (s.tracks k).groups.keys.max? with
  | none =>
    rw [List.max?_eq_none_iff, (h.exact k).groups.keys_eq_nil] at hmax
    exact absurd hmax ((h.listed k).mp hk)
  | some group =>
    have hput := h.put_same (k := k) (t := { s.tracks k with uncached := some group }) rfl rfl rfl
    obtain ⟨s', hs', hsound, hless⟩ := hput.dropGroup
      (show group ∈ ((s.put k _).tracks k).groups.keys by
        rw [put_self]
        exact List.max?_mem hmax)
    refine ⟨s', hs', hsound, ?_⟩
    have hheld := h.toBooks.held_exchange hput.toBooks put_exchanged
    rw [put_self] at hheld
    exact hless.trans_eq (Nat.add_right_cancel hheld)

/-! ### The budget -/

omit [DecidableEq κ] in
/-- No field of the budget but its order and its bytes is in the books. -/
theorem Sound.recount (h : Sound s) (evictions truncations : Nat) (overrun : Bool) :
    Sound { s with budget := { s.budget with evictions, truncations, overrun } } :=
  ⟨⟨h.exact, h.nodup, h.listed, h.bytes⟩, h.bounded⟩

omit [DecidableEq κ] in
theorem largest_eq_none {l : List κ} (h : s.largest l = none) : l = [] := by
  cases l with
  | nil => rfl
  | cons k rest =>
    rw [largest] at h
    split at h
    · cases h
    · split at h <;> cases h

omit [DecidableEq κ] in
theorem largest_mem {l : List κ} {k : κ} (h : s.largest l = some k) : k ∈ l := by
  induction l with
  | nil => cases h
  | cons first rest ih =>
    rw [largest] at h
    split at h
    · exact Option.some.inj h ▸ List.mem_cons_self
    next k' hk' =>
      split at h
      · exact List.mem_cons_of_mem _ (ih (hk'.trans h))
      · exact Option.some.inj h ▸ List.mem_cons_self

/-- With an object to drop at every turn, `enforce` ends, at most CACHE_BYTES over. -/
theorem Sound.enforce (limit : Nat) {fuel : Nat} (h : Sound s) (hfuel : s.held < fuel) :
    ∃ s', s.enforce limit fuel = .ok s' ∧ Sound s' ∧
      s'.budget.bytes ≤ limit + cacheBytesLimit := by
  induction fuel generalizing s with
  | zero => omega
  | succ fuel ih =>
    rw [RelayCache.enforce]
    split
    next hle => exact ⟨_, rfl, h.recount .., by simp only; omega⟩
    next hover =>
      split
      next victim hvictim =>
        have hev := List.find?_some hvictim
        obtain ⟨next, hnext, hsound, hless⟩ := h.dropOldestGroup (by simpa using hev)
        rw [hnext]
        exact ih (hsound.recount ..) (by
          show next.held < fuel
          omega)
      next =>
        split
        next hle => exact ⟨_, rfl, h.recount .., hle⟩
        next hceiling =>
          split
          next hnone =>
            have hzero := h.bytes
            rw [largest_eq_none hnone, List.map_nil, List.sum_nil] at hzero
            omega
          next largest hlargest =>
            obtain ⟨next, hnext, hsound, hless⟩ := h.truncateLive (largest_mem hlargest)
            rw [hnext]
            exact ih (hsound.recount ..) (by
              show next.held < fuel
              omega)

/-- `_evict` brings the one track that may be past its bounds, and the relay, within
them. -/
theorem Books.evict (limit : Nat) (h : Books s) (hb : BoundedBut s k) :
    ∃ s', s.evict k limit = .ok s' ∧ Sound s' ∧ s'.budget.bytes ≤ limit + cacheBytesLimit := by
  obtain ⟨out, hout, hexact, hbounded, hbooks, hfewer⟩ :=
    evict_shrunk s.budget.bytes (h.exact k).bytes (h.exact k).groups
  have hsound : Sound ((s.put k out).prune k) := by
    refine ⟨h.settle ⟨hexact, hbooks, hfewer⟩, h.settled.bounded hb ?_⟩
    rw [settled_self]
    exact ⟨by simpa using hbounded.groups, by simpa using hbounded.bytes⟩
  obtain ⟨s', hs', hsound', hbytes⟩ := hsound.enforce limit (Nat.lt_succ_self _)
  refine ⟨s', ?_, hsound', hbytes⟩
  rw [RelayCache.evict, hout]
  exact hs'

/-! ### What comes in -/

theorem counts_all {groups : Dict Nat Int} {cache : List CacheRecord} (new : List CacheRecord)
    (h : groups.Counts CacheRecord.group cache) :
    (new.foldl (fun groups c => groups.countUp c.group) groups).Counts CacheRecord.group
      (new ++ cache) := by
  induction new generalizing groups cache with
  | nil => exact h
  | cons c new ih => exact (ih (h.countUp c)).perm List.perm_middle

theorem touch_tracks : (s.touch k).tracks = s.tracks := by
  unfold touch
  split <;> rfl

theorem touch_bytes : (s.touch k).budget.bytes = s.budget.bytes := by
  unfold touch
  split <;> rfl

theorem touch_lru : (s.touch k).budget.lru =
    if (s.tracks k).cache = [] then s.budget.lru else s.budget.lru.erase k ++ [k] := by
  unfold touch
  by_cases hempty : (s.tracks k).cache = [] <;> simp [hempty]

/-- A track that was written and touched. -/
theorem Books.touch_put (h : Books s) (k : κ) (out : CachedTrack × Int) (hexact : out.1.Exact)
    (hbooks : out.2 - out.1.cacheBytes = s.budget.bytes - (s.tracks k).cacheBytes)
    (hmore : (s.tracks k).cache ≠ [] → out.1.cache ≠ []) :
    Books ((s.put k out).touch k) ∧ Exchanged s ((s.put k out).touch k) k := by
  have hself : ((s.put k out).touch k).tracks k = out.1 := by rw [touch_tracks, put_self]
  have hlru : ((s.put k out).touch k).budget.lru =
      if out.1.cache = [] then s.budget.lru else s.budget.lru.erase k ++ [k] := by
    rw [touch_lru, put_self]
    rfl
  have hnotMem : k ∉ s.budget.lru.erase k := h.nodup.not_mem_erase
  have hex : Exchanged s ((s.put k out).touch k) k := by
    refine ⟨?_, ?_⟩
    · intro k' hk
      rw [touch_tracks, put_others hk]
    · rw [hlru]
      split
      · exact List.Perm.refl _
      · rw [List.erase_append_right _ hnotMem, List.erase_cons_head, List.append_nil]
  refine ⟨h.exchange hex ?_ ?_ ?_ ?_, hex⟩
  · rwa [hself]
  · rw [hlru]
    split
    · exact h.nodup
    · exact (h.nodup.erase k).append (List.nodup_singleton k) (by simpa using hnotMem)
  · rw [hself, hlru]
    split
    next hempty =>
      have hold := not_not.mp (mt hmore (not_not.mpr hempty))
      simp [hempty, h.listed k, hold]
    next hne => simp [hne]
  · rw [hself, touch_bytes]
    exact hbooks

theorem Books.store (h : Books s) {cache new : List CacheRecord} (largest : Option Location)
    (hperm : (new ++ (s.tracks k).cache).Perm cache) :
    Books (s.store k cache new largest) ∧ Exchanged s (s.store k cache new largest) k := by
  apply h.touch_put
  · refine ⟨?_, (counts_all new (h.exact k).groups).perm hperm⟩
    show (s.tracks k).cacheBytes + _ = (retained cache : Int)
    rw [← retained_perm hperm, retained_append, (h.exact k).bytes]
    omega
  · show s.budget.bytes + _ - ((s.tracks k).cacheBytes + _) = _
    omega
  · intro hne
    show cache ≠ []
    rintro rfl
    exact hne (List.append_eq_nil_iff.mp hperm.eq_nil).2

/-! ### Runs -/

/-- The books of the relay's cache, and its bounds. -/
structure Accounted (limit : Nat) (s : RelayCache κ) : Prop extends Sound s where
  budget : s.budget.bytes ≤ limit + cacheBytesLimit

omit [DecidableEq κ] in
theorem Accounted.start : Accounted limit ({} : RelayCache κ) := by
  refine ⟨⟨⟨fun _ => ⟨rfl, Dict.Counts.nil _⟩, List.nodup_nil, by simp, rfl⟩, fun _ => ?_⟩, ?_⟩
  · exact ⟨Nat.zero_le _, by simp⟩
  · show (0 : Int) ≤ _
    omega

theorem Accounted.put_same (h : Accounted limit s) {t : CachedTrack}
    (hcache : t.cache = (s.tracks k).cache) (hbytes : t.cacheBytes = (s.tracks k).cacheBytes)
    (hgroups : t.groups = (s.tracks k).groups) :
    Accounted limit (s.put k (t, s.budget.bytes)) :=
  ⟨h.toSound.put_same hcache hbytes hgroups, h.budget⟩

/-- New objects come into a cache, and `_evict` follows. -/
theorem Accounted.store_evict (h : Accounted limit s) (k : κ) {cache new : List CacheRecord}
    (largest : Option Location) (hperm : (new ++ (s.tracks k).cache).Perm cache) :
    ∃ s', (s.store k cache new largest).evict k limit = .ok s' ∧ Accounted limit s' := by
  obtain ⟨hbooks, hex⟩ := h.toBooks.store largest hperm
  have hothers : BoundedBut (s.store k cache new largest) k := by
    intro k' hk
    rw [hex.others k' hk]
    exact h.bounded k'
  obtain ⟨s', hs', hsound, hbytes⟩ := hbooks.evict limit hothers
  exact ⟨s', hs', hsound, hbytes⟩

theorem Accounted.remember (h : Accounted limit s) (k : κ) (c : CacheRecord) :
    ∃ s', s.remember k limit c = .ok s' ∧ Accounted limit s' := by
  unfold RelayCache.remember
  dsimp only
  split
  · exact ⟨_, rfl, h.put_same (noteLost_cache ..) (noteLost_cacheBytes ..) (noteLost_groups ..)⟩
  · have hput := h.put_same (k := k)
      (t := if ∃ group ∈ (s.tracks k).uncached, group < c.group then
        { s.tracks k with uncached := none } else s.tracks k)
      (by split <;> rfl) (by split <;> rfl) (by split <;> rfl)
    apply hput.store_evict
    rw [put_self]
    exact List.perm_append_comm

theorem Accounted.backfill (h : Accounted limit s) (k : κ) (cf : Location)
    (objs : List FetchTuple) (now : Int) :
    ∃ s', s.backfill k limit cf objs now = .ok s' ∧ Accounted limit s' := by
  obtain ⟨s', hs', hacc⟩ := h.store_evict k (s.tracks k).notes.largest
    (List.mergeSort_perm ((s.tracks k).newRecords objs now ++ (s.tracks k).cache)
      fun a b => a.location ≤ b.location).symm
  refine ⟨_, by rw [RelayCache.backfill, hs']; rfl, ?_⟩
  exact hacc.put_same rfl rfl rfl

theorem Accounted.expire (h : Accounted limit s) (k : κ) (now : Int) :
    ∃ s', s.expire k now = .ok s' ∧ Accounted limit s' := by
  unfold RelayCache.expire
  split
  · exact ⟨s, rfl, h⟩
  next last _ =>
    obtain ⟨out, hout, hshrunk⟩ := (h.exact k).expire s.budget.bytes last
    rw [hout]
    exact ⟨_, rfl, h.toSound.settle hshrunk, (h.toBooks.settle_bytes hshrunk).trans h.budget⟩

theorem Accounted.touch (h : Accounted limit s) (k : κ) : Accounted limit (s.touch k) := by
  have hbooks := (h.toBooks.touch_put k (s.tracks k, s.budget.bytes) (h.exact k) rfl id).1
  have hsame : s.put k (s.tracks k, s.budget.bytes) = s := by
    simp [put]
  rw [hsame] at hbooks
  refine ⟨⟨hbooks, ?_⟩, ?_⟩
  · rw [touch_tracks]
    exact h.bounded
  · rw [touch_bytes]
    exact h.budget

theorem Accounted.serve (h : Accounted limit s) (k : κ) (now : Int)
    (wanted : CacheRecord → Bool) :
    ∃ s', s.serve k now wanted = .ok s' ∧ Accounted limit s' := by
  obtain ⟨next, hnext, hacc⟩ := h.expire k now
  refine ⟨_, by rw [RelayCache.serve, hnext]; rfl, ?_⟩
  split
  · exact hacc.touch k
  · exact hacc

theorem Accounted.drop (h : Accounted limit s) (k : κ) : Accounted limit (s.drop k) := by
  have hself : (s.drop k).tracks k =
      { s.tracks k with cache := [], cacheBytes := 0, groups := .empty } := put_self
  have hnotMem : k ∉ s.budget.lru.erase k := h.nodup.not_mem_erase
  have hex : Exchanged s (s.drop k) k := by
    refine ⟨fun k' hk => put_others hk, ?_⟩
    show ((s.budget.lru.erase k).erase k).Perm _
    rw [List.erase_of_not_mem hnotMem]
  refine ⟨⟨h.exchange hex ?_ (h.nodup.erase k) ?_ ?_, ?_⟩, ?_⟩
  · rw [hself]
    exact ⟨rfl, Dict.Counts.nil _⟩
  · rw [hself]
    exact iff_of_false hnotMem fun hne => hne rfl
  · rw [hself]
    exact sub_zero _
  · apply hex.bounded fun k' _ => h.bounded k'
    rw [hself]
    exact ⟨Nat.zero_le _, by simp⟩
  · have hbytes := (h.exact k).bytes
    have hlimit := h.budget
    show s.budget.bytes - (s.tracks k).cacheBytes ≤ _
    omega

theorem Accounted.step (h : Accounted limit s) (event : κ × CacheEvent) :
    ∃ s', s.step limit event = .ok s' ∧ Accounted limit s' := by
  obtain ⟨k, event⟩ := event
  cases event with
  | note notes => exact ⟨_, rfl, h.put_same rfl rfl rfl⟩
  | remember c => exact h.remember k c
  | backfill cf objs now => exact h.backfill k cf objs now
  | expire now => exact h.expire k now
  | serve now wanted => exact h.serve k now wanted
  | drop => exact ⟨_, rfl, h.drop k⟩

/-- From a state with exact books, every event in turn. -/
theorem Accounted.events (h : Accounted limit s) (events : List (κ × CacheEvent)) :
    ∃ s', events.foldlM (RelayCache.step limit) s = .ok s' ∧ Accounted limit s' := by
  induction events generalizing s with
  | nil => exact ⟨s, rfl, h⟩
  | cons event events ih =>
    obtain ⟨next, hnext, hacc⟩ := h.step event
    obtain ⟨s', hs', hacc'⟩ := ih hacc
    refine ⟨s', ?_, hacc'⟩
    rw [List.foldlM_cons, hnext]
    exact hs'

/-- Whatever happens to the caches of the relay's tracks, in whatever order: nothing
raises, every `enforce` ends, the books are exact and the bounds hold. -/
theorem accounted_of_run (limit : Nat) (events : List (κ × CacheEvent)) :
    ∃ s, run limit events = .ok s ∧ Accounted limit s :=
  Accounted.start.events events

theorem Books.bytes_union (h : Books s) (ks : Finset κ) :
    s.budget.bytes = ∑ k ∈ s.budget.lru.toFinset ∪ ks, (s.tracks k).cacheBytes := by
  rw [h.bytes, ← List.sum_toFinset _ h.nodup]
  apply Finset.sum_subset Finset.subset_union_left
  intro k _ hk
  rw [(h.exact k).bytes, h.cache_eq_nil (by simpa using hk)]
  rfl

/-- After any events, in any order and on any tracks: the bytes of the budget are those of all
tracks that hold objects, with any others, those of a track are what its records weigh, a
group counts its records, and is missing where it has none, the tracks that hold objects are
those in the order of use, and no bound is passed.  Nothing raises on the way there. -/
theorem cache_counters_exact (limit : Nat) (events : List (κ × CacheEvent)) :
    ∃ s, run limit events = .ok s ∧ s.budget.bytes ≤ limit + cacheBytesLimit ∧
      s.budget.lru.Nodup ∧
      (∀ ks : Finset κ,
        s.budget.bytes = ∑ k ∈ s.budget.lru.toFinset ∪ ks, (s.tracks k).cacheBytes) ∧
      ∀ k, (k ∈ s.budget.lru ↔ (s.tracks k).cache ≠ []) ∧
        (s.tracks k).cacheBytes = ((s.tracks k).cache.map CacheRecord.size).sum ∧
        (∀ g n, (s.tracks k).groups.get? g = some n ↔
          n = (s.tracks k).cache.countP (·.group = g) ∧ n ≠ 0) ∧
        (s.tracks k).groups.size ≤ cacheGroups ∧ (s.tracks k).cacheBytes ≤ cacheBytesLimit := by
  have hstart : Accounted limit ({} : RelayCache κ) := Accounted.start
  obtain ⟨s, hrun, h⟩ := hstart.events events
  refine ⟨s, hrun, h.budget, h.nodup, h.toBooks.bytes_union, ?_⟩
  intro k
  refine ⟨h.listed k, (h.exact k).bytes, ?_, (h.bounded k).groups, (h.bounded k).bytes⟩
  exact fun g n => (h.exact k).groups.get?_eq_some

end RelayCache

end AioMoqt.Relay
