import AioMoqt.Publisher.Proofs.Producers.Ordered

/-!
# Where the tasks stand

A task goes through the Locations of its subgroup in ascending order, and its peer was
written nothing of that subgroup from where it stands on.  So a Location is written to a
peer once, as long as no two tasks share a subgroup.
-/

namespace AioMoqt.Publisher

open AioMoqt.Lib AioMoqt.Messages

/-- The objects a task is writing or about to write. -/
def Pc.objects : Pc → List Generated
  | .opening obj | .header _ obj _ | .datagram obj => [obj]
  | .sending _ obj _ rest _ => obj :: rest
  | _ => []

/-- Streams are written in one mode, datagrams in the other. -/
def Pc.Suits (cfg : Config) : Pc → Prop
  | .opening _ | .header _ _ _ | .sending _ _ _ _ _ => cfg.datagram = false
  | .datagram _ => cfg.datagram = true
  | _ => True

namespace Task

/-- The id after the one that was coded last. -/
def nextId (k : Task) : Nat := k.header.elim 0 Header.nextObjectId

/-- What the task wrote of its group lies before this id. -/
def bound (cfg : Config) (k : Task) : Nat :=
  if cfg.datagram then if k.header.isNone then 0 else k.object
  else match k.pc with
    | .sending _ obj _ _ false => obj.object
    | _ => k.nextId

/-- An object of the task's subgroup, up to the one it stands at. -/
def Fits (cfg : Config) (k : Task) (object : Nat) : Prop :=
  object % cfg.width = k.subgroup ∧ object ≤ k.object ∧
    (0 < cfg.groupSize → k.subgroup = 0 → object < cfg.groupSize)

/-- How far the header has coded. -/
def Coded (k : Task) : Prop :=
  match k.pc with
  | .sending _ obj _ _ _ => k.nextId = obj.object + 1
  | .opening obj | .header _ obj _ | .datagram obj => obj.object = k.object ∧ k.nextId ≤ k.object
  | _ => k.nextId ≤ k.object

/-- Where a task stands, after what was written. -/
structure Placed (cfg : Config) (written : List Written) (k : Task) : Prop where
  mode : k.pc.Suits cfg
  header : k.pc ≠ .ready → k.header.isSome
  subgroup : k.subgroup < cfg.width
  slot : k.object % cfg.width = k.subgroup
  fits : ∀ obj ∈ k.pc.objects, k.Fits cfg obj.object
  sorted : k.pc.objects.Pairwise (·.object < ·.object)
  coded : k.Coded
  marker : 0 < cfg.groupSize → k.subgroup = 0 → k.nextId ≤ cfg.groupSize
  past : ∀ w ∈ written, w.peer = k.peer → w.object % cfg.width = k.subgroup →
    w.group < k.group ∨ w.group = k.group ∧ w.object < k.bound cfg

variable {cfg : Config} {written : List Written} {k k' : Task}

theorem Placed.width_pos (h : k.Placed cfg written) : 0 < cfg.width :=
  Nat.lt_of_le_of_lt (Nat.zero_le _) h.subgroup

theorem Placed.nextId_le (h : k.Placed cfg written) : k.nextId ≤ k.object + 1 := by
  have hcoded := h.coded
  unfold Coded at hcoded
  split at hcoded
  next sid obj item rest handed hpc =>
      have hle := (h.fits obj (by simp [hpc, Pc.objects])).2.1
      omega
  · omega
  · omega
  · omega
  · omega

/-- The bound of a task that is not about to hand an object is what its header coded. -/
theorem bound_eq_nextId (hd : cfg.datagram = false)
    (hpc : ∀ sid obj item rest, k.pc ≠ .sending sid obj item rest false) :
    k.bound cfg = k.nextId := by
  unfold bound
  rw [if_neg (by simp [hd])]
  split
  next sid obj item rest h => exact absurd h (hpc sid obj item rest)
  · rfl

theorem Placed.past_mono (h : k.Placed cfg written) (hpeer : k'.peer = k.peer)
    (hsubgroup : k'.subgroup = k.subgroup) (hgroup : k'.group = k.group)
    (hbound : k.bound cfg ≤ k'.bound cfg) :
    ∀ w ∈ written, w.peer = k'.peer → w.object % cfg.width = k'.subgroup →
      w.group < k'.group ∨ w.group = k'.group ∧ w.object < k'.bound cfg := by
  intro w hw hp hs
  rw [hpeer] at hp
  rw [hsubgroup] at hs
  rw [hgroup]
  obtain hlt | ⟨heq, hlt⟩ := h.past w hw hp hs
  · exact Or.inl hlt
  · exact Or.inr ⟨heq, by omega⟩

theorem Placed.congr (h : k.Placed cfg written) (hpeer : k'.peer = k.peer)
    (hsubgroup : k'.subgroup = k.subgroup) (hgroup : k'.group = k.group)
    (hobject : k'.object = k.object) (hpc : k'.pc = k.pc) (hnext : k'.nextId = k.nextId)
    (hheader : k'.header.isNone = k.header.isNone) :
    k'.Placed cfg written where
  mode := by
    rw [hpc]
    exact h.mode
  header := by
    rw [hpc, ← Option.not_isNone, hheader, Option.not_isNone]
    exact h.header
  subgroup := hsubgroup ▸ h.subgroup
  slot := by
    rw [hobject, hsubgroup]
    exact h.slot
  fits := by
    unfold Fits
    rw [hpc, hobject, hsubgroup]
    exact h.fits
  sorted := by
    rw [hpc]
    exact h.sorted
  coded := by
    unfold Coded
    rw [hpc, hobject, hnext]
    exact h.coded
  marker := by
    rw [hsubgroup, hnext]
    exact h.marker
  past := by
    refine h.past_mono hpeer hsubgroup hgroup (Nat.le_of_eq ?_)
    unfold bound
    rw [hpc, hobject, hnext, hheader]

/-- The task goes on to the next object of its subgroup. -/
theorem Placed.next (h : k.Placed cfg written) :
    Placed cfg written { k with object := k.object + cfg.width, pc := .ready } where
  __ := h
  mode := trivial
  header h := absurd rfl h
  slot := by
    show (k.object + cfg.width) % cfg.width = k.subgroup
    rw [Nat.add_mod_right]
    exact h.slot
  fits := by simp [Pc.objects]
  sorted := by simp [Pc.objects]
  coded := by
    show k.nextId ≤ k.object + cfg.width
    have hnext := h.nextId_le
    have hpos := h.width_pos
    omega
  past := by
    refine h.past_mono rfl rfl rfl ?_
    have hcoded := h.coded
    unfold Coded at hcoded
    unfold bound
    split
    · split
      · exact Nat.zero_le _
      · exact Nat.le_add_right ..
    · split
      next sid obj item rest hpc =>
          simp only [hpc] at hcoded
          show obj.object ≤ k.nextId
          omega
      · exact Nat.le_refl _

/-- An object is coded, and its write begins. -/
theorem Placed.code {h : Header} {obj : Generated} {rest : List Generated} {item : Item}
    {sid : Nat} {h' : Header} (hk : k.Placed cfg written) (hd : cfg.datagram = false)
    (hheader : k.header = some h)
    (hcode : h.nextObject obj.object obj.payload obj.extensions .normal = some (item, h'))
    (hfits : ∀ o ∈ obj :: rest, k.Fits cfg o.object)
    (hsorted : (obj :: rest).Pairwise (·.object < ·.object)) (hbound : k.bound cfg = k.nextId) :
    Placed cfg written { k with header := some h', pc := .sending sid obj item rest false } := by
  unfold Header.nextObject at hcode
  split at hcode
  swap
  · simp at hcode
  next hle =>
      obtain ⟨rfl, rfl⟩ := Prod.mk.inj (Option.some.inj hcode)
      have hnext : k.nextId ≤ obj.object := by
        rw [nextId, hheader]
        exact hle
      constructor
      case mode => exact hd
      case header => exact fun _ => rfl
      case subgroup => exact hk.subgroup
      case slot => exact hk.slot
      case fits => exact hfits
      case sorted => exact hsorted
      case coded => rfl
      case marker =>
        intro hsize hzero
        exact (hfits obj List.mem_cons_self).2.2 hsize hzero
      case past =>
        refine hk.past_mono rfl rfl rfl ?_
        rw [hbound]
        simp only [bound, hd, Bool.false_eq_true, if_false]
        exact hnext

/-- The task waits for its siblings. -/
theorem Placed.waits (h : k.Placed cfg written) (hpc : k.pc = .ready) (hheader : k.header.isSome) :
    Placed cfg written { k with pc := .barrier } where
  __ := h
  mode := trivial
  header _ := hheader
  fits := by simp [Pc.objects]
  sorted := by simp [Pc.objects]
  coded := by
    have hcoded := h.coded
    simp only [Coded, hpc] at hcoded
    exact hcoded
  past := by
    refine h.past_mono rfl rfl rfl ?_
    simp only [bound, hpc]
    exact Nat.le_refl _

/-- The object the task stands at is next. -/
theorem Placed.present {pc : Pc} {obj : Generated} (h : k.Placed cfg written)
    (hheader : k.header.isSome)
    (hmode : pc.Suits cfg)
    (hpc : pc = .opening obj ∨ (∃ sid handed, pc = .header sid obj handed) ∨ pc = .datagram obj)
    (hobj : obj.object = k.object)
    (hinside : 0 < cfg.groupSize → k.subgroup = 0 → k.object < cfg.groupSize)
    (hnext : k.nextId ≤ k.object) (hbound : k.bound cfg ≤ ({ k with pc } : Task).bound cfg) :
    Placed cfg written { k with pc } := by
  have hobjects : pc.objects = [obj] := by
    obtain rfl | ⟨sid, handed, rfl⟩ | rfl := hpc <;> rfl
  constructor
  case mode => exact hmode
  case header => exact fun _ => hheader
  case subgroup => exact h.subgroup
  case slot => exact h.slot
  case fits =>
    show ∀ o ∈ pc.objects, _
    rw [hobjects]
    intro o ho
    obtain rfl := List.mem_singleton.mp ho
    rw [hobj]
    exact ⟨h.slot, Nat.le_refl _, hinside⟩
  case sorted =>
    show pc.objects.Pairwise _
    rw [hobjects]
    exact List.pairwise_singleton ..
  case coded => obtain rfl | ⟨sid, handed, rfl⟩ | rfl := hpc <;> exact ⟨hobj, hnext⟩
  case marker => exact h.marker
  case past => exact h.past_mono rfl rfl rfl hbound

end Task

namespace Track

/-- The group of a task that has begun was published. -/
def Begun (t : Track) (k : Task) : Prop :=
  k.header.isSome → ∃ loc ∈ t.largest, k.group ≤ loc.group

/-- Where a task stands at an await. -/
structure Stays (cfg : Config) (log written : List Written) (t : Track) (k : Task) : Prop where
  log : t.written = log
  placed : k.Placed cfg written
  begun : t.Begun k

/-- What holds where a stretch ends. -/
def Outcome.Stays (cfg : Config) (log written : List Written) : Outcome → Prop
  | .awaits t k => t.Stays cfg log written k
  | .ends t => t.written = log

variable {cfg : Config} {log written : List Written} {t : Track} {k : Task}

theorem closeStream_written (t : Track) (sid : Nat) (items : List Item) (state : StreamState) :
    (t.closeStream sid items state).written = t.written := by
  unfold closeStream
  simp only
  split <;> rfl

theorem reset_written (t : Track) (k : Task) : (t.reset k).1.written = t.written := by
  unfold reset
  split
  · rfl
  · simp only
    split
    · rfl
    · exact closeStream_written ..

theorem next_stays (h : t.Stays cfg log written k) : (t.next cfg k).Stays cfg log written :=
  ⟨h.log, h.placed.next, h.begun⟩

theorem write_stays (h : t.Stays cfg log written k) (hd : cfg.datagram = false)
    {objs : List Generated} (hfits : ∀ o ∈ objs, k.Fits cfg o.object)
    (hsorted : objs.Pairwise (·.object < ·.object)) (hbound : k.bound cfg = k.nextId) :
    (t.write cfg k objs).Stays cfg log written := by
  cases objs with
  | nil => exact next_stays h
  | cons obj rest =>
      rw [write]
      split
      next sid item h' hstream hcoded =>
          split
          · exact (reset_written t k).trans h.log
          · obtain ⟨hd', hheader, hcode⟩ := Option.bind_eq_some_iff.mp hcoded
            refine ⟨h.log, h.placed.code hd hheader hcode hfits hsorted hbound, ?_⟩
            intro _
            exact h.begun (by rw [hheader]; rfl)
      · exact h.log

theorem send_stays (h : t.Stays cfg log written k) (hd : cfg.datagram = false) {obj : Generated}
    (hheader : k.header.isSome) (hobj : obj.object = k.object)
    (hinside : 0 < cfg.groupSize → k.subgroup = 0 → k.object < cfg.groupSize)
    (hnext : k.nextId ≤ k.object) (hbound : k.bound cfg = k.nextId) :
    (t.send cfg k obj).Stays cfg log written := by
  unfold send
  split
  · exact next_stays h
  · split
    · apply write_stays h hd
      · intro o ho
        obtain rfl := List.mem_singleton.mp ho
        rw [hobj]
        exact ⟨h.placed.slot, Nat.le_refl _, hinside⟩
      · exact List.pairwise_singleton ..
      · exact hbound
    · refine ⟨h.log, h.placed.present hheader hd (.inl rfl) hobj hinside hnext ?_, h.begun⟩
      rw [hbound, Task.bound_eq_nextId hd (by simp)]
      exact Nat.le_refl _

/-! ## The head of a stream -/

theorem mem_missing {first stop step id : Nat} (h : id ∈ missing first stop step) :
    first ≤ id ∧ id < stop ∧ step ∣ id - first := by
  simp only [missing, List.mem_filterMap, List.mem_range] at h
  obtain ⟨i, hi, hid⟩ := h
  split at hid
  next hdvd =>
      obtain rfl := Option.some.inj hid
      refine ⟨Nat.le_add_right .., by omega, ?_⟩
      rwa [Nat.add_sub_cancel_left]
  · simp at hid

theorem missing_sorted (first stop step : Nat) : (missing first stop step).Pairwise (· < ·) := by
  unfold missing
  rw [List.pairwise_filterMap]
  refine List.pairwise_lt_range.imp ?_
  intro i j hij id hid id' hid'
  split at hid
  · split at hid'
    · obtain rfl := Option.some.inj hid
      obtain rfl := Option.some.inj hid'
      omega
    · simp at hid'
  · simp at hid

/-- A stream of a subgroup starts with an object of it. -/
theorem aligned_mod {cfg : Config} {subgroup : Nat} (h : subgroup < cfg.numSubgroups) (start : Nat) :
    aligned cfg subgroup start % cfg.numSubgroups = subgroup := by
  have hpos : (0 : Int) < cfg.numSubgroups := by omega
  have hnonneg := Int.emod_nonneg ((subgroup : Int) - start) (Int.ne_of_gt hpos)
  have hcast : ((aligned cfg subgroup start : Nat) : Int) =
      start + ((subgroup : Int) - start) % cfg.numSubgroups := by
    rw [aligned, Nat.cast_add, Int.toNat_of_nonneg hnonneg]
  have hmod : ((aligned cfg subgroup start : Nat) : Int) % cfg.numSubgroups = subgroup := by
    rw [hcast, Int.add_emod_emod, show (start : Int) + (subgroup - start) = subgroup by omega]
    exact Int.emod_eq_of_lt (Int.natCast_nonneg _) (by omega)
  exact_mod_cast hmod

theorem headRecords_objects {ids : List Nat} {records : List Generated}
    (h : t.headRecords cfg k ids = some records) : records.map Generated.object = ids := by
  unfold headRecords at h
  induction ids generalizing records with
  | nil =>
      obtain rfl : [] = records := by simpa using h
      rfl
  | cons id ids ih =>
      rw [List.mapM_cons] at h
      simp only [Option.bind_eq_bind, Option.bind_eq_some_iff, Option.pure_def,
        Option.some.injEq] at h
      obtain ⟨rec, ⟨held, hheld, hrec⟩, rest, hrest, rfl⟩ := h
      have hid : held.object = id := by
        have hfound := List.find?_some hheld
        simp only [decide_eq_true_eq] at hfound
        exact hfound.2
      split at hrec
      · obtain rfl := Option.some.inj hrec
        rw [List.map_cons, ih hrest, hid]
      · simp at hrec

theorem starts_stays (h : t.Stays cfg log written k) (first : Nat) :
    (t.starts k first).Stays cfg log written k := by
  unfold starts
  split
  · exact h
  · exact ⟨h.log, h.placed, h.begun⟩

theorem sendHead_stays (h : t.Stays cfg log written k) (hd : cfg.datagram = false) {sid : Nat}
    {obj : Generated} {handed : Bool} (hpc : k.pc = .header sid obj handed) :
    (t.sendHead cfg k obj).Stays cfg log written := by
  have hobj := h.placed.fits obj (by simp [hpc, Pc.objects])
  have hbound : k.bound cfg = k.nextId := Task.bound_eq_nextId hd (by simp [hpc])
  have hwidth : cfg.width = cfg.numSubgroups := by simp [Config.width, hd]
  unfold sendHead
  split
  · exact h.log
  next start hfirst =>
      simp only
      split
      next records hrecords =>
          have hids := headRecords_objects hrecords
          have hmem : ∀ o ∈ records, o.object ∈
              missing (aligned cfg k.subgroup start) obj.object cfg.numSubgroups :=
            fun o ho => hids ▸ List.mem_map_of_mem ho
          apply write_stays (starts_stays h (aligned cfg k.subgroup start)) hd
          · intro o ho
            obtain ho | ho := List.mem_append.mp ho
            · obtain ⟨hge, hlt, hdvd⟩ := mem_missing (hmem o ho)
              refine ⟨?_, by have := hobj.2.1; omega,
                fun hsize hzero => by have := hobj.2.2 hsize hzero; omega⟩
              have hmod : (aligned cfg k.subgroup start + (o.object - aligned cfg k.subgroup start)) %
                  cfg.numSubgroups = k.subgroup := by
                obtain ⟨q, hq⟩ := hdvd
                rw [hq, Nat.add_mul_mod_self_left]
                exact aligned_mod (hwidth ▸ h.placed.subgroup) start
              rwa [Nat.add_sub_cancel' hge, ← hwidth] at hmod
            · obtain rfl := List.mem_singleton.mp ho
              exact hobj
          · rw [List.pairwise_append]
            refine ⟨?_, List.pairwise_singleton .., ?_⟩
            · have hsorted := missing_sorted (aligned cfg k.subgroup start) obj.object
                cfg.numSubgroups
              rw [← hids, List.pairwise_map] at hsorted
              exact hsorted
            · intro o ho o' ho'
              obtain rfl := List.mem_singleton.mp ho'
              exact (mem_missing (hmem o ho)).2.1
          · exact hbound
      next hnone =>
          have hnoted := starts_stays h (aligned cfg k.subgroup start)
          have hshort : (t.starts k (aligned cfg k.subgroup start)).Stays cfg log written
              { k with short := true } :=
            ⟨hnoted.log, hnoted.placed.congr rfl rfl rfl rfl rfl rfl rfl, hnoted.begun⟩
          apply write_stays hshort hd
          · intro o ho
            obtain rfl := List.mem_singleton.mp ho
            exact hobj
          · exact List.pairwise_singleton ..
          · exact hbound

/-! ## The parts of a stretch -/

theorem opened_stays (h : t.Stays cfg log written k) (hd : cfg.datagram = false) {obj : Generated}
    (hpc : k.pc = .opening obj) : (t.opened k obj).Stays cfg log written := by
  unfold opened
  simp only
  split
  · exact (reset_written ..).trans h.log
  · set l : Task := { k with
      stream := some t.nextStream
      header := k.header.map fun h => { h with firstObject := obj.object = k.subgroup } } with hl
    have hnext : l.nextId = k.nextId := by
      cases hheader : k.header <;> simp [hl, Task.nextId, hheader, Header.nextObjectId]
    have hcoded := h.placed.coded
    simp only [Task.Coded, hpc] at hcoded
    have hfits := h.placed.fits obj (by simp [hpc, Pc.objects])
    have hopened : l.Placed cfg written := h.placed.congr rfl rfl rfl rfl rfl hnext
      (by simp [hl])
    refine ⟨h.log, ?_, ?_⟩
    · refine hopened.present (hopened.header (by simp [hl, hpc])) hd (.inr (.inl ⟨_, _, rfl⟩)) hcoded.1
        (hcoded.1 ▸ hfits.2.2) (hnext ▸ hcoded.2) ?_
      rw [Task.bound_eq_nextId hd (by simp [hl, hpc]), Task.bound_eq_nextId hd (by simp)]
      exact Nat.le_refl _
    · intro hsome
      exact h.begun (by simpa using hsome)

theorem stop_stays (h : t.Stays cfg log written k) : (t.stop k).1.Stays cfg log written (t.stop k).2 := by
  unfold stop
  split
  · exact ⟨h.log, h.placed.congr rfl rfl rfl rfl rfl rfl rfl, h.begun⟩
  · exact ⟨h.log, h.placed.congr rfl rfl rfl rfl rfl rfl rfl, h.begun⟩

theorem refused_stays (h : t.Stays cfg log written k) :
    (t.refused cfg k).Stays cfg log written := by
  unfold refused
  split
  · exact (reset_written t k).trans h.log
  · exact next_stays (stop_stays h)

theorem handHeader_stays (h : t.Stays cfg log written k) (hd : cfg.datagram = false) {sid : Nat}
    {obj : Generated} (hpc : k.pc = .header sid obj false) :
    (t.handHeader cfg k sid obj).Stays cfg log written := by
  unfold handHeader
  simp only
  split
  · exact refused_stays h
  · have hcoded := h.placed.coded
    simp only [Task.Coded, hpc] at hcoded
    have hfits := h.placed.fits obj (by simp [hpc, Pc.objects])
    refine ⟨h.log, h.placed.present (h.placed.header (by simp [hpc])) hd
      (.inr (.inl ⟨_, _, rfl⟩)) hcoded.1 (hcoded.1 ▸ hfits.2.2) hcoded.2 ?_, h.begun⟩
    rw [Task.bound_eq_nextId hd (by simp [hpc]), Task.bound_eq_nextId hd (by simp)]
    exact Nat.le_refl _

/-- An object was handed over: it lies before where the task now stands. -/
theorem Placed.handed {sid : Nat} {obj : Generated} {item : Item} {rest : List Generated}
    (h : k.Placed cfg written) (hd : cfg.datagram = false)
    (hpc : k.pc = .sending sid obj item rest false) :
    Task.Placed cfg (written ++ [⟨k.peer, k.trackAlias, k.group, obj.object, obj.payload⟩])
      { k with pc := .sending sid obj item rest true } := by
  have hcoded := h.coded
  simp only [Task.Coded, hpc] at hcoded
  have hfits := h.fits
  have hsorted := h.sorted
  rw [hpc] at hfits hsorted
  have hbound : ({ k with pc := .sending sid obj item rest true } : Task).bound cfg =
      obj.object + 1 := by
    rw [Task.bound_eq_nextId hd (by simp)]
    exact hcoded
  constructor
  case mode => exact hd
  case header => exact fun _ => h.header (by simp [hpc])
  case subgroup => exact h.subgroup
  case slot => exact h.slot
  case fits => exact hfits
  case sorted => exact hsorted
  case coded => exact hcoded
  case marker => exact h.marker
  case past =>
    intro w hw hp hs
    rw [hbound]
    obtain hw | hw := List.mem_append.mp hw
    · have hpast := h.past w hw hp hs
      have hold : k.bound cfg = obj.object := by simp [Task.bound, hd, hpc]
      rw [hold] at hpast
      obtain hlt | ⟨heq, hlt⟩ := hpast
      · exact Or.inl hlt
      · exact Or.inr ⟨heq, Nat.lt_succ_of_lt hlt⟩
    · obtain rfl := List.mem_singleton.mp hw
      exact Or.inr ⟨rfl, Nat.lt_succ_self _⟩

/-- An object is handed over to a session: nothing at its Location or after it in its
subgroup was written to this peer before. -/
def Hands (cfg : Config) (t : Track) (k : Task) (t' : Track) (w : Written) : Prop :=
  k.header.isSome ∧ ∃ obj : Generated,
    obj.object % cfg.width = k.subgroup ∧ k.bound cfg = obj.object ∧
    w = ⟨k.peer, k.trackAlias, k.group, obj.object, obj.payload⟩ ∧ t'.written = t.written ++ [w]

theorem handObject_stays (h : t.Stays cfg t.written written k) (hd : cfg.datagram = false) {sid : Nat}
    {obj : Generated} {item : Item} {rest : List Generated}
    (hpc : k.pc = .sending sid obj item rest false) :
    (t.handObject cfg k sid obj item rest).Stays cfg t.written written ∨
      ∃ u l w, t.handObject cfg k sid obj item rest = .awaits u l ∧
        u.Stays cfg u.written (written ++ [w]) l ∧
        t.Hands cfg k u w := by
  unfold handObject
  simp only
  split
  · exact Or.inl (refused_stays h)
  · refine Or.inr ⟨_, _, _, rfl, ⟨rfl, Placed.handed h.placed hd hpc, h.begun⟩,
      h.placed.header (by simp [hpc]), obj, ?_, ?_, rfl, rfl⟩
    · exact (h.placed.fits obj (by simp [hpc, Pc.objects])).1
    · simp [Task.bound, hd, hpc]

theorem handDatagram_stays (h : t.Stays cfg t.written written k) (hd : cfg.datagram = true)
    {obj : Generated} (hpc : k.pc = .datagram obj) :
    ∃ u l w, t.handDatagram cfg k obj = .awaits u l ∧ u.Stays cfg u.written (written ++ [w]) l ∧
      t.Hands cfg k u w := by
  have hcoded := h.placed.coded
  simp only [Task.Coded, hpc] at hcoded
  have hheader : k.header.isNone = false := by
    rw [← Option.not_isSome, h.placed.header (by simp [hpc])]
    rfl
  have hbound : k.bound cfg = obj.object := by simp [Task.bound, hd, hcoded.1, hheader]
  refine ⟨_, _, ⟨k.peer, k.trackAlias, k.group, obj.object, obj.payload⟩, rfl, ⟨rfl, ?_, h.begun⟩,
    h.placed.header (by simp [hpc]), obj, ?_, hbound, rfl, rfl⟩
  · have hnext := h.placed.next
    refine ⟨hnext.mode, hnext.header, hnext.subgroup, hnext.slot, hnext.fits, hnext.sorted, hnext.coded,
      hnext.marker, ?_⟩
    intro w hw hp hs
    obtain hw | hw := List.mem_append.mp hw
    · exact hnext.past w hw hp hs
    · obtain rfl := List.mem_singleton.mp hw
      refine Or.inr ⟨rfl, ?_⟩
      have hpos := h.placed.width_pos
      simp only [Task.bound, hd, if_true, hcoded.1, hheader, Bool.false_eq_true, if_false]
      omega
  · exact (h.placed.fits obj (by simp [hpc, Pc.objects])).1

theorem noted_begun (t : Track) (k : Task) (stamp : Stamp) : (t.noted cfg k stamp).Begun k := by
  intro _
  refine ⟨_, rfl, ?_⟩
  cases hlargest : t.largest with
  | none => exact Nat.le_refl _
  | some loc =>
      have hle : Location.mk k.group k.object ≤ max (Location.mk k.group k.object) loc :=
        le_max_left ..
      rw [Location.le_iff, Location.group_mk] at hle
      simp only [Option.elim_some]
      omega

theorem generate_stays (hlog : t.written = log) (h : k.Placed cfg written)
    (hheader : k.header.isSome) (hpc : k.pc = .ready ∨ k.pc = .barrier)
    (hinside : 0 < cfg.groupSize → k.subgroup = 0 → k.object < cfg.groupSize)
    (hnext : k.nextId ≤ k.object) (stamp : Stamp) :
    (t.generate cfg k stamp).Stays cfg log written := by
  have hstays : (t.noted cfg k stamp).Stays cfg log written k := ⟨hlog, h, noted_begun t k stamp⟩
  have hsending : ∀ sid obj item rest, k.pc ≠ .sending sid obj item rest false := by
    intro sid obj item rest
    obtain hpc | hpc := hpc <;> simp [hpc]
  unfold generate
  simp only
  split
  next hd =>
      split
      · exact hlog
      · split
        · refine ⟨hlog, h.present hheader hd (.inr (.inr rfl)) rfl hinside hnext ?_,
            noted_begun t k stamp⟩
          simp [Task.bound, hd]
        · exact next_stays hstays
  next hd =>
      have hd : cfg.datagram = false := by simpa using hd
      exact send_stays hstays hd hheader rfl hinside hnext (Task.bound_eq_nextId hd hsending)

/-- The first object of a task in a group. -/
theorem Placed.roll {group : Nat} (h : k.Placed cfg written)
    (hpc : k.pc = .ready ∨ k.pc = .barrier)
    (hgroup : group = k.group ∧ k.header = none ∨ group = k.group + 1) (l : Task)
    (hpeer : l.peer = k.peer) (hsubgroup : l.subgroup = k.subgroup) (hlpc : l.pc = k.pc)
    (hheader : l.header = some { group }) (hlgroup : l.group = group)
    (hobject : l.object = if cfg.datagram then 0 else k.subgroup) : l.Placed cfg written := by
  have hobjects : l.pc.objects = [] := by
    rw [hlpc]
    obtain hpc | hpc := hpc <;> simp [hpc, Pc.objects]
  have hnext : l.nextId = 0 := by
    rw [Task.nextId, hheader]
    rfl
  constructor
  case mode =>
    rw [hlpc]
    obtain hpc | hpc := hpc <;> simp [hpc, Pc.Suits]
  case header => simp [hheader]
  case subgroup => exact hsubgroup ▸ h.subgroup
  case slot =>
    rw [hobject, hsubgroup]
    have hlt := h.subgroup
    split
    next hd =>
        simp only [Config.width, hd, if_true] at hlt
        rw [Nat.zero_mod]
        omega
    · exact Nat.mod_eq_of_lt hlt
  case fits => simp [hobjects]
  case sorted => simp [hobjects]
  case coded =>
    unfold Task.Coded
    rw [hlpc, hnext]
    obtain hpc | hpc := hpc <;> simp [hpc]
  case marker => exact fun _ _ => hnext ▸ Nat.zero_le _
  case past =>
    -- What was written lies in the groups before, as the task itself has begun none here.
    intro w hw hp hs
    left
    have hpast := h.past w hw (hp.trans hpeer) (hs.trans hsubgroup)
    obtain ⟨rfl, hnone⟩ | rfl := hgroup
    · have hbound : k.bound cfg = 0 := by
        unfold Task.bound Task.nextId
        obtain hpc | hpc := hpc <;> simp [hnone, hpc]
      omega
    · omega

theorem endStream_written {u : Track} {l : Task} (h : t.endStream cfg k = some (u, l)) :
    u.written = t.written := by
  unfold endStream at h
  split at h
  · split at h
    · rw [← (Prod.mk.inj (Option.some.inj h)).1]
      exact reset_written t k
    · split at h
      · simp only [Option.map_eq_some_iff, Prod.mk.injEq] at h
        obtain ⟨_, -, rfl, -⟩ := h
        exact closeStream_written ..
      · rw [← (Prod.mk.inj (Option.some.inj h)).1]
        exact closeStream_written ..
  · rw [← (Prod.mk.inj (Option.some.inj h)).1]

theorem rangeEnded_written (t : Track) (p : Nat) : (t.rangeEnded p).written = t.written := by
  unfold rangeEnded
  simp only
  split
  · split <;> rfl
  · rfl

theorem rollover_stays (h : t.Stays cfg log written k)
    (hh : k.stream.isSome → k.header.isSome) (hpc : k.pc = .ready ∨ k.pc = .barrier) {group : Nat}
    (hgroup : group = k.group ∧ k.header = none ∨ group = k.group + 1) (stamp : Stamp) :
    (t.rollover cfg k group stamp).Stays cfg log written := by
  unfold rollover
  simp only
  split
  · exact (reset_written t k).trans h.log
  · split
    · exact h.log
    next u l hnew =>
        obtain ⟨-, hl⟩ : Relation.ReflTransGen (Move cfg none) (t, k) (u, l) ∧ _ :=
          newGroup_moves hh hpc hnew
        have hlog : u.written = log := by
          simp only [newGroup, Option.map_eq_some_iff, Prod.mk.injEq, Prod.exists] at hnew
          obtain ⟨_, _, hend, rfl, -⟩ := hnew
          exact (endStream_written hend).trans h.log
        split
        · exact (rangeEnded_written ..).trans hlog
        · have hplaced := Placed.roll h.placed hpc hgroup
            { l with group := group, object := if cfg.datagram then 0 else k.subgroup }
            (by rw [hl]) (by rw [hl]) (by rw [hl]) (by rw [hl]) rfl rfl
          refine generate_stays hlog hplaced (by rw [hl]; rfl) (by rw [hl]; exact hpc) ?_ ?_ stamp
          · intro hsize hzero
            have hzero : k.subgroup = 0 := by rwa [hl] at hzero
            simp [hzero, hsize]
          · rw [hl]
            exact Nat.zero_le _

/-- Where a task stands after a stretch. -/
theorem resume_stays (h : t.Stays cfg t.written written k)
    (hh : k.stream.isSome → k.header.isSome) (stamp : Stamp) :
    (t.resume cfg k stamp).Stays cfg t.written written ∨
      ∃ u l w, t.resume cfg k stamp = .awaits u l ∧ u.Stays cfg u.written (written ++ [w]) l ∧
        t.Hands cfg k u w := by
  have hmode := h.placed.mode
  have hcoded := h.placed.coded
  unfold Task.Coded at hcoded
  unfold resume
  cases hpc : k.pc with
  | ready =>
      left
      simp only [hpc] at hcoded ⊢
      split
      next hnone => exact rollover_stays h hh (.inl hpc) (.inl ⟨rfl, hnone⟩) stamp
      next hd hheader =>
          split
          next hlt =>
              exact generate_stays h.log h.placed (by rw [hheader]; rfl) (.inl hpc) (fun _ _ => hlt)
                hcoded stamp
          · split
            · exact ⟨rfl, h.placed.waits hpc (by rw [hheader]; rfl), h.begun⟩
            · exact rollover_stays h hh (.inl hpc) (.inr rfl) stamp
  | barrier =>
      left
      simp only
      split
      · exact reset_written t k
      · split
        · exact rollover_stays h hh (.inr hpc) (.inr rfl) stamp
        · exact h
  | opening obj =>
      have hd : cfg.datagram = false := by rwa [hpc] at hmode
      exact Or.inl (opened_stays h hd hpc)
  | header sid obj handed =>
      have hd : cfg.datagram = false := by rwa [hpc] at hmode
      cases handed with
      | false => exact Or.inl (handHeader_stays h hd hpc)
      | true => exact Or.inl (sendHead_stays h hd hpc)
  | sending sid obj item rest handed =>
      have hd : cfg.datagram = false := by rwa [hpc] at hmode
      cases handed with
      | false => exact handObject_stays h hd hpc
      | true =>
          left
          have hfits := h.placed.fits
          have hsorted := h.placed.sorted
          rw [hpc] at hfits hsorted
          exact write_stays h hd (fun o ho => hfits o (List.mem_cons_of_mem _ ho))
            (List.Pairwise.of_cons hsorted) (Task.bound_eq_nextId hd (by simp [hpc]))
  | datagram obj =>
      have hd : cfg.datagram = true := by rwa [hpc] at hmode
      exact Or.inr (handDatagram_stays h hd hpc)

end Track

end AioMoqt.Publisher
