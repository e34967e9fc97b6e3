import AioMoqt.Publisher.Proofs.Producers.Events
import AioMoqt.Publisher.Proofs.Streams.Decode

/-!
# How a sender codes its stream

A sender codes object ids as distances from the one before, so its header has to agree
with what its open stream carries.  Between two awaits a task writes to no other stream
than its own, and only while that is open.
-/

namespace AioMoqt.Publisher

open AioMoqt.Lib AioMoqt.Messages

/-! ## A task and its stream -/

/-- The id that the header of a task coded last. -/
def Task.last (k : Task) : Option Nat := k.header.bind Header.last

theorem Task.nextId_eq (k : Task) : k.nextId = k.last.elim 0 (· + 1) := by
  unfold Task.nextId Task.last
  cases k.header <;> rfl

/-- The stream was opened for the group of this task. -/
structure Task.Owns (k : Task) (s : Stream) : Prop where
  peer : s.peer = k.peer
  trackAlias : s.trackAlias = k.trackAlias
  group : s.group = k.group
  subgroup : s.subgroup = k.subgroup

/-- From where its window starts, a stream carries what its subgroup has below `limit`, save
the objects that are still to come. -/
def Stream.Covers (cfg : Config) (s : Stream) (limit : Nat) (pending : List Generated) : Prop :=
  ∀ id, s.first ≤ id → id < limit → id % cfg.numSubgroups = s.subgroup →
    id ∈ s.ids ∨ ∃ obj ∈ pending, obj.object = id

/-- The header of a task agrees with its stream, which lacks the objects of `pending` only. -/
def Task.Continues (cfg : Config) (k : Task) (s : Stream) (limit : Nat)
    (pending : List Generated) : Prop :=
  endId none s.items = k.last ∧ (k.short = false → s.Covers cfg limit pending)

/-- How the open stream of a task stands at an await. -/
def Task.Codes (cfg : Config) (k : Task) (s : Stream) : Prop :=
  match k.pc with
  | .header _ _ _ => s.items = []
  | .sending _ obj item rest false =>
      (s.nextOf item = obj.object ∧ item.payload = obj.payload ∧ item.status = .normal ∧
        k.last = some obj.object) ∧
        (k.short = false → s.Covers cfg (k.object + 1) (obj :: rest))
  | .sending _ _ _ rest true => k.Continues cfg s (k.object + 1) rest
  | _ => k.Continues cfg s k.nextId []

variable {cfg : Config}

theorem Stream.Covers.mono {s : Stream} {limit limit' : Nat} {pending : List Generated}
    (h : s.Covers cfg limit pending) (hle : limit' ≤ limit) : s.Covers cfg limit' pending :=
  fun id hfirst hid hslot => h id hfirst (by omega) hslot

/-- The stream carries every object of its subgroup, from where its window started to the
end of the group, or to the end of the window inside it. -/
def Stream.Complete (cfg : Config) (sub : Subscription) (s : Stream) : Prop :=
  ∀ id, s.first ≤ id → id < cfg.groupSize → id % cfg.numSubgroups = s.subgroup →
    id ∈ s.ids ∨ sub.excludesEnd s.group id = true

namespace Track

/-- A task agrees with what its stream carries. -/
structure Coding (cfg : Config) (t : Track) (k : Task) : Prop where
  headed : ∀ h ∈ k.header, h.group = k.group
  payloads : ∀ obj ∈ k.pc.objects, obj.payload = cfg.payload k.group obj.object
  owns : ∀ sid, k.stream = some sid → k.Owns (t.streams sid)
  codes : ∀ sid, k.stream = some sid → k.Codes cfg (t.streams sid)

/-- What is recorded and written is what the generator makes of each Location. -/
structure Recorded (cfg : Config) (t : Track) : Prop where
  history : ∀ rec ∈ t.history, rec.payload = cfg.payload rec.group rec.object
  written : ∀ w ∈ t.written, w.payload = cfg.payload w.group w.object
  decodes : ∀ sid < t.nextStream, (t.streams sid).Decodes cfg t.written

/-- What becomes of the stream of a task in a stretch: it is written to while it is open,
with the object that the task sends or with a marker, and ends with FIN if it is complete. -/
structure Extends (cfg : Config) (t : Track) (k : Task) (sid : Nat) (s : Stream) : Prop where
  first : (t.streams sid).state ≠ .opened → s.header = (t.streams sid).header ∧
    s.items = (t.streams sid).items
  items : s.items = (t.streams sid).items ∨ ∃ item, s.items = (t.streams sid).items ++ [item] ∧
    (item.status ≠ .normal ∨ ∃ obj rest, k.pc = .sending sid obj item rest false)
  complete : s.state = .fin → (t.streams sid).state = .fin ∨ s.Complete cfg (t.subs k.peer)

/-- What a stretch of a task does to the streams. -/
structure Wrote (cfg : Config) (t : Track) (k : Task) (u : Track) : Prop where
  next : t.nextStream ≤ u.nextStream
  others : ∀ sid < t.nextStream, k.stream ≠ some sid → u.streams sid = t.streams sid
  own : ∀ sid, k.stream = some sid → t.Extends cfg k sid (u.streams sid)
  recorded : u.Recorded cfg

/-- How a stretch ends. -/
def Outcome.Codes (cfg : Config) (t : Track) (k : Task) : Outcome → Prop
  | .awaits u l => t.Wrote cfg k u ∧ u.Coding cfg l ∧
      ∀ sid obj item rest, l.pc = .sending sid obj item rest false →
        (t.subs l.peer).passes l.group obj.object = true
  | .ends u => t.Wrote cfg k u

variable {t u v : Track} {k l : Task}

theorem Wrote.refl (h : t.Recorded cfg) : t.Wrote cfg k t where
  next := Nat.le_refl _
  others _ _ _ := rfl
  own _ _ := ⟨fun _ => ⟨rfl, rfl⟩, Or.inl rfl, Or.inl⟩
  recorded := h

theorem Recorded.frame (h : u.Recorded cfg) (hstreams : v.streams = u.streams)
    (hnext : v.nextStream = u.nextStream) (hwritten : v.written = u.written)
    (hhistory : v.history = u.history) : v.Recorded cfg where
  history := hhistory ▸ h.history
  written := hwritten ▸ h.written
  decodes := by
    rw [hstreams, hnext, hwritten]
    exact h.decodes

/-- The streams stay as they are. -/
theorem Wrote.frame (h : t.Wrote cfg k u) (hstreams : v.streams = u.streams)
    (hnext : v.nextStream = u.nextStream) (hwritten : v.written = u.written)
    (hhistory : v.history = u.history) : t.Wrote cfg k v where
  next := hnext ▸ h.next
  others := by
    rw [hstreams]
    exact h.others
  own := by
    rw [hstreams]
    exact h.own
  recorded := h.recorded.frame hstreams hnext hwritten hhistory

theorem Recorded.setStream {sid : Nat} {s : Stream} (h : u.Recorded cfg)
    (hdecodes : s.Decodes cfg u.written) : (u.setStream sid s).Recorded cfg where
  __ := h
  decodes other hother := by
    by_cases heq : other = sid
    · subst heq
      rw [setStream_self]
      exact hdecodes
    · rw [setStream_of_ne _ _ heq]
      exact h.decodes other hother

/-- The stream of the task changes. -/
theorem Wrote.setStream {sid : Nat} {s : Stream} (h : t.Wrote cfg k u)
    (hsid : sid < t.nextStream → k.stream = some sid)
    (hextends : k.stream = some sid → t.Extends cfg k sid s)
    (hdecodes : s.Decodes cfg u.written) : t.Wrote cfg k (u.setStream sid s) where
  next := h.next
  others other hother hne := by
    have hdiffers : other ≠ sid := by
      rintro rfl
      exact hne (hsid hother)
    rw [setStream_of_ne _ _ hdiffers]
    exact h.others other hother hne
  own other hown := by
    by_cases heq : other = sid
    · subst heq
      rw [setStream_self]
      exact hextends hown
    · rw [setStream_of_ne _ _ heq]
      exact h.own other hown
  recorded := h.recorded.setStream hdecodes

/-- The stream of the task ends other than with a FIN. -/
theorem Wrote.close {sid : Nat} {state : StreamState} (h : t.Wrote cfg k u)
    (hsid : sid < t.nextStream → k.stream = some sid) (hknown : sid < u.nextStream)
    (hstate : state ≠ .fin) : t.Wrote cfg k (u.closeStream sid [] state) := by
  unfold closeStream
  simp only
  split
  next hopen =>
      apply h.setStream hsid
      · intro hown
        have hold := h.own sid hown
        rw [List.append_nil]
        exact ⟨hold.first, hold.items, fun hfin => absurd hfin hstate⟩
      · have hold := h.recorded.decodes sid hknown
        exact hold.congr _ (List.append_nil _) rfl rfl rfl rfl (List.Subset.refl _)
  · exact h

/-- The task abandons its stream. -/
theorem Wrote.reset (h : t.Wrote cfg k u)
    (hstream : ∀ sid, l.stream = some sid →
      (sid < t.nextStream → k.stream = some sid) ∧ sid < u.nextStream) :
    t.Wrote cfg k (u.reset l).1 := by
  unfold Track.reset
  split
  · exact h
  next sid hsid =>
      obtain ⟨hown, hknown⟩ := hstream sid hsid
      simp only
      split
      · exact h.frame rfl rfl rfl rfl
      · exact (h.close hown hknown (by simp)).frame rfl rfl rfl rfl

theorem Wrote.noted (h : t.Wrote cfg k u) (l : Task) (stamp : Stamp) :
    t.Wrote cfg k (u.noted cfg l stamp) := by
  refine ⟨h.next, h.others, h.own, ?_, h.recorded.written, h.recorded.decodes⟩
  intro rec hrec
  simp only [Track.noted, remember] at hrec
  split at hrec
  · obtain hold | hnew := List.mem_append.mp (List.mem_of_mem_filter hrec)
    · exact h.recorded.history rec hold
    · obtain rfl := List.mem_singleton.mp hnew
      rfl
  · exact h.recorded.history rec hrec

/-! ## Objects are sent -/

/-- The task goes on to the next object of its subgroup. -/
theorem next_codes (h : t.Wrote cfg k u) (hheaded : ∀ h ∈ l.header, h.group = l.group)
    (howns : ∀ sid, l.stream = some sid → l.Owns (u.streams sid))
    (hcontinues : ∀ sid, l.stream = some sid → l.Continues cfg (u.streams sid) l.nextId []) :
    (u.next cfg l).Codes cfg t k := by
  refine ⟨h, ⟨hheaded, ?_, ?_, hcontinues⟩, ?_⟩
  · simp [Pc.objects]
  · intro sid hsid
    have hold := howns sid hsid
    exact ⟨hold.peer, hold.trackAlias, hold.group, hold.subgroup⟩
  · simp

/-- The objects of a batch are coded one by one. -/
theorem write_codes (h : t.Wrote cfg k u) (hheaded : ∀ h ∈ l.header, h.group = l.group)
    (howns : ∀ sid, l.stream = some sid → l.Owns (u.streams sid))
    {objs : List Generated} (hnext : l.nextId ≤ l.object + 1)
    (hstream : ∀ sid, l.stream = some sid →
      (sid < t.nextStream → k.stream = some sid) ∧ sid < u.nextStream)
    (hcontinues : ∀ sid, l.stream = some sid →
      l.Continues cfg (u.streams sid) (l.object + 1) objs)
    (hpayloads : ∀ obj ∈ objs, obj.payload = cfg.payload l.group obj.object)
    (hpasses : l.stream.isSome → ∀ obj ∈ objs.head?,
      (t.subs l.peer).passes l.group obj.object = true) :
    (u.write cfg l objs).Codes cfg t k := by
  cases objs with
  | nil =>
      apply next_codes h hheaded howns
      intro sid hsid
      obtain ⟨hlast, hcovers⟩ := hcontinues sid hsid
      exact ⟨hlast, fun hshort => (hcovers hshort).mono hnext⟩
  | cons obj rest =>
      rw [Track.write]
      split
      next sid item h' hsid hcoded =>
          split
          · exact h.reset hstream
          · obtain ⟨hd, hheader, hcode⟩ := Option.bind_eq_some_iff.mp hcoded
            unfold Header.nextObject at hcode
            split at hcode
            swap
            · simp at hcode
            next hle =>
                obtain ⟨rfl, rfl⟩ := Prod.mk.inj (Option.some.inj hcode)
                obtain ⟨hlast, hcovers⟩ := hcontinues sid hsid
                refine ⟨h, ⟨?_, hpayloads, ?_, ?_⟩, ?_⟩
                · intro h' hh'
                  obtain rfl := Option.some.inj hh'
                  exact hheaded hd hheader
                · intro other hother
                  have hold := howns other hother
                  exact ⟨hold.peer, hold.trackAlias, hold.group, hold.subgroup⟩
                · intro other hother
                  obtain rfl : sid = other := Option.some.inj (hsid.symm.trans hother)
                  refine ⟨⟨?_, rfl, rfl, rfl⟩, hcovers⟩
                  have hnextId : hd.nextObjectId = (endId none (u.streams sid).items).elim 0 (· + 1) := by
                    rw [hlast, Task.last, hheader]
                    rfl
                  show (endId none (u.streams sid).items).elim 0 (· + 1) +
                    (obj.object - hd.nextObjectId) = obj.object
                  omega
                · intro other obj' item' rest' hpc
                  simp only [Pc.sending.injEq] at hpc
                  obtain ⟨-, rfl, -⟩ := hpc
                  exact hpasses (by rw [hsid]; rfl) obj rfl
      · exact h

/-- Nothing is coded without a stream, for a session that is gone, or where the delta would be
negative. -/
theorem write_ends (h : t.Wrote cfg k u) {obj : Generated} {rest : List Generated}
    (hstream : ∀ sid, l.stream = some sid →
      (sid < t.nextStream → k.stream = some sid) ∧ sid < u.nextStream)
    (hends : l.stream = none ∨ (u.subs l.peer).closed = true ∨ Uncodable l (some obj.object)) :
    (u.write cfg l (obj :: rest)).Codes cfg t k := by
  rw [Track.write]
  split
  next sid item h' hsid hcoded =>
      split
      · exact h.reset hstream
      next hclosed =>
          exfalso
          obtain hnone | hgone | ⟨-, hd, hheader, id, hid, hlt⟩ := hends
          · simp [hnone] at hsid
          · exact hclosed hgone
          · obtain rfl : obj.object = id := Option.some.inj hid
            rw [Option.mem_def] at hheader
            rw [hheader, Option.bind_some, Header.nextObject, if_neg (by omega)] at hcoded
            simp at hcoded
  · exact h

/-- No id of a subgroup lies between two that follow each other. -/
theorem eq_of_slot {n id object slot last : Nat} (hlast : last + n = object)
    (hobject : object % n = slot) (hid : id % n = slot) (hge : last < id) (hle : id ≤ object) :
    id = object := by
  by_contra hne
  have hmod : (object - id) % n = 0 := Nat.sub_mod_eq_zero_of_mod_eq (hobject.trans hid.symm)
  have hdvd : n ∣ object - id := Nat.dvd_of_mod_eq_zero hmod
  have hsmall := Nat.le_of_dvd (by omega) hdvd
  omega

/-- The object the task stands at is sent, on an open stream only if the one before it in the
subgroup was. -/
theorem send_codes (h : t.Wrote cfg k u) (hheaded : ∀ h ∈ l.header, h.group = l.group)
    (howns : ∀ sid, l.stream = some sid → l.Owns (u.streams sid))
    (hcontinues : ∀ sid, l.stream = some sid → l.Continues cfg (u.streams sid) l.nextId [])
    (hstream : ∀ sid, l.stream = some sid →
      (sid < t.nextStream → k.stream = some sid) ∧ sid < u.nextStream)
    (hnext : l.nextId ≤ l.object) {obj : Generated} (hobj : obj.object = l.object)
    (hslot : l.object % cfg.numSubgroups = l.subgroup)
    (hpayload : obj.payload = cfg.payload l.group obj.object)
    (hsubs : l.stream.isSome → u.subs l.peer = t.subs l.peer)
    (hsteady : l.stream.isSome → (u.subs l.peer).closed = false →
      (u.subs l.peer).passes l.group l.object = true → l.short = false →
        l.last.map (· + cfg.numSubgroups) = some l.object) :
    (u.send cfg l obj).Codes cfg t k := by
  unfold send
  split
  · exact next_codes h hheaded howns hcontinues
  next hpass =>
      push Not at hpass
      rw [hobj] at hpass
      split
      next hsome =>
          by_cases hopen : (u.subs l.peer).closed = false
          swap
          · exact write_ends h hstream (Or.inr (Or.inl (by simpa using hopen)))
          apply write_codes h hheaded howns (by omega) hstream
          · intro sid hsid
            obtain ⟨hlast, hcovers⟩ := hcontinues sid hsid
            refine ⟨hlast, fun hshort id hfirst hid hin => ?_⟩
            obtain ⟨last, heq, hplus⟩ := Option.map_eq_some_iff.mp (hsteady hsome hopen hpass.2 hshort)
            have hnextId : l.nextId = last + 1 := by rw [Task.nextId_eq, heq]; rfl
            by_cases hlow : id < l.nextId
            · obtain hmem | ⟨_, hnone, -⟩ := hcovers hshort id hfirst hlow hin
              · exact Or.inl hmem
              · simp at hnone
            · refine Or.inr ⟨obj, List.mem_singleton_self obj, ?_⟩
              rw [(howns sid hsid).subgroup] at hin
              rw [hobj]
              exact (eq_of_slot hplus hslot hin (by omega) (by omega)).symm
          · intro o ho
            obtain rfl := List.mem_singleton.mp ho
            exact hpayload
          · intro _ o ho
            obtain rfl : obj = o := Option.some.inj ho
            rw [← hsubs hsome, hobj]
            exact hpass.2
      next hnone =>
          have hstream : l.stream = none := Option.not_isSome_iff_eq_none.mp hnone
          refine ⟨h, ⟨hheaded, ?_, ?_, ?_⟩, by simp⟩
          · intro o ho
            obtain rfl := List.mem_singleton.mp ho
            exact hpayload
          · exact fun sid hsid => absurd (hstream.symm.trans hsid) (by simp)
          · exact fun sid hsid => absurd (hstream.symm.trans hsid) (by simp)

/-! ## A stream opens -/

theorem mem_missing_of {first stop step id : Nat} (hfirst : first ≤ id) (hstop : id < stop)
    (hdvd : step ∣ id - first) : id ∈ missing first stop step := by
  simp only [missing, List.mem_filterMap, List.mem_range]
  refine ⟨id - first, by omega, ?_⟩
  rw [if_pos hdvd, Nat.add_sub_cancel' hfirst]

/-- A record of the head is the first one the history has at its Location. -/
theorem headRecords_payload (h : t.Recorded cfg) {ids : List Nat} {records : List Generated}
    (hrecords : t.headRecords cfg k ids = some records) :
    ∀ rec ∈ records, rec.payload = cfg.payload k.group rec.object := by
  unfold headRecords at hrecords
  induction ids generalizing records with
  | nil =>
      obtain rfl : [] = records := by simpa using hrecords
      simp
  | cons id ids ih =>
      rw [List.mapM_cons] at hrecords
      simp only [Option.bind_eq_bind, Option.bind_eq_some_iff, Option.pure_def,
        Option.some.injEq] at hrecords
      obtain ⟨rec, ⟨held, hheld, hrec⟩, rest, hrest, rfl⟩ := hrecords
      have hfound := List.find?_some hheld
      simp only [decide_eq_true_eq] at hfound
      have hpayload := h.history held (List.mem_of_find?_eq_some hheld)
      split at hrec
      swap
      · simp at hrec
      · obtain rfl := Option.some.inj hrec
        intro o ho
        obtain rfl | ho := List.mem_cons.mp ho
        · rw [hfound.1] at hpayload
          exact hpayload
        · exact ih hrest o ho

/-- A window that admits an object admits those before it, from its start on. -/
theorem passes_of_first {sub : Subscription} {group start object id : Nat}
    (hfirst : sub.firstObject group = some start) (hpass : sub.passes group object = true)
    (hstart : start ≤ id) (hle : id ≤ object) : sub.passes group id = true := by
  unfold Subscription.passes Subscription.firstObject at *
  cases hwindow : sub.window with
  | range first endGroup endObject =>
      simp only [hwindow, Option.some.injEq, Bool.and_eq_true, decide_eq_true_eq] at hfirst hpass ⊢
      obtain ⟨hforward, hge, hend⟩ := hpass
      refine ⟨hforward, ?_, ?_⟩
      · subst hfirst
        have hmax : first ≤ max first (Location.mk group 0) := le_max_left ..
        by_cases hless : first ≤ Location.mk group 0
        · exact hless.trans (by rw [Location.le_iff]; simp)
        · rw [max_eq_left (le_of_not_ge hless)] at hstart
          rw [Location.le_iff] at hge hless ⊢
          simp only [Location.group_mk, Location.object_mk] at hge hless ⊢
          omega
      · cases endGroup with
        | none => rfl
        | some last =>
            simp only [Bool.or_eq_true, Bool.and_eq_true, decide_eq_true_eq] at hend ⊢
            obtain hlt | ⟨heq, hall⟩ := hend
            · exact Or.inl hlt
            · refine Or.inr ⟨heq, ?_⟩
              cases endObject with
              | none => rfl
              | some bound =>
                  simp only [Option.all_some, decide_eq_true_eq] at hall ⊢
                  omega
  | ended => simp [hwindow] at hfirst
  | done => simp [hwindow] at hfirst

theorem starts_streams {sid : Nat} (hsid : k.stream = some sid) (first : Nat) :
    (t.starts k first).streams sid = { t.streams sid with first } := by
  unfold starts
  rw [hsid]
  exact setStream_self ..

theorem starts_subs (first : Nat) : (t.starts k first).subs = t.subs := by
  unfold starts
  split <;> rfl

theorem starts_nextStream (first : Nat) : (t.starts k first).nextStream = t.nextStream := by
  unfold starts
  split <;> rfl

theorem Wrote.starts (h : t.Recorded cfg) (htask : t.TaskTracked cfg k) (first : Nat) :
    t.Wrote cfg k (t.starts k first) := by
  unfold Track.starts
  split
  · exact Wrote.refl h
  next sid hsid =>
      apply (Wrote.refl h).setStream (fun _ => hsid)
      · exact fun _ => ⟨fun _ => ⟨rfl, rfl⟩, Or.inl rfl, Or.inl⟩
      · exact (h.decodes sid (htask.known sid hsid).1).congr _ rfl rfl rfl rfl rfl
          (List.Subset.refl _)

/-- The head of a stream is sent, and the object it was opened for.  What the window admits
between its start and that object is in the head, unless the stream is marked short. -/
theorem sendHead_codes (hrecorded : t.Recorded cfg) (htask : t.TaskTracked cfg k)
    (hplaced : k.Placed cfg []) (hcoding : t.Coding cfg k) (hd : cfg.datagram = false) {sid : Nat}
    {obj : Generated} (hpc : k.pc = .header sid obj true)
    (hsteady : k.stream.isSome → (t.subs k.peer).closed = false → ¬ t.HeadUncodable cfg k obj →
      k.last = none ∧ (t.subs k.peer).passes k.group obj.object = true) :
    (t.sendHead cfg k obj).Codes cfg t k := by
  have hcoded := hplaced.coded
  simp only [Task.Coded, hpc] at hcoded
  have hpayload := hcoding.payloads obj (by simp [hpc, Pc.objects])
  have hempty : ∀ sid, k.stream = some sid → (t.streams sid).items = [] := by
    intro sid hsid
    have hcodes := hcoding.codes sid hsid
    rwa [Task.Codes, hpc] at hcodes
  unfold sendHead
  unfold HeadUncodable at hsteady
  cases hfirst : (t.subs k.peer).firstObject k.group with
  | none => exact Wrote.refl hrecorded
  | some start =>
      simp only [hfirst, starts_headRecords] at hsteady ⊢
      set first := aligned cfg k.subgroup start with hfirstdef
      have hstart : start ≤ first := Nat.le_add_right ..
      have hstarts : t.Wrote cfg k (t.starts k first) := Wrote.starts hrecorded htask first
      have hstream : ∀ sid, k.stream = some sid →
          (sid < t.nextStream → k.stream = some sid) ∧ sid < (t.starts k first).nextStream := by
        intro sid hsid
        rw [starts_nextStream]
        exact ⟨fun _ => hsid, (htask.known sid hsid).1⟩
      have howns : ∀ sid, k.stream = some sid → k.Owns ((t.starts k first).streams sid) := by
        intro sid hsid
        rw [starts_streams hsid]
        have hold := hcoding.owns sid hsid
        exact ⟨hold.peer, hold.trackAlias, hold.group, hold.subgroup⟩
      have hlast : ∀ sid, k.stream = some sid → k.last = none →
          endId none ((t.starts k first).streams sid).items = k.last := by
        intro sid hsid hnone
        rw [starts_streams hsid]
        show endId none (t.streams sid).items = k.last
        rw [hempty sid hsid, hnone]
        rfl
      cases hrecords : t.headRecords cfg k (missing first obj.object cfg.numSubgroups) with
      | some records =>
          have hids := headRecords_objects hrecords
          simp only [hrecords] at hsteady ⊢
          by_cases hlive : k.stream.isSome = true ∧ (t.subs k.peer).closed = false ∧
              ¬ Uncodable k (firstId (records ++ [obj]))
          · obtain ⟨hsome, hopen, hcodable⟩ := hlive
            obtain ⟨hnone, hpass⟩ := hsteady hsome hopen fun h => hcodable h.2
            apply write_codes hstarts hcoding.headed howns hplaced.nextId_le hstream
            · intro sid hsid
              refine ⟨hlast sid hsid hnone, fun _ id hge hle hslot => Or.inr ?_⟩
              rw [starts_streams hsid] at hge hslot
              simp only at hge hslot
              rw [(hcoding.owns sid hsid).subgroup] at hslot
              by_cases hid : id < obj.object
              · have hmod : (id - first) % cfg.numSubgroups = 0 := by
                  apply Nat.sub_mod_eq_zero_of_mod_eq
                  rw [hslot, hfirstdef, aligned_mod]
                  have hsubgroup := hplaced.subgroup
                  rwa [Config.width, hd] at hsubgroup
                have hmem := mem_missing_of hge hid (Nat.dvd_of_mod_eq_zero hmod)
                rw [← hids, List.mem_map] at hmem
                obtain ⟨rec, hrec, heq⟩ := hmem
                exact ⟨rec, List.mem_append_left _ hrec, heq⟩
              · exact ⟨obj, List.mem_append_right _ (List.mem_singleton_self obj), by omega⟩
            · intro o ho
              obtain ho | ho := List.mem_append.mp ho
              · exact headRecords_payload hrecorded hrecords o ho
              · obtain rfl := List.mem_singleton.mp ho
                exact hpayload
            · intro _ o ho
              have hmem : o ∈ records ++ [obj] := List.mem_of_mem_head? ho
              obtain ho | ho := List.mem_append.mp hmem
              · have hmissing : o.object ∈ missing first obj.object cfg.numSubgroups :=
                  hids ▸ List.mem_map_of_mem ho
                obtain ⟨hge, hlt, -⟩ := mem_missing hmissing
                exact passes_of_first hfirst hpass (hstart.trans hge) (Nat.le_of_lt hlt)
              · obtain rfl := List.mem_singleton.mp ho
                exact hpass
          · have hends : k.stream = none ∨ (t.subs k.peer).closed = true ∨
                Uncodable k (firstId (records ++ [obj])) := by
              by_contra hcontra
              push Not at hcontra
              obtain ⟨hsome, hopen, hcodable⟩ := hcontra
              exact hlive ⟨Option.isSome_iff_ne_none.mpr hsome, by simpa using hopen, hcodable⟩
            cases records with
            | nil =>
                apply write_ends hstarts hstream
                rw [starts_subs]
                exact hends
            | cons rec rest =>
                apply write_ends hstarts hstream
                rw [starts_subs]
                exact hends
      | none =>
          simp only [hrecords] at hsteady ⊢
          by_cases hlive : k.stream.isSome = true ∧ (t.subs k.peer).closed = false ∧
              ¬ Uncodable k (some obj.object)
          · obtain ⟨hsome, hopen, hcodable⟩ := hlive
            obtain ⟨hnone, hpass⟩ := hsteady hsome hopen fun h => hcodable h.2
            apply write_codes (l := { k with short := true }) hstarts hcoding.headed ?_
              hplaced.nextId_le hstream
            · intro sid hsid
              exact ⟨hlast sid hsid hnone, fun hshort => by simp at hshort⟩
            · intro o ho
              obtain rfl := List.mem_singleton.mp ho
              exact hpayload
            · intro _ o ho
              obtain rfl : obj = o := Option.some.inj ho
              exact hpass
            · intro sid hsid
              have hold := howns sid hsid
              exact ⟨hold.peer, hold.trackAlias, hold.group, hold.subgroup⟩
          · apply write_ends hstarts (l := { k with short := true }) hstream
            rw [starts_subs]
            by_contra hcontra
            push Not at hcontra
            obtain ⟨hsome, hopen, hcodable⟩ := hcontra
            exact hlive ⟨Option.isSome_iff_ne_none.mpr hsome, by simpa using hopen, hcodable⟩

theorem opened_codes (hrecorded : t.Recorded cfg) (htask : t.TaskTracked cfg k)
    (hcoding : t.Coding cfg k) {obj : Generated} (hpc : k.pc = .opening obj) :
    (t.opened k obj).Codes cfg t k := by
  have hnone := (htask.opening obj hpc).1
  have hbegun : t.Wrote cfg k (t.openStream k) := by
    refine ⟨Nat.le_succ _, fun sid hsid _ => openStream_streams t k hsid, ?_, ?_⟩
    · exact fun sid hsid => absurd (hnone.symm.trans hsid) (by simp)
    · refine ⟨hrecorded.history, hrecorded.written, ?_⟩
      intro sid hsid
      have hlt : sid < t.nextStream + 1 := hsid
      obtain hlt | rfl := Nat.lt_succ_iff_lt_or_eq.mp hlt
      · rw [openStream_streams t k hlt]
        exact hrecorded.decodes sid hlt
      · rw [openStream_stream]
        exact Stream.decodes_of_items_eq_nil rfl
  unfold opened
  simp only
  split
  · apply hbegun.reset
    intro sid hsid
    obtain rfl : t.nextStream = sid := Option.some.inj hsid
    exact ⟨fun hlt => absurd hlt (Nat.lt_irrefl _), Nat.lt_succ_self _⟩
  · refine ⟨hbegun, ⟨?_, ?_, ?_, ?_⟩, by simp⟩
    · intro h hh
      obtain ⟨h', hh', rfl⟩ := Option.map_eq_some_iff.mp hh
      exact hcoding.headed h' hh'
    · intro o ho
      exact hcoding.payloads o (by rw [hpc]; exact ho)
    · intro sid hsid
      obtain rfl : t.nextStream = sid := Option.some.inj hsid
      rw [openStream_stream]
      exact ⟨rfl, rfl, rfl, rfl⟩
    · intro sid hsid
      obtain rfl : t.nextStream = sid := Option.some.inj hsid
      show ((t.openStream k).streams t.nextStream).items = []
      rw [openStream_stream]

/-! ## The transport takes what is written -/

theorem own_stream (htask : t.TaskTracked cfg k) :
    ∀ sid, k.stream = some sid →
      (sid < t.nextStream → k.stream = some sid) ∧ sid < t.nextStream :=
  fun sid hsid => ⟨fun _ => hsid, (htask.known sid hsid).1⟩

theorem refused_codes (hrecorded : t.Recorded cfg) (htask : t.TaskTracked cfg k)
    (hcoding : t.Coding cfg k) : (t.refused cfg k).Codes cfg t k := by
  have hsame := Wrote.refl (k := k) hrecorded
  unfold refused
  split
  · exact hsame.reset (own_stream htask)
  · have hnone := stop_stream t k
    have hwrote : t.Wrote cfg k (t.stop k).1 := by
      unfold stop
      split
      · exact hsame
      · exact hsame.frame rfl rfl rfl rfl
    have hheaded : ∀ h ∈ (t.stop k).2.header, h.group = (t.stop k).2.group := by
      unfold stop
      split <;> exact hcoding.headed
    apply next_codes hwrote hheaded
    · exact fun sid hsid => absurd (hnone.symm.trans hsid) (by simp)
    · exact fun sid hsid => absurd (hnone.symm.trans hsid) (by simp)

theorem handHeader_codes (hrecorded : t.Recorded cfg) (htask : t.TaskTracked cfg k)
    (hcoding : t.Coding cfg k) {sid : Nat} {obj : Generated} (hpc : k.pc = .header sid obj false) :
    (t.handHeader cfg k sid obj).Codes cfg t k := by
  unfold handHeader
  simp only
  split
  · exact refused_codes hrecorded htask hcoding
  next htaken =>
      push Not at htaken
      have hsid : k.stream = some sid :=
        (htask.writes sid (by rw [hpc]; rfl)).2.2 htaken.2 (by simpa using htaken.1)
      have hknown := (htask.known sid hsid).1
      refine ⟨?_, ⟨hcoding.headed, ?_, ?_, ?_⟩, by simp⟩
      · apply (Wrote.refl hrecorded).setStream (fun _ => hsid)
        · intro _
          refine ⟨fun hshut => absurd htaken.2 hshut, Or.inl rfl, fun hfin => ?_⟩
          exact Or.inl hfin
        · exact (hrecorded.decodes sid hknown).congr _ rfl rfl rfl rfl rfl (List.Subset.refl _)
      · intro o ho
        exact hcoding.payloads o (by rw [hpc]; exact ho)
      · intro other hother
        obtain rfl : sid = other := Option.some.inj (hsid.symm.trans hother)
        rw [setStream_self]
        have hold := hcoding.owns sid hsid
        exact ⟨hold.peer, hold.trackAlias, hold.group, hold.subgroup⟩
      · intro other hother
        obtain rfl : sid = other := Option.some.inj (hsid.symm.trans hother)
        rw [setStream_self]
        have hcodes := hcoding.codes sid hsid
        rw [Task.Codes, hpc] at hcodes
        exact hcodes

theorem handObject_codes (hrecorded : t.Recorded cfg) (htask : t.TaskTracked cfg k)
    (hplaced : k.Placed cfg []) (hcoding : t.Coding cfg k) (hd : cfg.datagram = false)
    {sid : Nat} {obj : Generated} {item : Item} {rest : List Generated}
    (hpc : k.pc = .sending sid obj item rest false) :
    (t.handObject cfg k sid obj item rest).Codes cfg t k := by
  unfold handObject
  simp only
  split
  · exact refused_codes hrecorded htask hcoding
  next htaken =>
      push Not at htaken
      have hsid : k.stream = some sid :=
        (htask.writes sid (by rw [hpc]; rfl)).2.2 htaken.2 (by simpa using htaken.1)
      have hknown := (htask.known sid hsid).1
      have howns := hcoding.owns sid hsid
      have hcodes := hcoding.codes sid hsid
      rw [Task.Codes, hpc] at hcodes
      obtain ⟨⟨hid, hpayload, hstatus, hlast⟩, hcovers⟩ := hcodes
      have hgenerated := hcoding.payloads obj (by simp [hpc, Pc.objects])
      have hslot := (hplaced.fits obj (by simp [hpc, Pc.objects])).1
      rw [show cfg.width = cfg.numSubgroups by simp [Config.width, hd]] at hslot
      set s' : Stream := { t.streams sid with items := (t.streams sid).items ++ [item] } with hs'
      set w : Written := ⟨k.peer, k.trackAlias, k.group, obj.object, obj.payload⟩ with hw
      have hsub : t.written ⊆ t.written ++ [w] := List.subset_append_left ..
      have hdecodes : s'.Decodes cfg (t.written ++ [w]) := by
        apply (hrecorded.decodes sid hknown).append item s' rfl rfl rfl rfl rfl hsub
        · intro _
          rw [hid, hpayload, howns.group, howns.subgroup, howns.peer, howns.trackAlias]
          exact ⟨hgenerated, hslot, List.mem_append_right _ (List.mem_singleton_self _)⟩
        · exact fun hne => absurd hstatus hne
      refine ⟨⟨Nat.le_refl _, ?_, ?_, ?_⟩, ⟨hcoding.headed, ?_, ?_, ?_⟩, by simp⟩
      · intro other hother hne
        have hdiffers : other ≠ sid := by
          rintro rfl
          exact hne hsid
        exact setStream_of_ne t s' hdiffers
      · intro other hother
        obtain rfl : sid = other := Option.some.inj (hsid.symm.trans hother)
        show t.Extends cfg k sid ((t.setStream sid s').streams sid)
        rw [setStream_self]
        refine ⟨fun hshut => absurd htaken.2 hshut, Or.inr ⟨item, rfl, Or.inr ⟨obj, rest, hpc⟩⟩, ?_⟩
        exact fun hfin => Or.inl hfin
      · refine ⟨hrecorded.history, ?_, ?_⟩
        · intro w' hw'
          obtain hold | hnew := List.mem_append.mp hw'
          · exact hrecorded.written w' hold
          · obtain rfl := List.mem_singleton.mp hnew
            exact hgenerated
        · intro other hother
          show ((t.setStream sid s').streams other).Decodes cfg (t.written ++ [w])
          by_cases heq : other = sid
          · subst heq
            rw [setStream_self]
            exact hdecodes
          · rw [setStream_of_ne _ _ heq]
            exact (hrecorded.decodes other hother).subset hsub
      · intro o ho
        exact hcoding.payloads o (by rw [hpc]; exact ho)
      · intro other hother
        obtain rfl : sid = other := Option.some.inj (hsid.symm.trans hother)
        show Task.Owns _ ((t.setStream sid s').streams sid)
        rw [setStream_self]
        exact ⟨howns.peer, howns.trackAlias, howns.group, howns.subgroup⟩
      · intro other hother
        obtain rfl : sid = other := Option.some.inj (hsid.symm.trans hother)
        show Task.Continues cfg _ ((t.setStream sid s').streams sid) (k.object + 1) rest
        rw [setStream_self]
        have hend : endId none s'.items = some ((t.streams sid).nextOf item) := endId_append ..
        refine ⟨?_, fun hshort id hfirst hlt hin => ?_⟩
        · rw [hend, hid]
          exact hlast.symm
        · rw [Stream.ids_append s' rfl, List.mem_append, List.mem_singleton, hid]
          obtain hmem | ⟨o, ho, heq⟩ := hcovers hshort id hfirst hlt hin
          · exact Or.inl (Or.inl hmem)
          · obtain rfl | ho := List.mem_cons.mp ho
            · exact Or.inl (Or.inr heq.symm)
            · exact Or.inr ⟨o, ho, heq⟩

theorem handDatagram_codes (hrecorded : t.Recorded cfg) (htask : t.TaskTracked cfg k)
    (hcoding : t.Coding cfg k) (hd : cfg.datagram = true) {obj : Generated}
    (hpc : k.pc = .datagram obj) : (t.handDatagram cfg k obj).Codes cfg t k := by
  have hnone := (htask.datagram hd).1
  have hgenerated := hcoding.payloads obj (by simp [hpc, Pc.objects])
  unfold handDatagram
  apply next_codes ?_ hcoding.headed
  · exact fun sid hsid => absurd (hnone.symm.trans hsid) (by simp)
  · exact fun sid hsid => absurd (hnone.symm.trans hsid) (by simp)
  · refine ⟨Nat.le_refl _, fun _ _ _ => rfl, ?_, hrecorded.history, ?_, ?_⟩
    · exact fun sid hsid => absurd (hnone.symm.trans hsid) (by simp)
    · intro w hw
      obtain hold | hnew := List.mem_append.mp hw
      · exact hrecorded.written w hold
      · obtain rfl := List.mem_singleton.mp hnew
        exact hgenerated
    · intro sid hsid
      exact (hrecorded.decodes sid hsid).subset (List.subset_append_left ..)

/-! ## Groups -/

theorem generate_codes (h : t.Wrote cfg k u) (hheaded : ∀ h ∈ l.header, h.group = l.group)
    (howns : ∀ sid, l.stream = some sid → l.Owns (u.streams sid))
    (hcontinues : ∀ sid, l.stream = some sid → l.Continues cfg (u.streams sid) l.nextId [])
    (hstream : ∀ sid, l.stream = some sid →
      (sid < t.nextStream → k.stream = some sid) ∧ sid < u.nextStream)
    (hmode : cfg.datagram = true → l.stream = none) (hnext : l.nextId ≤ l.object)
    (hslot : l.object % cfg.width = l.subgroup)
    (hsubs : l.stream.isSome → u.subs l.peer = t.subs l.peer) (stamp : Stamp)
    (hsteady : l.stream.isSome → (u.subs l.peer).closed = false →
      (u.subs l.peer).passes l.group l.object = true → l.short = false →
        l.last.map (· + cfg.numSubgroups) = some l.object) :
    (u.generate cfg l stamp).Codes cfg t k := by
  have hnoted : t.Wrote cfg k (u.noted cfg l stamp) := h.noted l stamp
  unfold generate
  simp only
  split
  next hd =>
      have hnone := hmode hd
      have hno : ∀ sid, l.stream ≠ some sid := fun sid hsid =>
        absurd (hnone.symm.trans hsid) (by simp)
      split
      · exact hnoted
      · split
        · refine ⟨hnoted, ⟨hheaded, ?_, fun sid hsid => absurd hsid (hno sid),
            fun sid hsid => absurd hsid (hno sid)⟩, by simp⟩
          intro obj hobj
          obtain rfl := List.mem_singleton.mp hobj
          rfl
        · exact next_codes hnoted hheaded howns hcontinues
  next hd =>
      have hwidth : cfg.width = cfg.numSubgroups := by simp [Config.width, hd]
      exact send_codes hnoted hheaded howns hcontinues hstream hnext rfl (hwidth ▸ hslot) rfl hsubs
        hsteady

/-- What a sender left out since the object it coded last lies behind the end of the window. -/
def Exhausts (cfg : Config) (t : Track) (k : Task) : Prop :=
  k.short = false → ∀ id, k.nextId ≤ id → id < cfg.groupSize →
    id % cfg.numSubgroups = k.subgroup → (t.subs k.peer).excludesEnd k.group id = true

/-- A stream ends with FIN, behind a marker or not. -/
theorem Wrote.fin (hrecorded : t.Recorded cfg) (hcoding : t.Coding cfg k) {sid : Nat}
    (hsid : k.stream = some sid) (hknown : sid < t.nextStream) (hshort : k.short = false)
    (hcontinues : k.Continues cfg (t.streams sid) k.nextId []) (hexhausts : t.Exhausts cfg k)
    {items : List Item} (hitems : items = [] ∨ ∃ item, items = [item] ∧
      item.status = .endOfGroup ∧ (t.streams sid).nextOf item = cfg.groupSize) :
    t.Wrote cfg k (t.closeStream sid items .fin) := by
  have howns := hcoding.owns sid hsid
  obtain ⟨-, hcovers⟩ := hcontinues
  unfold closeStream
  simp only
  split
  swap
  · exact Wrote.refl hrecorded
  next hopen =>
      set s' : Stream := { t.streams sid with
        items := (t.streams sid).items ++ items, state := .fin } with hs'
      have hids : ∀ id ∈ (t.streams sid).ids, id ∈ s'.ids := by
        intro id hid
        obtain rfl | ⟨item, rfl, -⟩ := hitems
        · rw [show s'.ids = (t.streams sid).ids by simp [hs', Stream.ids]]
          exact hid
        · rw [Stream.ids_append s' rfl]
          exact List.mem_append_left _ hid
      have hcomplete : s'.Complete cfg (t.subs k.peer) := by
        intro id hfirst hlt hslot
        by_cases hlow : id < k.nextId
        · obtain hmem | ⟨_, hnone, -⟩ := hcovers hshort id hfirst hlow hslot
          · exact Or.inl (hids id hmem)
          · simp at hnone
        · right
          have hslot' : id % cfg.numSubgroups = k.subgroup := hslot.trans howns.subgroup
          have hend := hexhausts hshort id (Nat.not_lt.mp hlow) hlt hslot'
          rwa [← howns.group] at hend
      have hold := hrecorded.decodes sid hknown
      apply (Wrote.refl hrecorded).setStream (fun _ => hsid)
      · intro _
        refine ⟨fun hshut => absurd hopen hshut, ?_, fun _ => Or.inr hcomplete⟩
        obtain rfl | ⟨item, rfl, hstatus, -⟩ := hitems
        · exact Or.inl (List.append_nil _)
        · exact Or.inr ⟨item, rfl, Or.inl (by simp [hstatus])⟩
      · obtain rfl | ⟨item, rfl, hstatus, hid⟩ := hitems
        · exact hold.congr s' (List.append_nil _) rfl rfl rfl rfl (List.Subset.refl _)
        · apply hold.append item s' rfl rfl rfl rfl rfl (List.Subset.refl _)
          · exact fun hnormal => absurd (hstatus.symm.trans hnormal) (by simp)
          · exact fun _ => ⟨hstatus, hid⟩

theorem endStream_codes {l : Task} (hrecorded : t.Recorded cfg) (htask : t.TaskTracked cfg k)
    (hcoding : t.Coding cfg k) (hpc : k.pc = .ready ∨ k.pc = .barrier)
    (hexhausts : k.stream.isSome → t.Exhausts cfg k) (hend : t.endStream cfg k = some (u, l)) :
    t.Wrote cfg k u := by
  unfold endStream at hend
  split at hend
  next sid h hsid hheader =>
      have hknown := (htask.known sid hsid).1
      have hcontinues : k.Continues cfg (t.streams sid) k.nextId [] := by
        have hcodes := hcoding.codes sid hsid
        obtain hpc | hpc := hpc <;> rwa [Task.Codes, hpc] at hcodes
      have hexhausts := hexhausts (by rw [hsid]; rfl)
      split at hend
      · obtain rfl : (t.reset k).1 = u := (Prod.mk.inj (Option.some.inj hend)).1
        exact (Wrote.refl hrecorded).reset (own_stream htask)
      next hshort =>
          have hshort : k.short = false := by simpa using hshort
          split at hend
          · simp only [Option.map_eq_some_iff, Prod.mk.injEq] at hend
            obtain ⟨⟨item, h'⟩, hcoded, rfl, -⟩ := hend
            unfold Header.nextObject at hcoded
            split at hcoded
            swap
            · simp at hcoded
            next hle =>
                obtain ⟨rfl, rfl⟩ := Prod.mk.inj (Option.some.inj hcoded)
                have hfin : t.Wrote cfg k (t.closeStream sid
                    [⟨cfg.groupSize - h.nextObjectId, [], none, .endOfGroup⟩] .fin) := by
                  apply Wrote.fin hrecorded hcoding hsid hknown hshort hcontinues hexhausts
                  refine Or.inr ⟨_, rfl, rfl, ?_⟩
                  have hnextId : h.nextObjectId =
                      (endId none (t.streams sid).items).elim 0 (· + 1) := by
                    rw [hcontinues.1, Task.last, hheader]
                    rfl
                  show (endId none (t.streams sid).items).elim 0 (· + 1) +
                    (cfg.groupSize - h.nextObjectId) = cfg.groupSize
                  omega
                exact hfin.frame rfl rfl rfl rfl
          · simp only [Option.some.injEq, Prod.mk.injEq] at hend
            obtain ⟨rfl, -⟩ := hend
            have hfin : t.Wrote cfg k (t.closeStream sid [] .fin) :=
              Wrote.fin hrecorded hcoding hsid hknown hshort hcontinues hexhausts (Or.inl rfl)
            exact hfin.frame rfl rfl rfl rfl
  · obtain rfl : t = u := (Prod.mk.inj (Option.some.inj hend)).1
    exact Wrote.refl hrecorded

theorem rollover_codes (hrecorded : t.Recorded cfg) (htask : t.TaskTracked cfg k)
    (hplaced : k.Placed cfg []) (hcoding : t.Coding cfg k) (hpc : k.pc = .ready ∨ k.pc = .barrier)
    {group : Nat} (hexhausts : k.stream.isSome → (t.subs k.peer).closed = false → t.Exhausts cfg k)
    (stamp : Stamp) : (t.rollover cfg k group stamp).Codes cfg t k := by
  unfold rollover
  simp only
  split
  · exact (Wrote.refl hrecorded).reset (own_stream htask)
  next hopen =>
      split
      · exact Wrote.refl hrecorded
      next u l hnew =>
          obtain ⟨-, hl⟩ : Relation.ReflTransGen (Move cfg none) (t, k) (u, l) ∧ _ :=
            newGroup_moves htask.header hpc hnew
          have hwrote : t.Wrote cfg k u := by
            simp only [newGroup, Option.map_eq_some_iff, Prod.mk.injEq, Prod.exists] at hnew
            obtain ⟨_, _, hend, rfl, -⟩ := hnew
            refine endStream_codes hrecorded htask hcoding hpc (fun hsome => hexhausts hsome ?_) hend
            by_contra hclosed
            refine hopen ⟨by simpa using hclosed, fun hd => ?_⟩
            rw [(htask.datagram hd).1] at hsome
            simp at hsome
          have hnone : l.stream = none := by rw [hl]
          split
          · refine hwrote.frame ?_ ?_ (rangeEnded_written ..) ?_
            all_goals
              unfold rangeEnded
              simp only
              split
              · split <;> rfl
              · rfl
          · have hno : ∀ sid, l.stream ≠ some sid := fun sid hsid =>
              absurd (hnone.symm.trans hsid) (by simp)
            apply generate_codes hwrote
            case hheaded =>
              intro h hh
              rw [hl] at hh
              obtain rfl := Option.some.inj hh
              rfl
            case howns => exact fun sid hsid => absurd hsid (hno sid)
            case hcontinues => exact fun sid hsid => absurd hsid (hno sid)
            case hstream => exact fun sid hsid => absurd hsid (hno sid)
            case hmode => exact fun _ => hnone
            case hnext =>
              rw [hl]
              exact Nat.zero_le _
            case hslot =>
              have hlt := hplaced.subgroup
              rw [hl]
              show (if cfg.datagram = true then 0 else k.subgroup) % cfg.width = k.subgroup
              split
              next hd =>
                  simp only [Config.width, hd, if_true] at hlt
                  rw [Nat.zero_mod]
                  omega
              · exact Nat.mod_eq_of_lt hlt
            case hsubs => simp [hnone]
            case hsteady => simp [hnone]

/-! ## Stretches -/

/-- How a task may go on with its open stream: it opened none in this group before, the window
still admits what is coded, and what it passed over lies behind the end of the window. -/
def SteadyTask (cfg : Config) (t : Track) (k : Task) : Prop :=
  match k.pc with
  | .header _ obj true => ¬ t.HeadUncodable cfg k obj →
      k.last = none ∧ (t.subs k.peer).passes k.group obj.object = true
  | .sending _ _ _ rest true =>
      ∀ obj ∈ rest.head?, (t.subs k.peer).passes k.group obj.object = true
  | .ready | .barrier =>
      match t.rollsTo cfg k with
      | some _ => t.Exhausts cfg k
      | none => k.object < cfg.groupSize → (t.subs k.peer).passes k.group k.object = true →
          k.short = false → k.last.map (· + cfg.numSubgroups) = some k.object
  | _ => True

/-- What a stretch of a task does to its stream. -/
theorem resume_codes (hrecorded : t.Recorded cfg) (htask : t.TaskTracked cfg k)
    (hplaced : k.Placed cfg []) (hcoding : t.Coding cfg k)
    (hsteady : k.stream.isSome → (t.subs k.peer).closed = false → t.SteadyTask cfg k)
    (stamp : Stamp) : (t.resume cfg k stamp).Codes cfg t k := by
  have hsame := Wrote.refl (k := k) hrecorded
  have hmode := hplaced.mode
  have hcoded := hplaced.coded
  unfold Task.Coded at hcoded
  unfold SteadyTask rollsTo at hsteady
  unfold resume
  cases hpc : k.pc with
  | ready =>
      have hready : ∀ sid, k.stream = some sid → k.Continues cfg (t.streams sid) k.nextId [] := by
        intro sid hsid
        have hcodes := hcoding.codes sid hsid
        rwa [Task.Codes, hpc] at hcodes
      simp only [hpc] at hcoded hsteady ⊢
      split
      next hnone =>
          simp only [hnone, Option.isNone_none, if_true] at hsteady
          exact rollover_codes hrecorded htask hplaced hcoding (.inl hpc) hsteady stamp
      next h hheader =>
          simp only [hheader, Option.isNone_some, Bool.false_eq_true, if_false] at hsteady
          split
          next hlt =>
              simp only [hlt, true_or, if_true] at hsteady
              exact generate_codes hsame hcoding.headed hcoding.owns hready (own_stream htask)
                (fun hd => (htask.datagram hd).1) hcoded hplaced.slot (fun _ => rfl) stamp
                fun hsome hopen => hsteady hsome hopen trivial
          next hge =>
              split
              · refine ⟨hsame, ⟨hcoding.headed, ?_, ?_, hready⟩, by simp⟩
                · simp [Pc.objects]
                · intro sid hsid
                  have hold := hcoding.owns sid hsid
                  exact ⟨hold.peer, hold.trackAlias, hold.group, hold.subgroup⟩
              next hsingle =>
                  rw [if_neg (by simp only [hge, hsingle, or_self, not_false_eq_true])] at hsteady
                  exact rollover_codes hrecorded htask hplaced hcoding (.inl hpc) hsteady stamp
  | barrier =>
      simp only [hpc] at hcoded hsteady ⊢
      split
      · exact hsame.reset (own_stream htask)
      next hbroken =>
          split
          next hreleased =>
              rw [if_pos ⟨hbroken, hreleased⟩] at hsteady
              exact rollover_codes hrecorded htask hplaced hcoding (.inr hpc) hsteady stamp
          · exact ⟨hsame, hcoding, by simp [hpc]⟩
  | opening obj => exact opened_codes hrecorded htask hcoding hpc
  | header sid obj handed =>
      have hd : cfg.datagram = false := by rwa [hpc] at hmode
      cases handed with
      | false => exact handHeader_codes hrecorded htask hcoding hpc
      | true =>
          simp only [hpc] at hsteady
          exact sendHead_codes hrecorded htask hplaced hcoding hd hpc hsteady
  | sending sid obj item rest handed =>
      have hd : cfg.datagram = false := by rwa [hpc] at hmode
      cases handed with
      | false => exact handObject_codes hrecorded htask hplaced hcoding hd hpc
      | true =>
          have hpayloads : ∀ o ∈ rest, o.payload = cfg.payload k.group o.object := fun o ho =>
            hcoding.payloads o (by rw [hpc]; exact List.mem_cons_of_mem _ ho)
          have hcontinues : ∀ sid, k.stream = some sid →
              k.Continues cfg (t.streams sid) (k.object + 1) rest := by
            intro sid hsid
            have hcodes := hcoding.codes sid hsid
            rwa [Task.Codes, hpc] at hcodes
          simp only [hpc] at hsteady
          by_cases hends : rest ≠ [] ∧ (t.subs k.peer).closed = true
          · obtain ⟨hne, hclosed⟩ := hends
            obtain ⟨o, rest, rfl⟩ := List.exists_cons_of_ne_nil hne
            exact write_ends hsame (own_stream htask) (Or.inr (Or.inl hclosed))
          · apply write_codes hsame hcoding.headed hcoding.owns hplaced.nextId_le (own_stream htask)
              hcontinues hpayloads
            intro hsome o ho
            refine hsteady hsome ?_ o ho
            by_contra hclosed
            refine hends ⟨?_, by simpa using hclosed⟩
            rintro rfl
            simp at ho
  | datagram obj =>
      have hd : cfg.datagram = true := by rwa [hpc] at hmode
      exact handDatagram_codes hrecorded htask hcoding hd hpc

end Track

end AioMoqt.Publisher
