import Mathlib.Logic.Relation
import AioMoqt.Publisher.Generator

/-!
# The stretches of a producer task

What a task of a generated track does between two awaits, as a sequence of moves: it
opens, writes to, closes or abandons its own stream, and it may end the subscription of
its peer.  Results about runs are proved move by move.
-/

namespace AioMoqt.Publisher

open Relation AioMoqt.Lib.BigEndian AioMoqt.Messages

/-! ## Moves -/

/-- The stream a task is writing to. -/
def Pc.stream : Pc → Option Nat
  | .header sid _ _ | .sending sid _ _ _ _ => some sid
  | _ => none

/-- The task is about to open a stream or to send a datagram. -/
def Pc.Begins : Pc → Prop
  | .opening _ | .datagram _ => True
  | _ => False

/-- Whose the task is. -/
structure Task.Same (k k' : Task) : Prop where
  run : k'.run = k.run
  peer : k'.peer = k.peer
  trackAlias : k'.trackAlias = k.trackAlias
  subgroup : k'.subgroup = k.subgroup
  cancelled : k'.cancelled = k.cancelled

theorem Task.Same.refl (k : Task) : k.Same k := ⟨rfl, rfl, rfl, rfl, rfl⟩

theorem Task.Same.trans {k l m : Task} (h : k.Same l) (h' : l.Same m) : k.Same m :=
  ⟨h'.run.trans h.run, h'.peer.trans h.peer, h'.trackAlias.trans h.trackAlias,
    h'.subgroup.trans h.subgroup, h'.cancelled.trans h.cancelled⟩

/-- What the task keeps in mind changes, its stream does not. -/
structure Task.Adjusts (cfg : Config) (t : Track) (k k' : Task) : Prop where
  same : k.Same k'
  stream : k'.stream = k.stream
  header : k'.stream.isSome → k'.header.isSome
  writes : ∀ sid, k'.pc.stream = some sid → k.pc.stream = some sid ∨ k.stream = some sid
  opening : ∀ obj, k'.pc = .opening obj →
    cfg.datagram = false ∧ k'.stream = none ∧ k'.header.isSome
  begins : k'.pc.Begins → ∃ group object, (t.subs k.peer).passes group object = true

namespace Track

/-- The group that the next stretch of a task rolls over to. -/
def rollsTo (cfg : Config) (t : Track) (k : Task) : Option Nat :=
  match k.pc with
  | .ready =>
      if k.header.isNone then some k.group
      else if k.object < cfg.groupSize ∨ cfg.numSubgroups > 1 ∧ ¬ cfg.datagram then none
      else some (k.group + 1)
  | .barrier =>
      if ¬ t.broken cfg k ∧ t.released cfg k then some (k.group + 1) else none
  | _ => none

/-- The track after an object is taken by a stream. -/
def handed (t : Track) (k : Task) (sid : Nat) (obj : Generated) (item : Item) : Track :=
  { t.setStream sid { t.streams sid with items := (t.streams sid).items ++ [item] } with
    written := t.written ++ [⟨k.peer, k.trackAlias, k.group, obj.object, obj.payload⟩] }

/-- The track after a datagram. -/
def sentDatagram (t : Track) (k : Task) (obj : Generated) : Track :=
  { t with
    written := t.written ++ [⟨k.peer, k.trackAlias, k.group, obj.object, obj.payload⟩] }

/-- One move of a task; `roll` is the group it rolls over to. -/
inductive Move (cfg : Config) (roll : Option Nat) : Track × Task → Track × Task → Prop
  | adjust {t : Track} {k k' : Task} (h : k.Adjusts cfg t k') : Move cfg roll (t, k) (t, k')
  | note {t : Track} {k : Task} (stamp : Stamp) : Move cfg roll (t, k) (t.noted cfg k stamp, k)
  | first {t : Track} {k : Task} (sid n : Nat) (held : k.stream = some sid) :
      Move cfg roll (t, k) (t.setStream sid { t.streams sid with first := n }, k)
  | reset {t : Track} {k : Task} : Move cfg roll (t, k) (t.reset k)
  | stop {t : Track} {k : Task} (sid : Nat) (writing : k.pc.stream = some sid)
      (shut : (t.streams sid).state ≠ .opened) (session : (t.subs k.peer).closed = false) :
      Move cfg roll (t, k) (t.stop k)
  | fin {t : Track} {k : Task} (sid : Nat) (items : List Item) (h : Option Header)
      (held : k.stream = some sid) :
      Move cfg roll (t, k)
        ((t.closeStream sid items .fin).streamClosed k.peer,
          { k with stream := none, header := h })
  | opens {t : Track} {k : Task} (obj : Generated) (waiting : k.pc = .opening obj) :
      Move cfg roll (t, k)
        (t.openStream k, { k with
          stream := some t.nextStream
          header := k.header.map fun h => { h with firstObject := obj.object = k.subgroup }
          pc := .header t.nextStream obj false })
  | header {t : Track} {k : Task} (sid : Nat) (obj : Generated)
      (writing : k.pc = .header sid obj false) (opened : (t.streams sid).state = .opened)
      (session : (t.subs k.peer).closed = false) :
      Move cfg roll (t, k)
        (t.setStream sid { t.streams sid with header := true },
          { k with pc := .header sid obj true })
  | object {t : Track} {k : Task} (sid : Nat) (obj : Generated) (item : Item)
      (rest : List Generated) (writing : k.pc = .sending sid obj item rest false)
      (opened : (t.streams sid).state = .opened)
      (session : (t.subs k.peer).closed = false) :
      Move cfg roll (t, k)
        (t.handed k sid obj item, { k with pc := .sending sid obj item rest true })
  | datagram {t : Track} {k : Task} (obj : Generated) (waiting : k.pc = .datagram obj) :
      Move cfg roll (t, k) (t.sentDatagram k obj, k)
  | rangeEnded {t : Track} {k : Task} (group : Nat) (rolls : roll = some group)
      (past : (t.subs k.peer).pastEnd group = true) (left : k.stream = none)
      (idle : ¬ k.pc.Begins) :
      Move cfg roll (t, k) (t.rangeEnded k.peer, k)

/-- A stretch ends at an await, with the task and its stream, or with an exception that
leaves the stream open, for which `why` is the reason. -/
inductive Stretch (cfg : Config) (roll : Option Nat) (why : Prop) (s : Track × Task) :
    Outcome → Prop
  | awaits {t : Track} {k : Task} (moves : ReflTransGen (Move cfg roll) s (t, k)) :
      Stretch cfg roll why s (.awaits t k)
  | ends {t : Track} {k : Task} (moves : ReflTransGen (Move cfg roll) s (t, k))
      (left : k.stream = none) : Stretch cfg roll why s (.ends t)
  | raises {t : Track} {k : Task} (moves : ReflTransGen (Move cfg roll) s (t, k))
      (because : why) : Stretch cfg roll why s (.ends t)

section Stretches

variable {cfg : Config} {roll : Option Nat} {why : Prop} {t u : Track} {k l : Task}
  {o : Outcome}

theorem Stretch.after (h : Stretch cfg roll why (u, l) o)
    (moves : ReflTransGen (Move cfg roll) (t, k) (u, l)) : Stretch cfg roll why (t, k) o := by
  cases h with
  | awaits more => exact .awaits (moves.trans more)
  | ends more left => exact .ends (moves.trans more) left
  | raises more because => exact .raises (moves.trans more) because

theorem Stretch.head (m : Move cfg roll (t, k) (u, l)) (h : Stretch cfg roll why (u, l) o) :
    Stretch cfg roll why (t, k) o := h.after (.single m)

theorem Stretch.because {why' : Prop} (h : Stretch cfg roll why (t, k) o) (himp : why → why') :
    Stretch cfg roll why' (t, k) o := by
  cases h with
  | awaits moves => exact .awaits moves
  | ends moves left => exact .ends moves left
  | raises moves because => exact .raises moves (himp because)

/-! ## What each part of a stretch does -/

theorem reset_stream (t : Track) (k : Task) : (t.reset k).2.stream = none := by
  unfold reset
  split
  · assumption
  · rfl

/-- A task abandons its stream and ends. -/
theorem reset_stretch : Stretch cfg roll why (t, k) (.ends (t.reset k).1) :=
  .ends (.single .reset) (reset_stream t k)

/-- A task that goes on with the next object. -/
theorem Task.adjusts_next {n : Nat} (hh : k.stream.isSome → k.header.isSome) :
    k.Adjusts cfg t { k with object := k.object + n, pc := .ready } where
  same := ⟨rfl, rfl, rfl, rfl, rfl⟩
  stream := rfl
  header := hh
  writes _ h := by simp [Pc.stream] at h
  opening _ h := by simp at h
  begins h := h.elim

theorem next_stretch (hh : k.stream.isSome → k.header.isSome) :
    Stretch cfg roll why (t, k) (t.next cfg k) :=
  .awaits (.single (.adjust (Task.adjusts_next hh)))

/-- The object cannot be coded on the stream that is open. -/
def Uncodable (k : Task) (object : Option Nat) : Prop :=
  k.stream.isSome ∧ ∃ h ∈ k.header, ∃ id ∈ object, id < h.nextObjectId

/-- The id of the first object to write. -/
def firstId (objs : List Generated) : Option Nat := objs.head?.map Generated.object

theorem write_stretch (hh : k.stream.isSome → k.header.isSome) (objs : List Generated) :
    Stretch cfg roll (Uncodable k (firstId objs)) (t, k) (t.write cfg k objs) := by
  cases objs with
  | nil => exact next_stretch hh
  | cons obj rest =>
      rw [write]
      split
      next sid item h hstream hcoded =>
          split
          · exact reset_stretch
          · refine .awaits (.single (.adjust ⟨⟨rfl, rfl, rfl, rfl, rfl⟩, rfl, ?_, ?_, ?_, ?_⟩))
            · intro _
              rfl
            · intro sid' hsid
              exact Or.inr (hstream.trans hsid)
            · intro _ h
              simp at h
            · intro h
              exact h.elim
      next hnone =>
          cases hstream : k.stream with
          | none => exact .ends .refl hstream
          | some sid =>
              have hsome : k.stream.isSome := by rw [hstream]; rfl
              obtain ⟨h, hheader⟩ := Option.isSome_iff_exists.mp (hh hsome)
              refine .raises .refl ⟨hsome, h, hheader, obj.object, rfl, ?_⟩
              by_contra hle
              have hcoded : h.nextObject obj.object obj.payload obj.extensions .normal =
                  some (⟨obj.object - h.nextObjectId, obj.payload, obj.extensions, .normal⟩,
                    { h with last := some obj.object }) := if_pos (Nat.not_lt.mp hle)
              exact hnone sid _ _ hstream (by rw [hheader, Option.bind_some, hcoded])

theorem send_stretch (hd : cfg.datagram = false) (hh : k.header.isSome) (obj : Generated) :
    Stretch cfg roll (Uncodable k (some obj.object)) (t, k) (t.send cfg k obj) := by
  unfold send
  split
  · exact next_stretch fun _ => hh
  next hpass =>
      split
      · exact write_stretch (fun _ => hh) [obj]
      next hnone =>
          refine .awaits (.single (.adjust ⟨⟨rfl, rfl, rfl, rfl, rfl⟩, rfl, ?_, ?_, ?_, ?_⟩))
          · intro _
            exact hh
          · intro sid hsid
            simp [Pc.stream] at hsid
          · intro _ _
            exact ⟨hd, Option.not_isSome_iff_eq_none.mp hnone, hh⟩
          · intro _
            push Not at hpass
            exact ⟨_, _, hpass.2⟩

/-- The head of a stream cannot be coded, or the window that says where it starts is
gone. -/
def HeadUncodable (cfg : Config) (t : Track) (k : Task) (obj : Generated) : Prop :=
  k.stream.isSome ∧
    match (t.subs k.peer).firstObject k.group with
    | none => True
    | some start =>
        match t.headRecords cfg k
            (missing (aligned cfg k.subgroup start) obj.object cfg.numSubgroups) with
        | some records => Uncodable k (firstId (records ++ [obj]))
        | none => Uncodable k (some obj.object)

theorem starts_moves (t : Track) (k : Task) (first : Nat) :
    ReflTransGen (Move cfg roll) (t, k) (t.starts k first, k) := by
  unfold starts
  split
  · exact .refl
  next sid held => exact .single (.first sid first held)

theorem starts_headRecords (t : Track) (k l : Task) (first : Nat) (ids : List Nat) :
    (t.starts k first).headRecords cfg l ids = t.headRecords cfg l ids := by
  unfold starts
  split <;> rfl

theorem sendHead_stretch {sid : Nat} {obj : Generated} (hpc : k.pc = .header sid obj true)
    (hh : k.stream.isSome → k.header.isSome) :
    Stretch cfg roll (t.HeadUncodable cfg k obj) (t, k) (t.sendHead cfg k obj) := by
  unfold sendHead HeadUncodable
  cases hfirst : (t.subs k.peer).firstObject k.group with
  | none =>
      by_cases hstream : k.stream.isSome = true
      · exact .raises .refl ⟨hstream, trivial⟩
      · exact .ends .refl (Option.not_isSome_iff_eq_none.mp hstream)
  | some start =>
      refine .after ?_ (starts_moves t k (aligned cfg k.subgroup start))
      simp only [starts_headRecords]
      cases hrecords : t.headRecords cfg k
          (missing (aligned cfg k.subgroup start) obj.object cfg.numSubgroups) with
      | some records => exact (write_stretch hh _).because fun why => ⟨why.1, why⟩
      | none =>
          have hshort : k.Adjusts cfg (t.starts k (aligned cfg k.subgroup start))
              { k with short := true } :=
            { same := ⟨rfl, rfl, rfl, rfl, rfl⟩
              stream := rfl
              header := hh
              writes := fun _ h => Or.inl h
              opening := fun _ h => by simp [hpc] at h
              begins := fun h => by simp [hpc, Pc.Begins] at h }
          refine .head (.adjust hshort)
            ((write_stretch (k := { k with short := true }) hh [obj]).because ?_)
          exact fun why => ⟨why.1, why⟩

theorem opened_stretch {obj : Generated} (hpc : k.pc = .opening obj) :
    Stretch cfg roll why (t, k) (t.opened k obj) := by
  unfold opened
  refine .head (.opens obj hpc) ?_
  simp only
  split
  · exact reset_stretch
  · exact .awaits .refl

theorem stop_stream (t : Track) (k : Task) : (t.stop k).2.stream = none := by
  unfold stop
  split
  · assumption
  · rfl

/-- A write is refused: the session is gone, or the stream is. -/
theorem refused_stretch {sid : Nat} (hpc : k.pc.stream = some sid)
    (hrefused : (t.subs k.peer).closed ∨ (t.streams sid).state ≠ .opened) :
    Stretch cfg roll why (t, k) (t.refused cfg k) := by
  unfold refused
  split
  · exact reset_stretch
  next hopen =>
      have hshut := hrefused.resolve_left hopen
      have hstop : Move cfg roll (t, k) ((t.stop k).1, (t.stop k).2) :=
        .stop sid hpc hshut (by simpa using hopen)
      refine .head hstop (next_stretch ?_)
      rw [stop_stream]
      exact fun h => absurd h (by simp)

theorem handHeader_stretch {sid : Nat} {obj : Generated} (hpc : k.pc = .header sid obj false) :
    Stretch cfg roll why (t, k) (t.handHeader cfg k sid obj) := by
  unfold handHeader
  simp only
  split
  next hrefused => exact refused_stretch (by rw [hpc]; rfl) hrefused
  next htaken =>
      push Not at htaken
      exact .awaits (.single (.header sid obj hpc htaken.2 (by simpa using htaken.1)))

theorem handObject_stretch {sid : Nat} {obj : Generated} {item : Item} {rest : List Generated}
    (hpc : k.pc = .sending sid obj item rest false) :
    Stretch cfg roll why (t, k) (t.handObject cfg k sid obj item rest) := by
  unfold handObject
  simp only
  split
  next hrefused => exact refused_stretch (by rw [hpc]; rfl) hrefused
  next htaken =>
      push Not at htaken
      exact .awaits (.single (.object sid obj item rest hpc htaken.2 (by simpa using htaken.1)))

theorem handDatagram_stretch {obj : Generated} (hpc : k.pc = .datagram obj)
    (hh : k.stream.isSome → k.header.isSome) :
    Stretch cfg roll why (t, k) (t.handDatagram cfg k obj) :=
  .head (.datagram obj hpc) (next_stretch hh)

theorem generate_stretch (hd : cfg.datagram = true → k.stream = none) (hh : k.header.isSome)
    (stamp : Stamp) :
    Stretch cfg roll (Uncodable k (some k.object)) (t, k) (t.generate cfg k stamp) := by
  unfold generate
  simp only
  refine .head (.note stamp) ?_
  split
  next hdatagram =>
      split
      · exact .ends .refl (hd hdatagram)
      · split
        next hpass =>
            refine .awaits (.single (.adjust ?_))
            exact {
              same := ⟨rfl, rfl, rfl, rfl, rfl⟩
              stream := rfl
              header := fun _ => hh
              writes := fun _ h => by simp [Pc.stream] at h
              opening := fun _ h => by simp at h
              begins := fun _ => ⟨_, _, hpass⟩ }
        · exact next_stretch fun _ => hh
  next hdatagram => exact send_stretch (by simpa using hdatagram) hh (generated cfg k stamp)

/-- The stream of a group is closed, if one is open. -/
theorem endStream_moves {u : Track} {l : Task} (hh : k.stream.isSome → k.header.isSome)
    (hend : t.endStream cfg k = some (u, l)) :
    ReflTransGen (Move cfg roll) (t, k) (u, l) ∧
      l = { k with stream := none, header := l.header } := by
  unfold endStream at hend
  split at hend
  next sid h hstream hheader =>
      split at hend
      · have hreset : t.reset k = (u, l) := Option.some.inj hend
        refine ⟨hreset ▸ .single .reset, ?_⟩
        rw [reset, hstream] at hreset
        rw [← (Prod.mk.inj hreset).2]
      · split at hend
        · simp only [Option.map_eq_some_iff, Prod.mk.injEq] at hend
          obtain ⟨coded, -, rfl, rfl⟩ := hend
          exact ⟨.single (.fin sid _ _ hstream), rfl⟩
        · simp only [Option.some.injEq, Prod.mk.injEq] at hend
          obtain ⟨rfl, rfl⟩ := hend
          exact ⟨.single (.fin sid [] k.header hstream), rfl⟩
  next hnone =>
      obtain ⟨rfl, rfl⟩ := Prod.mk.inj (Option.some.inj hend)
      have hstream : k.stream = none := by
        by_contra hsome
        obtain ⟨sid, hsid⟩ := Option.ne_none_iff_exists'.mp hsome
        obtain ⟨h, hheader⟩ := Option.isSome_iff_exists.mp (hh (by rw [hsid]; rfl))
        exact hnone sid h hsid hheader
      refine ⟨.refl, ?_⟩
      rw [← hstream]

/-- A new group begins, with no stream open. -/
theorem newGroup_moves {u : Track} {l : Task} {group : Nat}
    (hh : k.stream.isSome → k.header.isSome) (hpc : k.pc = .ready ∨ k.pc = .barrier)
    (hnew : t.newGroup cfg k group = some (u, l)) :
    ReflTransGen (Move cfg roll) (t, k) (u, l) ∧
      l = { k with stream := none, stopped := false, short := false, header := some { group } } := by
  simp only [newGroup, Option.map_eq_some_iff, Prod.mk.injEq, Prod.exists] at hnew
  obtain ⟨_, m, hend, rfl, rfl⟩ := hnew
  obtain ⟨hmoves, hm⟩ : ReflTransGen (Move cfg roll) (t, k) (_, m) ∧ _ := endStream_moves hh hend
  refine ⟨hmoves.tail (.adjust ?_), ?_⟩
  · have hpc' : m.pc = .ready ∨ m.pc = .barrier := by
      rw [hm]
      exact hpc
    exact {
      same := ⟨rfl, rfl, rfl, rfl, rfl⟩
      stream := rfl
      header := fun _ => rfl
      writes := fun _ h => Or.inl h
      opening := fun obj h => by obtain hpc | hpc := hpc' <;> simp [hpc] at h
      begins := fun h => by obtain hpc | hpc := hpc' <;> simp [hpc, Pc.Begins] at h }
  · rw [hm]

/-- Why no new group begins: the marker of the old one cannot be coded. -/
theorem newGroup_eq_none {group : Nat} (hnone : t.newGroup cfg k group = none) :
    k.subgroup = 0 ∧ Uncodable k (some cfg.groupSize) := by
  simp only [newGroup, Option.map_eq_none_iff] at hnone
  unfold endStream at hnone
  split at hnone
  next sid h hstream hheader =>
      split at hnone
      · simp at hnone
      · split at hnone
        next hmark =>
            refine ⟨hmark.1, by rw [hstream]; rfl, h, hheader, cfg.groupSize, rfl, ?_⟩
            by_contra hle
            simp [Header.nextObject, Nat.not_lt.mp hle] at hnone
        · simp at hnone
  · simp at hnone

theorem rollover_stretch (hh : k.stream.isSome → k.header.isSome)
    (hpc : k.pc = .ready ∨ k.pc = .barrier) (group : Nat) (stamp : Stamp) :
    Stretch cfg (some group) (k.subgroup = 0 ∧ Uncodable k (some cfg.groupSize)) (t, k)
      (t.rollover cfg k group stamp) := by
  unfold rollover
  simp only
  split
  · exact reset_stretch
  · split
    next hnone => exact .raises .refl (newGroup_eq_none hnone)
    next u l hnew =>
        obtain ⟨hmoves, hl⟩ : ReflTransGen (Move cfg (some group)) (t, k) (u, l) ∧ _ :=
          newGroup_moves hh hpc hnew
        have hstream : l.stream = none := by rw [hl]
        have hpc' : l.pc = .ready ∨ l.pc = .barrier := by
          rw [hl]
          exact hpc
        split
        next hpast =>
            refine .ends (hmoves.tail (.rangeEnded group rfl hpast hstream ?_)) hstream
            obtain hpc | hpc := hpc' <;> simp [hpc, Pc.Begins]
        next hpast =>
            have hbegin : Move cfg (some group) (u, l) (u, { l with
                group := group, object := if cfg.datagram then 0 else k.subgroup }) :=
              .adjust {
                same := ⟨rfl, rfl, rfl, rfl, rfl⟩
                stream := rfl
                header := fun _ => by rw [hl]; rfl
                writes := fun _ h => Or.inl h
                opening := fun obj h => by obtain hpc | hpc := hpc' <;> simp [hpc] at h
                begins := fun h => by obtain hpc | hpc := hpc' <;> simp [hpc, Pc.Begins] at h }
            refine .after (Stretch.because (generate_stretch ?_ ?_ stamp) ?_) (hmoves.tail hbegin)
            · exact fun _ => hstream
            · rw [hl]
              rfl
            · intro why
              have hopen := why.1
              rw [show ({ l with group := group, object := _ } : Task).stream = l.stream from rfl,
                hstream] at hopen
              simp at hopen

/-- Why a stretch of a task raises with its stream open. -/
def Raises (cfg : Config) (t : Track) (k : Task) : Prop :=
  match k.pc with
  | .ready | .barrier =>
      Uncodable k (some k.object) ∨ k.subgroup = 0 ∧ Uncodable k (some cfg.groupSize)
  | .header _ obj true => t.HeadUncodable cfg k obj
  | .sending _ _ _ rest true => Uncodable k (firstId rest)
  | _ => False

/-- Every stretch of a task is a sequence of its moves. -/
theorem resume_stretch (hd : cfg.datagram = true → k.stream = none)
    (hh : k.stream.isSome → k.header.isSome) (stamp : Stamp) :
    Stretch cfg (t.rollsTo cfg k) (t.Raises cfg k) (t, k) (t.resume cfg k stamp) := by
  unfold resume Raises rollsTo
  cases hpc : k.pc with
  | ready =>
      simp only
      cases hheader : k.header with
      | none =>
          simp only [Option.isNone_none, if_true]
          exact (rollover_stretch hh (.inl hpc) _ stamp).because .inr
      | some h =>
          simp only [Option.isNone_some, Bool.false_eq_true, if_false]
          by_cases hobject : k.object < cfg.groupSize
          · simp only [hobject, if_true, true_or]
            exact (generate_stretch hd (by rw [hheader]; rfl) stamp).because .inl
          · by_cases hmany : cfg.numSubgroups > 1 ∧ ¬ cfg.datagram
            · rw [if_neg hobject, if_pos hmany, if_pos (Or.inr hmany)]
              refine .awaits (.single (.adjust ?_))
              exact {
                same := ⟨rfl, rfl, rfl, rfl, rfl⟩
                stream := rfl
                header := fun _ => rfl
                writes := fun _ h => by simp [Pc.stream] at h
                opening := fun _ h => by simp at h
                begins := fun h => h.elim }
            · simp only [hobject, hmany, if_false, or_self]
              exact (rollover_stretch hh (.inl hpc) _ stamp).because .inr
  | barrier =>
      simp only
      by_cases hbroken : t.broken cfg k = true
      · rw [if_pos hbroken]
        exact reset_stretch
      · by_cases hreleased : t.released cfg k = true
        · rw [if_neg hbroken, if_pos hreleased, if_pos ⟨hbroken, hreleased⟩]
          exact (rollover_stretch hh (.inr hpc) _ stamp).because .inr
        · rw [if_neg hbroken, if_neg hreleased]
          exact .awaits .refl
  | opening obj => exact opened_stretch hpc
  | header sid obj handed =>
      cases handed with
      | false => exact handHeader_stretch hpc
      | true => exact sendHead_stretch hpc hh
  | sending sid obj item rest handed =>
      cases handed with
      | false => exact handObject_stretch hpc
      | true => exact write_stretch hh rest
  | datagram obj => exact handDatagram_stretch hpc hh

end Stretches

end Track

end AioMoqt.Publisher
