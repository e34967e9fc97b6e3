import AioMoqt.Agent.Writer
import Mathlib.Tactic.Linarith

/-!
# How an agent's objects are numbered

Where no write continues a group that was not opened, nor a number that is taken, the objects
handed on ascend and open their groups.
-/

namespace AioMoqt.Agent

open AioMoqt.Lib.BigEndian

/-! ## The line of objects -/

/-- The order of Locations. -/
def Item.Before (i j : Item) : Prop :=
  i.groupId < j.groupId ∨ i.groupId = j.groupId ∧ i.objectId < j.objectId

/-- The object that opens a group is in the line. -/
def Opened (line : List Item) (groupId : Int) : Prop :=
  ∃ i ∈ line, i.groupId = groupId ∧ i.groupStart = true

/-- The objects handed on and queued, and the counters of their writer. -/
structure Numbered (line : List Item) (group : Int) (object : Nat) (forceNew : Bool) : Prop where
  sorted : line.Pairwise Item.Before
  starts : ∀ i ∈ line, i.groupStart = true ↔ i.objectId = 0
  opened : ∀ i ∈ line, Opened line i.groupId
  bound : ∀ i ∈ line, i.groupId < group ∨ i.groupId = group ∧ i.objectId ≤ object
  current : 0 < object → forceNew = false → Opened line group

section Line

variable {line : List Item} {group : Int} {object : Nat} {forceNew : Bool}

theorem Opened.append {groupId : Int} (h : Opened line groupId) (after : List Item) :
    Opened (line ++ after) groupId := by
  obtain ⟨i, hi, hgroup⟩ := h
  exact ⟨i, List.mem_append_left after hi, hgroup⟩

namespace Numbered

/-- A new group is above the line. -/
theorem advance (h : Numbered line group object forceNew) : Numbered line (group + 1) 0 false where
  __ := h
  bound i hi := by
    have := h.bound i hi
    omega
  current hpos := absurd hpos (lt_irrefl 0)

theorem below (h : Numbered line group object forceNew) : ∀ i ∈ line, i.groupId < group + 1 := by
  intro i hi
  have := h.bound i hi
  omega

theorem force (h : Numbered line group object forceNew) : Numbered line group object true where
  __ := h
  current _ hforce := absurd hforce (by decide)

/-- The number of an object that was put in the line is spent. -/
theorem spend (h : Numbered line group object forceNew) (hopened : Opened line group) :
    Numbered line group (object + 1) forceNew where
  __ := h
  bound i hi := by
    have := h.bound i hi
    omega
  current _ _ := hopened

/-- An object of the current number joins the line behind all of it. -/
theorem append (h : Numbered line group object forceNew) {item : Item}
    (hgroup : item.groupId = group) (hobject : item.objectId = object)
    (hbehind : ∀ i ∈ line, i.Before item) (hstart : item.groupStart = true ↔ item.objectId = 0)
    (hopened : Opened (line ++ [item]) group) :
    Numbered (line ++ [item]) group object forceNew := by
  have hmem : ∀ {P : Item → Prop}, (∀ i ∈ line, P i) → P item → ∀ i ∈ line ++ [item], P i :=
    fun hline hitem i hi => (List.mem_append.mp hi).elim (hline i)
      fun hi => List.mem_singleton.mp hi ▸ hitem
  refine ⟨?_, hmem h.starts hstart, hmem (fun i hi => (h.opened i hi).append _) (hgroup ▸ hopened),
    hmem h.bound (.inr ⟨hgroup, hobject.le⟩), fun _ _ => hopened⟩
  rw [List.pairwise_append]
  refine ⟨h.sorted, List.pairwise_singleton _ _, fun i hi j hj => ?_⟩
  rw [List.mem_singleton.mp hj]
  exact hbehind i hi

/-- Objects leave the line, and every group left keeps the object that opens it. -/
theorem sublist (h : Numbered line group object forceNew) {kept : List Item}
    (hkept : kept.Sublist line) (hopened : ∀ i ∈ kept, Opened kept i.groupId) {force : Bool}
    (hcurrent : 0 < object → force = false → Opened kept group) :
    Numbered kept group object force where
  sorted := h.sorted.sublist hkept
  starts i hi := h.starts i (hkept.subset hi)
  opened := hopened
  bound i hi := h.bound i (hkept.subset hi)
  current := hcurrent

/-- A whole group leaves it. -/
theorem forget (h : Numbered line group object forceNew) (groupId : Int) :
    Numbered (line.filter fun i => i.groupId ≠ groupId) group object
      (forceNew || decide (group = groupId)) := by
  have hkeeps : ∀ g, g ≠ groupId → Opened line g →
      Opened (line.filter fun i => i.groupId ≠ groupId) g := by
    rintro g hne ⟨j, hj, rfl, hstart⟩
    exact ⟨j, List.mem_filter.mpr ⟨hj, decide_eq_true hne⟩, rfl, hstart⟩
  refine h.sublist List.filter_sublist (fun i hi => ?_) fun hpos hforce => ?_
  · obtain ⟨hline, hne⟩ := List.mem_filter.mp hi
    exact hkeeps _ (of_decide_eq_true hne) (h.opened i hline)
  · obtain ⟨hfalse, hne⟩ := Bool.or_eq_false_iff.mp hforce
    exact hkeeps _ (of_decide_eq_false hne) (h.current hpos hfalse)

/-- An object that opens no group leaves it. -/
theorem remove {before after : List Item} {item : Item}
    (h : Numbered (before ++ item :: after) group object forceNew)
    (hstart : item.groupStart = false) : Numbered (before ++ after) group object forceNew := by
  have hkeeps : ∀ g, Opened (before ++ item :: after) g → Opened (before ++ after) g := by
    rintro g ⟨j, hj, hgroup, hopens⟩
    refine ⟨j, ?_, hgroup, hopens⟩
    rcases List.mem_append.mp hj with hbefore | hafter
    · exact List.mem_append_left _ hbefore
    · rcases List.mem_cons.mp hafter with rfl | hafter
      · rw [hstart] at hopens
        cases hopens
      · exact List.mem_append_right _ hafter
  have hsub : (before ++ after).Sublist (before ++ item :: after) :=
    (List.sublist_cons_self item after).append_left before
  exact h.sublist hsub (fun i hi => hkeeps _ (h.opened i (hsub.subset hi)))
    fun hpos hforce => hkeeps _ (h.current hpos hforce)

/-- Nothing of a group stands before the object that opens it. -/
theorem opener_first {before after : List Item} {item : Item}
    (h : Numbered (before ++ item :: after) group object forceNew)
    (hstart : item.groupStart = true) : ∀ i ∈ before, i.groupId ≠ item.groupId := by
  intro i hi heq
  have hzero := (h.starts item (List.mem_append_right _ List.mem_cons_self)).mp hstart
  rcases (List.pairwise_append.mp h.sorted).2.2 i hi item List.mem_cons_self with hlt | ⟨-, hlt⟩
  · omega
  · omega

/-- **The first object of a group opens it, and no other does.** -/
theorem start_iff {before after : List Item} {item : Item}
    (h : Numbered (before ++ item :: after) group object forceNew) :
    item.groupStart = true ↔ ∀ i ∈ before, i.groupId ≠ item.groupId := by
  refine ⟨h.opener_first, fun hfirst => ?_⟩
  obtain ⟨j, hj, hgroup, hstart⟩ :=
    h.opened item (List.mem_append_right _ List.mem_cons_self)
  rcases List.mem_append.mp hj with hbefore | hafter
  · exact absurd hgroup (hfirst j hbefore)
  · rcases List.mem_cons.mp hafter with rfl | hafter
    · exact hstart
    · -- the opener would stand behind an object of its group, and its number is 0
      have hzero := (h.starts j hj).mp hstart
      have hsorted := (List.pairwise_cons.mp (List.pairwise_append.mp h.sorted).2.1).1 j hafter
      rcases hsorted with hlt | ⟨-, hlt⟩ <;> omega

end Numbered

end Line

/-! ## The queue -/

@[simp] theorem items_append_some (queue : List (Option Item)) (item : Item) :
    items (queue ++ [some item]) = items queue ++ [item] := by
  unfold items
  rw [List.reduceOption_append, List.reduceOption_singleton]
  rfl

@[simp] theorem items_append_none (queue : List (Option Item)) :
    items (queue ++ [none]) = items queue := by
  unfold items
  rw [List.reduceOption_append, List.reduceOption_singleton]
  exact List.append_nil _

@[simp] theorem items_cons_some (item : Item) (queue : List (Option Item)) :
    items (some item :: queue) = item :: items queue := List.reduceOption_cons_of_some item queue

@[simp] theorem items_cons_none (queue : List (Option Item)) :
    items (none :: queue) = items queue := List.reduceOption_cons_of_none queue

/-- The objects that `_abandon` leaves. -/
theorem items_filter (groupId : Int) (queue : List (Option Item)) :
    items (queue.filter (!Writer.ofGroup groupId ·)) =
      (items queue).filter fun i => i.groupId ≠ groupId := by
  induction queue with
  | nil => rfl
  | cons queued queue ih =>
      cases queued with
      | none =>
          rw [List.filter_cons_of_pos (by rfl), items_cons_none, items_cons_none, ih]
      | some item =>
          by_cases hgroup : item.groupId = groupId
          · rw [List.filter_cons_of_neg (by simp [Writer.ofGroup, hgroup]), items_cons_some,
              List.filter_cons_of_neg (by simp [hgroup]), ih]
          · rw [List.filter_cons_of_pos (by simp [Writer.ofGroup, hgroup]), items_cons_some,
              items_cons_some, List.filter_cons_of_pos (by simp [hgroup]), ih]

namespace Writer

/-- The objects handed on and those in the queue are numbered. -/
def Sound (handed : List Item) (w : Writer) : Prop :=
  Numbered (handed ++ items w.queue) w.group w.object w.forceNew

/-- An object of the current number, above all that stands in the line. -/
structure Next (handed : List Item) (w : Writer) (item : Item) : Prop where
  group : item.groupId = w.group
  object : item.objectId = w.object
  behind : ∀ i ∈ handed ++ items w.queue, i.Before item
  start : item.groupStart = true ↔ item.objectId = 0
  unforced : w.forceNew = false

variable {spec : PublishSpec} {handed : List Item} {w : Writer}

/-- The group of the next object is opened by it, or was before. -/
theorem Next.opened {item : Item} (h : Next handed w item) (hsound : Sound handed w) :
    Opened (handed ++ items w.queue ++ [item]) w.group := by
  cases hstart : item.groupStart with
  | true => exact ⟨item, List.mem_append_right _ List.mem_cons_self, h.group, hstart⟩
  | false =>
      have hpos : 0 < w.object := by
        refine Nat.pos_of_ne_zero fun hzero => ?_
        have hopens := h.start.mpr (h.object.trans hzero)
        rw [hstart] at hopens
        cases hopens
      exact (hsound.current hpos h.unforced).append _

/-- The group of the newest object is open in the queue. -/
def GroupOpened (handed : List Item) (w : Writer) : Prop :=
  Opened (handed ++ items w.queue) w.group

/-- What admitting an object of a call leaves. -/
structure Admitted (handed : List Item) (w : Writer) (out : Writer × Except WriteError Bool) :
    Prop where
  sound : Sound handed out.1
  opened : out.2 = .ok true → GroupOpened handed out.1
  putter : out.1.putter = w.putter

theorem putNowait_admitted (hsound : Sound handed w) {item : Item} (h : Next handed w item) :
    Admitted handed w (putNowait spec w (some item)) := by
  unfold putNowait
  split
  · exact ⟨hsound, fun h => (by cases h), rfl⟩
  · have happend := hsound.append h.group h.object h.behind h.start (h.opened hsound)
    have hline : handed ++ items (w.queue ++ [some item]) = handed ++ items w.queue ++ [item] := by
      rw [items_append_some, List.append_assoc]
    refine ⟨?_, fun _ => ?_, rfl⟩
    · show Numbered (handed ++ items (w.queue ++ [some item])) w.group w.object w.forceNew
      rw [hline]
      exact happend
    · show Opened (handed ++ items (w.queue ++ [some item])) w.group
      rw [hline]
      exact h.opened hsound

theorem abandon_fields (w : Writer) (groupId : Int) :
    (w.abandon groupId).queue = w.queue.filter (!ofGroup groupId ·) ∧
      (w.abandon groupId).group = w.group ∧ (w.abandon groupId).object = w.object ∧
      (w.abandon groupId).forceNew = (w.forceNew || decide (w.group = groupId)) ∧
      (w.abandon groupId).putter = w.putter := by
  unfold abandon
  dsimp only
  split
  case isTrue h =>
    have hgroup : w.group = groupId := h
    simp only [drop, hgroup, decide_true, Bool.or_true, and_self]
  case isFalse h =>
    have hgroup : w.group ≠ groupId := h
    simp only [drop, hgroup, decide_false, Bool.or_false, and_self]

/-- `_abandon` takes a group of which nothing was handed on out of the line. -/
theorem abandon_sound {groupId : Int} (line : List Item)
    (h : Numbered line w.group w.object w.forceNew)
    (hline : line.filter (fun i => i.groupId ≠ groupId) =
      handed ++ (items w.queue).filter fun i => i.groupId ≠ groupId) :
    Sound handed (w.abandon groupId) := by
  obtain ⟨hqueue, hgroup, hobject, hforce, -⟩ := w.abandon_fields groupId
  unfold Sound
  rw [hqueue, hgroup, hobject, hforce, items_filter, ← hline]
  exact h.forget groupId

theorem filter_all_ne {groupId : Int} {line : List Item} (h : ∀ i ∈ line, i.groupId ≠ groupId) :
    line.filter (fun i => i.groupId ≠ groupId) = line :=
  List.filter_eq_self.mpr fun i hi => decide_eq_true (h i hi)

/-- The number of an object stays the next one where objects leave the line. -/
theorem Next.of_subset {item : Item} (h : Next handed w item) {w' : Writer}
    (hgroup : w'.group = w.group) (hobject : w'.object = w.object)
    (hforce : w'.forceNew = false) (hsub : items w'.queue ⊆ items w.queue) :
    Next handed w' item where
  group := h.group.trans hgroup.symm
  object := h.object.trans hobject.symm
  behind i hi := h.behind i <| (List.mem_append.mp hi).elim (List.mem_append_left _)
    fun hqueue => List.mem_append_right _ (hsub hqueue)
  start := h.start
  unforced := hforce

/-- The oldest object makes room. -/
theorem evict_admitted {oldest : Item} {queue : List (Option Item)} {item : Item}
    (hqueue : w.queue = some oldest :: queue) (hsound : Sound handed w)
    (h : Next handed w item) :
    Admitted handed w (
      let w := { w with queue }.drop [some oldest]
      if oldest.groupStart then
        let w := w.abandon oldest.groupId
        if item.groupId = oldest.groupId then (w.drop [some item], .ok false)
        else putNowait spec w (some item)
      else putNowait spec w (some item)) := by
  have hline : Numbered (handed ++ oldest :: items queue) w.group w.object w.forceNew := by
    have := hsound
    unfold Sound at this
    rwa [hqueue, items_cons_some] at this
  have hsub : items queue ⊆ items w.queue := by
    rw [hqueue, items_cons_some]
    exact List.subset_cons_self oldest _
  generalize hkept : { w with queue }.drop [some oldest] = kept
  have hfields : kept.queue = queue ∧ kept.group = w.group ∧ kept.object = w.object ∧
      kept.forceNew = w.forceNew ∧ kept.putter = w.putter := by
    subst hkept
    exact ⟨rfl, rfl, rfl, rfl, rfl⟩
  obtain ⟨hkqueue, hkgroup, hkobject, hkforce, hkputter⟩ := hfields
  dsimp only
  by_cases hstart : oldest.groupStart = true
  · rw [if_pos hstart]
    have hnone := hline.opener_first hstart
    have habandoned : Sound handed (kept.abandon oldest.groupId) := by
      refine abandon_sound (handed ++ oldest :: items queue) ?_ ?_
      · rw [hkgroup, hkobject, hkforce]
        exact hline
      · rw [List.filter_append, filter_all_ne hnone, List.filter_cons_of_neg (by simp), hkqueue]
    obtain ⟨haqueue, hagroup, haobject, haforce, haputter⟩ := kept.abandon_fields oldest.groupId
    split
    · exact ⟨habandoned, fun h => (by cases h), haputter.trans hkputter⟩
    case isFalse hne =>
      have hnext : Next handed (kept.abandon oldest.groupId) item := by
        refine h.of_subset (hagroup.trans hkgroup) (haobject.trans hkobject) ?_ ?_
        · rw [haforce, hkforce, h.unforced, hkgroup, ← h.group]
          exact decide_eq_false hne
        · rw [haqueue, items_filter, hkqueue]
          exact fun i hi => hsub (List.mem_of_mem_filter hi)
      obtain ⟨hput, hopened, hputter⟩ := @putNowait_admitted spec _ _ habandoned _ hnext
      exact ⟨hput, hopened, hputter.trans (haputter.trans hkputter)⟩
  · rw [if_neg hstart]
    have hkept' : Sound handed kept := by
      unfold Sound
      rw [hkqueue, hkgroup, hkobject, hkforce]
      exact hline.remove (Bool.eq_false_iff.mpr hstart)
    have hnext : Next handed kept item :=
      h.of_subset hkgroup hkobject (hkforce.trans h.unforced) (hkqueue ▸ hsub)
    obtain ⟨hput, hopened, hputter⟩ := @putNowait_admitted spec _ _ hkept' _ hnext
    exact ⟨hput, hopened, hputter.trans hkputter⟩

/-- **Admitting** the next object keeps the line numbered under every policy. -/
theorem admit_admitted (hsound : Sound handed w) {item : Item} (h : Next handed w item)
    (hnew : item.groupStart = true → ∀ i ∈ handed, i.groupId ≠ item.groupId) :
    Admitted handed w (admitItem spec w item) := by
  unfold admitItem
  by_cases hfull : full spec w = true
  · rw [if_pos hfull]
    cases spec.onFull with
    | block => exact putNowait_admitted hsound h
    | error => exact ⟨hsound, fun h => (by cases h), rfl⟩
    | dropNew =>
        dsimp only
        split
        case isTrue hstart =>
          refine ⟨?_, fun h => (by cases h), (abandon_fields _ _).2.2.2.2⟩
          refine abandon_sound (handed ++ items w.queue) hsound ?_
          rw [List.filter_append, filter_all_ne (hnew hstart)]
          rfl
        case isFalse => exact ⟨hsound, fun h => (by cases h), rfl⟩
    | dropOldest =>
        dsimp only
        match hqueue : w.queue with
        | [] => exact ⟨hsound, fun h => (by cases h), rfl⟩
        | none :: queue =>
            have hkept : Sound handed ({ w with queue }.drop [none]) := by
              have := hsound
              unfold Sound at this
              rw [hqueue, items_cons_none] at this
              exact this
            have hnext : Next handed ({ w with queue }.drop [none]) item := by
              refine h.of_subset rfl rfl h.unforced ?_
              rw [hqueue, items_cons_none]
              exact fun _ hi => hi
            obtain ⟨hput, hopened, hputter⟩ := @putNowait_admitted spec _ _ hkept _ hnext
            exact ⟨hput, hopened, hputter⟩
        | some oldest :: queue => exact evict_admitted hqueue hsound h
  · rw [if_neg hfull]
    exact putNowait_admitted hsound h

/-! ## Calls -/

/-- An object that opens no group may take its number: its group was opened, and no object of the
line has the number. -/
def Continues (line : List Item) (groupId : Int) (objectId : Nat) : Prop :=
  0 < objectId ∧ ∀ i ∈ line, ¬ (i.groupId = groupId ∧ i.objectId = objectId)

theorem Continues.behind {line : List Item} {group : Int} {object : Nat} {forceNew : Bool}
    (h : Continues line group object) (hline : Numbered line group object forceNew) {item : Item}
    (hgroup : item.groupId = group) (hobject : item.objectId = object) :
    ∀ i ∈ line, i.Before item := by
  intro i hi
  have hfree := h.2 i hi
  unfold Item.Before
  rcases hline.bound i hi with hlt | ⟨heq, hle⟩ <;> omega

/-- The object of a call that waits: it opens a group above the line, or its group was opened. -/
structure Waiting (handed : List Item) (w : Writer) (item : Item) : Prop where
  group : item.groupId = w.group
  object : item.objectId = w.object
  start : item.groupStart = true → w.object = 0 ∧ ∀ i ∈ handed ++ items w.queue, i.groupId < w.group
  continued : item.groupStart = false → 0 < w.object → GroupOpened handed w

/-- A writer between two steps. -/
structure Whole (handed : List Item) (w : Writer) : Prop where
  sound : Sound handed w
  pending : ∀ item, w.putter = some ⟨item, .pending⟩ → Waiting handed w item
  done : ∀ item, w.putter = some ⟨item, .done⟩ → GroupOpened handed w

/-- Without a call that waits the numbers are all there is. -/
theorem Sound.whole {handed : List Item} {w : Writer} (h : Sound handed w)
    (hputter : w.putter = none) : Whole handed w where
  sound := h
  pending item hpending := by
    rw [hputter] at hpending
    cases hpending
  done item hdone := by
    rw [hputter] at hdone
    cases hdone

/-- A write that is refused or dropped leaves the line. -/
theorem admit_refused (hsound : Sound handed w) {item : Item} (hstart : item.groupStart = false)
    (hfull : full spec w = true) (hblock : spec.onFull ≠ .block)
    (holdest : spec.onFull ≠ .dropOldest) :
    Sound handed (admitItem spec w item).1 ∧ (admitItem spec w item).2 ≠ .ok true ∧
      (admitItem spec w item).1.putter = w.putter := by
  unfold admitItem
  rw [if_pos hfull]
  cases hpolicy : spec.onFull with
  | block => exact absurd hpolicy hblock
  | dropOldest => exact absurd hpolicy holdest
  | error => exact ⟨hsound, fun h => (by cases h), rfl⟩
  | dropNew =>
      dsimp only
      rw [if_neg (by rw [hstart]; exact Bool.false_ne_true)]
      exact ⟨hsound, fun h => (by cases h), rfl⟩

/-- An object admitted gets the next number. -/
theorem Admitted.whole {out : Writer × Except WriteError Bool} (h : Admitted handed w out)
    (hputter : w.putter = none) (size : Nat) :
    Whole handed out.1 ∧ (out.2 = .ok true → Whole handed (out.1.number size)) :=
  ⟨h.sound.whole (h.putter.trans hputter), fun hok =>
    have hnumbered : Sound handed (out.1.number size) := h.sound.spend (h.opened hok)
    hnumbered.whole (h.putter.trans hputter)⟩

/-- **A call keeps the line numbered**, where it opens a group or continues one. -/
theorem put_whole (hsound : Sound handed w) (hputter : w.putter = none)
    (hunforced : w.forceNew = false) (data : Bytes) (groupStart : Bool)
    (hstart : groupStart = true → w.object = 0 ∧ ∀ i ∈ handed ++ items w.queue, i.groupId < w.group)
    (hcontinues : groupStart = false → full spec w = false ∨ spec.onFull = .dropOldest →
      Continues (handed ++ items w.queue) w.group w.object) :
    Whole handed (put spec w data groupStart).1 := by
  unfold put
  dsimp only
  by_cases hwaits : full spec w = true ∧ spec.onFull = .block
  · rw [if_pos hwaits]
    refine ⟨hsound, fun item hpending => ?_, fun item hdone => by cases hdone⟩
    cases hpending
    exact ⟨rfl, rfl, hstart, fun _ hpos => hsound.current hpos hunforced⟩
  rw [if_neg hwaits]
  generalize hitem : Item.mk w.group w.object data groupStart = item
  have hadmitted : ∀ size, Whole handed (admitItem spec w item).1 ∧
      ((admitItem spec w item).2 = .ok true → Whole handed ((admitItem spec w item).1.number size)) := by
    intro size
    subst hitem
    cases groupStart with
    | true =>
        obtain ⟨hzero, hbelow⟩ := hstart rfl
        refine Admitted.whole (admit_admitted hsound ⟨rfl, rfl, fun i hi => .inl (hbelow i hi),
          ⟨fun _ => hzero, fun _ => rfl⟩, hunforced⟩ fun _ i hi => ?_) hputter size
        exact (hbelow i (List.mem_append_left _ hi)).ne
    | false =>
        by_cases hroom : full spec w = false ∨ spec.onFull = .dropOldest
        · have hcont := hcontinues rfl hroom
          refine Admitted.whole (admit_admitted hsound ⟨rfl, rfl,
            hcont.behind hsound rfl rfl, ⟨fun h => (by cases h), fun hzero => ?_⟩, hunforced⟩
            fun h => (by cases h)) hputter size
          exact absurd hzero hcont.1.ne'
        · obtain ⟨hfull, holdest⟩ := not_or.mp hroom
          have hfull' := Bool.not_eq_false _ ▸ hfull
          obtain ⟨hkept, hnot, hkputter⟩ := @admit_refused spec _ _ hsound
            ⟨w.group, w.object, data, false⟩ rfl hfull' (fun hblock => hwaits ⟨hfull', hblock⟩)
            holdest
          exact ⟨hkept.whole (hkputter.trans hputter), fun hok => absurd hok hnot⟩
  obtain ⟨hsame, hnumbered⟩ := hadmitted data.length
  generalize admitItem spec w item = out at *
  match out with
  | (w', .error e) => exact hsame
  | (w', .ok false) => exact hsame
  | (w', .ok true) => exact hnumbered rfl

/-- A call that opens a group needs no condition. -/
theorem put_advanced (hsound : Sound handed w) (hputter : w.putter = none) (data : Bytes) :
    Whole handed (put spec w.advanceGroup data true).1 :=
  put_whole (w := w.advanceGroup) hsound.advance hputter rfl data true
    (fun _ => ⟨rfl, hsound.below⟩) fun h => (by cases h)

theorem snapshot_whole (hsound : Sound handed w) (hputter : w.putter = none) (data : Bytes) :
    Whole handed (snapshot spec w data).1 := by
  unfold snapshot
  split
  · exact hsound.whole hputter
  · exact put_advanced hsound hputter data

theorem write_whole (hsound : Sound handed w) (hputter : w.putter = none) (data : Bytes)
    (hcontinues : w.closed = false → opens spec w = false →
      full spec w = false ∨ spec.onFull = .dropOldest →
      Continues (handed ++ items w.queue) w.group w.object) :
    Whole handed (write spec w data).1 := by
  unfold write
  split
  · exact hsound.whole hputter
  case isFalse hopen =>
    split
    · exact put_advanced hsound hputter data
    case isFalse hopens =>
      have hunforced : w.forceNew = false := by
        by_contra hforce
        exact hopens (decide_eq_true (.inr (.inl (Bool.not_eq_false _ ▸ hforce))))
      exact put_whole hsound hputter hunforced data false (fun h => (by cases h)) fun _ =>
        hcontinues (Bool.eq_false_iff.mpr hopen) (Bool.eq_false_iff.mpr hopens)

end Writer

/-! ## Steps -/

/-- The objects handed on, and those that are to be. -/
def State.line (s : State) : List Item := s.handed ++ items s.writer.queue

/-- A step does not take the way that goes wrong: an object that opens no group is put in the
queue only where its group was opened and its number is free. -/
def Meets (spec : PublishSpec) (s : State) : Step → Prop
  | .write _ => s.writer.putter = none → s.writer.closed = false →
      Writer.opens spec s.writer = false →
      Writer.full spec s.writer = false ∨ spec.onFull = .dropOldest →
      Writer.Continues s.line s.writer.group s.writer.object
  | .put => ∀ item, s.writer.putter = some ⟨item, .pending⟩ →
      Writer.full spec s.writer = false → item.groupStart = false →
      Writer.Continues s.line item.groupId item.objectId
  | _ => True

/-- Every step of a run meets the condition. -/
def MeetsAll (spec : PublishSpec) : State → List Step → Prop
  | _, [] => True
  | s, e :: steps => Meets spec s e ∧ MeetsAll spec (s.step spec e) steps

/-- The state of the writer is whole. -/
def State.Whole (s : State) : Prop := Writer.Whole s.handed s.writer

namespace State

variable {spec : PublishSpec} {s : State}

theorem putRuns_whole (h : s.Whole) (hmeets : Meets spec s .put) :
    Writer.Whole s.handed (Writer.putRuns spec s.writer) := by
  unfold Writer.putRuns
  split
  case h_1 item hputter =>
    have hwaiting := h.pending item hputter
    by_cases hfull : Writer.full spec s.writer = true
    · rw [if_pos hfull]
      exact h
    rw [if_neg hfull]
    have hline : s.handed ++ items (s.writer.queue ++ [some item]) = s.line ++ [item] := by
      rw [items_append_some, ← List.append_assoc]
      rfl
    have hparts : (∀ i ∈ s.line, i.Before item) ∧
        (item.groupStart = true ↔ item.objectId = 0) ∧ Opened (s.line ++ [item]) s.writer.group := by
      cases hstart : item.groupStart with
      | true =>
          obtain ⟨hzero, hbelow⟩ := hwaiting.start hstart
          refine ⟨fun i hi => .inl (hwaiting.group ▸ hbelow i hi),
            ⟨fun _ => hwaiting.object.trans hzero, fun _ => rfl⟩, item, ?_, hwaiting.group, hstart⟩
          exact List.mem_append_right _ List.mem_cons_self
      | false =>
          have hcont := hmeets item hputter (Bool.eq_false_iff.mpr hfull) hstart
          rw [hwaiting.group, hwaiting.object] at hcont
          refine ⟨hcont.behind h.sound hwaiting.group hwaiting.object,
            ⟨fun h => (by cases h), fun hzero => ?_⟩,
            Opened.append (hwaiting.continued hstart hcont.1) _⟩
          exact absurd (hwaiting.object.symm.trans hzero) hcont.1.ne'
    obtain ⟨hbehind, hstart, hopened⟩ := hparts
    refine ⟨?_, fun _ hpending => (by cases hpending), fun _ _ => ?_⟩
    · unfold Writer.Sound
      rw [hline]
      exact h.sound.append hwaiting.group hwaiting.object hbehind hstart hopened
    · unfold Writer.GroupOpened
      rw [hline]
      exact hopened
  case h_2 => exact h

theorem resume_whole (h : s.Whole) : s.resume.Whole := by
  unfold resume
  split
  case h_1 item hputter =>
    have hnumbered : Writer.Sound s.handed
        ({ s.writer with putter := none }.number item.payload.length) :=
      h.sound.spend (h.done item hputter)
    exact hnumbered.whole rfl
  case h_2 =>
    have hsound : Writer.Sound s.handed { s.writer with putter := none } := h.sound
    exact hsound.whole rfl
  case h_3 => exact h

/-- A writer whose putter is cancelled, or goes on, keeps the rest. -/
theorem cancel_whole (h : s.Whole) : s.cancel.Whole := by
  unfold cancel
  split
  case h_1 item hputter =>
    exact ⟨h.sound, fun _ hpending => (by cases hpending), fun _ hdone => (by cases hdone)⟩
  case h_2 =>
    have hsound : Writer.Sound s.handed { s.writer with putter := none } := h.sound
    exact hsound.whole rfl
  case h_3 => exact h

theorem putNowait_none (spec : PublishSpec) (w : Writer) :
    items (Writer.putNowait spec w none).1.queue = items w.queue ∧
      (Writer.putNowait spec w none).1 =
        { w with queue := (Writer.putNowait spec w none).1.queue } := by
  unfold Writer.putNowait
  split
  · exact ⟨rfl, rfl⟩
  · exact ⟨items_append_none w.queue, rfl⟩

theorem close_whole (h : s.Whole) : (s.close spec).Whole := by
  unfold close
  split
  · exact h
  dsimp only
  generalize hputter : (s.writer.putter.map fun put =>
    if put.state = .pending then { put with state := .cancelled } else put) = putter
  obtain ⟨hitems, hrest⟩ := putNowait_none spec { s.writer with closed := true, putter }
  have hkind : ∀ item,
      (putter = some ⟨item, .done⟩ → s.writer.putter = some ⟨item, .done⟩) ∧
        putter ≠ some ⟨item, .pending⟩ := by
    intro item
    subst hputter
    cases s.writer.putter with
    | none => exact ⟨fun h => (by cases h), fun h => (by cases h)⟩
    | some put =>
        obtain ⟨item', state⟩ := put
        cases state with
        | pending => exact ⟨fun h => (by cases h), fun h => (by cases h)⟩
        | done => exact ⟨fun h => h, fun h => (by cases h)⟩
        | cancelled => exact ⟨fun h => (by cases h), fun h => (by cases h)⟩
  rw [hrest]
  generalize (Writer.putNowait spec { s.writer with closed := true, putter } none).1.queue =
    queue at *
  have hline : s.handed ++ items queue = s.line := congrArg (s.handed ++ ·) hitems
  refine ⟨?_, fun item hpending => absurd hpending (hkind item).2, fun item hdone => ?_⟩
  · show Numbered (s.handed ++ items queue) s.writer.group s.writer.object s.writer.forceNew
    rw [hline]
    exact h.sound
  · show Opened (s.handed ++ items queue) s.writer.group
    rw [hline]
    exact h.done item ((hkind item).1 hdone)

/-- `produce` moves an object along the line. -/
theorem produce_whole (h : s.Whole) : s.produce.Whole := by
  have hmove : ∀ {handed : List Item} {queue : List (Option Item)},
      handed ++ items queue = s.line →
      Writer.Whole handed { s.writer with queue } := by
    intro handed queue hline
    refine ⟨?_, fun item hpending => ?_, fun item hdone => ?_⟩
    · show Numbered (handed ++ items queue) _ _ _
      rw [hline]
      exact h.sound
    · obtain ⟨hgroup, hobject, hstart, hcontinued⟩ := h.pending item hpending
      refine ⟨hgroup, hobject, ?_, ?_⟩
      · show _ → _ ∧ ∀ i ∈ handed ++ items queue, _
        rw [hline]
        exact hstart
      · show _ → _ → Opened (handed ++ items queue) _
        rw [hline]
        exact hcontinued
    · show Opened (handed ++ items queue) _
      rw [hline]
      exact h.done item hdone
  unfold produce
  cases s.production with
  | head => dsimp only; split <;> exact h
  | writing => exact h
  | ended => exact h
  | getting =>
      dsimp only
      split
      case h_1 => exact h
      case h_2 queue hqueue =>
        refine hmove ?_
        rw [line, hqueue, items_cons_none]
      case h_3 item queue hqueue =>
        refine hmove ?_
        rw [line, hqueue, items_cons_some, List.append_assoc]
        rfl

theorem call_whole {handed : List Item} {out : Writer × Outcome} (h : Writer.Whole handed out.1)
    (hhanded : s.handed = handed) (data : Bytes) : (s.call data out).Whole := by
  subst hhanded
  obtain ⟨w, outcome⟩ := out
  cases outcome <;> exact h

theorem endGroup_whole (h : s.Whole) : (s.step spec .endGroup).Whole where
  sound := h.sound.force
  pending item hpending := by
    obtain ⟨hgroup, hobject, hstart, hcontinued⟩ := h.pending item hpending
    exact ⟨hgroup, hobject, hstart, hcontinued⟩
  done := h.done

/-- **One step** that meets the condition keeps the line numbered. -/
theorem step_whole (h : s.Whole) {e : Step} (hmeets : Meets spec s e) : (s.step spec e).Whole := by
  cases e with
  | snapshot data =>
      simp only [step]
      split
      · exact h
      case isFalse hlock =>
        exact call_whole (Writer.snapshot_whole h.sound (Option.not_isSome_iff_eq_none.mp hlock) data)
          rfl data
  | write data =>
      simp only [step]
      split
      · exact h
      case isFalse hlock =>
        have hputter := Option.not_isSome_iff_eq_none.mp hlock
        exact call_whole (Writer.write_whole h.sound hputter data (hmeets hputter)) rfl data
  | endGroup => exact endGroup_whole h
  | close => exact close_whole h
  | put => exact putRuns_whole h hmeets
  | resume => exact resume_whole h
  | cancel => exact cancel_whole h
  | produce => exact produce_whole h
  | fail => exact h

/-- **A run** of such steps does. -/
theorem run_whole (h : s.Whole) {steps : List Step} (hmeets : MeetsAll spec s steps) :
    (s.run spec steps).Whole := by
  induction steps generalizing s with
  | nil => exact h
  | cons e steps ih => exact ih (step_whole h hmeets.1) hmeets.2

end State

end AioMoqt.Agent
