import AioMoqt.Delivery.Proofs.LaneBound
import AioMoqt.Delivery.Proofs.LaneEffects
import AioMoqt.Delivery.Proofs.StreamLedger

/-!
# What a lane carries

The invariant of a lane over a delivery: what waits is closed within each group, a group
that began after one that waits waits too or lies below the floor, and the open stream has
what it owes of its group or is about to be cut.
-/

namespace AioMoqt.Delivery

variable {s t : DeliveryLane} {d : SubgroupDelivery} {os : List DeliveryItem} {x : DeliveryItem}
  {g p : Nat}

/-! ## Places -/

/-- The offers in their order. -/
structure Ranked (os : List DeliveryItem) : Prop where
  places : os.Pairwise (·.place < ·.place)
  bounded : ∀ x ∈ os, x.place < os.length
  ascends : ∀ w ∈ os, ∀ x ∈ os, w.place ≤ x.place → w.groupId ≤ x.groupId
  first : ∀ w ∈ os, ∀ x ∈ os, w.place < x.place → x.object.groupStart = true →
    w.groupId ≠ x.groupId
  begun : ∀ w ∈ os, ∀ x ∈ os, x.object.groupStart = false → w.groupId < x.groupId →
    ∃ z ∈ os, z.place < x.place ∧ z.groupId = x.groupId

theorem Ranked.nil : Ranked [] := by
  constructor <;> simp

theorem Ranked.concat (h : Ranked os) (hx : Follows os x) (hplace : x.place = os.length) :
    Ranked (os ++ [x]) where
  places := by
    rw [List.pairwise_append]
    refine ⟨h.places, List.pairwise_singleton _ _, fun w hw y hy => ?_⟩
    rw [List.mem_singleton.mp hy, hplace]
    exact h.bounded w hw
  bounded y hy := by
    rw [List.length_append, List.length_singleton]
    rcases List.mem_append.mp hy with hy | hy
    · exact (h.bounded y hy).trans (Nat.lt_succ_self _)
    · rw [List.mem_singleton.mp hy, hplace]
      exact Nat.lt_succ_self _
  ascends w hw y hy hle := by
    rcases List.mem_append.mp hw with hw | hw <;> rcases List.mem_append.mp hy with hy | hy
    · exact h.ascends w hw y hy hle
    · rw [List.mem_singleton.mp hy]
      exact hx.ascends w hw
    · have hlt := h.bounded y hy
      rw [List.mem_singleton.mp hw] at hle
      omega
    · rw [List.mem_singleton.mp hw, List.mem_singleton.mp hy]
  first w hw y hy hlt hstart := by
    rcases List.mem_append.mp hw with hw | hw <;> rcases List.mem_append.mp hy with hy | hy
    · exact h.first w hw y hy hlt hstart
    · rw [List.mem_singleton.mp hy] at hstart ⊢
      exact hx.first hstart w hw
    · have hbound := h.bounded y hy
      rw [List.mem_singleton.mp hw] at hlt
      omega
    · rw [List.mem_singleton.mp hw, List.mem_singleton.mp hy] at hlt
      omega
  begun w hw y hy hstart hlt := by
    rcases List.mem_append.mp hy with hy | hy
    · rcases List.mem_append.mp hw with hw | hw
      · obtain ⟨z, hz, hplace, hgroup⟩ := h.begun w hw y hy hstart hlt
        exact ⟨z, List.mem_append_left _ hz, hplace, hgroup⟩
      · have hle := hx.ascends y hy
        rw [List.mem_singleton.mp hw] at hlt
        omega
    · rw [List.mem_singleton.mp hy] at hstart hlt ⊢
      rcases List.mem_append.mp hw with hw | hw
      · obtain ⟨z, hz, hgroup⟩ := hx.begun hstart w hw hlt
        exact ⟨z, List.mem_append_left _ hz, hplace ▸ h.bounded z hz, hgroup⟩
      · rw [List.mem_singleton.mp hw] at hlt
        omega

/-! ## The invariant -/

/-- The group lies below the floor, or its first object waits. -/
def Begins (s : DeliveryLane) (g : Nat) : Prop :=
  (∃ floor ∈ s.floor, g < floor) ∨
    ∃ y ∈ s.queued, y.groupId = g ∧ y.object.groupStart = true

/-- What waits, against all that was offered. -/
structure Lined (os : List DeliveryItem) (s : DeliveryLane) : Prop where
  begins : ∀ x ∈ s.queued, ∀ z ∈ os, x.groupId < z.groupId → Begins s z.groupId
  closed : ∀ x ∈ s.queued, ∀ z ∈ os, z.groupId = x.groupId → x.place ≤ z.place → z ∈ s.queued
  stopped : ∀ g ∈ s.writer.stoppedGroup, ∃ z ∈ os, z.groupId = g
  notFirst : ∀ y ∈ s.queued, s.writer.stoppedGroup = some y.groupId →
    y.object.groupStart = false

/-- The group of the stream that is open or being opened, and the place of the object it is
opened for. -/
def current (s : DeliveryLane) : Option (Nat × Nat) :=
  match s.writer.stream with
  | some st => some (st.groupId, st.opener)
  | none =>
    match s.task with
    | .sending _ (.opening x epoch) =>
      if epoch = s.writer.epoch then some (x.groupId, x.place) else none
    | _ => none

/-- The object went out on the open stream. -/
def SentOn (d : SubgroupDelivery) (x : DeliveryItem) : Prop :=
  ∃ st ∈ d.stream, (st.sid, x) ∈ d.sent

def ended (s : DeliveryLane) : Bool :=
  match s.task with
  | .exited => true
  | _ => false

/-- The object waits, is being written, went out on the open stream, or is outside the filter. -/
def Carried (s : DeliveryLane) (x : DeliveryItem) : Prop :=
  x ∈ s.queued ∨ s.inFlight = some x ∨ SentOn s.writer x ∨ x ∈ s.writer.excluded

/-- What holds of the stream of a group, opened for the object at a place. -/
structure Carries (os : List DeliveryItem) (s : DeliveryLane) (g p : Nat) : Prop where
  opener : ∃ z ∈ os, z.groupId = g ∧ z.place = p
  behind : ∀ y ∈ s.queued, p < y.place
  begins : s.stopped = false → ∀ z ∈ os, g < z.groupId → Begins s z.groupId
  notStopped : s.writer.stoppedGroup ≠ some g
  cut : ended s = false → ∀ floor ∈ s.floor, g < floor → .control .cut ∈ s.items
  whole : ended s = false → (∀ floor ∈ s.floor, floor ≤ g) → ∀ z ∈ os, z.groupId = g →
    p ≤ z.place → Carried s z

/-- The stream of the epoch a write began in is the open one, and that of an older epoch is
gone. -/
def OnStream (d : SubgroupDelivery) (x : DeliveryItem) (epoch sid : Nat) : Prop :=
  epoch ≤ d.epoch ∧
    (epoch = d.epoch → ∃ st ∈ d.stream, st.sid = sid ∧ st.groupId = x.groupId) ∧
    (epoch ≠ d.epoch → d.stream = none)

/-- Where the write of an object stands. -/
def Flying (d : SubgroupDelivery) (x : DeliveryItem) : DeliveryAwait → Prop
  | .opening y epoch => y = x ∧ epoch ≤ d.epoch ∧ d.stream = none
  | .header y epoch sid => y = x ∧ OnStream d x epoch sid
  | .object y epoch sid => y = x ∧ OnStream d x epoch sid
  | _ => False

/-- Where the task stands. -/
def Aloft (s : DeliveryLane) : Prop :=
  match s.task with
  | .sending x await => Flying s.writer x await
  | .ending await => (∃ g, await = .endOpening g) ∧ s.writer.stream = none
  | _ => True

/-- All of it. -/
structure Sound (os : List DeliveryItem) (s : DeliveryLane) : Prop where
  accounts : s.Accounts
  places : s.offered.Pairwise (·.place < ·.place)
  ranked : Ranked os
  within : ∀ x ∈ s.queued, x ∈ os
  flown : ∀ x ∈ s.inFlight, x ∈ os
  perGroup : s.writer.mapping = .perGroup
  lined : Lined os s
  carries : ∀ c ∈ current s, Carries os s c.1 c.2
  aloft : Aloft s
  ledger : Ledger s.writer

/-! ## Order -/

theorem queued_places (h : s.Accounts) (hplaces : s.offered.Pairwise (·.place < ·.place)) :
    s.queued.Pairwise (·.place < ·.place) :=
  (hplaces.sublist h.order).sublist (List.sublist_append_right _ _)

theorem flight_place (h : s.Accounts) (hplaces : s.offered.Pairwise (·.place < ·.place))
    (hflight : s.inFlight = some x) : ∀ y ∈ s.queued, x.place < y.place := by
  have horder := hplaces.sublist h.order
  rw [hflight] at horder
  intro y hy
  exact (List.pairwise_append.mp horder).2.2 x (by simp) y hy

/-! ## What waits -/

/-- Whole groups leave the queue: those below the new floor, or those at most the oldest that
stays. -/
theorem Lined.filter (h : Lined os s) (keep : Nat → Bool)
    (hqueued : t.queued = s.queued.filter fun x => keep x.groupId)
    (hgone : ∀ g, keep g = false ∨ (∃ floor ∈ s.floor, g < floor) →
      (∃ floor ∈ t.floor, g < floor) ∨ ∀ x ∈ t.queued, g ≤ x.groupId)
    (hstopped : t.writer.stoppedGroup = s.writer.stoppedGroup) : Lined os t where
  begins x hx z hz hlt := by
    have hx' : x ∈ s.queued ∧ keep x.groupId = true := by
      rw [hqueued, List.mem_filter] at hx
      exact hx
    have hbelow : (keep z.groupId = false ∨ ∃ floor ∈ s.floor, z.groupId < floor) →
        Begins t z.groupId := by
      intro hgoes
      rcases hgone z.groupId hgoes with hfloor | hle
      · exact Or.inl hfloor
      · exact absurd (hle x hx) (not_le.mpr hlt)
    rcases h.begins x hx'.1 z hz hlt with hfloor | ⟨y, hy, hgroup, hstart⟩
    · exact hbelow (Or.inr hfloor)
    · cases hkeep : keep z.groupId with
      | false => exact hbelow (Or.inl hkeep)
      | true =>
        refine Or.inr ⟨y, ?_, hgroup, hstart⟩
        rw [hqueued, List.mem_filter, hgroup]
        exact ⟨hy, hkeep⟩
  closed x hx z hz hgroup hle := by
    rw [hqueued, List.mem_filter] at hx ⊢
    exact ⟨h.closed x hx.1 z hz hgroup hle, hgroup ▸ hx.2⟩
  stopped := by
    rw [hstopped]
    exact h.stopped
  notFirst y hy := by
    rw [hqueued, List.mem_filter] at hy
    rw [hstopped]
    exact h.notFirst y hy.1

/-- The head of the queue is taken off. -/
theorem Lined.tail (h : Lined os s) (hranked : Ranked os)
    (hplaces : (x :: t.queued).Pairwise (·.place < ·.place)) (hwithin : ∀ y ∈ s.queued, y ∈ os)
    (hqueued : s.queued = x :: t.queued) (hfloor : t.floor = s.floor)
    (hstopped : t.writer.stoppedGroup = s.writer.stoppedGroup) : Lined os t where
  begins y hy z hz hlt := by
    have hy' : y ∈ s.queued := by
      rw [hqueued]
      exact List.mem_cons_of_mem _ hy
    rcases h.begins y hy' z hz hlt with hbelow | ⟨w, hw, hgroup, hstart⟩
    · exact Or.inl (hfloor ▸ hbelow)
    · rw [hqueued] at hw
      rcases List.mem_cons.mp hw with rfl | hw
      · -- What waits behind the head is of no older group.
        have hle := hranked.ascends w (hwithin w (by rw [hqueued]; exact List.mem_cons_self)) y
          (hwithin y hy') ((List.pairwise_cons.mp hplaces).1 y hy).le
        omega
      · exact Or.inr ⟨w, hw, hgroup, hstart⟩
  closed y hy z hz hgroup hle := by
    have hz' := h.closed y (by rw [hqueued]; exact List.mem_cons_of_mem _ hy) z hz hgroup hle
    rw [hqueued] at hz'
    rcases List.mem_cons.mp hz' with rfl | hz'
    · exact absurd ((List.pairwise_cons.mp hplaces).1 y hy) (not_lt.mpr hle)
    · exact hz'
  stopped := by
    rw [hstopped]
    exact h.stopped
  notFirst y hy := by
    rw [hstopped]
    exact h.notFirst y (by rw [hqueued]; exact List.mem_cons_of_mem _ hy)

/-- A new object waits behind all others. -/
theorem Lined.push (h : Lined os s) (hx : Follows os x) (hwithin : ∀ y ∈ s.queued, y ∈ os)
    (hplace : ∀ y ∈ os, y.place < x.place) (hqueued : t.queued = s.queued ++ [x])
    (hfloor : t.floor = s.floor)
    (hstopped : t.writer.stoppedGroup = s.writer.stoppedGroup) : Lined (os ++ [x]) t where
  begins y hy z hz hlt := by
    have hkept : ∀ g, Begins s g → Begins t g := by
      rintro g (hbelow | ⟨w, hw, hgroup, hstart⟩)
      · exact Or.inl (hfloor ▸ hbelow)
      · exact Or.inr ⟨w, by rw [hqueued]; exact List.mem_append_left _ hw, hgroup, hstart⟩
    rw [hqueued] at hy
    rcases List.mem_append.mp hy with hy | hy
    · rcases List.mem_append.mp hz with hz | hz
      · exact hkept _ (h.begins y hy z hz hlt)
      · rw [List.mem_singleton.mp hz] at hlt ⊢
        cases hstart : x.object.groupStart with
        | true =>
          exact Or.inr ⟨x, by rw [hqueued]; exact List.mem_append_right _ List.mem_cons_self, rfl,
            hstart⟩
        | false =>
          obtain ⟨w, hw, hgroup⟩ := hx.begun hstart y (hwithin y hy) hlt
          exact hkept _ (hgroup ▸ h.begins y hy w hw (hgroup ▸ hlt))
    · rw [List.mem_singleton.mp hy] at hlt
      rcases List.mem_append.mp hz with hz | hz
      · exact absurd (hx.ascends z hz) (not_le.mpr hlt)
      · rw [List.mem_singleton.mp hz] at hlt
        exact absurd hlt (lt_irrefl _)
  closed y hy z hz hgroup hle := by
    rw [hqueued] at hy ⊢
    rcases List.mem_append.mp hz with hz | hz
    · rcases List.mem_append.mp hy with hy | hy
      · exact List.mem_append_left _ (h.closed y hy z hz hgroup hle)
      · rw [List.mem_singleton.mp hy] at hle
        exact absurd (hplace z hz) (not_lt.mpr hle)
    · exact List.mem_append_right _ hz
  stopped g hg := by
    rw [hstopped] at hg
    obtain ⟨z, hz, hgroup⟩ := h.stopped g hg
    exact ⟨z, List.mem_append_left _ hz, hgroup⟩
  notFirst y hy hgroup := by
    rw [hstopped] at hgroup
    rw [hqueued] at hy
    rcases List.mem_append.mp hy with hy | hy
    · exact h.notFirst y hy hgroup
    · rw [List.mem_singleton.mp hy] at hgroup ⊢
      obtain ⟨z, hz, hsame⟩ := h.stopped _ hgroup
      by_contra hstart
      exact hx.first (by simpa using hstart) z hz hsame

/-- Nothing waits. -/
theorem Lined.of_empty (hqueued : t.queued = [])
    (hstopped : ∀ g ∈ t.writer.stoppedGroup, ∃ z ∈ os, z.groupId = g) : Lined os t where
  begins y hy := by
    rw [hqueued] at hy
    exact absurd hy List.not_mem_nil
  closed y hy := by
    rw [hqueued] at hy
    exact absurd hy List.not_mem_nil
  stopped := hstopped
  notFirst y hy := by
    rw [hqueued] at hy
    exact absurd hy List.not_mem_nil

/-- A new object of a group below the floor is not queued. -/
theorem Lined.pass (h : Lined os s) (hbelow : ∃ floor ∈ s.floor, x.groupId < floor)
    (habove : ∀ y ∈ s.queued, ∀ floor ∈ s.floor, floor ≤ y.groupId) : Lined (os ++ [x]) s where
  begins y hy z hz hlt := by
    rcases List.mem_append.mp hz with hz | hz
    · exact h.begins y hy z hz hlt
    · rw [List.mem_singleton.mp hz]
      exact Or.inl hbelow
  closed y hy z hz hgroup hle := by
    rcases List.mem_append.mp hz with hz | hz
    · exact h.closed y hy z hz hgroup hle
    · obtain ⟨floor, hfloor, hlt⟩ := hbelow
      have hle' := habove y hy floor hfloor
      rw [List.mem_singleton.mp hz] at hgroup
      omega
  stopped g hg := by
    obtain ⟨z, hz, hgroup⟩ := h.stopped g hg
    exact ⟨z, List.mem_append_left _ hz, hgroup⟩
  notFirst := h.notFirst

/-! ## The stream of a group -/

theorem current_of_stream {st : OpenStream} (h : s.writer.stream = some st) :
    current s = some (st.groupId, st.opener) := by
  simp only [current, h]

theorem current_of_opening {y : DeliveryItem} {epoch : Nat} (hstream : s.writer.stream = none)
    (htask : s.task = .sending x (.opening y epoch)) :
    current s = if epoch = s.writer.epoch then some (y.groupId, y.place) else none := by
  simp only [current, hstream, htask]

/-- Every stream that is open or being opened shows in the queue, the floor and the task. -/
theorem mem_current {c : Nat × Nat} (h : c ∈ current s) :
    (∃ st, s.writer.stream = some st ∧ c = (st.groupId, st.opener)) ∨
      s.writer.stream = none ∧ ∃ x y, s.task = .sending x (.opening y s.writer.epoch) ∧
        c = (y.groupId, y.place) := by
  cases hstream : s.writer.stream with
  | some st =>
    rw [current_of_stream hstream] at h
    exact Or.inl ⟨st, rfl, (Option.some.inj h).symm⟩
  | none =>
    refine Or.inr ⟨rfl, ?_⟩
    cases htask : s.task with
    | sending x await =>
      cases await with
      | opening y epoch =>
        rw [current_of_opening hstream htask] at h
        split_ifs at h with hepoch
        · exact ⟨x, y, hepoch ▸ rfl, (Option.some.inj h).symm⟩
        · simp at h
      | _ => simp [current, hstream, htask] at h
    | _ => simp [current, hstream, htask] at h

theorem Carries.mono (h : Carries os s g p) (hbehind : ∀ y ∈ t.queued, p < y.place)
    (hbegins : t.stopped = false → s.stopped = false ∧ ∀ g', Begins s g' → Begins t g')
    (hstopped : t.writer.stoppedGroup = s.writer.stoppedGroup)
    (hcut : ended t = false → ∀ floor ∈ t.floor, g < floor → .control .cut ∈ t.items)
    (hwhole : ended t = false → (∀ floor ∈ t.floor, floor ≤ g) → ended s = false ∧
      (∀ floor ∈ s.floor, floor ≤ g) ∧
        ∀ z ∈ os, z.groupId = g → p ≤ z.place → Carried s z → Carried t z) : Carries os t g p where
  opener := h.opener
  behind := hbehind
  begins hgoes z hz hlt := (hbegins hgoes).2 _ (h.begins (hbegins hgoes).1 z hz hlt)
  notStopped := hstopped ▸ h.notStopped
  cut := hcut
  whole hgoes hfloor z hz hgroup hle := by
    obtain ⟨hgoes', hfloor', hkept⟩ := hwhole hgoes hfloor
    exact hkept z hz hgroup hle (h.whole hgoes' hfloor' z hz hgroup hle)

/-- One more object was offered. -/
theorem Carries.offer (h : Carries os s g p) (hx : Follows os x)
    (hbegins : s.stopped = false → x.object.groupStart = true → g < x.groupId →
      Begins s x.groupId)
    (hkept : ended s = false → (∀ floor ∈ s.floor, floor ≤ g) → x.groupId = g → Carried s x) :
    Carries (os ++ [x]) s g p where
  __ := h
  opener := by
    obtain ⟨z, hz, hopener⟩ := h.opener
    exact ⟨z, List.mem_append_left _ hz, hopener⟩
  begins hgoes z hz hlt := by
    rcases List.mem_append.mp hz with hz | hz
    · exact h.begins hgoes z hz hlt
    · rw [List.mem_singleton.mp hz] at hlt ⊢
      cases hstart : x.object.groupStart with
      | true => exact hbegins hgoes hstart hlt
      | false =>
        obtain ⟨opener, hopener, hgroup, -⟩ := h.opener
        obtain ⟨w, hw, hsame⟩ := hx.begun hstart opener hopener (hgroup ▸ hlt)
        exact hsame ▸ h.begins hgoes w hw (hsame ▸ hlt)
  whole hgoes hfloor z hz hgroup hle := by
    rcases List.mem_append.mp hz with hz | hz
    · exact h.whole hgoes hfloor z hz hgroup hle
    · rw [List.mem_singleton.mp hz] at hgroup ⊢
      exact hkept hgoes hfloor hgroup

/-! ## The writer -/

/-- Nothing changed of the streams and of the objects on them. -/
structure SameStreams (d e : SubgroupDelivery) : Prop where
  stream : e.stream = d.stream
  stoppedGroup : e.stoppedGroup = d.stoppedGroup
  epoch : e.epoch = d.epoch
  mapping : e.mapping = d.mapping
  sent : e.sent = d.sent
  excluded : e.excluded = d.excluded
  fins : e.fins = d.fins

theorem SameStreams.refl (d : SubgroupDelivery) : SameStreams d d :=
  ⟨rfl, rfl, rfl, rfl, rfl, rfl, rfl⟩

theorem SameStreams.trans {e f : SubgroupDelivery} (h : SameStreams d e) (h' : SameStreams e f) :
    SameStreams d f :=
  ⟨h'.stream.trans h.stream, h'.stoppedGroup.trans h.stoppedGroup, h'.epoch.trans h.epoch,
    h'.mapping.trans h.mapping, h'.sent.trans h.sent, h'.excluded.trans h.excluded,
    h'.fins.trans h.fins⟩

theorem SameStreams.flying {e : SubgroupDelivery} (h : SameStreams d e) {await : DeliveryAwait}
    (hflying : Flying d x await) : Flying e x await := by
  cases await <;> simp only [Flying, OnStream, h.stream, h.epoch] at hflying ⊢ <;> exact hflying

theorem same_reads {e : SubgroupDelivery} (h : SendLane.Reads SubgroupDelivery.writer d e) :
    SameStreams d e := by
  induction h with
  | refl => exact .refl d
  | read _ below ans ih => exact ih.trans ⟨rfl, rfl, rfl, rfl, rfl, rfl, rfl⟩

theorem ledger_reads {e : SubgroupDelivery} (h : SendLane.Reads SubgroupDelivery.writer d e)
    (hledger : Ledger d) : Ledger e := by
  induction h with
  | refl => exact hledger
  | read _ below ans ih => exact { ih with }

/-- The streams after a reset. -/
structure Cleared (d e : SubgroupDelivery) : Prop where
  stream : e.stream = none
  epoch : e.epoch = d.epoch + 1
  stoppedGroup : e.stoppedGroup = d.stoppedGroup
  mapping : e.mapping = d.mapping
  fins : e.fins = d.fins

theorem cleared_resetGroup (d : SubgroupDelivery) (code : ResetCode) :
    Cleared d (d.resetGroup code) := ⟨rfl, rfl, rfl, rfl, rfl⟩

/-- A write that was in progress finds its stream gone. -/
theorem Cleared.flying {e : SubgroupDelivery} (h : Cleared d e) {await : DeliveryAwait}
    (hflying : Flying d x await) : Flying e x await := by
  cases await with
  | opening y epoch =>
    obtain ⟨rfl, hle, -⟩ := hflying
    exact ⟨rfl, h.epoch ▸ hle.trans (Nat.le_succ _), h.stream⟩
  | header y epoch sid | object y epoch sid =>
    obtain ⟨rfl, hle, -⟩ := hflying
    refine ⟨rfl, h.epoch ▸ hle.trans (Nat.le_succ _), fun heq => ?_, fun _ => h.stream⟩
    rw [h.epoch] at heq
    omega
  | _ => exact hflying

theorem resetBelow_cases (d : SubgroupDelivery) (floor : Nat) (t : Transport) :
    Cleared d (d.resetBelow floor t) ∨
      (∀ st ∈ d.stream, floor ≤ st.groupId) ∧ SameStreams d (d.resetBelow floor t) := by
  unfold SubgroupDelivery.resetBelow
  dsimp only
  split_ifs with hbelow
  · exact Or.inl ⟨rfl, rfl, rfl, rfl, rfl⟩
  · refine Or.inr ⟨fun st hst => ?_, ⟨rfl, rfl, rfl, rfl, rfl, rfl, rfl⟩⟩
    have hsome : d.stream = some st := hst
    rw [hsome] at hbelow
    simpa using hbelow

/-! ## Keeping the invariant -/

theorem Lined.congr (h : Lined os s) (hqueued : t.queued = s.queued) (hfloor : t.floor = s.floor)
    (hstopped : t.writer.stoppedGroup = s.writer.stoppedGroup) : Lined os t := by
  refine h.filter (fun _ => true) (by simp [hqueued]) (fun g hg => ?_) hstopped
  rw [hfloor]
  exact Or.inl (hg.resolve_left (by simp))

theorem current_eq_none (hstream : t.writer.stream = none)
    (hopening : ∀ x y epoch, t.task = .sending x (.opening y epoch) → epoch ≠ t.writer.epoch) :
    current t = none := by
  rw [Option.eq_none_iff_forall_not_mem]
  intro c hc
  rcases mem_current hc with ⟨st, hst, -⟩ | ⟨-, x, y, htask, -⟩
  · rw [hstream] at hst
    simp at hst
  · exact hopening x y _ htask rfl

theorem current_cleared (haloft : Aloft s) (htask : t.task = s.task)
    (hcleared : Cleared s.writer t.writer) : current t = none := by
  refine current_eq_none hcleared.stream fun x y epoch hopening => ?_
  rw [htask] at hopening
  rw [Aloft, hopening] at haloft
  obtain ⟨-, hle, -⟩ := haloft
  rw [hcleared.epoch]
  omega

theorem aloft_same (haloft : Aloft s) (htask : t.task = s.task)
    (hsame : SameStreams s.writer t.writer) : Aloft t := by
  unfold Aloft at haloft ⊢
  rw [htask]
  cases hs : s.task with
  | sending x await =>
    rw [hs] at haloft
    exact hsame.flying haloft
  | ending await =>
    rw [hs] at haloft
    exact ⟨haloft.1, hsame.stream.trans haloft.2⟩
  | _ => trivial

theorem aloft_cleared (haloft : Aloft s) (htask : t.task = s.task)
    (hcleared : Cleared s.writer t.writer) : Aloft t := by
  unfold Aloft at haloft ⊢
  rw [htask]
  cases hs : s.task with
  | sending x await =>
    rw [hs] at haloft
    exact hcleared.flying haloft
  | ending await =>
    rw [hs] at haloft
    exact ⟨haloft.1, hcleared.stream⟩
  | _ => trivial

theorem aloft_of_not_busy (h : s.busy = false) : Aloft s := by
  unfold SendLane.busy at h
  unfold Aloft
  cases htask : s.task with
  | sending x await => rw [htask] at h; simp at h
  | ending await => rw [htask] at h; simp at h
  | _ => trivial

/-- Only an open stream counts where the task writes nothing. -/
theorem current_of_not_busy (h : s.busy = false) :
    current s = s.writer.stream.map fun st => (st.groupId, st.opener) := by
  cases hstream : s.writer.stream with
  | some st => rw [current_of_stream hstream, Option.map_some]
  | none =>
    rw [Option.map_none]
    refine current_eq_none hstream fun x y epoch htask => ?_
    rw [SendLane.busy, htask] at h
    simp at h

namespace Sound

/-- No stream is open or being opened. -/
theorem unstreamed (h : Sound os s) (ht : t.Accounts) (hoffered : t.offered = s.offered)
    (hqueued : ∀ x ∈ t.queued, x ∈ s.queued) (hflown : ∀ x ∈ t.inFlight, x ∈ os)
    (hmapping : t.writer.mapping = s.writer.mapping) (hlined : Lined os t)
    (hnone : current t = none) (haloft : Aloft t) (hledger : Ledger t.writer) : Sound os t where
  accounts := ht
  places := hoffered ▸ h.places
  ranked := h.ranked
  within x hx := h.within x (hqueued x hx)
  flown := hflown
  perGroup := hmapping.trans h.perGroup
  lined := hlined
  carries c hc := by
    rw [hnone] at hc
    simp at hc
  aloft := haloft
  ledger := hledger

theorem carries_of (h : Sound os s) {st : OpenStream} (hst : s.writer.stream = some st) :
    Carries os s st.groupId st.opener := h.carries _ (current_of_stream hst)

/-- What waits and the floor are as they were, no stream is new, and what was kept is. -/
theorem still (h : Sound os s) (ht : t.Accounts)
    (hplaces : t.offered.Pairwise (·.place < ·.place)) (hqueued : t.queued = s.queued)
    (hcut : .control .cut ∈ s.items → .control .cut ∈ t.items) (hfloor : t.floor = s.floor)
    (hstopped : t.stopped = s.stopped) (hended : ended t = false → ended s = false)
    (hflown : ∀ x ∈ t.inFlight, x ∈ os) (hmapping : t.writer.mapping = s.writer.mapping)
    (hgroup : t.writer.stoppedGroup = s.writer.stoppedGroup)
    (hcurrent : ∀ c ∈ current t, c ∈ current s) (hkept : ∀ z, Carried s z → Carried t z)
    (haloft : Aloft t) (hledger : Ledger t.writer) : Sound os t := by
  have hbegins : ∀ g', Begins s g' → Begins t g' := by
    intro g' hbegins
    unfold Begins at hbegins ⊢
    rwa [hfloor, hqueued]
  exact {
    accounts := ht
    places := hplaces
    ranked := h.ranked
    within := hqueued ▸ h.within
    flown := hflown
    perGroup := hmapping.trans h.perGroup
    lined := h.lined.congr hqueued hfloor hgroup
    carries := fun c hc => by
      have hcarries := h.carries c (hcurrent c hc)
      refine hcarries.mono (hqueued ▸ hcarries.behind) (fun hgoes => ⟨hstopped ▸ hgoes, hbegins⟩)
        hgroup ?_ ?_
      · rw [hfloor]
        exact fun hgoes floor hmem hlt => hcut (hcarries.cut (hended hgoes) floor hmem hlt)
      · rw [hfloor]
        exact fun hgoes hle => ⟨hended hgoes, hle, fun z _ _ _ => hkept z⟩
    aloft := haloft
    ledger := hledger }

/-- Nothing changed that the invariant is about. -/
theorem same (h : Sound os s) (ht : t.Accounts)
    (hplaces : t.offered.Pairwise (·.place < ·.place)) (hitems : t.items = s.items)
    (hfloor : t.floor = s.floor) (htask : t.task = s.task) (hstopped : t.stopped = s.stopped)
    (hsame : SameStreams s.writer t.writer) (hledger : Ledger t.writer) : Sound os t := by
  have hqueued : t.queued = s.queued := by
    rw [SendLane.queued_eq, SendLane.queued_eq, hitems]
  have hflight : t.inFlight = s.inFlight := by
    unfold SendLane.inFlight
    rw [htask]
  have hended : ended t = ended s := by
    unfold ended
    rw [htask]
  have hcurrent : current t = current s := by
    unfold current
    rw [hsame.stream, htask, hsame.epoch]
  refine h.still ht hplaces hqueued (hitems ▸ id) hfloor hstopped (hended ▸ id)
    (hflight ▸ h.flown) hsame.mapping hsame.stoppedGroup (fun c hc => hcurrent ▸ hc)
    (fun z hkept => ?_) (aloft_same h.aloft htask hsame) hledger
  unfold Carried SentOn at hkept ⊢
  rwa [hqueued, hflight, hsame.stream, hsame.sent, hsame.excluded]

/-- The streams are cleared, and the rest is as it was. -/
theorem cleared (h : Sound os s) {writer : SubgroupDelivery} (hcleared : Cleared s.writer writer)
    (hledger : Ledger writer) :
    Sound os { s with writer } ∧ current { s with writer } = none := by
  have hnone : current { s with writer } = none := current_cleared h.aloft rfl hcleared
  refine ⟨h.unstreamed { h.accounts with } rfl (fun _ hx => hx) h.flown hcleared.mapping
    (h.lined.congr rfl rfl hcleared.stoppedGroup) hnone (aloft_cleared h.aloft rfl hcleared)
    hledger, hnone⟩

theorem skip (h : Sound os s) (hnone : current s = none) (gid : Nat) (count : Bool) :
    Sound os (s.skip gid count) ∧ current (s.skip gid count) = none := by
  have haccounts := h.accounts.skip gid count
  rcases SendLane.skip_eq s gid count with ⟨heq, -⟩ | ⟨hbelow, bytes, replayBytes, objects, shed, heq⟩
  · rw [heq]
    exact ⟨h, hnone⟩
  · rw [heq] at haccounts ⊢
    have hqueued := SendLane.filterMap_above (gid + 1) s.items
    refine ⟨h.unstreamed haccounts rfl (fun x hx => ?_) h.flown rfl ?_ hnone h.aloft h.ledger, hnone⟩
    · rw [SendLane.queued_eq, hqueued] at hx
      exact (List.mem_filter.mp hx).1
    · refine h.lined.filter (fun g => decide (gid + 1 ≤ g)) hqueued (fun g hg => Or.inl ?_) rfl
      refine ⟨gid + 1, rfl, ?_⟩
      rcases hg with hg | ⟨floor, hfloor, hlt⟩
      · simpa using hg
      · exact hlt.trans (hbelow floor hfloor)

/-- Groups are shed: a CUT waits at the head of the queue for what is below the new floor. -/
theorem sheds (h : Sound os s) {cutAt : Nat} (hsheds : SendLane.Sheds SubgroupDelivery.writer s t cutAt)
    (ht : t.Accounts) (hstopped : s.stopped = false) : Sound os t := by
  obtain ⟨read, hreads, hwriter⟩ := hsheds.writer
  have hread := same_reads hreads
  have hledgerRead := ledger_reads hreads h.ledger
  have hraised : cutAt ≤ s.floor.elim cutAt (max · cutAt) ∧
      ∀ floor ∈ s.floor, floor ≤ s.floor.elim cutAt (max · cutAt) := by
    cases s.floor with
    | none => simp
    | some floor => simp
  have hqueued : ∀ x, x ∈ t.queued ↔ x ∈ s.queued ∧ cutAt ≤ x.groupId := by
    intro x
    rw [hsheds.queued, List.mem_filter, decide_eq_true_iff]
  have hflight : t.inFlight = s.inFlight := by
    unfold SendLane.inFlight
    rw [hsheds.task]
  have hlined : t.writer.stoppedGroup = s.writer.stoppedGroup → Lined os t := by
    refine h.lined.filter (fun g => decide (cutAt ≤ g)) hsheds.queued fun g hg => Or.inl ?_
    refine ⟨_, hsheds.floor, ?_⟩
    rcases hg with hg | ⟨floor, hfloor, hlt⟩
    · have hlt : g < cutAt := by simpa using hg
      exact hlt.trans_le hraised.1
    · exact hlt.trans_le (hraised.2 floor hfloor)
  have hclear : Cleared read t.writer → Ledger t.writer → Sound os t := by
    intro hcleared hledger
    have hcleared' : Cleared s.writer t.writer :=
      ⟨hcleared.stream, by rw [hcleared.epoch, hread.epoch],
        hcleared.stoppedGroup.trans hread.stoppedGroup, hcleared.mapping.trans hread.mapping,
        hcleared.fins.trans hread.fins⟩
    exact h.unstreamed ht hsheds.offered (fun x hx => ((hqueued x).mp hx).1) (hflight ▸ h.flown)
      hcleared'.mapping (hlined hcleared'.stoppedGroup)
      (current_cleared h.aloft hsheds.task hcleared')
      (aloft_cleared h.aloft hsheds.task hcleared') hledger
  have hsame : SameStreams read t.writer → Ledger t.writer → Sound os t := by
    intro hsame' hledger
    have hsame := hread.trans hsame'
    exact {
      accounts := ht
      places := hsheds.offered ▸ h.places
      ranked := h.ranked
      within := fun x hx => h.within x ((hqueued x).mp hx).1
      flown := hflight ▸ h.flown
      perGroup := hsame.mapping.trans h.perGroup
      lined := hlined hsame.stoppedGroup
      carries := fun c hc => by
        have hcurrent : current t = current s := by
          unfold current
          rw [hsame.stream, hsheds.task, hsame.epoch]
        rw [hcurrent] at hc
        have hcarries := h.carries c hc
        refine hcarries.mono (fun y hy => hcarries.behind y ((hqueued y).mp hy).1)
          (fun _ => ⟨hstopped, ?_⟩) hsame.stoppedGroup (fun _ _ _ _ => ?_) (fun hgoes hle => ?_)
        · rintro g' (⟨floor, hfloor, hlt⟩ | ⟨y, hy, hgroup, hstart⟩)
          · exact Or.inl ⟨_, hsheds.floor, hlt.trans_le (hraised.2 floor hfloor)⟩
          · by_cases hcut : cutAt ≤ y.groupId
            · exact Or.inr ⟨y, (hqueued y).mpr ⟨hy, hcut⟩, hgroup, hstart⟩
            · exact Or.inl ⟨_, hsheds.floor, by omega⟩
        · rcases hsheds.cut with hcut | hcut
          · exact hcut
          · refine hsheds.controls _ (List.mem_of_mem_head? ?_)
            exact h.accounts.cut hcut hstopped
        · have hgoes' : ended s = false := by
            unfold ended at hgoes ⊢
            rwa [hsheds.task] at hgoes
          have hfloor := hle _ hsheds.floor
          refine ⟨hgoes', fun floor hmem => (hraised.2 floor hmem).trans hfloor, ?_⟩
          rintro z _ hgroup _ (hz | hz | hz | hz)
          · exact Or.inl ((hqueued z).mpr ⟨hz, hgroup ▸ hraised.1.trans hfloor⟩)
          · exact Or.inr (Or.inl (hflight.trans hz))
          · refine Or.inr (Or.inr (Or.inl ?_))
            unfold SentOn at hz ⊢
            rwa [hsame.stream, hsame.sent]
          · exact Or.inr (Or.inr (Or.inr (hsame.excluded ▸ hz)))
      aloft := aloft_same h.aloft hsheds.task hsame
      ledger := hledger }
  rcases hwriter with heq | ⟨ans, heq⟩
  · exact hsame (heq ▸ .refl read) (heq ▸ hledgerRead)
  · have hledger : Ledger t.writer := heq ▸ hledgerRead.resetBelow _ ans
    rcases resetBelow_cases read (s.floor.elim cutAt (max · cutAt)) ans with hcleared | ⟨-, hkeeps⟩
    · exact hclear (heq ▸ hcleared) hledger
    · exact hsame (heq ▸ hkeeps) hledger

/-- The task is over. -/
theorem exited (h : Sound os s) : Sound os { s with task := .exited } where
  __ := h
  accounts := h.accounts.finished rfl rfl
  flown x hx := by simp [SendLane.inFlight] at hx
  lined := h.lined.congr rfl rfl rfl
  carries c hc := by
    rcases mem_current hc with ⟨st, hst, rfl⟩ | ⟨-, x, y, htask, -⟩
    · have hcarries := h.carries_of hst
      exact hcarries.mono hcarries.behind (fun hgoes => ⟨hgoes, fun _ => id⟩) rfl
        (fun hgoes => absurd hgoes Bool.true_eq_false.mp)
        (fun hgoes => absurd hgoes Bool.true_eq_false.mp)
    · simp at htask
  aloft := trivial

end Sound

end AioMoqt.Delivery
