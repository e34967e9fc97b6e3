import AioMoqt.Session.StreamWrites

/-!
# What the transport takes of a stream

The calls on other streams do not touch a stream, so its writes are a machine of their own: the
terminal op that waits, and what the transport took.  A run on it leaves no hole as long as
nothing that was passed is lost before something later is taken.
-/

namespace AioMoqt.Session

open AioMoqt.Lib AioMoqt.Lib.BigEndian

/-! ## One stream -/

/-- The half of a stream that an op is for. -/
def TxOp.side : TxOp → TxSide
  | .stop _ => .recv
  | _ => .send

def TxItem.side : TxItem → TxSide
  | .data _ => .send
  | .op retried => retried.side

/-- The bytes that an item carries. -/
def TxItem.bytes : TxItem → Bytes
  | .data bs => bs
  | .op (.fin bs) => bs
  | .op _ => []

def TxItem.isTerminal : TxItem → Bool
  | .data _ => false
  | .op _ => true

def TxItem.isFin : TxItem → Bool
  | .op (.fin _) => true
  | _ => false

/-- The sending half of a stream: its queued op, and what the transport took. -/
structure SendHalf where
  writable : Bool
  queued : Option (TxOp × Nat)
  sent : List TxItem

/-- What the transport took of the sending half of a stream. -/
def sendItems (streamId : Nat) (taken : List (Nat × TxItem)) : List TxItem :=
  taken.filterMap fun (id, item) => if id = streamId ∧ item.side = .send then some item else none

def TxState.half (s : TxState) (streamId : Nat) : SendHalf where
  writable := s.writable
  queued := s.deferred.get? (streamId, .send)
  sent := sendItems streamId s.taken

namespace SendHalf

def queuedData (half : SendHalf) : Bytes :=
  match half.queued with
  | some (.fin data, _) => data
  | _ => []

/-- An op handed to the transport. -/
def push (half : SendHalf) (op : TxOp) (now : Nat) : TxOutcome → SendHalf
  | .accepted => { half with sent := half.sent ++ [.op op] }
  | .full => { half with queued := some (op, now) }
  | .raised => half

/-- The queued op, retried. -/
def retry (half : SendHalf) (op : TxOp) (since now : Nat) : TxOutcome → SendHalf
  | .accepted => { half with queued := none, sent := half.sent ++ [.op op] }
  | .full => if txRetryGiveUp < now - since then { half with queued := none } else half
  | .raised => { half with queued := none }

def step (half : SendHalf) (streamId : Nat) : TxEvent → SendHalf
  | .write id data endStream now outcome =>
      if id = streamId ∧ half.writable = true ∧ half.queued = none then
        if endStream then half.push (.fin data) now outcome
        else if outcome = .accepted then { half with sent := half.sent ++ [.data data] } else half
      else half
  | .reset id errorCode reliableSize now outcome =>
      if id = streamId ∧ half.writable = true then
        ({ half with queued := none } : SendHalf).push (.reset errorCode reliableSize) now outcome
      else half
  | .stopSending .. => half
  | .flush now outcome =>
      if half.writable then
        match half.queued with
        | none => half
        | some (op, since) => half.retry op since now (outcome (streamId, .send))
      else { half with queued := none }
  | .close => { half with writable := false }

end SendHalf

theorem sendItems_concat_own {streamId : Nat} {taken : List (Nat × TxItem)} {item : TxItem}
    (h : item.side = .send) :
    sendItems streamId (taken ++ [(streamId, item)]) = sendItems streamId taken ++ [item] := by
  simp [sendItems, List.filterMap_append, h]

theorem sendItems_concat_other {streamId id : Nat} {taken : List (Nat × TxItem)} {item : TxItem}
    (h : ¬ (id = streamId ∧ item.side = .send)) :
    sendItems streamId (taken ++ [(id, item)]) = sendItems streamId taken := by
  simp [sendItems, List.filterMap_append, h]

/-- Every queued op waits under its own half of the stream. -/
structure Sided (s : TxState) : Prop where
  side : ∀ key op since, s.deferred.get? key = some (op, since) → op.side = key.2

/-! ## The session's step on one stream -/

theorem txOp_half_own {s : TxState} {streamId now : Nat} {op : TxOp} (h : op.side = .send)
    (outcome : TxOutcome) :
    (s.txOp streamId .send op now outcome).half streamId = (s.half streamId).push op now outcome := by
  have hitem : (TxItem.op op).side = .send := h
  cases outcome with
  | accepted => simp [TxState.txOp, TxState.txSend, TxState.half, SendHalf.push,
      sendItems_concat_own hitem]
  | full => simp [TxState.txOp, TxState.txSend, TxState.half, SendHalf.push, Dict.get?_insert]
  | raised => rfl

theorem txOp_half_other {s : TxState} {streamId id now : Nat} {side : TxSide} {op : TxOp}
    (hside : op.side = side) (h : ¬ (id = streamId ∧ side = .send)) (outcome : TxOutcome) :
    (s.txOp id side op now outcome).half streamId = s.half streamId := by
  have hitem : ¬ (id = streamId ∧ (TxItem.op op).side = .send) := by
    rintro ⟨hid, hsend⟩
    exact h ⟨hid, hside ▸ hsend⟩
  have hkey : ¬ ((streamId, TxSide.send) = (id, side)) := by
    rintro ⟨⟩
    exact h ⟨rfl, rfl⟩
  cases outcome with
  | accepted => simp [TxState.txOp, TxState.txSend, TxState.half, sendItems_concat_other hitem]
  | full => simp [TxState.txOp, TxState.txSend, TxState.half, Dict.get?_insert, hkey]
  | raised => rfl

theorem flushEntry_half_own {s : TxState} {streamId now : Nat} {op : TxOp} {since : Nat}
    (h : op.side = .send) (outcome : Nat × TxSide → TxOutcome) :
    (s.flushEntry now outcome ((streamId, .send), (op, since))).half streamId =
      (s.half streamId).retry op since now (outcome (streamId, .send)) := by
  have hitem : (TxItem.op op).side = .send := h
  unfold TxState.flushEntry SendHalf.retry
  cases houtcome : outcome (streamId, .send) with
  | accepted => simp [TxState.txSend, TxState.half, sendItems_concat_own hitem, Dict.get?_erase]
  | full =>
      simp only [TxState.txSend]
      split_ifs
      · simp [TxState.half, Dict.get?_erase]
      · rfl
  | raised => simp [TxState.txSend, TxState.half, Dict.get?_erase]

theorem flushEntry_half_other {s : TxState} {streamId now : Nat}
    {entry : (Nat × TxSide) × (TxOp × Nat)} (hside : entry.2.1.side = entry.1.2)
    (h : entry.1 ≠ (streamId, .send)) (outcome : Nat × TxSide → TxOutcome) :
    (s.flushEntry now outcome entry).half streamId = s.half streamId := by
  obtain ⟨⟨id, side⟩, op, since⟩ := entry
  have hitem : ¬ (id = streamId ∧ (TxItem.op op).side = .send) := by
    rintro ⟨rfl, hsend⟩
    have hsame : side = .send := hside.symm.trans hsend
    exact h (by rw [hsame])
  have hkey : ¬ ((streamId, TxSide.send) = (id, side)) := fun heq => h heq.symm
  unfold TxState.flushEntry
  cases houtcome : outcome (id, side) with
  | accepted => simp [TxState.txSend, TxState.half, sendItems_concat_other hitem, Dict.get?_erase,
      hkey]
  | full =>
      simp only [TxState.txSend]
      split_ifs
      · simp [TxState.half, Dict.get?_erase, hkey]
      · rfl
  | raised => simp [TxState.txSend, TxState.half, Dict.get?_erase, hkey]

theorem foldl_flushEntry_other {streamId now : Nat} {outcome : Nat × TxSide → TxOutcome}
    (entries : List ((Nat × TxSide) × (TxOp × Nat))) :
    ∀ {s : TxState}, (∀ entry ∈ entries, entry.2.1.side = entry.1.2) →
      (∀ entry ∈ entries, entry.1 ≠ (streamId, .send)) →
      (entries.foldl (TxState.flushEntry now outcome) s).half streamId = s.half streamId := by
  induction entries with
  | nil => intros; rfl
  | cons entry entries ih =>
      intro s hside hother
      rw [List.foldl_cons, ih (fun e he => hside e (by simp [he]))
        (fun e he => hother e (by simp [he]))]
      exact flushEntry_half_other (hside entry (by simp)) (hother entry (by simp)) outcome

/-- A retry of the whole queue retries the stream's own op. -/
theorem flushDeferred_half {s : TxState} (hsided : Sided s) (streamId now : Nat)
    (outcome : Nat × TxSide → TxOutcome) :
    (s.flushDeferred now outcome).half streamId =
      (s.half streamId).step streamId (.flush now outcome) := by
  have hside : ∀ entry ∈ s.deferred.entries, entry.2.1.side = entry.1.2 := fun entry h =>
    hsided.side entry.1 entry.2.1 entry.2.2 (Dict.get?_eq_some.mpr h)
  unfold TxState.flushDeferred SendHalf.step
  dsimp only
  by_cases hwritable : s.writable
  · have hhalf : (s.half streamId).writable = true := hwritable
    rw [if_pos hwritable, if_pos hhalf]
    cases hqueued : (s.half streamId).queued with
    | none =>
        apply foldl_flushEntry_other _ hside
        intro entry hentry heq
        have hget : s.deferred.get? (streamId, .send) = some entry.2 := by
          rw [← heq]
          exact Dict.get?_eq_some.mpr hentry
        have hnone : s.deferred.get? (streamId, .send) = none := hqueued
        rw [hnone] at hget
        cases hget
    | some pair =>
        obtain ⟨op, since⟩ := pair
        have hget : s.deferred.get? (streamId, .send) = some (op, since) := hqueued
        -- the ops in front of the stream's and those behind it are of other keys
        obtain ⟨before, after, hsplit⟩ := List.append_of_mem (Dict.get?_eq_some.mp hget)
        have hnodup := s.deferred.nodup
        rw [hsplit] at hside hnodup
        rw [List.map_append, List.map_cons, List.nodup_append] at hnodup
        obtain ⟨_, hbehind, hapart⟩ := hnodup
        rw [List.nodup_cons] at hbehind
        have hbefore : ∀ entry ∈ before, entry.1 ≠ (streamId, TxSide.send) := fun entry h =>
          hapart entry.1 (List.mem_map_of_mem h) _ List.mem_cons_self
        have hafter : ∀ entry ∈ after, entry.1 ≠ (streamId, TxSide.send) := by
          intro entry h heq
          have hmem := List.mem_map_of_mem (f := Prod.fst) h
          rw [heq] at hmem
          exact hbehind.1 hmem
        rw [hsplit, List.foldl_append, List.foldl_cons,
          foldl_flushEntry_other after (fun e h => hside e (by simp [h])) hafter,
          flushEntry_half_own (hsided.side _ op since hget) outcome,
          foldl_flushEntry_other before (fun e h => hside e (by simp [h])) hbefore]
  · have hhalf : ¬ (s.half streamId).writable = true := hwritable
    rw [if_neg hwritable, if_neg hhalf]
    rfl

theorem mem_keys_iff {s : TxState} {streamId : Nat} :
    (streamId, TxSide.send) ∈ s.deferred.keys ↔ (s.half streamId).queued ≠ none := by
  constructor
  · intro h
    obtain ⟨entry, hentry, heq⟩ := List.mem_map.mp h
    have hget : s.deferred.get? (streamId, .send) = some entry.2 := by
      rw [← heq]
      exact Dict.get?_eq_some.mpr hentry
    intro hnone
    have hsame : s.deferred.get? (streamId, .send) = none := hnone
    rw [hsame] at hget
    cases hget
  · intro h
    by_contra hnot
    exact h (Dict.get?_eq_none hnot)

/-- A step of the session is a step of the stream. -/
theorem step_half {s : TxState} (hsided : Sided s) (streamId : Nat) (event : TxEvent) :
    (s.step event).half streamId = (s.half streamId).step streamId event := by
  cases event with
  | write id data endStream now outcome =>
      unfold TxState.step TxState.streamWrite SendHalf.step
      dsimp only
      by_cases hwritable : s.writable
      · have hlive : ¬ ¬ s.writable = true := not_not_intro hwritable
        rw [if_neg hlive]
        by_cases hid : id = streamId
        · subst hid
          by_cases hqueued : (s.half id).queued = none
          · have hfree : ¬ (id, TxSide.send) ∈ s.deferred.keys := fun h => mem_keys_iff.mp h hqueued
            have hown : id = id ∧ (s.half id).writable = true ∧ (s.half id).queued = none :=
              ⟨rfl, hwritable, hqueued⟩
            rw [if_neg hfree, if_pos hown]
            cases endStream with
            | true => exact txOp_half_own rfl outcome
            | false =>
                cases outcome with
                | accepted =>
                    have hitem : (TxItem.data data).side = .send := rfl
                    simp [TxState.half, sendItems_concat_own hitem]
                | _ => rfl
          · have hown : ¬ (id = id ∧ (s.half id).writable = true ∧ (s.half id).queued = none) :=
              fun h => hqueued h.2.2
            rw [if_pos (mem_keys_iff.mpr hqueued), if_neg hown]
        · have hown : ¬ (id = streamId ∧ (s.half streamId).writable = true ∧
              (s.half streamId).queued = none) := fun h => hid h.1
          rw [if_neg hown]
          split_ifs
          · rfl
          · exact txOp_half_other rfl (fun h => hid h.1) outcome
          · cases outcome with
            | accepted =>
                have hother : ¬ (id = streamId ∧ (TxItem.data data).side = .send) := fun h => hid h.1
                simp [TxState.half, sendItems_concat_other hother]
            | _ => rfl
      · have hown : ¬ (id = streamId ∧ (s.half streamId).writable = true ∧
            (s.half streamId).queued = none) := fun h => hwritable h.2.1
        rw [if_pos hwritable, if_neg hown]
  | reset id errorCode reliableSize now outcome =>
      unfold TxState.step TxState.streamReset SendHalf.step
      dsimp only
      by_cases hwritable : s.writable
      · have hlive : ¬ ¬ s.writable = true := not_not_intro hwritable
        rw [if_neg hlive]
        by_cases hid : id = streamId
        · subst hid
          have hown : id = id ∧ (s.half id).writable = true := ⟨rfl, hwritable⟩
          rw [if_pos hown, txOp_half_own rfl]
          simp [TxState.half, Dict.get?_erase]
        · have hown : ¬ (id = streamId ∧ (s.half streamId).writable = true) := fun h => hid h.1
          have hkey : ¬ ((streamId, TxSide.send) = (id, TxSide.send)) := by
            rintro ⟨⟩
            exact hid rfl
          have hsend : (TxOp.reset errorCode reliableSize).side = TxSide.send := rfl
          rw [if_neg hown, txOp_half_other hsend (fun h => hid h.1)]
          simp [TxState.half, Dict.get?_erase, hkey]
      · have hown : ¬ (id = streamId ∧ (s.half streamId).writable = true) :=
          fun h => hwritable h.2
        rw [if_pos hwritable, if_neg hown]
  | stopSending id errorCode now outcome =>
      have hrecv : (TxOp.stop errorCode).side = TxSide.recv := rfl
      have hother : ¬ (id = streamId ∧ TxSide.recv = .send) := by simp
      unfold TxState.step TxState.streamStopSending SendHalf.step
      dsimp only
      split_ifs
      · exact txOp_half_other hrecv hother outcome
      · rfl
  | flush now outcome => exact flushDeferred_half hsided streamId now outcome
  | close => rfl

theorem Sided.txOp {s : TxState} (h : Sided s) {id now : Nat} {side : TxSide} {op : TxOp}
    (hside : op.side = side) (outcome : TxOutcome) : Sided (s.txOp id side op now outcome) := by
  cases outcome with
  | accepted => exact ⟨h.side⟩
  | raised => exact ⟨h.side⟩
  | full =>
      constructor
      intro key retried since hget
      have hget' : (s.deferred.insert (id, side) (op, now)).get? key = some (retried, since) := hget
      rw [Dict.get?_insert] at hget'
      split_ifs at hget' with hkey
      · cases hget'
        rw [hkey]
        exact hside
      · exact h.side key retried since hget'

theorem Sided.erase {s : TxState} (h : Sided s) (key : Nat × TxSide) :
    Sided { s with deferred := s.deferred.erase key } := by
  constructor
  intro other op since hget
  rw [Dict.get?_erase] at hget
  split_ifs at hget
  exact h.side other op since hget

theorem Sided.flushEntry {s : TxState} (h : Sided s) (now : Nat)
    (outcome : Nat × TxSide → TxOutcome) (entry : (Nat × TxSide) × (TxOp × Nat)) :
    Sided (s.flushEntry now outcome entry) := by
  unfold TxState.flushEntry
  cases outcome entry.1 with
  | accepted => exact ⟨(h.erase entry.1).side⟩
  | raised => exact h.erase entry.1
  | full =>
      simp only [TxState.txSend]
      split_ifs
      · exact h.erase entry.1
      · exact h

theorem Sided.foldl_flushEntry {now : Nat} {outcome : Nat × TxSide → TxOutcome}
    (entries : List ((Nat × TxSide) × (TxOp × Nat))) :
    ∀ {s : TxState}, Sided s → Sided (entries.foldl (TxState.flushEntry now outcome) s) := by
  induction entries with
  | nil => exact fun h => h
  | cons entry entries ih =>
      intro s h
      exact ih (h.flushEntry now outcome entry)

theorem Sided.step {s : TxState} (h : Sided s) (event : TxEvent) : Sided (s.step event) := by
  cases event with
  | write id data endStream now outcome =>
      have hfin : Sided (s.txOp id .send (.fin data) now outcome) := h.txOp rfl outcome
      unfold TxState.step TxState.streamWrite
      dsimp only
      split_ifs
      · exact h
      · exact hfin
      · cases outcome
        · exact ⟨h.side⟩
        · exact h
        · exact h
      · exact h
  | reset id errorCode reliableSize now outcome =>
      unfold TxState.step TxState.streamReset
      dsimp only
      split_ifs
      · exact (h.erase (id, .send)).txOp rfl outcome
      · exact h
  | stopSending id errorCode now outcome =>
      unfold TxState.step TxState.streamStopSending
      dsimp only
      split_ifs
      · exact h.txOp rfl outcome
      · exact h
  | flush now outcome =>
      unfold TxState.step TxState.flushDeferred
      dsimp only
      split_ifs
      · exact h.foldl_flushEntry s.deferred.entries
      · exact ⟨fun key op since hget => by cases hget⟩
  | close => exact ⟨h.side⟩

/-! ## What a stream delivers -/

/-- The data taken up to the stream's FIN or reset. -/
def dataBefore : List TxItem → Bytes
  | [] => []
  | .data data :: rest => data ++ dataBefore rest
  | .op op :: _ => (TxItem.op op).bytes

theorem dataBefore_open {sent : List TxItem} (h : sent.countP TxItem.isTerminal = 0)
    (item : TxItem) : dataBefore (sent ++ [item]) = dataBefore sent ++ item.bytes := by
  induction sent with
  | nil => cases item <;> simp [dataBefore, TxItem.bytes]
  | cons first sent ih =>
      cases first with
      | data data =>
          rw [List.countP_cons_of_neg (by simp [TxItem.isTerminal])] at h
          rw [List.cons_append, dataBefore, dataBefore, ih h, List.append_assoc]
      | op op =>
          rw [List.countP_cons_of_pos (by rfl)] at h
          omega

theorem dataBefore_ended {sent : List TxItem} (h : sent.countP TxItem.isTerminal ≠ 0)
    (item : TxItem) : dataBefore (sent ++ [item]) = dataBefore sent := by
  induction sent with
  | nil => exact absurd rfl h
  | cons first sent ih =>
      cases first with
      | data data =>
          rw [List.countP_cons_of_neg (by simp [TxItem.isTerminal])] at h
          rw [List.cons_append, dataBefore, dataBefore, ih h]
      | op op => rfl

/-- The data passed to `stream_write`. -/
def passed (streamId : Nat) (events : List TxEvent) : Bytes :=
  events.flatMap fun
    | .write id data _ _ _ => if id = streamId then data else []
    | _ => []

def TxEvent.resets (streamId : Nat) : TxEvent → Bool
  | .reset id .. => id = streamId
  | _ => false

/-- The transport took a FIN. -/
def Finished (sent : List TxItem) : Prop := ∃ data, .op (.fin data) ∈ sent

/-- What a run of calls delivers of a stream, from a session with nothing written. -/
structure NoHole (streamId : Nat) (events : List TxEvent) : Prop where
  deliver : dataBefore ((({} : TxState).run events).half streamId).sent <+: passed streamId events
  complete : Finished ((({} : TxState).run events).half streamId).sent →
    dataBefore ((({} : TxState).run events).half streamId).sent = passed streamId events
  once : ((({} : TxState).run events).half streamId).sent.countP TxItem.isTerminal ≤ 1
  resetWins : ∀ before event after, events = before ++ event :: after →
    event.resets streamId = true → ¬ Finished ((({} : TxState).run before).half streamId).sent →
    ¬ Finished ((({} : TxState).run events).half streamId).sent

/-! ## When it leaves no hole -/

/-- What happened to a stream: whether data that was passed is lost, and whether a reset was
asked for. -/
structure Past where
  lost : Bool := false
  resetAsked : Bool := false

/-- An event loses data: a write that the transport does not take or that finds a terminal op
queued, and a queued FIN that is replaced by a reset, given up or raises. -/
def Past.after (past : Past) (streamId : Nat) (half : SendHalf) : TxEvent → Past
  | .write id data endStream _ outcome =>
      if id = streamId ∧ data ≠ [] ∧ (half.writable = false ∨ half.queued ≠ none ∨
          outcome = .raised ∨ outcome = .full ∧ endStream = false) then
        { past with lost := true }
      else past
  | .reset id .. =>
      if id = streamId then { lost := past.lost || half.queuedData ≠ [], resetAsked := true }
      else past
  | .flush now outcome =>
      if half.queuedData ≠ [] ∧ (half.step streamId (.flush now outcome)).queued = none ∧
          ¬ (half.writable = true ∧ outcome (streamId, .send) = .accepted) then
        { past with lost := true }
      else past
  | _ => past

/-- The calls and the transport keep to what the code is right for: once data is lost no more data
and no FIN is taken, no terminal op is asked for when the transport took one, no FIN after a reset
that is not queued any more, and no data is passed behind a FIN that was taken. -/
def Meets (streamId : Nat) (past : Past) (half : SendHalf) : TxEvent → Prop
  | .write id data endStream _ outcome => id = streamId →
      (data ≠ [] → half.sent.any TxItem.isFin = false) ∧
      (endStream = true → half.sent.countP TxItem.isTerminal = 0 ∧
        (half.queued ≠ none ∨ past.resetAsked = false)) ∧
      (half.sent.countP TxItem.isTerminal = 0 → half.writable = true → half.queued = none →
        outcome = .accepted → data ≠ [] ∨ endStream = true → past.lost = false)
  | .reset id .. => id = streamId → half.sent.countP TxItem.isTerminal = 0
  | .flush _ outcome =>
      half.writable = true → (half.queued.any fun op => (TxItem.op op.1).isFin) = true →
      outcome (streamId, .send) = .accepted → past.lost = false
  | _ => True

instance (streamId : Nat) (past : Past) (half : SendHalf) (event : TxEvent) :
    Decidable (Meets streamId past half event) :=
  match event with
  | .write _ _ _ _ _ => inferInstanceAs (Decidable (_ → _))
  | .reset _ _ _ _ _ => inferInstanceAs (Decidable (_ → _))
  | .flush _ _ => inferInstanceAs (Decidable (_ → _ → _ → _))
  | .stopSending _ _ _ _ | .close => inferInstanceAs (Decidable True)

/-- Every step of a run meets the condition. -/
def Conforms (streamId : Nat) : TxState → Past → List TxEvent → Prop
  | _, _, [] => True
  | s, past, event :: events =>
      Meets streamId past (s.half streamId) event ∧
        Conforms streamId (s.step event) (past.after streamId (s.half streamId) event) events

def Conforms.decide (streamId : Nat) :
    ∀ (s : TxState) (past : Past) (events : List TxEvent), Decidable (Conforms streamId s past events)
  | _, _, [] => .isTrue trivial
  | s, past, event :: events =>
      have := Conforms.decide streamId (s.step event) (past.after streamId (s.half streamId) event)
        events
      inferInstanceAs (Decidable (_ ∧ _))

instance (streamId : Nat) (s : TxState) (past : Past) (events : List TxEvent) :
    Decidable (Conforms streamId s past events) :=
  Conforms.decide streamId s past events

/-! ## The invariant -/

/-- What holds of a stream after `data` was passed to it. -/
structure Delivers (data : Bytes) (past : Past) (half : SendHalf) : Prop where
  deliver : dataBefore half.sent <+: data
  complete : Finished half.sent → dataBefore half.sent = data
  once : half.sent.countP TxItem.isTerminal ≤ 1
  queued : half.queued ≠ none → half.sent.countP TxItem.isTerminal = 0
  whole : past.lost = false → half.sent.countP TxItem.isTerminal = 0 →
    data = dataBefore half.sent ++ half.queuedData
  noFin : past.resetAsked = true → half.writable = true →
    (half.queued.any fun op => (TxItem.op op.1).isFin) = false
  unfinished : past.resetAsked = true → ¬ Finished half.sent

theorem finished_iff {sent : List TxItem} : Finished sent ↔ sent.any TxItem.isFin = true := by
  rw [List.any_eq_true]
  constructor
  · rintro ⟨data, hmem⟩
    exact ⟨_, hmem, rfl⟩
  · rintro ⟨item, hmem, hfin⟩
    cases item with
    | data data => cases hfin
    | op op =>
        cases op with
        | fin data => exact ⟨data, hmem⟩
        | _ => cases hfin

theorem ended_of_finished {sent : List TxItem} (h : Finished sent) :
    sent.countP TxItem.isTerminal ≠ 0 := by
  obtain ⟨data, hmem⟩ := h
  rw [ne_eq, List.countP_eq_zero]
  intro hnone
  exact hnone _ hmem rfl

theorem finished_concat {sent : List TxItem} {item : TxItem} (h : item.isFin = false) :
    Finished (sent ++ [item]) ↔ Finished sent := by
  rw [finished_iff, finished_iff, List.any_append]
  simp [h]

theorem countP_concat (sent : List TxItem) (item : TxItem) :
    (sent ++ [item]).countP TxItem.isTerminal =
      sent.countP TxItem.isTerminal + if item.isTerminal then 1 else 0 := by
  rw [List.countP_append, List.countP_singleton]

variable {data : Bytes} {past : Past} {half : SendHalf}

/-- Data that is passed and not taken is lost. -/
theorem Delivers.lose (h : Delivers data past half) (more : Bytes)
    (hopen : more ≠ [] → ¬ Finished half.sent) {lost : Bool}
    (hlost : lost = false → past.lost = false ∧ more = []) :
    Delivers (data ++ more) { past with lost := lost } half where
  __ := h
  deliver := h.deliver.trans (List.prefix_append data more)
  complete hfin := by
    have hnil : more = [] := by
      by_contra hmore
      exact hopen hmore hfin
    rw [hnil, List.append_nil]
    exact h.complete hfin
  whole hkept hnone := by
    obtain ⟨hpast, rfl⟩ := hlost hkept
    rw [List.append_nil]
    exact h.whole hpast hnone

/-- Data that is passed and taken. -/
theorem Delivers.take (h : Delivers data past half) {more : Bytes} (hfree : half.queued = none)
    (hopen : more ≠ [] → ¬ Finished half.sent)
    (hkept : half.sent.countP TxItem.isTerminal = 0 → more ≠ [] → past.lost = false) :
    Delivers (data ++ more) past { half with sent := half.sent ++ [.data more] } := by
  have hcount : (half.sent ++ [TxItem.data more]).countP TxItem.isTerminal =
      half.sent.countP TxItem.isTerminal := by
    rw [countP_concat]
    rfl
  have hfinish : Finished (half.sent ++ [.data more]) ↔ Finished half.sent := finished_concat rfl
  have hnoData : half.queuedData = [] := by
    unfold SendHalf.queuedData
    rw [hfree]
  constructor
  · by_cases hended : half.sent.countP TxItem.isTerminal = 0
    · change dataBefore (half.sent ++ [.data more]) <+: data ++ more
      rw [dataBefore_open hended]
      by_cases hmore : more = []
      · subst hmore
        simpa [TxItem.bytes] using h.deliver
      · have hwhole := h.whole (hkept hended hmore) hended
        rw [hnoData, List.append_nil] at hwhole
        subst hwhole
        exact List.prefix_rfl
    · change dataBefore (half.sent ++ [.data more]) <+: data ++ more
      rw [dataBefore_ended hended]
      exact h.deliver.trans (List.prefix_append data more)
  · intro hfin
    have hfin := hfinish.mp hfin
    have hnil : more = [] := by
      by_contra hmore
      exact hopen hmore hfin
    change dataBefore (half.sent ++ [.data more]) = data ++ more
    rw [dataBefore_ended (ended_of_finished hfin), h.complete hfin, hnil, List.append_nil]
  · change (half.sent ++ [TxItem.data more]).countP TxItem.isTerminal ≤ 1
    rw [hcount]
    exact h.once
  · intro hqueued
    exact absurd hfree hqueued
  · intro hpast hnone
    change (half.sent ++ [TxItem.data more]).countP TxItem.isTerminal = 0 at hnone
    rw [hcount] at hnone
    have hwhole := h.whole hpast hnone
    rw [hnoData, List.append_nil] at hwhole
    change data ++ more = dataBefore (half.sent ++ [.data more]) ++ half.queuedData
    rw [dataBefore_open hnone, hnoData, List.append_nil, hwhole]
    rfl
  · exact h.noFin
  · intro hasked hfin
    exact h.unfinished hasked (hfinish.mp hfin)

/-- A terminal op that is taken, with what it carries. -/
theorem Delivers.terminal (h : Delivers data past half) (op : TxOp) {total : Bytes}
    (hopen : half.sent.countP TxItem.isTerminal = 0) (htotal : data <+: total)
    (hfin : (TxItem.op op).isFin = true →
      total = dataBefore half.sent ++ (TxItem.op op).bytes ∧ past.resetAsked = false) :
    Delivers total past { half with queued := none, sent := half.sent ++ [.op op] } := by
  have hcount : (half.sent ++ [TxItem.op op]).countP TxItem.isTerminal = 1 := by
    rw [countP_concat, hopen]
    rfl
  have hnot : ¬ Finished half.sent := fun hfinish => ended_of_finished hfinish hopen
  have hbytes : dataBefore (half.sent ++ [.op op]) =
      dataBefore half.sent ++ (TxItem.op op).bytes := dataBefore_open hopen _
  constructor
  · change dataBefore (half.sent ++ [.op op]) <+: total
    rw [hbytes]
    cases op with
    | fin more =>
        have hall := (hfin rfl).1
        subst hall
        exact List.prefix_rfl
    | reset errorCode reliableSize =>
        change dataBefore half.sent ++ [] <+: total
        rw [List.append_nil]
        exact h.deliver.trans htotal
    | stop errorCode =>
        change dataBefore half.sent ++ [] <+: total
        rw [List.append_nil]
        exact h.deliver.trans htotal
  · intro hended
    change dataBefore (half.sent ++ [.op op]) = total
    cases hkind : (TxItem.op op).isFin with
    | true => rw [hbytes, (hfin hkind).1]
    | false => exact absurd ((finished_concat hkind).mp hended) hnot
  · exact hcount.le
  · intro hqueued
    exact absurd rfl hqueued
  · intro _ hnone
    change (half.sent ++ [TxItem.op op]).countP TxItem.isTerminal = 0 at hnone
    omega
  · intro _ _
    rfl
  · intro hasked hended
    cases hkind : (TxItem.op op).isFin with
    | true =>
        have hno := (hfin hkind).2
        rw [hasked] at hno
        cases hno
    | false => exact hnot ((finished_concat hkind).mp hended)

/-- A terminal op that is queued. -/
theorem Delivers.queue (h : Delivers data past half) (op : TxOp) (now : Nat)
    (hopen : half.sent.countP TxItem.isTerminal = 0) (hfree : half.queuedData = [])
    (hfin : (TxItem.op op).isFin = true → past.resetAsked = false) :
    Delivers (data ++ (TxItem.op op).bytes) past { half with queued := some (op, now) } := by
  constructor
  · exact h.deliver.trans (List.prefix_append data _)
  · intro hended
    exact absurd hopen (ended_of_finished hended)
  · exact h.once
  · exact fun _ => hopen
  · intro hpast hnone
    have hwhole := h.whole hpast hnone
    rw [hfree, List.append_nil] at hwhole
    change data ++ _ = dataBefore half.sent ++ _
    rw [hwhole]
    cases op <;> rfl
  · intro hasked _
    cases hkind : (TxItem.op op).isFin with
    | true =>
        have hno := hfin hkind
        rw [hasked] at hno
        cases hno
    | false => exact hkind
  · exact h.unfinished

/-- The queued op is dropped, and its data lost. -/
theorem Delivers.drop (h : Delivers data past half) {lost : Bool}
    (hlost : lost = false → past.lost = false ∧ half.queuedData = []) :
    Delivers data { past with lost := lost } { half with queued := none } where
  __ := h
  queued hqueued := absurd rfl hqueued
  whole hkept hnone := by
    obtain ⟨hpast, hdata⟩ := hlost hkept
    have hwhole := h.whole hpast hnone
    rw [hdata] at hwhole
    exact hwhole
  noFin _ _ := rfl

/-- A reset is asked for on a stream whose FIN is not taken. -/
theorem Delivers.ask (h : Delivers data past half) (hopen : ¬ Finished half.sent)
    (hfree : half.writable = true → half.queued = none) :
    Delivers data { past with resetAsked := true } half where
  __ := h
  noFin _ hwritable := by
    rw [hfree hwritable]
    rfl
  unfinished _ := hopen

/-! ## One step -/

theorem queuedData_none (h : half.queued = none) : half.queuedData = [] := by
  unfold SendHalf.queuedData
  rw [h]

theorem Delivers.write (h : Delivers data past half) {streamId : Nat} {more : Bytes}
    {endStream : Bool} {now : Nat} {outcome : TxOutcome}
    (hmeets : Meets streamId past half (.write streamId more endStream now outcome)) :
    Delivers (data ++ more) (past.after streamId half (.write streamId more endStream now outcome))
      (half.step streamId (.write streamId more endStream now outcome)) := by
  obtain ⟨hbehind, hend, hkept⟩ := hmeets rfl
  have hopen : more ≠ [] → ¬ Finished half.sent := by
    intro hmore hfinish
    have hno := hbehind hmore
    rw [finished_iff.mp hfinish] at hno
    cases hno
  -- the data is lost: the stream is as it was
  have hlose : (half.writable = false ∨ half.queued ≠ none ∨ outcome = .raised ∨
      outcome = .full ∧ endStream = false) → Delivers (data ++ more)
        (past.after streamId half (.write streamId more endStream now outcome)) half := by
    intro hcause
    unfold Past.after
    dsimp only
    by_cases hmore : more = []
    · have hnot : ¬ (streamId = streamId ∧ more ≠ [] ∧ (half.writable = false ∨
          half.queued ≠ none ∨ outcome = .raised ∨ outcome = .full ∧ endStream = false)) :=
        fun hall => hall.2.1 hmore
      rw [if_neg hnot]
      exact h.lose more hopen fun hpast => ⟨hpast, hmore⟩
    · rw [if_pos ⟨rfl, hmore, hcause⟩]
      exact h.lose more hopen fun hno => by cases hno
  have hkeep : ¬ (half.writable = false ∨ half.queued ≠ none ∨ outcome = .raised ∨
      outcome = .full ∧ endStream = false) →
      past.after streamId half (.write streamId more endStream now outcome) = past := by
    intro hcause
    unfold Past.after
    dsimp only
    rw [if_neg fun hall => hcause hall.2.2]
  unfold SendHalf.step
  dsimp only
  by_cases hlive : half.writable = true ∧ half.queued = none
  · obtain ⟨hwritable, hfree⟩ := hlive
    have hown : streamId = streamId ∧ half.writable = true ∧ half.queued = none :=
      ⟨rfl, hwritable, hfree⟩
    have hnoData := queuedData_none hfree
    have hsame : ({ half with queued := none } : SendHalf) = half := by
      rw [← hfree]
    rw [if_pos hown]
    cases endStream with
    | true =>
        rw [if_pos rfl]
        obtain ⟨hnoEnd, hfirst⟩ := hend rfl
        have hasked : past.resetAsked = false := hfirst.resolve_left (fun hno => hno hfree)
        cases outcome with
        | accepted =>
            have hlost := hkept hnoEnd hwritable hfree rfl (Or.inr rfl)
            have hwhole := h.whole hlost hnoEnd
            rw [hnoData, List.append_nil] at hwhole
            rw [hkeep (by simp [hwritable, hfree])]
            have hdone := h.terminal (.fin more) hnoEnd (List.prefix_append data more)
              fun _ => ⟨by rw [hwhole]; rfl, hasked⟩
            unfold SendHalf.push
            rw [← hfree] at hdone
            exact hdone
        | full =>
            rw [hkeep (by simp [hwritable, hfree])]
            exact h.queue (.fin more) now hnoEnd hnoData fun _ => hasked
        | raised => exact hlose (Or.inr (Or.inr (Or.inl rfl)))
    | false =>
        rw [if_neg Bool.false_ne_true]
        cases outcome with
        | accepted =>
            rw [if_pos rfl, hkeep (by simp [hwritable, hfree])]
            exact h.take hfree hopen fun hnoEnd hmore =>
              hkept hnoEnd hwritable hfree rfl (Or.inl hmore)
        | full =>
            rw [if_neg (by simp)]
            exact hlose (Or.inr (Or.inr (Or.inr ⟨rfl, rfl⟩)))
        | raised =>
            rw [if_neg (by simp)]
            exact hlose (Or.inr (Or.inr (Or.inl rfl)))
  · have hnotOwn : ¬ (streamId = streamId ∧ half.writable = true ∧ half.queued = none) :=
      fun hall => hlive hall.2
    rw [if_neg hnotOwn]
    apply hlose
    by_cases hwritable : half.writable = true
    · exact Or.inr (Or.inl fun hfree => hlive ⟨hwritable, hfree⟩)
    · exact Or.inl (Bool.not_eq_true _ ▸ hwritable)

theorem Delivers.reset (h : Delivers data past half) {streamId errorCode reliableSize now : Nat}
    {outcome : TxOutcome}
    (hmeets : Meets streamId past half (.reset streamId errorCode reliableSize now outcome)) :
    Delivers data
      (past.after streamId half (.reset streamId errorCode reliableSize now outcome))
      (half.step streamId (.reset streamId errorCode reliableSize now outcome)) := by
  have hnoEnd : half.sent.countP TxItem.isTerminal = 0 := hmeets rfl
  have hopen : ¬ Finished half.sent := fun hfinish => ended_of_finished hfinish hnoEnd
  have hlost : ∀ lost, lost = (past.lost || decide (half.queuedData ≠ [])) → lost = false →
      past.lost = false ∧ half.queuedData = [] := by
    rintro lost rfl hno
    simpa using hno
  unfold Past.after SendHalf.step
  dsimp only
  rw [if_pos rfl]
  by_cases hwritable : half.writable = true
  · rw [if_pos ⟨rfl, hwritable⟩]
    have hdrop := h.drop (hlost _ rfl)
    have hask : Delivers data
        ⟨past.lost || decide (half.queuedData ≠ []), true⟩ { half with queued := none } :=
      hdrop.ask hopen fun _ => rfl
    have hreset : (TxItem.op (.reset errorCode reliableSize)).isFin = false := rfl
    have hbytes : (TxItem.op (.reset errorCode reliableSize)).bytes = [] := rfl
    cases outcome with
    | accepted =>
        apply hask.terminal (.reset errorCode reliableSize) hnoEnd List.prefix_rfl
        intro hfin
        rw [hreset] at hfin
        cases hfin
    | full =>
        have hqueue := hask.queue (.reset errorCode reliableSize) now hnoEnd rfl
          (fun hfin => by rw [hreset] at hfin; cases hfin)
        rw [hbytes, List.append_nil] at hqueue
        exact hqueue
    | raised => exact hask
  · rw [if_neg fun hall => hwritable hall.2]
    have hlose := h.lose [] (fun hno => absurd rfl hno)
      (fun hno => ⟨(hlost _ rfl hno).1, rfl⟩)
    rw [List.append_nil] at hlose
    exact hlose.ask hopen fun hno => absurd hno hwritable

theorem Delivers.flush (h : Delivers data past half) {streamId now : Nat}
    {outcome : Nat × TxSide → TxOutcome} (hmeets : Meets streamId past half (.flush now outcome)) :
    Delivers data (past.after streamId half (.flush now outcome))
      (half.step streamId (.flush now outcome)) := by
  -- the queued op is dropped
  have hdrop : half.step streamId (.flush now outcome) = { half with queued := none } →
      ¬ (half.writable = true ∧ outcome (streamId, .send) = .accepted) →
      Delivers data (past.after streamId half (.flush now outcome))
        (half.step streamId (.flush now outcome)) := by
    intro hstep hnot
    unfold Past.after
    dsimp only
    rw [hstep]
    by_cases hdata : half.queuedData = []
    · have hkeep : ¬ (half.queuedData ≠ [] ∧ ({ half with queued := none } : SendHalf).queued =
          none ∧ ¬ (half.writable = true ∧ outcome (streamId, .send) = .accepted)) :=
        fun hall => hall.1 hdata
      rw [if_neg hkeep]
      exact h.drop fun hpast => ⟨hpast, hdata⟩
    · rw [if_pos ⟨hdata, rfl, hnot⟩]
      exact h.drop fun hno => by cases hno
  by_cases hwritable : half.writable = true
  · cases hqueued : half.queued with
    | none =>
        have hstep : half.step streamId (.flush now outcome) = half := by
          unfold SendHalf.step
          dsimp only
          rw [if_pos hwritable, hqueued]
        have hkeep : past.after streamId half (.flush now outcome) = past := by
          unfold Past.after
          dsimp only
          rw [if_neg fun hall => hall.1 (queuedData_none hqueued)]
        rw [hstep, hkeep]
        exact h
    | some pair =>
        obtain ⟨op, since⟩ := pair
        have hstep : half.step streamId (.flush now outcome) =
            half.retry op since now (outcome (streamId, .send)) := by
          unfold SendHalf.step
          dsimp only
          rw [if_pos hwritable, hqueued]
        have hnoEnd : half.sent.countP TxItem.isTerminal = 0 := h.queued (by simp [hqueued])
        have hany : (half.queued.any fun op => (TxItem.op op.1).isFin) = (TxItem.op op).isFin := by
          rw [hqueued]
          rfl
        cases houtcome : outcome (streamId, .send) with
        | accepted =>
            have hkeep : past.after streamId half (.flush now outcome) = past := by
              unfold Past.after
              dsimp only
              rw [if_neg fun hall => hall.2.2 ⟨hwritable, houtcome⟩]
            rw [hstep, hkeep, houtcome]
            apply h.terminal op hnoEnd List.prefix_rfl
            intro hfin
            have hlost := hmeets hwritable (hany.trans hfin) houtcome
            have hwhole := h.whole hlost hnoEnd
            have hdata : half.queuedData = (TxItem.op op).bytes := by
              unfold SendHalf.queuedData
              rw [hqueued]
              cases op with
              | fin more => rfl
              | reset errorCode reliableSize => rfl
              | stop errorCode => rfl
            refine ⟨by rw [← hdata]; exact hwhole, ?_⟩
            by_contra hasked
            have hno := h.noFin (Bool.not_eq_false _ ▸ hasked) hwritable
            rw [hany, hfin] at hno
            cases hno
        | full =>
            by_cases hgiveUp : txRetryGiveUp < now - since
            · apply hdrop
              · rw [hstep, houtcome]
                unfold SendHalf.retry
                dsimp only
                rw [if_pos hgiveUp]
              · intro hall
                rw [houtcome] at hall
                cases hall.2
            · have hsame : half.step streamId (.flush now outcome) = half := by
                rw [hstep, houtcome]
                unfold SendHalf.retry
                dsimp only
                rw [if_neg hgiveUp]
              have hkeep : past.after streamId half (.flush now outcome) = past := by
                unfold Past.after
                dsimp only
                rw [hsame, if_neg fun hall => by rw [hqueued] at hall; cases hall.2.1]
              rw [hsame, hkeep]
              exact h
        | raised =>
            apply hdrop
            · rw [hstep, houtcome]
              rfl
            · intro hall
              rw [houtcome] at hall
              cases hall.2
  · apply hdrop
    · unfold SendHalf.step
      dsimp only
      rw [if_neg hwritable]
    · exact fun hall => hwritable hall.1

theorem passed_concat (streamId : Nat) (events : List TxEvent) (event : TxEvent) :
    passed streamId (events ++ [event]) = passed streamId events ++ passed streamId [event] := by
  simp [passed]

/-- What one event does to a stream keeps the invariant. -/
theorem Delivers.step {streamId : Nat} {before : List TxEvent}
    (h : Delivers (passed streamId before) past half) {event : TxEvent}
    (hmeets : Meets streamId past half event) :
    Delivers (passed streamId (before ++ [event])) (past.after streamId half event)
      (half.step streamId event) := by
  rw [passed_concat]
  cases event with
  | write id more endStream now outcome =>
      by_cases hid : id = streamId
      · subst hid
        have hmore : passed id [.write id more endStream now outcome] = more := by simp [passed]
        rw [hmore]
        exact h.write hmeets
      · have hmore : passed streamId [.write id more endStream now outcome] = [] := by
          simp [passed, hid]
        have hpast : past.after streamId half (.write id more endStream now outcome) = past := by
          simp [Past.after, hid]
        have hstep : half.step streamId (.write id more endStream now outcome) = half := by
          simp [SendHalf.step, hid]
        rw [hmore, List.append_nil, hpast, hstep]
        exact h
  | reset id errorCode reliableSize now outcome =>
      have hmore : passed streamId [.reset id errorCode reliableSize now outcome] = [] := rfl
      rw [hmore, List.append_nil]
      by_cases hid : id = streamId
      · subst hid
        exact h.reset hmeets
      · have hpast : past.after streamId half (.reset id errorCode reliableSize now outcome) =
            past := by
          simp [Past.after, hid]
        have hstep : half.step streamId (.reset id errorCode reliableSize now outcome) = half := by
          simp [SendHalf.step, hid]
        rw [hpast, hstep]
        exact h
  | stopSending id errorCode now outcome =>
      have hmore : passed streamId [.stopSending id errorCode now outcome] = [] := rfl
      rw [hmore, List.append_nil]
      exact h
  | flush now outcome =>
      have hmore : passed streamId [.flush now outcome] = [] := rfl
      rw [hmore, List.append_nil]
      exact h.flush hmeets
  | close =>
      have hmore : passed streamId [.close] = [] := rfl
      rw [hmore, List.append_nil]
      exact ⟨h.deliver, h.complete, h.once, h.queued, h.whole,
        fun _ hno => absurd hno Bool.false_ne_true, h.unfinished⟩

/-! ## A run -/

/-- The past of a stream after a run. -/
def pastOf (streamId : Nat) : TxState → Past → List TxEvent → Past
  | _, past, [] => past
  | s, past, event :: events =>
      pastOf streamId (s.step event) (past.after streamId (s.half streamId) event) events

theorem Conforms.append {streamId : Nat} {events later : List TxEvent} :
    ∀ {s : TxState} {past : Past}, Conforms streamId s past (events ++ later) →
      Conforms streamId s past events := by
  induction events with
  | nil => intros; trivial
  | cons event events ih =>
      intro s past h
      exact ⟨h.1, ih h.2⟩

theorem Delivers.run {streamId : Nat} {events : List TxEvent} :
    ∀ {s : TxState} {past : Past} {before : List TxEvent}, Sided s →
      Delivers (passed streamId before) past (s.half streamId) →
      Conforms streamId s past events →
      Delivers (passed streamId (before ++ events)) (pastOf streamId s past events)
        ((s.run events).half streamId) := by
  induction events with
  | nil =>
      intro s past before _ h _
      rw [List.append_nil]
      exact h
  | cons event events ih =>
      intro s past before hsided h hconforms
      have hnext := h.step hconforms.1
      rw [← step_half hsided streamId event] at hnext
      have hall := ih (hsided.step event) hnext hconforms.2
      rw [List.append_assoc] at hall
      exact hall

theorem after_resetAsked {streamId : Nat} {past : Past} {half : SendHalf} (event : TxEvent)
    (h : past.resetAsked = true ∨ event.resets streamId = true) :
    (past.after streamId half event).resetAsked = true := by
  cases event with
  | write id data endStream now outcome =>
      have hasked := h.resolve_right Bool.false_ne_true
      unfold Past.after
      dsimp only
      split_ifs <;> exact hasked
  | reset id errorCode reliableSize now outcome =>
      unfold Past.after
      dsimp only
      split_ifs with hid
      · rfl
      · exact h.resolve_right fun hreset => hid (of_decide_eq_true hreset)
  | flush now outcome =>
      have hasked := h.resolve_right Bool.false_ne_true
      unfold Past.after
      dsimp only
      split_ifs <;> exact hasked
  | stopSending id errorCode now outcome => exact h.resolve_right Bool.false_ne_true
  | close => exact h.resolve_right Bool.false_ne_true

theorem pastOf_resetAsked {streamId : Nat} {events : List TxEvent} :
    ∀ {s : TxState} {past : Past},
      past.resetAsked = true ∨ (∃ event ∈ events, event.resets streamId = true) →
      (pastOf streamId s past events).resetAsked = true := by
  induction events with
  | nil =>
      intro s past h
      exact h.resolve_right fun hnone => by simp at hnone
  | cons event events ih =>
      intro s past h
      apply ih
      rcases h with hasked | hmember
      · exact Or.inl (after_resetAsked event (Or.inl hasked))
      · obtain ⟨reset, hmem, hreset⟩ := hmember
        rcases List.mem_cons.mp hmem with heq | htail
        · subst heq
          exact Or.inl (after_resetAsked reset (Or.inr hreset))
        · exact Or.inr ⟨reset, htail, hreset⟩

theorem Sided.init : Sided {} := ⟨fun key op since hget => by cases hget⟩

theorem Delivers.init (streamId : Nat) :
    Delivers (passed streamId []) {} (({} : TxState).half streamId) where
  deliver := List.prefix_rfl
  complete _ := rfl
  once := Nat.zero_le 1
  queued hqueued := absurd rfl hqueued
  whole _ _ := rfl
  noFin hno := absurd hno Bool.false_ne_true
  unfinished hno := absurd hno Bool.false_ne_true

/-- In every run whose steps meet the condition, a stream has no hole at any point: the data
before its FIN or reset is a prefix of what was passed, all of it when the FIN is taken, one
terminal op at most is taken, and a reset asked for before the FIN wins. -/
theorem stream_no_hole {streamId : Nat} {events : List TxEvent}
    (hconforms : Conforms streamId {} {} events) :
    ∀ before, before <+: events → NoHole streamId before := by
  rintro before ⟨later, rfl⟩
  have hrun := Delivers.run Sided.init (Delivers.init streamId) hconforms.append
  rw [List.nil_append] at hrun
  refine ⟨hrun.deliver, hrun.complete, hrun.once, ?_⟩
  rintro first event last rfl hreset _
  apply hrun.unfinished
  exact pastOf_resetAsked (Or.inr ⟨event, by simp, hreset⟩)

/-- A FIN is refused, queued and retried; a write on another stream is refused meanwhile. -/
def refusedFin : List TxEvent :=
  [.write 4 [1, 2] false 0 .accepted, .write 4 [3] true 10 .full,
    .write 8 [9] false 20 .full, .write 4 [] false 25 .accepted,
    .flush 30 fun _ => .full, .flush 50 fun _ => .accepted]

theorem stream_no_hole_refusedFin :
    (∀ before, before <+: refusedFin → NoHole 4 before) ∧
      ((({} : TxState).run refusedFin).half 4).sent = [.data [1, 2], .op (.fin [3])] :=
  ⟨stream_no_hole (by decide), by decide⟩

/-- The middle one of three writes meets a full ring. -/
def lostMiddle : List TxEvent :=
  [.write 4 [1] false 0 .accepted, .write 4 [2] false 10 .full, .write 4 [3] false 20 .accepted]

theorem lostMiddle_hole : ¬ NoHole 4 lostMiddle := by
  intro h
  have hdeliver := h.deliver
  have hsent : dataBefore ((({} : TxState).run lostMiddle).half 4).sent = [1, 3] := by decide
  have hpassed : passed 4 lostMiddle = [1, 2, 3] := by decide
  rw [hsent, hpassed] at hdeliver
  revert hdeliver
  decide

end AioMoqt.Session
