import AioMoqt.Messages.Proofs.FramedMessages
import AioMoqt.Session.Control

/-!
# Control parsing does not depend on packets

A message is handled the same whatever follows it in the chain, so the messages of a
stream, and the state it ends in, are those of its bytes and not of their chunks.
-/

namespace AioMoqt.Session

open AioMoqt.Lib AioMoqt.Lib.BigEndian AioMoqt.Lib.Incremental AioMoqt.Lib.Reader AioMoqt.Messages

/-! ## Headers -/

section Header

variable {prof : DraftProfile} {buf : Bytes} {header : Header}

theorem pullHeader_eq_some (h : pullHeader prof buf = some header) :
    ∃ type hi lo rest, prof.vint.dec buf = some (type, hi :: lo :: rest) ∧
      header = ⟨type, hi.toNat * 256 + lo.toNat, buf.length - rest.length⟩ := by
  unfold pullHeader at h
  split at h
  · next type hi lo rest hdec =>
      exact ⟨type, hi, lo, rest, hdec, (Option.some.inj h).symm⟩
  · simp at h

theorem pullHeader_append (h : pullHeader prof buf = some header) (more : Bytes) :
    pullHeader prof (buf ++ more) = some header := by
  obtain ⟨type, hi, lo, rest, hdec, rfl⟩ := pullHeader_eq_some h
  have hmore := prof.vint.dec_append hdec more
  simp only [pullHeader, hmore, List.cons_append, List.length_append]
  rw [Nat.add_sub_add_right]

/-- A header has a type and two bytes of Length. -/
theorem hdrLen_bounds (h : pullHeader prof buf = some header) :
    0 < header.hdrLen ∧ header.hdrLen ≤ buf.length := by
  obtain ⟨type, hi, lo, rest, hdec, rfl⟩ := pullHeader_eq_some h
  have hlt := prof.vint.length_dec_lt hdec
  simp only [List.length_cons] at hlt
  dsimp only
  omega

end Header

/-! ## One message -/

section Message

variable {σ : Type} (env : ControlEnv σ) (s : ControlSession σ) (requestId : Option Nat)

/-- How a message ends, up to the reason that is logged. -/
def settled (consumed : Nat) : Except MoqtError (ControlMessage × ControlSession σ) → Handled σ
  | .error e => .closed e.closeCode
  | .ok (msg, s) => .parsed msg consumed s

theorem handleControlMessage_eq {buf : Bytes} {header : Header}
    (hheader : pullHeader env.prof buf = some header) (hlen : header.extent ≤ buf.length) :
    handleControlMessage env s requestId buf =
      settled header.extent (handleBody env s requestId header buf) := by
  simp only [handleControlMessage, hheader, if_neg (Nat.not_lt_of_le hlen)]
  cases handleBody env s requestId header buf <;> rfl

/-- A decoder that was lost closes the session as a protocol violation. -/
theorem settled_lost {header : Header} {cls : MessageClass}
    {x : Except MoqtError (ControlMessage × Cursor)} (h : Lost MoqtError.Fatal header.extent x) :
    settled header.extent (x >>= fun result =>
      handleDecoded env s requestId cls header.extent result.2.pos result.1) =
      .closed .protocolViolation := by
  cases x with
  | error e =>
      have hcode : e.closeCode = .protocolViolation := h
      simp only [bind, Except.bind, settled, hcode]
  | ok result =>
      have hpast : header.extent < result.2.pos := h
      simp only [bind, Except.bind, handleDecoded, if_pos hpast, settled, MoqtError.closeCode]

theorem settled_agree {header : Header} {cls : MessageClass} {rest rest' : Bytes}
    {x y : Except MoqtError (ControlMessage × Cursor)}
    (h : Agree MoqtError.Fatal header.extent rest rest' x y) :
    settled header.extent (x >>= fun result =>
      handleDecoded env s requestId cls header.extent result.2.pos result.1) =
    settled header.extent (y >>= fun result =>
      handleDecoded env s requestId cls header.extent result.2.pos result.1) := by
  cases h with
  | inside msg pos body hstop => rfl
  | failed e => rfl
  | lost hx hy => rw [settled_lost env s requestId hx, settled_lost env s requestId hy]

theorem handleBody_append {buf : Bytes} {header : Header}
    (hhdr : header.hdrLen ≤ buf.length) (hlen : header.extent ≤ buf.length) (more : Bytes) :
    settled header.extent (handleBody env s requestId header (buf ++ more)) =
      settled header.extent (handleBody env s requestId header buf) := by
  unfold handleBody
  cases getControlEntry env.draft header.type with
  | error e => rfl
  | ok cls =>
      -- the frame is the body; what the chain holds behind it differs
      have hsplit : buf.drop header.hdrLen =
          (buf.drop header.hdrLen).take header.msgLen ++ buf.drop header.extent := by
        rw [Header.extent, ← List.drop_drop, List.take_append_drop]
      have hstop : header.hdrLen + ((buf.drop header.hdrLen).take header.msgLen).length =
          header.extent := by
        rw [List.length_take, List.length_drop]
        unfold Header.extent at hlen ⊢
        omega
      have hagree := ((ControlMessage.decode_framed env.prof cls).framedAt header.hdrLen).inside
        ((buf.drop header.hdrLen).take header.msgLen) (buf.drop header.extent ++ more)
        (buf.drop header.extent) hstop
      rw [← List.append_assoc, ← hsplit, ← List.drop_append_of_le_length hhdr] at hagree
      exact settled_agree env s requestId hagree

/-- **A message is handled by its header and its Length of bytes alone.** -/
theorem handleControlMessage_append {buf : Bytes} {header : Header}
    (hheader : pullHeader env.prof buf = some header) (hlen : header.extent ≤ buf.length)
    (more : Bytes) :
    handleControlMessage env s requestId (buf ++ more) =
      handleControlMessage env s requestId buf := by
  have hmore : header.extent ≤ (buf ++ more).length := by
    rw [List.length_append]
    omega
  rw [handleControlMessage_eq env s requestId (pullHeader_append hheader more) hmore,
    handleControlMessage_eq env s requestId hheader hlen,
    handleBody_append env s requestId (hdrLen_bounds hheader).2 hlen]

/-- Whatever is not an underflow has its header and its body there. -/
theorem header_of_handled {buf : Bytes}
    (h : handleControlMessage env s requestId buf ≠ .underflow) :
    ∃ header, pullHeader env.prof buf = some header ∧ header.extent ≤ buf.length := by
  cases hheader : pullHeader env.prof buf with
  | none => simp [handleControlMessage, hheader] at h
  | some header =>
      by_cases hlen : buf.length < header.extent
      · simp [handleControlMessage, hheader, hlen] at h
      · exact ⟨header, rfl, Nat.le_of_not_lt hlen⟩

/-- A message that was dispatched took its header and its Length. -/
theorem handleControlMessage_parsed {buf : Bytes} {msg : ControlMessage} {consumed : Nat}
    {s' : ControlSession σ}
    (h : handleControlMessage env s requestId buf = .parsed msg consumed s') :
    ∃ header, pullHeader env.prof buf = some header ∧ header.extent = consumed ∧
      consumed ≤ buf.length := by
  obtain ⟨header, hheader, hlen⟩ := header_of_handled env s requestId (by rw [h]; simp)
  rw [handleControlMessage_eq env s requestId hheader hlen] at h
  have hconsumed : header.extent = consumed := by
    cases hbody : handleBody env s requestId header buf with
    | error e => simp [hbody, settled] at h
    | ok result =>
        rw [hbody] at h
        exact (Handled.parsed.inj h).2.1
  exact ⟨header, hheader, hconsumed, hconsumed ▸ hlen⟩

end Message

/-! ## One stream -/

section Stream

variable {σ : Type} (env : ControlEnv σ) (role : StreamRole)

theorem turn_wait {st : StreamState σ} {chain : Bytes}
    (h : turn env role st chain ≠ .wait) :
    handleControlMessage env st.session (boundRequest st.session role) chain ≠ .underflow := by
  intro hunder
  simp [turn, hunder] at h

/-- A turn of the loop took one message. -/
theorem turn_take {st st' : StreamState σ} {chain : Bytes} {n : Nat}
    (h : turn env role st chain = .take n st') :
    ∃ header msg, pullHeader env.prof chain = some header ∧ header.extent = n ∧
      n ≤ chain.length ∧ st'.log = st.log ++ [⟨msg, n⟩] := by
  unfold turn at h
  split at h
  · simp at h
  · simp at h
  next msg consumed s hparsed =>
  dsimp only at h
  split at h
  · simp at h
  next s' hafter =>
  obtain ⟨rfl, rfl⟩ := Next.take.inj h
  obtain ⟨header, hheader, hextent, hlen⟩ := handleControlMessage_parsed env _ _ hparsed
  exact ⟨header, msg, hheader, hextent, hlen, rfl⟩

theorem turn_stable : Stable (turn env role) where
  nil st := by
    have hnil : pullHeader env.prof [] = none := by simp [pullHeader, env.prof.vint.dec_nil]
    simp [turn, handleControlMessage, hnil]
  take := by
    intro st chain n st' h
    obtain ⟨header, msg, hheader, rfl, hlen, -⟩ := turn_take env role h
    have hpos := (hdrLen_bounds hheader).1
    exact ⟨by unfold Header.extent; omega, hlen⟩
  append := by
    intro st chain more h
    obtain ⟨header, hheader, hlen⟩ := header_of_handled env _ _ (turn_wait env role h)
    simp only [turn, handleControlMessage_append env _ _ hheader hlen more]

/-- **Feeding a control stream chunk by chunk is feeding its bytes at once.** -/
theorem onControlData_foldl (ingest : Ingest σ) (chunks : List Bytes) (last : Bytes) (fin : Bool) :
    onControlData env role
        (chunks.foldl (fun ingest chunk => onControlData env role ingest chunk false) ingest) last
        fin =
      onControlData env role ingest (chunks.flatten ++ last) fin := by
  have hopen : (fun ingest chunk => onControlData env role ingest chunk false) =
      feed (turn env role) := by
    funext ingest chunk
    unfold onControlData
    cases feed (turn env role) ingest chunk <;> rfl
  rw [hopen]
  unfold onControlData
  rw [feed_foldl (turn_stable env role)]

/-- The front of `buf` cut into messages, each its header and its Length; `rest` is what
they leave. -/
inductive Cuts (prof : DraftProfile) : Bytes → List Parsed → Bytes → Prop where
  | nil (rest : Bytes) : Cuts prof rest [] rest
  | cons {buf rest : Bytes} {header : Header} {log : List Parsed} (msg : ControlMessage)
      (hheader : pullHeader prof buf = some header) (hlen : header.extent ≤ buf.length)
      (hrest : Cuts prof (buf.drop header.extent) log rest) :
      Cuts prof buf (⟨msg, header.extent⟩ :: log) rest

/-- What a stream that dispatched `before` made of `input`: the messages cut from it, and
the bytes behind them, which are dropped when the stream ends. -/
def Consumed (prof : DraftProfile) (before : List Parsed) (input : Bytes) (fin : Bool) :
    Ingest σ → Prop
  | .inl (st, chain) => ∃ log rest, st.log = before ++ log ∧ Cuts prof input log rest ∧
      chain = if fin then [] else rest
  | .inr closed => ∃ log rest, closed.log = before ++ log ∧ Cuts prof input log rest

/-- The last message before the session was closed may have been dispatched. -/
theorem turn_stop {st : StreamState σ} {chain : Bytes} {closed : ClosedStream}
    (h : turn env role st chain = .stop closed) :
    ∃ log rest, closed.log = st.log ++ log ∧ Cuts env.prof chain log rest := by
  unfold turn at h
  split at h
  · simp at h
  · obtain rfl := Next.stop.inj h
    exact ⟨[], chain, (List.append_nil _).symm, .nil chain⟩
  next msg consumed s hparsed =>
  dsimp only at h
  split at h
  · obtain ⟨header, hheader, rfl, hlen⟩ := handleControlMessage_parsed env _ _ hparsed
    obtain rfl := Next.stop.inj h
    exact ⟨_, _, rfl, .cons msg hheader hlen (.nil _)⟩
  · simp at h

theorem run_consumed (fuel : Nat) (st : StreamState σ) (chain : Bytes) :
    Consumed env.prof st.log chain false (run (turn env role) fuel st chain) := by
  induction fuel generalizing st chain with
  | zero => exact ⟨[], chain, (List.append_nil _).symm, .nil chain, rfl⟩
  | succ fuel ih =>
      cases hturn : turn env role st chain with
      | wait =>
          simp only [run, hturn]
          exact ⟨[], chain, (List.append_nil _).symm, .nil chain, rfl⟩
      | stop closed =>
          simp only [run, hturn]
          exact turn_stop env role hturn
      | take n st' =>
          obtain ⟨header, msg, hheader, rfl, hlen, hlog⟩ := turn_take env role hturn
          have hrest := ih st' (chain.drop header.extent)
          simp only [run, hturn]
          generalize run (turn env role) fuel st' (chain.drop header.extent) = result at hrest ⊢
          cases result with
          | inl waiting =>
              obtain ⟨log, rest, hst, hcuts, hchain⟩ := hrest
              exact ⟨_, rest, by rw [hst, hlog, List.append_assoc]; rfl,
                .cons msg hheader hlen hcuts, hchain⟩
          | inr closed =>
              obtain ⟨log, rest, hst, hcuts⟩ := hrest
              exact ⟨_, rest, by rw [hst, hlog, List.append_assoc]; rfl,
                .cons msg hheader hlen hcuts⟩

theorem endStream_consumed {before : List Parsed} {input : Bytes} {st : StreamState σ}
    {chain : Bytes} (h : Consumed env.prof before input false (.inl (st, chain) : Ingest σ)) :
    Consumed env.prof before input true (endStream env role st chain) := by
  obtain ⟨log, rest, hlog, hcuts, -⟩ := h
  unfold endStream
  dsimp only
  split
  · split
    · exact ⟨log, rest, hlog, hcuts⟩
    · exact ⟨log, rest, hlog, hcuts, rfl⟩
  · split
    · exact ⟨log, rest, hlog, hcuts⟩
    · exact ⟨log, rest, hlog, hcuts, rfl⟩

theorem onControlData_consumed (st : StreamState σ) (chain data : Bytes) (fin : Bool) :
    Consumed env.prof st.log (chain ++ data) fin
      (onControlData env role (.inl (st, chain)) data fin) := by
  have hrun := run_consumed env role (chain ++ data).length st (chain ++ data)
  unfold onControlData feed
  dsimp only
  generalize run (turn env role) (chain ++ data).length st (chain ++ data) = result at hrun ⊢
  cases result with
  | inl waiting =>
      cases fin with
      | false => exact hrun
      | true => exact endStream_consumed env role hrun
  | inr closed => exact hrun

end Stream

/-- **Control parsing is independent of packetisation and never looks past a message.**
In every draft the chunks of a stream are handled as their concatenation: the same
messages with the same Request IDs, the same bytes left waiting or the same close code.
Each message takes its header and its Length, and is handled by these bytes alone. -/
theorem control_independent_of_packets {σ : Type} (env : ControlEnv σ) (role : StreamRole) :
    (∀ (ingest : Ingest σ) (chunks : List Bytes) (last : Bytes) (fin : Bool),
      onControlData env role
          (chunks.foldl (fun ingest chunk => onControlData env role ingest chunk false) ingest)
          last fin =
        onControlData env role ingest (chunks.flatten ++ last) fin) ∧
    (∀ (st : StreamState σ) (chain data : Bytes) (fin : Bool),
      Consumed env.prof st.log (chain ++ data) fin
        (onControlData env role (.inl (st, chain)) data fin)) ∧
    (∀ (s : ControlSession σ) (requestId : Option Nat) (message : Bytes) (header : Header),
      pullHeader env.prof message = some header → header.extent = message.length →
      ∀ rest, handleControlMessage env s requestId (message ++ rest) =
        handleControlMessage env s requestId message) := by
  refine ⟨onControlData_foldl env role, onControlData_consumed env role, ?_⟩
  intro s requestId message header hheader hlen rest
  exact handleControlMessage_append env s requestId hheader (Nat.le_of_eq hlen) rest

/-- A session of draft 16 that only records what it is given. -/
def recorder : ControlEnv (List ControlMessage) where
  draft := .d16
  isClient := false
  openPeerRequests := fun _ => 0
  dispatch := fun s msg => .ok { s with app := s.app ++ [msg] }
  reportGoaway := fun s _ _ => s
  streamEnded := fun s _ _ => s

def recorderStart : ControlSession (List ControlMessage) where
  bidiStreamRequests := .empty
  bidiStreams := .empty
  requestStreamUpdates := .empty
  txUpdates := .empty
  requestKinds := .empty
  trackDefaultPriority := .empty
  peerRequests := {}
  app := []

/-- MAX_REQUEST_ID 7, with the next message behind it. -/
theorem control_independent_maxRequestId :
    pullHeader recorder.prof [0x15, 0x00, 0x01, 0x07] = some ⟨0x15, 1, 3⟩ ∧
    handleControlMessage recorder recorderStart none
        ([0x15, 0x00, 0x01, 0x07] ++ [0x10, 0x00]) =
      handleControlMessage recorder recorderStart none [0x15, 0x00, 0x01, 0x07] :=
  ⟨by decide +kernel,
    (control_independent_of_packets recorder ⟨0, false⟩).2.2 recorderStart none
      [0x15, 0x00, 0x01, 0x07] ⟨0x15, 1, 3⟩ (by decide +kernel) rfl [0x10, 0x00]⟩

end AioMoqt.Session
