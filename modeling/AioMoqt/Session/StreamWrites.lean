import AioMoqt.Lib.BigEndian
import AioMoqt.Lib.Dict

/-!
# Writing to a stream

`stream_write`, `stream_fin`, `stream_reset` and `stream_stop_sending` of `protocol.py`, and
the retry of what a full TX ring refused.  What the transport does with an op is an input: it
takes the op, refuses it because the ring is full, or raises because the stream is gone.
-/

namespace AioMoqt.Session

open AioMoqt.Lib AioMoqt.Lib.BigEndian

/-- `TX_RETRY_GIVE_UP_S`, in milliseconds. -/
def txRetryGiveUp : Nat := 10000

inductive TxSide where
  | send | recv
deriving Repr, DecidableEq

/-- A stream op that is retried. -/
inductive TxOp where
  | fin (data : Bytes)
  | reset (errorCode reliableSize : Nat)
  | stop (errorCode : Nat)
deriving Repr, DecidableEq

/-- What becomes of an op handed to the transport. -/
inductive TxOutcome where
  | accepted
  /-- `BufferError`. -/
  | full
  | raised
deriving Repr, DecidableEq

/-- What the transport took. -/
inductive TxItem where
  | data (data : Bytes)
  | op (op : TxOp)
deriving Repr, DecidableEq

/-- A session's stream writes: the ops to retry with the time of their first refusal, and what
the transport took, by stream. -/
structure TxState where
  /-- `_session_writable()`. -/
  writable : Bool := true
  /-- `_tx_deferred`. -/
  deferred : Dict (Nat × TxSide) (TxOp × Nat) := .empty
  taken : List (Nat × TxItem) := []

namespace TxState

/-- Hand one op to the transport: false when the ring is full. -/
def txSend (s : TxState) (streamId : Nat) (op : TxOp) : TxOutcome → Bool × TxState
  | .accepted => (true, { s with taken := s.taken ++ [(streamId, .op op)] })
  | .full => (false, s)
  | .raised => (true, s)

/-- Send now, or queue for retry. -/
def txOp (s : TxState) (streamId : Nat) (side : TxSide) (op : TxOp) (now : Nat)
    (outcome : TxOutcome) : TxState :=
  match s.txSend streamId op outcome with
  | (true, s) => s
  | (false, s) => { s with deferred := s.deferred.insert (streamId, side) (op, now) }

def streamWrite (s : TxState) (streamId : Nat) (data : Bytes) (endStream : Bool) (now : Nat)
    (outcome : TxOutcome) : TxState :=
  if ¬ s.writable then s
  -- the stream's reset or FIN is queued
  else if (streamId, .send) ∈ s.deferred.keys then s
  else if endStream then s.txOp streamId .send (.fin data) now outcome
  else match outcome with
    | .accepted => { s with taken := s.taken ++ [(streamId, .data data)] }
    -- `BufferError` is caught with the errors of a stream that is gone
    | _ => s

def streamReset (s : TxState) (streamId errorCode reliableSize now : Nat) (outcome : TxOutcome) :
    TxState :=
  if ¬ s.writable then s
  else ({ s with deferred := s.deferred.erase (streamId, .send) } : TxState).txOp streamId .send
    (.reset errorCode reliableSize) now outcome

def streamStopSending (s : TxState) (streamId errorCode now : Nat) (outcome : TxOutcome) :
    TxState :=
  if ¬ s.writable then s else s.txOp streamId .recv (.stop errorCode) now outcome

/-- One queued op, retried. -/
def flushEntry (now : Nat) (outcome : Nat × TxSide → TxOutcome) (s : TxState)
    (entry : (Nat × TxSide) × (TxOp × Nat)) : TxState :=
  match s.txSend entry.1.1 entry.2.1 (outcome entry.1) with
  | (true, s) => { s with deferred := s.deferred.erase entry.1 }
  | (false, s) =>
      if txRetryGiveUp < now - entry.2.2 then { s with deferred := s.deferred.erase entry.1 }
      else s

/-- `_tx_flush_deferred`, which the retry task runs until the session is no longer writable. -/
def flushDeferred (s : TxState) (now : Nat) (outcome : Nat × TxSide → TxOutcome) : TxState :=
  if s.writable then s.deferred.entries.foldl (flushEntry now outcome) s
  else { s with deferred := .empty }

end TxState

/-- A call on a session, or a run of its retry task. -/
inductive TxEvent where
  | write (streamId : Nat) (data : Bytes) (endStream : Bool) (now : Nat) (outcome : TxOutcome)
  | reset (streamId errorCode reliableSize now : Nat) (outcome : TxOutcome)
  | stopSending (streamId errorCode now : Nat) (outcome : TxOutcome)
  | flush (now : Nat) (outcome : Nat × TxSide → TxOutcome)
  /-- The session starts to close. -/
  | close

def TxState.step (s : TxState) : TxEvent → TxState
  | .write streamId data endStream now outcome => s.streamWrite streamId data endStream now outcome
  | .reset streamId errorCode reliableSize now outcome =>
      s.streamReset streamId errorCode reliableSize now outcome
  | .stopSending streamId errorCode now outcome =>
      s.streamStopSending streamId errorCode now outcome
  | .flush now outcome => s.flushDeferred now outcome
  | .close => { s with writable := false }

def TxState.run (s : TxState) (events : List TxEvent) : TxState := events.foldl TxState.step s

end AioMoqt.Session
