import Mathlib.Data.List.Infix
import AioMoqt.Session.Proofs.KnownStreams
import AioMoqt.Session.Proofs.MalformedTracks

/-!
# Classification does not depend on how streams are split and interleaved

The bytes of an undecided stream are all in the stash, and those of a decided one have all reached
its path.  A stream is the control stream exactly if it is the first one whose type is whole and
SETUP.
-/

namespace AioMoqt.Session

open AioMoqt.Lib AioMoqt.Lib.BigEndian AioMoqt.Messages

/-! ## The bytes of one stream -/

def UniEvent.bytesOf (streamId : Nat) : UniEvent → Bytes
  | .chunk j data _ => if j = streamId then data else []
  | .other _ => []

/-- What arrived on a stream. -/
def sentOn (events : List (Nat × UniEvent)) (streamId : Nat) : Bytes :=
  events.flatMap fun event => event.2.bytesOf streamId

def Routed.dataOf (streamId : Nat) : Routed → Bytes
  | .data j bytes _ => if j = streamId then bytes else []
  | .control .. => []

def Routed.controlOf (streamId : Nat) : Routed → Bytes
  | .control j bytes _ => if j = streamId then bytes else []
  | .data .. => []

/-- What reached the data path. -/
def onDataPath (trace : List Routed) (streamId : Nat) : Bytes :=
  trace.flatMap (Routed.dataOf streamId)

/-- What reached the control path. -/
def onControlPath (trace : List Routed) (streamId : Nat) : Bytes :=
  trace.flatMap (Routed.controlOf streamId)

/-- The data path has the stream. -/
def Handed (trace : List Routed) (streamId : Nat) : Prop :=
  ∃ data endStream, Routed.data streamId data endStream ∈ trace

/-- The first stream whose type is whole and SETUP. -/
def FirstSetup (events : List (Nat × UniEvent)) (streamId : Nat) : Prop :=
  ∃ before event after, events = before ++ event :: after ∧
    d18PeekIsSetup (sentOn (before ++ [event]) streamId) = some true ∧
    ∀ j, d18PeekIsSetup (sentOn before j) ≠ some true

theorem sentOn_concat (events : List (Nat × UniEvent)) (event : Nat × UniEvent) (streamId : Nat) :
    sentOn (events ++ [event]) streamId =
      sentOn events streamId ++ event.2.bytesOf streamId := by
  simp [sentOn]

theorem sentOn_other (events : List (Nat × UniEvent)) (now : Nat) (event : DataPlaneEvent) :
    sentOn (events ++ [(now, .other event)]) = sentOn events := by
  funext streamId
  rw [sentOn_concat]
  exact List.append_nil _

theorem sentOn_chunk_self (events : List (Nat × UniEvent)) (now streamId : Nat) (data : Bytes)
    (endStream : Bool) :
    sentOn (events ++ [(now, .chunk streamId data endStream)]) streamId =
      sentOn events streamId ++ data := by
  rw [sentOn_concat, UniEvent.bytesOf, if_pos rfl]

theorem sentOn_chunk_other (events : List (Nat × UniEvent)) (now : Nat) {streamId j : Nat}
    (data : Bytes) (endStream : Bool) (h : j ≠ streamId) :
    sentOn (events ++ [(now, .chunk streamId data endStream)]) j = sentOn events j := by
  rw [sentOn_concat, UniEvent.bytesOf, if_neg (Ne.symm h), List.append_nil]

theorem onDataPath_append (trace chunks : List Routed) (streamId : Nat) :
    onDataPath (trace ++ chunks) streamId = onDataPath trace streamId ++ onDataPath chunks streamId :=
  List.flatMap_append

theorem onControlPath_append (trace chunks : List Routed) (streamId : Nat) :
    onControlPath (trace ++ chunks) streamId =
      onControlPath trace streamId ++ onControlPath chunks streamId :=
  List.flatMap_append

theorem Handed.append {trace : List Routed} {streamId : Nat} (h : Handed trace streamId)
    (chunks : List Routed) : Handed (trace ++ chunks) streamId := by
  obtain ⟨data, endStream, hmem⟩ := h
  exact ⟨data, endStream, List.mem_append_left chunks hmem⟩

theorem onDataPath_of_not_handed {trace : List Routed} {streamId : Nat}
    (h : ¬ Handed trace streamId) : onDataPath trace streamId = [] := by
  unfold onDataPath
  rw [List.flatMap_eq_nil_iff]
  intro chunk hchunk
  cases chunk with
  | control => rfl
  | data j data endStream =>
      simp only [Routed.dataOf]
      split_ifs with hj
      · exfalso
        apply h
        rw [← hj]
        exact ⟨data, endStream, hchunk⟩
      · rfl

/-! ## The type of a stream -/

theorem peek_append {bytes : Bytes} {verdict : Bool} (h : d18PeekIsSetup bytes = some verdict)
    (more : Bytes) : d18PeekIsSetup (bytes ++ more) = some verdict := by
  unfold d18PeekIsSetup at h ⊢
  cases hdec : Buffer.vi64.dec bytes with
  | none =>
      rw [hdec] at h
      cases h
  | some read =>
      obtain ⟨v, rest⟩ := read
      rw [Buffer.vi64.dec_append hdec more]
      rw [hdec] at h
      exact h

/-- Nine bytes hold a whole type. -/
theorem peek_short {bytes : Bytes} (h : d18PeekIsSetup bytes = none) : bytes.length < 9 := by
  unfold d18PeekIsSetup at h
  rw [Option.map_eq_none_iff] at h
  have hdecode : ByteClass.decode Buffer.vi64Classes bytes = none := h
  exact ByteClass.length_of_decode_none (by decide) (by decide +kernel) hdecode

/-- So the bytes that are looked at say as much as all of them. -/
theorem peek_take (stash data : Bytes) :
    d18PeekIsSetup (stash ++ data.take 9) = d18PeekIsSetup (stash ++ data) := by
  cases h : d18PeekIsSetup (stash ++ data.take 9) with
  | some verdict =>
      have hmore := peek_append h (data.drop 9)
      rw [List.append_assoc, List.take_append_drop] at hmore
      exact hmore.symm
  | none =>
      have hshort := peek_short h
      rw [List.length_append, List.length_take] at hshort
      rw [List.take_of_length_le (by omega)] at h
      exact h.symm

theorem take_of_short {stash data : Bytes} (h : d18PeekIsSetup (stash ++ data.take 9) = none) :
    data.take 9 = data := by
  have hshort := peek_short h
  rw [List.length_append, List.length_take] at hshort
  exact List.take_of_length_le (by omega)

theorem FirstSetup.append {events : List (Nat × UniEvent)} {streamId : Nat}
    (h : FirstSetup events streamId) (event : Nat × UniEvent) :
    FirstSetup (events ++ [event]) streamId := by
  obtain ⟨before, first, after, rfl, hsetup, hnone⟩ := h
  exact ⟨before, first, after ++ [event], by simp, hsetup, hnone⟩

theorem sentOn_prefix {before events : List (Nat × UniEvent)} (h : before <+: events)
    (streamId : Nat) : sentOn before streamId <+: sentOn events streamId := by
  obtain ⟨after, rfl⟩ := h
  exact ⟨sentOn after streamId, List.flatMap_append.symm⟩

theorem FirstSetup.setup {events : List (Nat × UniEvent)} {streamId : Nat}
    (h : FirstSetup events streamId) : d18PeekIsSetup (sentOn events streamId) = some true := by
  obtain ⟨before, first, after, rfl, hsetup, -⟩ := h
  have hprefix : before ++ [first] <+: before ++ first :: after := ⟨after, by simp⟩
  obtain ⟨more, hmore⟩ := sentOn_prefix hprefix streamId
  rw [← hmore]
  exact peek_append hsetup more

/-- An event that completes a type comes before whatever finds it whole. -/
theorem FirstSetup.not_before {before before' : List (Nat × UniEvent)}
    {event event' : Nat × UniEvent} {after after' : List (Nat × UniEvent)} {i : Nat}
    (heq : before ++ event :: after = before' ++ event' :: after')
    (hi : d18PeekIsSetup (sentOn (before ++ [event]) i) = some true)
    (hnone : ∀ j, d18PeekIsSetup (sentOn before' j) ≠ some true) :
    before'.length ≤ before.length := by
  by_contra hlt
  have hone : before ++ [event] <+: before ++ event :: after := ⟨after, by simp⟩
  have hother : before' <+: before ++ event :: after := by
    rw [heq]
    exact List.prefix_append _ _
  have hfirst : before ++ [event] <+: before' := by
    apply List.prefix_of_prefix_length_le hone hother
    rw [List.length_append, List.length_singleton]
    omega
  obtain ⟨more, hmore⟩ := sentOn_prefix hfirst i
  apply hnone i
  rw [← hmore]
  exact peek_append hi more

/-- There is only one. -/
theorem FirstSetup.unique {events : List (Nat × UniEvent)} {i j : Nat} (hi : FirstSetup events i)
    (hj : FirstSetup events j) : i = j := by
  obtain ⟨before, event, after, rfl, hsetup, hnone⟩ := hi
  obtain ⟨before', event', after', heq, hsetup', hnone'⟩ := hj
  have hle := FirstSetup.not_before heq hsetup hnone'
  have hle' := FirstSetup.not_before heq.symm hsetup' hnone
  obtain ⟨hbefore, hrest⟩ := List.append_inj heq (by omega)
  rw [List.cons.injEq] at hrest
  rw [← hbefore, ← hrest.1] at hsetup'
  obtain ⟨now, event⟩ := event
  cases event with
  | other event =>
      rw [sentOn_other] at hsetup
      exact absurd hsetup (hnone i)
  | chunk streamId data endStream =>
      have hself : ∀ k, d18PeekIsSetup
          (sentOn (before ++ [(now, .chunk streamId data endStream)]) k) = some true →
            k = streamId := by
        intro k hk
        by_contra hne
        rw [sentOn_chunk_other before now data endStream hne] at hk
        exact hnone k hk
      rw [hself i hsetup, hself j hsetup']

/-! ## What an open session does -/

namespace UniStreams

theorem settle_open {s : UniStreams} {plane : DataPlane}
    (h : (s.settle plane).plane.closeErr = none) :
    s.settle plane = { s with plane } ∧ s.plane.closeErr = none := by
  have hopen : s.plane.closeErr.or plane.closeErr = none := by
    unfold settle at h
    dsimp only at h
    split at h
    · exact h
    · exact h
  rw [Option.or_eq_none_iff] at hopen
  refine ⟨?_, hopen.1⟩
  have hplane : ({ plane with closeErr := s.plane.closeErr.or plane.closeErr } : DataPlane) =
      plane := by
    rw [hopen.1, Option.none_or]
  unfold settle
  dsimp only
  rw [if_neg (by rw [hopen.1, hopen.2]; exact Bool.false_ne_true), hplane]

theorem ingest_open {env : UniEnv} {now : Nat} {s : UniStreams} {chunk : Routed}
    (h : (s.ingest env now chunk).plane.closeErr = none) :
    ∃ plane, s.ingest env now chunk = { s with plane } ∧ s.plane.closeErr = none ∧
      ∀ p j bytes endStream, chunk = .data j bytes endStream → p j → s.plane.Confined p →
        plane.Confined p := by
  cases chunk with
  | control streamId data endStream =>
      obtain ⟨heq, hopen⟩ := settle_open h
      exact ⟨_, heq, hopen, nofun⟩
  | data streamId data endStream =>
      obtain ⟨heq, hopen⟩ := settle_open h
      refine ⟨_, heq, hopen, ?_⟩
      intro p j bytes endStream' hchunk hj
      cases hchunk
      exact DataPlane.confines_onStreamData hj env.toDataEnv s.plane now data endStream

/-- The chunks of a stream go to its path one after the other. -/
theorem ingests_open {env : UniEnv} {now : Nat} {chunks : List Routed} {s : UniStreams}
    (h : (chunks.foldl (ingest env now) s).plane.closeErr = none) :
    ∃ plane, chunks.foldl (ingest env now) s = { s with plane } ∧ s.plane.closeErr = none ∧
      ∀ p, (∀ chunk ∈ chunks, ∃ j bytes endStream, chunk = .data j bytes endStream ∧ p j) →
        s.plane.Confined p → plane.Confined p := by
  induction chunks generalizing s with
  | nil => exact ⟨s.plane, rfl, h, fun p _ hs => hs⟩
  | cons chunk chunks ih =>
      obtain ⟨plane, heq, hopen, hconfined⟩ := ih h
      obtain ⟨mid, hmid, hopen', hconfined'⟩ := ingest_open hopen
      refine ⟨plane, ?_, hopen', ?_⟩
      · rw [List.foldl_cons, heq, hmid]
      · intro p hall hs
        obtain ⟨j, bytes, endStream, hchunk, hj⟩ := hall chunk List.mem_cons_self
        apply hconfined p (fun c hc => hall c (List.mem_cons_of_mem chunk hc))
        rw [hmid]
        exact hconfined' p j bytes endStream hchunk hj hs

/-! ## The invariant -/

/-- The stash holds all of the undecided streams, and the paths have all of the others. -/
structure Sorted (events : List (Nat × UniEvent)) (s : UniStreams) (trace : List Routed) :
    Prop where
  waiting : ∀ streamId bytes, s.uniPeekStash.get? streamId = some bytes →
    d18PeekIsSetup bytes = none ∧ sentOn events streamId = bytes ∧ ¬ Handed trace streamId
  data : ∀ streamId, s.uniPeekStash.get? streamId = none → s.controlReadSid ≠ some streamId →
    onDataPath trace streamId = sentOn events streamId
  control : ∀ streamId, s.controlReadSid ≠ some streamId → onControlPath trace streamId = []
  bound : ∀ streamId, s.controlReadSid = some streamId →
    FirstSetup events streamId ∧ s.uniPeekStash.get? streamId = none ∧
      onControlPath trace streamId = sentOn events streamId ∧ ¬ Handed trace streamId
  unbound : s.controlReadSid = none →
    (∀ streamId, d18PeekIsSetup (sentOn events streamId) ≠ some true) ∧
      (∀ streamId, Handed trace streamId → d18PeekIsSetup (sentOn events streamId) ≠ none) ∧
        s.plane.Confined (Handed trace)

/-- What the code relies on before an event: that the session is open, that no stashed stream
turns out to be SETUP once the control stream is bound, that no stream ends inside its type, and
that a stream which the data path has is not forgotten before the control stream is bound. -/
structure Meets (s : UniStreams) (trace : List Routed) (event : UniEvent) : Prop where
  sessionOpen : s.plane.closeErr = none
  other : ∀ e, event = .other e → e.ofStream = false
  second : ∀ streamId data endStream, event = .chunk streamId data endStream →
    streamId ∈ s.uniPeekStash.keys → s.controlReadSid ≠ none →
      d18PeekIsSetup (s.peekHead streamId data) ≠ some true
  whole : ∀ streamId data, event = .chunk streamId data true →
    streamId ∈ s.uniPeekStash.keys ∨ (s.controlReadSid = none ∧ s.knows streamId = false) →
      d18PeekIsSetup (s.peekHead streamId data) = none → s.peekHead streamId data = []
  kept : ∀ streamId data endStream, event = .chunk streamId data endStream →
    s.controlReadSid = none → Handed trace streamId → s.knows streamId = true

theorem knows_handed {s : UniStreams} {trace : List Routed} {streamId : Nat}
    (h : s.plane.Confined (Handed trace)) (hknows : s.knows streamId = true) :
    Handed trace streamId := by
  unfold UniStreams.knows at hknows
  rw [Bool.or_eq_true, decide_eq_true_eq, decide_eq_true_eq] at hknows
  rcases hknows with hopen | htorn
  · exact h.streams streamId hopen
  · exact h.tornDown streamId htorn

/-- A stream that is looked at is undecided, and the stash has all of it. -/
theorem Sorted.undecided {events : List (Nat × UniEvent)} {s : UniStreams} {trace : List Routed}
    (h : Sorted events s trace) {event : UniEvent} (hmeets : Meets s trace event) {streamId : Nat}
    {data : Bytes} {endStream : Bool} (hevent : event = .chunk streamId data endStream)
    (hlooked : streamId ∈ s.uniPeekStash.keys ∨
      (s.controlReadSid = none ∧ s.knows streamId = false)) :
    sentOn events streamId = (s.uniPeekStash.get? streamId).getD [] ∧ ¬ Handed trace streamId ∧
      s.controlReadSid ≠ some streamId := by
  cases hget : s.uniPeekStash.get? streamId with
  | some bytes =>
      obtain ⟨-, hsent, hnot⟩ := h.waiting streamId bytes hget
      refine ⟨hsent, hnot, ?_⟩
      intro hbound
      have hnone := (h.bound streamId hbound).2.1
      rw [hget] at hnone
      cases hnone
  | none =>
      have hstash : streamId ∉ s.uniPeekStash.keys := fun hmem => Dict.mem_keys.mp hmem hget
      obtain ⟨hunbound, hfresh⟩ := hlooked.resolve_left hstash
      have hne : s.controlReadSid ≠ some streamId := by
        rw [hunbound]
        exact nofun
      have hnot : ¬ Handed trace streamId := by
        intro hhanded
        have hknows := hmeets.kept streamId data endStream hevent hunbound hhanded
        rw [hfresh] at hknows
        cases hknows
      refine ⟨?_, hnot, hne⟩
      rw [← h.data streamId hget hne, onDataPath_of_not_handed hnot]
      rfl

/-- A chunk and what was stashed ahead of it, on one path. -/
theorem chunks_flatMap {p : Prop} [Decidable p] {of : Routed → Bytes} {chunk : Bytes → Bool → Routed}
    (hof : ∀ bytes last, of (chunk bytes last) = if p then bytes else []) (stash data : Bytes)
    (endStream : Bool) :
    ((if stash ≠ [] then [chunk stash false] else []) ++ [chunk data endStream]).flatMap of =
      if p then stash ++ data else [] := by
  by_cases hp : p <;> by_cases hstash : stash = [] <;> simp [hof, hp, hstash]

theorem onDataPath_chunks (streamId j : Nat) (stash data : Bytes) (endStream : Bool) :
    onDataPath ((if stash ≠ [] then [Routed.data streamId stash false] else []) ++
      [.data streamId data endStream]) j = if j = streamId then stash ++ data else [] :=
  chunks_flatMap (by simp [Routed.dataOf, eq_comm]) stash data endStream

theorem onControlPath_chunks (streamId j : Nat) (stash data : Bytes) (endStream : Bool) :
    onControlPath ((if stash ≠ [] then [Routed.control streamId stash false] else []) ++
      [.control streamId data endStream]) j = if j = streamId then stash ++ data else [] :=
  chunks_flatMap (by simp [Routed.controlOf, eq_comm]) stash data endStream

section Step

variable {env : UniEnv} {events : List (Nat × UniEvent)} {s : UniStreams} {trace : List Routed}
  {now streamId : Nat} {data : Bytes} {endStream : Bool}

/-- Bytes reach the data path of a stream that is decided, and not the control stream. -/
theorem Sorted.handed (h : Sorted events s trace) {s' : UniStreams} {chunks : List Routed}
    (hsent : ∀ j, onDataPath (trace ++ chunks) j = if j = streamId then
      sentOn (events ++ [(now, .chunk streamId data endStream)]) streamId else onDataPath trace j)
    (hchunks : ∀ chunk ∈ chunks, ∃ bytes fin, chunk = .data streamId bytes fin)
    (hhanded : Handed (trace ++ chunks) streamId)
    (hstash : ∀ j, s'.uniPeekStash.get? j = if j = streamId then none else s.uniPeekStash.get? j)
    (hbound : s'.controlReadSid = s.controlReadSid) (hne : s.controlReadSid ≠ some streamId)
    (hpeek : s.controlReadSid = none →
      d18PeekIsSetup (sentOn (events ++ [(now, .chunk streamId data endStream)]) streamId) =
        some false)
    (hconfined : s.controlReadSid = none → s'.plane.Confined (Handed (trace ++ chunks))) :
    Sorted (events ++ [(now, .chunk streamId data endStream)]) s' (trace ++ chunks) := by
  have hother : ∀ j, j ≠ streamId → Handed (trace ++ chunks) j → Handed trace j := by
    rintro j hj ⟨bytes, fin, hmem⟩
    rcases List.mem_append.mp hmem with hmem | hmem
    · exact ⟨bytes, fin, hmem⟩
    · obtain ⟨bytes', fin', heq⟩ := hchunks _ hmem
      cases heq
      exact absurd rfl hj
  have hcontrol : ∀ j, onControlPath (trace ++ chunks) j = onControlPath trace j := by
    intro j
    have hnone : onControlPath chunks j = [] := by
      unfold onControlPath
      rw [List.flatMap_eq_nil_iff]
      intro chunk hchunk
      obtain ⟨bytes, fin, rfl⟩ := hchunks chunk hchunk
      rfl
    rw [onControlPath_append, hnone, List.append_nil]
  constructor
  · intro j bytes hget
    rw [hstash] at hget
    split_ifs at hget with hj
    obtain ⟨hpeek', hsent', hnot⟩ := h.waiting j bytes hget
    rw [sentOn_chunk_other events now data endStream hj]
    exact ⟨hpeek', hsent', fun hh => hnot (hother j hj hh)⟩
  · intro j hget hfree
    rw [hsent]
    rw [hstash] at hget
    rw [hbound] at hfree
    split_ifs at hget ⊢ with hj
    · rw [hj]
    · rw [sentOn_chunk_other events now data endStream hj]
      exact h.data j hget hfree
  · intro j hfree
    rw [hcontrol]
    rw [hbound] at hfree
    exact h.control j hfree
  · intro j hj
    rw [hbound] at hj
    have hjne : j ≠ streamId := by
      rintro rfl
      exact hne hj
    obtain ⟨hfirst, hnone, hall, hnot⟩ := h.bound j hj
    rw [hcontrol, hstash, if_neg hjne, sentOn_chunk_other events now data endStream hjne]
    exact ⟨hfirst.append _, hnone, hall, fun hh => hnot (hother j hjne hh)⟩
  · intro hnone
    rw [hbound] at hnone
    obtain ⟨hno, hwhole, -⟩ := h.unbound hnone
    refine ⟨?_, ?_, hconfined hnone⟩
    · intro j
      by_cases hj : j = streamId
      · rw [hj, hpeek hnone]
        simp
      · rw [sentOn_chunk_other events now data endStream hj]
        exact hno j
    · intro j hh
      by_cases hj : j = streamId
      · rw [hj, hpeek hnone]
        simp
      · rw [sentOn_chunk_other events now data endStream hj]
        exact hwhole j (hother j hj hh)

/-- A stream that stays undecided. -/
theorem Sorted.waits (h : Sorted events s trace) {head : Bytes}
    (hsent : sentOn events streamId ++ data = head) (hnot : ¬ Handed trace streamId)
    (hne : s.controlReadSid ≠ some streamId) (hpeek : d18PeekIsSetup head = none) :
    Sorted (events ++ [(now, .chunk streamId data endStream)])
      { s with uniPeekStash := (s.uniPeekStash.erase streamId).insert streamId head } trace := by
  have hnow : sentOn (events ++ [(now, .chunk streamId data endStream)]) streamId = head := by
    rw [sentOn_chunk_self, hsent]
  constructor
  · intro j bytes hget
    dsimp only at hget
    rw [Dict.get?_insert] at hget
    split_ifs at hget with hj
    · cases hget
      rw [hj]
      exact ⟨hpeek, hnow, hnot⟩
    · rw [Dict.get?_erase, if_neg hj] at hget
      rw [sentOn_chunk_other events now data endStream hj]
      exact h.waiting j bytes hget
  · intro j hget hfree
    dsimp only at hget
    rw [Dict.get?_insert] at hget
    split_ifs at hget with hj
    rw [Dict.get?_erase, if_neg hj] at hget
    rw [sentOn_chunk_other events now data endStream hj]
    exact h.data j hget hfree
  · exact h.control
  · intro j hj
    have hjne : j ≠ streamId := by
      rintro rfl
      exact hne hj
    obtain ⟨hfirst, hnone, hall, hnoth⟩ := h.bound j hj
    dsimp only
    rw [Dict.get?_insert, if_neg hjne, Dict.get?_erase, if_neg hjne,
      sentOn_chunk_other events now data endStream hjne]
    exact ⟨hfirst.append _, hnone, hall, hnoth⟩
  · intro hnone
    obtain ⟨hno, hwhole, hconfined⟩ := h.unbound hnone
    refine ⟨?_, ?_, hconfined⟩
    · intro j
      by_cases hj : j = streamId
      · rw [hj, hnow, hpeek]
        exact nofun
      · rw [sentOn_chunk_other events now data endStream hj]
        exact hno j
    · intro j hh
      by_cases hj : j = streamId
      · rw [hj] at hh
        exact absurd hh hnot
      · rw [sentOn_chunk_other events now data endStream hj]
        exact hwhole j hh

/-- A stream that ends before it has any bytes. -/
theorem Sorted.emptied (h : Sorted events s trace)
    (hsent : sentOn events streamId = []) (hnot : ¬ Handed trace streamId) :
    Sorted (events ++ [(now, .chunk streamId [] endStream)])
      { s with uniPeekStash := s.uniPeekStash.erase streamId } trace := by
  have hsame : sentOn (events ++ [(now, .chunk streamId [] endStream)]) = sentOn events := by
    funext j
    by_cases hj : j = streamId
    · rw [hj, sentOn_chunk_self, List.append_nil]
    · exact sentOn_chunk_other events now [] endStream hj
  constructor
  · intro j bytes hget
    rw [hsame]
    exact h.waiting j bytes (Dict.erase_sub _ streamId j bytes hget)
  · intro j hget hfree
    rw [hsame]
    by_cases hj : j = streamId
    · rw [hj, hsent, onDataPath_of_not_handed hnot]
    · dsimp only at hget
      rw [Dict.get?_erase, if_neg hj] at hget
      exact h.data j hget hfree
  · exact h.control
  · intro j hj
    obtain ⟨hfirst, hnone, hall, hnoth⟩ := h.bound j hj
    rw [hsame]
    refine ⟨hfirst.append _, ?_, hall, hnoth⟩
    dsimp only
    rw [Dict.get?_erase, hnone, ite_self]
  · intro hnone
    rw [hsame]
    exact h.unbound hnone

/-- The control stream is bound, with all that arrived on it. -/
theorem Sorted.binds (h : Sorted events s trace) (hunbound : s.controlReadSid = none)
    (hsent : sentOn events streamId = (s.uniPeekStash.get? streamId).getD [])
    (hnot : ¬ Handed trace streamId)
    (hpeek : d18PeekIsSetup ((s.uniPeekStash.get? streamId).getD [] ++ data) = some true)
    (plane : DataPlane) {chunks : List Routed}
    (hchunks : chunks = (if (s.uniPeekStash.get? streamId).getD [] ≠ [] then
        [Routed.control streamId ((s.uniPeekStash.get? streamId).getD []) false] else []) ++
      [.control streamId data endStream]) :
    Sorted (events ++ [(now, .chunk streamId data endStream)])
      { plane, controlReadSid := some streamId, uniPeekStash := s.uniPeekStash.erase streamId }
      (trace ++ chunks) := by
  have hnow : sentOn (events ++ [(now, .chunk streamId data endStream)]) streamId =
      (s.uniPeekStash.get? streamId).getD [] ++ data := by
    rw [sentOn_chunk_self, hsent]
  have hfree : ∀ j, s.controlReadSid ≠ some j := by
    intro j
    rw [hunbound]
    exact nofun
  have hall : ∀ j, onControlPath (trace ++ chunks) j =
      if j = streamId then (s.uniPeekStash.get? streamId).getD [] ++ data else [] := by
    intro j
    rw [onControlPath_append, h.control j (hfree j), hchunks, onControlPath_chunks, List.nil_append]
  have hnodata : ∀ chunk ∈ chunks, ∃ bytes fin, chunk = .control streamId bytes fin := by
    intro chunk hmem
    rw [hchunks] at hmem
    rcases List.mem_append.mp hmem with hmem | hmem
    · split_ifs at hmem
      · rw [List.mem_singleton] at hmem
        exact ⟨_, _, hmem⟩
      · cases hmem
    · rw [List.mem_singleton] at hmem
      exact ⟨_, _, hmem⟩
  have hhanded : ∀ j, Handed (trace ++ chunks) j → Handed trace j := by
    rintro j ⟨bytes, fin, hmem⟩
    rcases List.mem_append.mp hmem with hmem | hmem
    · exact ⟨bytes, fin, hmem⟩
    · obtain ⟨bytes', fin', heq⟩ := hnodata _ hmem
      cases heq
  have hdata : ∀ j, onDataPath (trace ++ chunks) j = onDataPath trace j := by
    intro j
    have hnone : onDataPath chunks j = [] := by
      unfold onDataPath
      rw [List.flatMap_eq_nil_iff]
      intro chunk hchunk
      obtain ⟨bytes, fin, rfl⟩ := hnodata chunk hchunk
      rfl
    rw [onDataPath_append, hnone, List.append_nil]
  obtain ⟨hno, -, -⟩ := h.unbound hunbound
  constructor
  · intro j bytes hget
    dsimp only at hget
    rw [Dict.get?_erase] at hget
    split_ifs at hget with hj
    obtain ⟨hpeek', hsent', hnoth⟩ := h.waiting j bytes hget
    rw [sentOn_chunk_other events now data endStream hj]
    exact ⟨hpeek', hsent', fun hh => hnoth (hhanded j hh)⟩
  · intro j hget hother
    have hj : j ≠ streamId := by
      rintro rfl
      exact hother rfl
    dsimp only at hget
    rw [Dict.get?_erase, if_neg hj] at hget
    rw [hdata, sentOn_chunk_other events now data endStream hj]
    exact h.data j hget (hfree j)
  · intro j hother
    have hj : j ≠ streamId := by
      rintro rfl
      exact hother rfl
    rw [hall, if_neg hj]
  · intro j hj
    cases hj
    refine ⟨⟨events, _, [], rfl, ?_, hno⟩, ?_, ?_, fun hh => hnot (hhanded streamId hh)⟩
    · rw [hnow]
      exact hpeek
    · dsimp only
      rw [Dict.get?_erase, if_pos rfl]
    · rw [hall, if_pos rfl, hnow]
  · intro hnone
    cases hnone

/-- A stream whose type is not whole, or just got whole. -/
theorem Sorted.classified (h : Sorted events s trace)
    (hmeets : Meets s trace (.chunk streamId data endStream))
    (hlooked : streamId ∈ s.uniPeekStash.keys ∨
      (s.controlReadSid = none ∧ s.knows streamId = false))
    (hopen : (s.classifyD18Uni env now streamId data endStream).1.plane.closeErr = none) :
    Sorted (events ++ [(now, .chunk streamId data endStream)])
      (s.classifyD18Uni env now streamId data endStream).1
      (trace ++ (s.classifyD18Uni env now streamId data endStream).2) := by
  obtain ⟨hsent, hnot, hne⟩ := h.undecided hmeets rfl hlooked
  have hhead : d18PeekIsSetup (s.peekHead streamId data) =
      d18PeekIsSetup ((s.uniPeekStash.get? streamId).getD [] ++ data) := peek_take _ data
  unfold classifyD18Uni at hopen ⊢
  dsimp only at hopen ⊢
  cases hpeek : d18PeekIsSetup (s.peekHead streamId data) with
  | none =>
      rw [hpeek] at hopen
      have htake : data.take 9 = data := take_of_short hpeek
      have hbytes : s.peekHead streamId data = (s.uniPeekStash.get? streamId).getD [] ++ data := by
        rw [peekHead, htake]
      dsimp only
      rw [hpeek] at hhead
      cases endStream with
      | true =>
          have hempty := hmeets.whole streamId data rfl hlooked hpeek
          rw [hbytes, List.append_eq_nil_iff] at hempty
          rw [hempty.1] at hsent
          rw [if_pos rfl, List.append_nil, hempty.2]
          exact h.emptied hsent hnot
      | false =>
          rw [if_neg Bool.false_ne_true, List.append_nil, hbytes]
          exact h.waits (by rw [hsent]) hnot hne hhead.symm
  | some verdict =>
      rw [hpeek] at hopen hhead
      dsimp only at hopen ⊢
      cases verdict with
      | true =>
          have hunbound : s.controlReadSid = none := by
            rcases hlooked with hstash | hfresh
            · by_contra hbound
              exact hmeets.second streamId data endStream rfl hstash hbound hpeek
            · exact hfresh.1
          simp only [if_true] at hopen ⊢
          obtain ⟨plane, heq, -, -⟩ := ingests_open hopen
          rw [heq]
          exact h.binds hunbound hsent hnot hhead.symm plane rfl
      | false =>
          simp only [Bool.false_eq_true, if_false] at hopen ⊢
          obtain ⟨plane, heq, -, hconfined⟩ := ingests_open hopen
          rw [heq]
          set stash := (s.uniPeekStash.get? streamId).getD []
          set chunks := (if stash ≠ [] then [Routed.data streamId stash false] else []) ++
            [.data streamId data endStream] with hchunks
          have hlast : Routed.data streamId data endStream ∈ trace ++ chunks := by
            rw [hchunks]
            simp
          have hall : ∀ chunk ∈ chunks, ∃ bytes fin, chunk = .data streamId bytes fin := by
            intro chunk hmem
            rcases List.mem_append.mp hmem with hmem | hmem
            · split_ifs at hmem
              · rw [List.mem_singleton] at hmem
                exact ⟨_, _, hmem⟩
              · cases hmem
            · rw [List.mem_singleton] at hmem
              exact ⟨_, _, hmem⟩
          have hhanded : Handed (trace ++ chunks) streamId := ⟨data, endStream, hlast⟩
          have hnow : sentOn (events ++ [(now, .chunk streamId data endStream)]) streamId =
              stash ++ data := by
            rw [sentOn_chunk_self, hsent]
          refine h.handed ?_ hall hhanded ?_ ?_ hne ?_ ?_
          · intro j
            rw [onDataPath_append, hchunks, onDataPath_chunks]
            split_ifs with hj
            · rw [hj, onDataPath_of_not_handed hnot, hnow, List.nil_append]
            · rw [List.append_nil]
          · intro j
            dsimp only
            rw [Dict.get?_erase]
          · rfl
          · intro _
            rw [hnow]
            exact hhead.symm
          · intro hunbound
            obtain ⟨-, -, hknown⟩ := h.unbound hunbound
            apply hconfined
            · intro chunk hmem
              obtain ⟨bytes, fin, rfl⟩ := hall chunk hmem
              exact ⟨streamId, bytes, fin, rfl, hhanded⟩
            · have hmono : ∀ j, Handed trace j → Handed (trace ++ chunks) j :=
                fun j hj => hj.append chunks
              exact ⟨fun j hj => hmono j (hknown.streams j hj),
                fun j hj => hmono j (hknown.tornDown j hj),
                fun key j hj => hmono j (hknown.bound key j hj)⟩

/-- More of the control stream. -/
theorem Sorted.controls (h : Sorted events s trace) (hbound : s.controlReadSid = some streamId)
    (plane : DataPlane) :
    Sorted (events ++ [(now, .chunk streamId data endStream)]) { s with plane }
      (trace ++ [.control streamId data endStream]) := by
  have hhanded : ∀ j, Handed (trace ++ [.control streamId data endStream]) j → Handed trace j := by
    rintro j ⟨bytes, fin, hmem⟩
    rcases List.mem_append.mp hmem with hmem | hmem
    · exact ⟨bytes, fin, hmem⟩
    · rw [List.mem_singleton] at hmem
      cases hmem
  have hdata : ∀ j, onDataPath (trace ++ [.control streamId data endStream]) j =
      onDataPath trace j := by
    intro j
    rw [onDataPath_append]
    exact List.append_nil _
  obtain ⟨hfirst, hstash, hall, hnot⟩ := h.bound streamId hbound
  constructor
  · intro j bytes hget
    have hj : j ≠ streamId := by
      rintro rfl
      have hget' : s.uniPeekStash.get? j = some bytes := hget
      rw [hstash] at hget'
      cases hget'
    obtain ⟨hpeek, hsent, hnoth⟩ := h.waiting j bytes hget
    rw [sentOn_chunk_other events now data endStream hj]
    exact ⟨hpeek, hsent, fun hh => hnoth (hhanded j hh)⟩
  · intro j hget hfree
    have hj : j ≠ streamId := by
      rintro rfl
      exact hfree hbound
    rw [hdata, sentOn_chunk_other events now data endStream hj]
    exact h.data j hget hfree
  · intro j hfree
    have hj : streamId ≠ j := by
      rintro rfl
      exact hfree hbound
    rw [onControlPath_append, h.control j hfree]
    simp [onControlPath, Routed.controlOf, hj]
  · intro j hj
    have hsame : j = streamId := by
      have hj' : s.controlReadSid = some j := hj
      rw [hbound] at hj'
      cases hj'
      rfl
    subst hsame
    refine ⟨hfirst.append _, hstash, ?_, fun hh => hnot (hhanded j hh)⟩
    rw [onControlPath_append, hall, sentOn_chunk_self]
    simp [onControlPath, Routed.controlOf]
  · intro hnone
    have hnone' : s.controlReadSid = none := hnone
    rw [hbound] at hnone'
    cases hnone'

/-- A chunk, whatever stream it is of. -/
theorem Sorted.routed (h : Sorted events s trace)
    (hmeets : Meets s trace (.chunk streamId data endStream))
    (hopen : (s.routeStreamData env now streamId data endStream).1.plane.closeErr = none) :
    Sorted (events ++ [(now, .chunk streamId data endStream)])
      (s.routeStreamData env now streamId data endStream).1
      (trace ++ (s.routeStreamData env now streamId data endStream).2) := by
  unfold routeStreamData at hopen ⊢
  by_cases hlooked : streamId ∈ s.uniPeekStash.keys ∨
      (s.controlReadSid = none ∧ s.knows streamId = false)
  · rw [if_pos hlooked] at hopen ⊢
    exact h.classified hmeets hlooked hopen
  · rw [if_neg hlooked] at hopen ⊢
    rw [not_or] at hlooked
    have hstash : s.uniPeekStash.get? streamId = none := Dict.get?_eq_none hlooked.1
    dsimp only at hopen ⊢
    by_cases hbound : s.controlReadSid = some streamId
    · rw [if_pos hbound] at hopen ⊢
      obtain ⟨plane, heq, -, -⟩ := ingest_open hopen
      rw [heq]
      exact h.controls hbound plane
    · rw [if_neg hbound] at hopen ⊢
      obtain ⟨plane, heq, -, hconfined⟩ := ingest_open hopen
      rw [heq]
      have hhanded : Handed (trace ++ [.data streamId data endStream]) streamId :=
        ⟨data, endStream, by simp⟩
      have hall : ∀ chunk ∈ [Routed.data streamId data endStream],
          ∃ bytes fin, chunk = .data streamId bytes fin := by
        intro chunk hmem
        rw [List.mem_singleton] at hmem
        exact ⟨data, endStream, hmem⟩
      refine h.handed ?_ hall hhanded ?_ rfl hbound ?_ ?_
      · intro j
        rw [onDataPath_append]
        split_ifs with hj
        · rw [hj, h.data streamId hstash hbound, sentOn_chunk_self]
          simp [onDataPath, Routed.dataOf]
        · simp [onDataPath, Routed.dataOf, Ne.symm hj]
      · intro j
        dsimp only
        split_ifs with hj
        · rw [hj]
          exact hstash
        · rfl
      · intro hunbound
        obtain ⟨hno, hwhole, hknown⟩ := h.unbound hunbound
        have hknows : s.knows streamId = true := by
          cases hknows : s.knows streamId with
          | true => rfl
          | false => exact absurd ⟨hunbound, hknows⟩ hlooked.2
        have htyped := hwhole streamId (knows_handed hknown hknows)
        rw [sentOn_chunk_self]
        cases hpeek : d18PeekIsSetup (sentOn events streamId) with
        | none => exact absurd hpeek htyped
        | some verdict =>
            cases verdict with
            | true => exact absurd hpeek (hno streamId)
            | false => exact peek_append hpeek data
      · intro hunbound
        obtain ⟨-, -, hknown⟩ := h.unbound hunbound
        have hmono : ∀ j, Handed trace j → Handed (trace ++ [.data streamId data endStream]) j :=
          fun j hj => hj.append _
        apply hconfined _ streamId data endStream rfl hhanded
        exact ⟨fun j hj => hmono j (hknown.streams j hj), fun j hj => hmono j (hknown.tornDown j hj),
          fun key j hj => hmono j (hknown.bound key j hj)⟩

/-- Something else that happens to the data plane. -/
theorem Sorted.other (h : Sorted events s trace) {event : DataPlaneEvent}
    (hevent : event.ofStream = false)
    (hopen : (s.settle (s.plane.step env.toDataEnv (now, event))).plane.closeErr = none) :
    Sorted (events ++ [(now, .other event)])
      (s.settle (s.plane.step env.toDataEnv (now, event))) trace := by
  obtain ⟨heq, -⟩ := settle_open hopen
  rw [heq]
  constructor
  · rw [sentOn_other]
    exact h.waiting
  · rw [sentOn_other]
    exact h.data
  · exact h.control
  · intro j hj
    obtain ⟨hfirst, hrest⟩ := h.bound j hj
    rw [sentOn_other]
    exact ⟨hfirst.append _, hrest⟩
  · intro hnone
    obtain ⟨hno, hwhole, hknown⟩ := h.unbound hnone
    rw [sentOn_other]
    exact ⟨hno, hwhole, DataPlane.confines_step env.toDataEnv s.plane now hevent hknown⟩

theorem Sorted.step (h : Sorted events s trace) {event : Nat × UniEvent}
    (hmeets : Meets s trace event.2) (hopen : (s.step env event).1.plane.closeErr = none) :
    Sorted (events ++ [event]) (s.step env event).1 (trace ++ (s.step env event).2) := by
  obtain ⟨now, event⟩ := event
  cases event with
  | other event =>
      show Sorted _ _ (trace ++ [])
      rw [List.append_nil]
      exact h.other (hmeets.other event rfl) hopen
  | chunk streamId data endStream =>
      have hstep : s.step env (now, .chunk streamId data endStream) =
          s.routeStreamData env now streamId data endStream := by
        unfold UniStreams.step
        dsimp only
        rw [hmeets.sessionOpen]
        rfl
      rw [hstep] at hopen ⊢
      exact h.routed hmeets hopen

end Step

/-! ## Runs -/

/-- The steps of a run, each with the chunks that reached a path before it. -/
def MeetsAll (env : UniEnv) : UniStreams × List Routed → List (Nat × UniEvent) → Prop
  | r, [] => r.1.plane.closeErr = none
  | r, event :: events =>
      Meets r.1 r.2 event.2 ∧
        MeetsAll env ((r.1.step env event).1, r.2 ++ (r.1.step env event).2) events

/-- The session after more events. -/
def runFrom (env : UniEnv) (r : UniStreams × List Routed) (events : List (Nat × UniEvent)) :
    UniStreams × List Routed :=
  events.foldl (fun r event => ((r.1.step env event).1, r.2 ++ (r.1.step env event).2)) r

theorem MeetsAll.sessionOpen {env : UniEnv} {r : UniStreams × List Routed}
    {events : List (Nat × UniEvent)} (h : MeetsAll env r events) : r.1.plane.closeErr = none := by
  cases events with
  | nil => exact h
  | cons event events => exact h.1.sessionOpen

theorem MeetsAll.front {env : UniEnv} {r : UniStreams × List Routed}
    {before after : List (Nat × UniEvent)} (h : MeetsAll env r (before ++ after)) :
    MeetsAll env r before := by
  induction before generalizing r with
  | nil => exact h.sessionOpen
  | cons event before ih => exact ⟨h.1, ih h.2⟩

theorem Sorted.run {env : UniEnv} {past events : List (Nat × UniEvent)}
    {r : UniStreams × List Routed} (h : Sorted past r.1 r.2) (hmeets : MeetsAll env r events) :
    Sorted (past ++ events) (runFrom env r events).1 (runFrom env r events).2 := by
  induction events generalizing past r with
  | nil =>
      rw [List.append_nil]
      exact h
  | cons event events ih =>
      have hstep := h.step hmeets.1 hmeets.2.sessionOpen
      have hrest := ih hstep hmeets.2
      rw [List.append_assoc] at hrest
      exact hrest

theorem sorted_initial : Sorted [] {} [] where
  waiting := nofun
  data := fun _ _ _ => rfl
  control := fun _ _ => rfl
  bound := nofun
  unbound := by
    intro _
    refine ⟨?_, ?_, nofun, nofun, nofun⟩
    · intro streamId
      have hnone : d18PeekIsSetup (sentOn [] streamId) = none := rfl
      rw [hnone]
      exact nofun
    · rintro streamId ⟨data, endStream, hmem⟩
      cases hmem

/-- The streams of a run are told apart as if each had come in one piece. -/
structure Classified (env : UniEnv) (events : List (Nat × UniEvent)) : Prop where
  /-- The control stream is the first one whose type was whole and SETUP. -/
  first : ∀ streamId, (run env events).1.controlReadSid = some streamId ↔
    FirstSetup events streamId
  /-- It is never replaced. -/
  kept : ∀ before streamId, before <+: events →
    (run env before).1.controlReadSid = some streamId →
      (run env events).1.controlReadSid = some streamId
  control : ∀ streamId, (run env events).1.controlReadSid = some streamId →
    onControlPath (run env events).2 streamId = sentOn events streamId ∧
      onDataPath (run env events).2 streamId = []
  /-- Every other one's bytes have reached the data path, but for those that wait. -/
  data : ∀ streamId, (run env events).1.controlReadSid ≠ some streamId →
    onControlPath (run env events).2 streamId = [] ∧
      onDataPath (run env events).2 streamId ++
        ((run env events).1.uniPeekStash.get? streamId).getD [] = sentOn events streamId
  /-- Those of a stream wait only as long as its type is not whole. -/
  waiting : ∀ streamId ∈ (run env events).1.uniPeekStash.keys,
    d18PeekIsSetup (sentOn events streamId) = none

theorem Sorted.first {events : List (Nat × UniEvent)} {s : UniStreams} {trace : List Routed}
    (h : Sorted events s trace) (streamId : Nat) :
    s.controlReadSid = some streamId ↔ FirstSetup events streamId := by
  constructor
  · intro hbound
    exact (h.bound streamId hbound).1
  · intro hfirst
    cases hbound : s.controlReadSid with
    | none => exact absurd hfirst.setup ((h.unbound hbound).1 streamId)
    | some j => rw [(h.bound j hbound).1.unique hfirst]

/-- However the streams of an open session are split and interleaved, they are classified by their
types, as long as no stashed stream turns out to be a second SETUP, none ends inside its type, and
none that the data path has is forgotten before the control stream is bound. -/
theorem uni_streams_classified (env : UniEnv) (events : List (Nat × UniEvent))
    (h : MeetsAll env ({}, []) events) : Classified env events := by
  have hsorted : ∀ {events}, MeetsAll env ({}, []) events →
      Sorted events (run env events).1 (run env events).2 := by
    intro events hmeets
    have hrun := Sorted.run sorted_initial hmeets
    rwa [List.nil_append] at hrun
  have hs := hsorted h
  refine ⟨hs.first, ?_, ?_, ?_, ?_⟩
  · rintro before streamId ⟨after, rfl⟩ hbefore
    have hfirst := ((hsorted h.front).first streamId).mp hbefore
    obtain ⟨past, event, rest, rfl, hsetup, hnone⟩ := hfirst
    apply (hs.first streamId).mpr
    exact ⟨past, event, rest ++ after, by simp, hsetup, hnone⟩
  · intro streamId hbound
    obtain ⟨-, -, hall, hnot⟩ := hs.bound streamId hbound
    exact ⟨hall, onDataPath_of_not_handed hnot⟩
  · intro streamId hfree
    refine ⟨hs.control streamId hfree, ?_⟩
    cases hget : (run env events).1.uniPeekStash.get? streamId with
    | none =>
        rw [Option.getD_none, List.append_nil]
        exact hs.data streamId hget hfree
    | some bytes =>
        obtain ⟨-, hsent, hnot⟩ := hs.waiting streamId bytes hget
        rw [onDataPath_of_not_handed hnot, hsent]
        rfl
  · intro streamId hmem
    cases hget : (run env events).1.uniPeekStash.get? streamId with
    | none => exact absurd hget (Dict.mem_keys.mp hmem)
    | some bytes =>
        obtain ⟨hpeek, hsent, -⟩ := hs.waiting streamId bytes hget
        rw [hsent]
        exact hpeek

/-- A session whose control path leaves the data plane alone. -/
def quietUniEnv : UniEnv where
  toDataEnv := DataPlane.quietEnv
  onControlData := fun plane _ _ _ _ => plane

/-- Stream 2 is SETUP, and stream 6 has these bytes; the type of either is split. -/
def splitEvents (first last : UInt8) : List (Nat × UniEvent) :=
  [(0, .chunk 2 [0xAF] false), (0, .chunk 6 [first] false), (0, .chunk 2 [0x00] false),
    (0, .chunk 6 [last] false)]

/-- Stream 6 is data. -/
theorem uni_streams_classified_split : Classified quietUniEnv (splitEvents 0x80 0x10) := by
  apply uni_streams_classified
  have hmeets : ∀ (s : UniStreams) (trace : List Routed) (streamId : Nat) (data : Bytes),
      s.plane.closeErr = none → trace.all (fun chunk => chunk matches .control ..) = true →
        (streamId ∈ s.uniPeekStash.keys → s.controlReadSid ≠ none →
          d18PeekIsSetup (s.peekHead streamId data) ≠ some true) →
        Meets s trace (.chunk streamId data false) := by
    intro s trace streamId data hopen htrace hsecond
    refine ⟨hopen, nofun, ?_, nofun, ?_⟩
    · intro j data' endStream hevent
      cases hevent
      exact hsecond
    · rintro j data' endStream hevent - ⟨bytes, fin, hmem⟩
      have hcontrol := List.all_eq_true.mp htrace _ hmem
      cases hcontrol
  refine ⟨?_, ?_, ?_, ?_, ?_⟩
  · exact hmeets _ _ 2 _ (by decide +kernel) (by decide +kernel) (by decide +kernel)
  · exact hmeets _ _ 6 _ (by decide +kernel) (by decide +kernel) (by decide +kernel)
  · exact hmeets _ _ 2 _ (by decide +kernel) (by decide +kernel) (by decide +kernel)
  · exact hmeets _ _ 6 _ (by decide +kernel) (by decide +kernel) (by decide +kernel)
  · unfold MeetsAll
    decide +kernel

/-- Stream 6 is SETUP too, and takes the place of stream 2. -/
theorem second_setup_rebinds :
    ¬ ∀ (env : UniEnv) (events : List (Nat × UniEvent)),
      (∀ event ∈ events, ∃ streamId data, event.2 = .chunk streamId data false) →
      (∀ before, before <+: events → (run env before).1.plane.closeErr = none) →
        Classified env events := by
  intro hall
  have hclassified : Classified quietUniEnv (splitEvents 0xAF 0x00) := by
    apply hall
    · intro event hmem
      simp only [splitEvents, List.mem_cons, List.not_mem_nil, or_false] at hmem
      rcases hmem with rfl | rfl | rfl | rfl
      · exact ⟨_, _, rfl⟩
      · exact ⟨_, _, rfl⟩
      · exact ⟨_, _, rfl⟩
      · exact ⟨_, _, rfl⟩
    · intro before hbefore
      have hinits : ∀ before ∈ (splitEvents 0xAF 0x00).inits,
          (run quietUniEnv before).1.plane.closeErr = none := by decide +kernel
      exact hinits before ((List.mem_inits before _).mpr hbefore)
  have hfirst : (run quietUniEnv ((splitEvents 0xAF 0x00).take 3)).1.controlReadSid = some 2 := by
    decide +kernel
  have hlast : (run quietUniEnv (splitEvents 0xAF 0x00)).1.controlReadSid = some 6 := by decide +kernel
  have hkept := hclassified.kept _ 2 (List.take_prefix 3 _) hfirst
  rw [hlast] at hkept
  cases hkept

end UniStreams

end AioMoqt.Session
