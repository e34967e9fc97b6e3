import AioMoqt.Session.Credit
import AioMoqt.Session.Proofs.RequestIds

/-!
# Request credit between two endpoints

What an endpoint has sent, what its peer has parsed and what its handler tasks have taken in
are parts of one list of messages.  The Request IDs in it ascend and stay below what the peer
allows, and the limits in it ascend up to the peer's own.
-/

namespace AioMoqt.Session

open AioMoqt.Lib AioMoqt.Messages

/-! ## Messages -/

/-- The Request ID a message uses up. -/
def usedId (msg : ControlMessage) : Option Nat := if consumesId msg then msg.requestId else none

/-- The limit a message allows. -/
def grant : ControlMessage → Option Nat
  | .clientSetup msg => setupLimit msg.parameters
  | .serverSetup msg => setupLimit msg.parameters
  | .maxSubscribeId msg => some msg.requestId
  | _ => none

/-- The limit a REQUESTS_BLOCKED names. -/
def blockedAt : ControlMessage → Option Nat
  | .subscribesBlocked msg => some msg.requestId
  | _ => none

/-- A SETUP of the client's or of the server's. -/
def isSetup (client : Bool) : ControlMessage → Bool
  | .clientSetup _ => client
  | .serverSetup _ => !client
  | _ => false

/-! ## Request ids -/

/-- The ids of what is sent, and what the peer has made of those it parsed. -/
structure Numbers (parity next ceiling parsed : Nat) (sent : List ControlMessage)
    (peer : PeerRequests) : Prop where
  parity_lt : parity < 2
  slot : next % 2 = parity
  ascending : (sent.filterMap usedId).Pairwise (· < ·)
  ids : ∀ id ∈ sent.filterMap usedId, id % 2 = parity ∧ id < next ∧ id < ceiling
  window : requestIdWindow ≤ ceiling
  seen : ∀ i ∈ peer.seen, i % 2 = parity ∧ peer.low ≤ i ∧ i < next
  bounded : peer.seen.card ≤ peerRequestSeenCap
  low : peer.low ≤ next
  ahead : ∀ id ∈ (sent.drop parsed).filterMap usedId, peer.low ≤ id ∧ ∀ i ∈ peer.seen, i < id

namespace Numbers

variable {parity next ceiling parsed : Nat} {sent : List ControlMessage} {peer : PeerRequests}
  {msg : ControlMessage}

theorem filterMap_snoc {α β : Type} (f : α → Option β) (xs : List α) (x : α) :
    (xs ++ [x]).filterMap f = xs.filterMap f ++ (f x).toList := by
  rw [List.filterMap_append]
  cases h : f x <;> simp [h]

/-- What is behind the parsed messages, with one more. -/
theorem mem_drop_snoc {α β : Type} {f : α → Option β} {xs : List α} {x : α} {n : Nat} {b : β}
    (h : b ∈ ((xs ++ [x]).drop n).filterMap f) : b ∈ (xs.drop n).filterMap f ∨ f x = some b := by
  obtain ⟨a, ha, hb⟩ := List.mem_filterMap.mp h
  rw [List.drop_append] at ha
  obtain ha | ha := List.mem_append.mp ha
  · exact Or.inl (List.mem_filterMap.mpr ⟨a, ha, hb⟩)
  · obtain rfl := List.mem_singleton.mp (List.mem_of_mem_drop ha)
    exact Or.inr hb

/-- A message without an id. -/
theorem quiet (h : Numbers parity next ceiling parsed sent peer) (hmsg : usedId msg = none) :
    Numbers parity next ceiling parsed (sent ++ [msg]) peer := by
  have hsame : (sent ++ [msg]).filterMap usedId = sent.filterMap usedId := by
    rw [filterMap_snoc, hmsg, Option.toList_none, List.append_nil]
  refine { h with ascending := ?_, ids := ?_, ahead := ?_ }
  · rw [hsame]
    exact h.ascending
  · rw [hsame]
    exact h.ids
  · intro id hid
    obtain hid | hid := mem_drop_snoc hid
    · exact h.ahead id hid
    · rw [hmsg] at hid
      cases hid

/-- An id is used up. -/
theorem skip (h : Numbers parity next ceiling parsed sent peer) :
    Numbers parity (next + 2) ceiling parsed sent peer := by
  have hslot := h.slot
  refine { h with slot := by omega, ids := ?_, seen := ?_, low := ?_ }
  · intro id hid
    obtain ⟨hparity, hnext, hceiling⟩ := h.ids id hid
    exact ⟨hparity, by omega, hceiling⟩
  · intro i hi
    obtain ⟨hparity, hlow, hnext⟩ := h.seen i hi
    exact ⟨hparity, hlow, by omega⟩
  · have hlow := h.low
    omega

/-- A message with the next id, within what the peer allows. -/
theorem request (h : Numbers parity next ceiling parsed sent peer) (hmsg : usedId msg = some next)
    (hceiling : next < ceiling) :
    Numbers parity (next + 2) ceiling parsed (sent ++ [msg]) peer := by
  have hids : (sent ++ [msg]).filterMap usedId = sent.filterMap usedId ++ [next] := by
    rw [filterMap_snoc, hmsg]
    rfl
  have hskip := h.skip
  refine { hskip with ascending := ?_, ids := ?_, ahead := ?_ }
  · rw [hids, List.pairwise_append]
    refine ⟨h.ascending, List.pairwise_singleton _ _, ?_⟩
    intro id hid last hlast
    rw [List.mem_singleton.mp hlast]
    exact (h.ids id hid).2.1
  · intro id hid
    rw [hids] at hid
    obtain hid | hid := List.mem_append.mp hid
    · exact hskip.ids id hid
    · rw [List.mem_singleton.mp hid]
      exact ⟨h.slot, by omega, hceiling⟩
  · intro id hid
    obtain hid | hid := mem_drop_snoc hid
    · exact h.ahead id hid
    · obtain rfl : next = id := Option.some.inj (hmsg.symm.trans hid)
      exact ⟨h.low, fun i hi => (h.seen i hi).2.2⟩

/-- The peer allows more. -/
theorem raise (h : Numbers parity next ceiling parsed sent peer) {ceiling' : Nat}
    (hle : ceiling ≤ ceiling') : Numbers parity next ceiling' parsed sent peer := by
  refine { h with ids := ?_, window := h.window.trans hle }
  intro id hid
  obtain ⟨hparity, hnext, hceiling⟩ := h.ids id hid
  exact ⟨hparity, hnext, by omega⟩

/-- The next message of those sent. -/
theorem drop_parsed (hget : sent[parsed]? = some msg) :
    sent.drop parsed = msg :: sent.drop (parsed + 1) := by
  obtain ⟨hlt, heq⟩ := List.getElem?_eq_some_iff.mp hget
  rw [List.drop_eq_getElem_cons hlt, heq]

/-- A message is parsed whose id is not looked at. -/
theorem pass (h : Numbers parity next ceiling parsed sent peer) :
    Numbers parity next ceiling (parsed + 1) sent peer := by
  refine { h with ahead := ?_ }
  intro id hid
  apply h.ahead id
  obtain ⟨msg, hmsg, hid⟩ := List.mem_filterMap.mp hid
  refine List.mem_filterMap.mpr ⟨msg, ?_, hid⟩
  rw [← List.drop_drop] at hmsg
  exact List.mem_of_mem_drop hmsg

/-- A message with an id is parsed: the id is new, of the peer's parity and allowed. -/
theorem note (h : Numbers parity next ceiling parsed sent peer) (hget : sent[parsed]? = some msg)
    {rid : Nat} (hrid : usedId msg = some rid) :
    (rid % 2 = parity ∧ peer.duplicate rid = false ∧ rid < ceiling) ∧
      Numbers parity next ceiling (parsed + 1) sent (peer.note rid parity) := by
  have hdrop := drop_parsed hget
  have hunread : (sent.drop parsed).filterMap usedId =
      rid :: (sent.drop (parsed + 1)).filterMap usedId := by
    rw [hdrop, List.filterMap_cons_some hrid]
  have hsorted : ((sent.drop parsed).filterMap usedId).Pairwise (· < ·) :=
    h.ascending.sublist ((List.drop_sublist _ _).filterMap _)
  rw [hunread, List.pairwise_cons] at hsorted
  have hmem : rid ∈ sent.filterMap usedId :=
    List.mem_filterMap.mpr ⟨msg, List.mem_of_getElem? hget, hrid⟩
  obtain ⟨hparity, hnext, hceiling⟩ := h.ids rid hmem
  obtain ⟨hlow, hbelow⟩ := h.ahead rid (hunread ▸ List.mem_cons_self)
  have hfresh : rid ∉ peer.seen := fun hin => Nat.lt_irrefl _ (hbelow rid hin)
  have hdup : peer.duplicate rid = false := by
    rw [← Bool.not_eq_true, PeerRequests.duplicate_iff]
    rintro (hlt | hin)
    · omega
    · exact hfresh hin
  refine ⟨⟨hparity, hdup, hceiling⟩, ?_⟩
  have hslots : ∀ i ∈ insert rid peer.seen, i % 2 = parity := by
    intro i hi
    obtain rfl | hi := Finset.mem_insert.mp hi
    · exact hparity
    · exact (h.seen i hi).1
  have habove : ∀ i ∈ insert rid peer.seen, peer.low ≤ i := by
    intro i hi
    obtain rfl | hi := Finset.mem_insert.mp hi
    · exact hlow
    · exact (h.seen i hi).2.1
  obtain ⟨-, hsub, hge, hcard, -, -⟩ := PeerRequests.note_spec h.parity_lt hslots habove h.bounded
  have hstop := PeerRequests.note_low_le (fun i hi => (h.seen i hi).1)
    (fun i hi => (h.seen i hi).2.1) h.bounded hparity hlow hbelow
  have hle : ∀ i ∈ (peer.note rid parity).seen, i ≤ rid := by
    intro i hi
    obtain rfl | hi := Finset.mem_insert.mp (hsub hi)
    · exact Nat.le_refl _
    · exact Nat.le_of_lt (hbelow i hi)
  have hslot := h.slot
  refine { h.pass with seen := ?_, bounded := hcard, low := by omega, ahead := ?_ }
  · intro i hi
    have hrid := hle i hi
    exact ⟨hslots i (hsub hi), hge i hi, by omega⟩
  · intro id hid
    have hlater := hsorted.1 id hid
    have hidMem : id ∈ sent.filterMap usedId := by
      obtain ⟨m, hm, hid⟩ := List.mem_filterMap.mp hid
      exact List.mem_filterMap.mpr ⟨m, List.mem_of_mem_drop hm, hid⟩
    have hidParity := (h.ids id hidMem).1
    refine ⟨by omega, ?_⟩
    intro i hi
    have hrid := hle i hi
    omega

end Numbers

/-! ## Limits -/

theorem grant_none {msg : ControlMessage} (h : schedules msg = false) :
    grant msg = none ∧ ∀ client, isSetup client msg = false := by
  cases msg <;> first | exact ⟨rfl, fun _ => rfl⟩ | cases h

/-- The limits an endpoint has sent: those its peer has taken in, those that wait for their
handler tasks and those on the way, in this order. -/
structure Grants (client : Bool) (max limit : Option Nat) (parsed : Nat) (done : Bool)
    (sent tasks : List ControlMessage) : Prop where
  parsed_le : parsed ≤ sent.length
  raised : (sent.filterMap grant).Pairwise (· < ·)
  capped : ∀ g ∈ sent.filterMap grant, ∃ m ∈ max, g ≤ m
  taken : ∃ handled, sent.filterMap grant =
    handled ++ (tasks.filterMap grant ++ (sent.drop parsed).filterMap grant) ∧
      limit = handled.getLast?
  kinds : ∀ msg ∈ sent, schedules msg = true → (grant msg).isSome ∧ isSetup (!client) msg = false
  queued : ∀ msg ∈ tasks, msg ∈ sent ∧ schedules msg = true
  once : tasks.countP (isSetup client) + (sent.drop parsed).countP (isSetup client) +
    (if done then 1 else 0) ≤ if max.isSome then 1 else 0

namespace Grants

variable {client done : Bool} {max limit : Option Nat} {parsed : Nat}
  {sent tasks : List ControlMessage} {msg : ControlMessage}

theorem drop_snoc (h : Grants client max limit parsed done sent tasks) (msg : ControlMessage) :
    (sent ++ [msg]).drop parsed = sent.drop parsed ++ [msg] :=
  List.drop_append_of_le_length h.parsed_le

/-- A message that is not handled. -/
theorem quiet (h : Grants client max limit parsed done sent tasks) (hmsg : schedules msg = false) :
    Grants client max limit parsed done (sent ++ [msg]) tasks := by
  obtain ⟨hgrant, hsetup⟩ := grant_none hmsg
  have hsame : ∀ xs : List ControlMessage, (xs ++ [msg]).filterMap grant = xs.filterMap grant := by
    intro xs
    rw [Numbers.filterMap_snoc, hgrant, Option.toList_none, List.append_nil]
  refine ⟨?_, ?_, ?_, ?_, ?_, ?_, ?_⟩
  · rw [List.length_append]
    exact h.parsed_le.trans (Nat.le_add_right _ _)
  · rw [hsame]
    exact h.raised
  · rw [hsame]
    exact h.capped
  · rw [h.drop_snoc, hsame, hsame]
    exact h.taken
  · intro m hm hschedules
    obtain hm | hm := List.mem_append.mp hm
    · exact h.kinds m hm hschedules
    · rw [List.mem_singleton.mp hm, hmsg] at hschedules
      cases hschedules
  · intro m hm
    obtain ⟨hsent, hschedules⟩ := h.queued m hm
    exact ⟨List.mem_append_left _ hsent, hschedules⟩
  · rw [h.drop_snoc, List.countP_append, List.countP_singleton, hsetup client]
    exact h.once

/-- A higher limit is sent. -/
theorem send (h : Grants client max limit parsed done sent tasks) {g m : Nat}
    (hgrant : grant msg = some g) (hkind : isSetup (!client) msg = false) (hle : g ≤ m)
    (habove : ∀ old ∈ max, old < g)
    (hmax : isSetup client msg = true → max = none) :
    Grants client (some m) limit parsed done (sent ++ [msg]) tasks := by
  have hsnoc : ∀ xs : List ControlMessage,
      (xs ++ [msg]).filterMap grant = xs.filterMap grant ++ [g] := by
    intro xs
    rw [Numbers.filterMap_snoc, hgrant]
    rfl
  refine ⟨?_, ?_, ?_, ?_, ?_, ?_, ?_⟩
  · rw [List.length_append]
    exact h.parsed_le.trans (Nat.le_add_right _ _)
  · rw [hsnoc, List.pairwise_append]
    refine ⟨h.raised, List.pairwise_singleton _ _, ?_⟩
    intro old hold last hlast
    obtain ⟨m', hm', hle'⟩ := h.capped old hold
    rw [List.mem_singleton.mp hlast]
    exact Nat.lt_of_le_of_lt hle' (habove m' hm')
  · intro old hold
    rw [hsnoc] at hold
    refine ⟨m, rfl, ?_⟩
    obtain hold | hold := List.mem_append.mp hold
    · obtain ⟨m', hm', hle'⟩ := h.capped old hold
      have hlt := habove m' hm'
      omega
    · rw [List.mem_singleton.mp hold]
      exact hle
  · obtain ⟨handled, hsplit, hlimit⟩ := h.taken
    refine ⟨handled, ?_, hlimit⟩
    rw [h.drop_snoc, hsnoc, hsnoc, hsplit]
    simp only [List.append_assoc]
  · intro m hm hsched
    obtain hm | hm := List.mem_append.mp hm
    · exact h.kinds m hm hsched
    · rw [List.mem_singleton.mp hm, hgrant]
      exact ⟨rfl, hkind⟩
  · intro m hm
    obtain ⟨hsent, hsched⟩ := h.queued m hm
    exact ⟨List.mem_append_left _ hsent, hsched⟩
  · have honce := h.once
    rw [h.drop_snoc, List.countP_append, List.countP_singleton]
    cases hsetup : isSetup client msg with
    | false =>
        have hone : (if max.isSome then 1 else 0) ≤ 1 := by split <;> omega
        simp only [Bool.false_eq_true, if_false, Option.isSome_some, if_true]
        omega
    | true =>
        rw [hmax hsetup] at honce
        simp only [Option.isSome_none, Bool.false_eq_true, if_false] at honce
        simp only [if_true, Option.isSome_some]
        omega

/-- A message is parsed, and its handler task created. -/
theorem parse (h : Grants client max limit parsed done sent tasks) (hget : sent[parsed]? = some msg) :
    Grants client max limit (parsed + 1) done sent
      (if schedules msg then tasks ++ [msg] else tasks) := by
  have hdrop := Numbers.drop_parsed hget
  have hmem : msg ∈ sent := List.mem_of_getElem? hget
  have hlt : parsed < sent.length := (List.getElem?_eq_some_iff.mp hget).1
  cases hsched : schedules msg with
  | false =>
      obtain ⟨hgrant, hsetup⟩ := grant_none hsched
      refine { h with parsed_le := hlt, taken := ?_, once := ?_ }
      · obtain ⟨handled, hsplit, hlimit⟩ := h.taken
        refine ⟨handled, ?_, hlimit⟩
        rw [hsplit, hdrop, List.filterMap_cons_none hgrant]
        rfl
      · have honce := h.once
        rwa [hdrop, List.countP_cons_of_neg (by rw [hsetup]; decide)] at honce
  | true =>
      obtain ⟨hsome, -⟩ := h.kinds msg hmem hsched
      obtain ⟨g, hgrant⟩ := Option.isSome_iff_exists.mp hsome
      simp only [if_true]
      refine { h with parsed_le := hlt, taken := ?_, queued := ?_, once := ?_ }
      · obtain ⟨handled, hsplit, hlimit⟩ := h.taken
        refine ⟨handled, ?_, hlimit⟩
        rw [hsplit, hdrop, List.filterMap_cons_some hgrant, Numbers.filterMap_snoc, hgrant]
        simp
      · intro m hm
        obtain hm | hm := List.mem_append.mp hm
        · exact h.queued m hm
        · rw [List.mem_singleton.mp hm]
          exact ⟨hmem, hsched⟩
      · have honce := h.once
        rw [hdrop, List.countP_cons] at honce
        rw [List.countP_append, List.countP_singleton]
        omega

/-- The first handler task takes in a limit above the one before. -/
theorem handle (h : Grants client max limit parsed done sent (msg :: tasks)) :
    ∃ g, grant msg = some g ∧ (∀ old ∈ limit, old < g) ∧ (∃ m ∈ max, g ≤ m) ∧
      isSetup (!client) msg = false ∧ (isSetup client msg = true → done = false) ∧
      Grants client max (some g) parsed (done || isSetup client msg) sent tasks := by
  obtain ⟨hmem, hsched⟩ := h.queued msg List.mem_cons_self
  obtain ⟨hsome, hkind⟩ := h.kinds msg hmem hsched
  obtain ⟨g, hgrant⟩ := Option.isSome_iff_exists.mp hsome
  obtain ⟨handled, hsplit, hlimit⟩ := h.taken
  rw [List.filterMap_cons_some hgrant, List.cons_append] at hsplit
  have habove : ∀ old ∈ limit, old < g := by
    intro old hold
    have hraised := h.raised
    rw [hsplit, List.pairwise_append] at hraised
    rw [hlimit] at hold
    exact hraised.2.2 old (List.mem_of_getLast? hold) g List.mem_cons_self
  have hone : (if max.isSome then 1 else 0) ≤ 1 := by split <;> omega
  have honce := h.once
  rw [List.countP_cons] at honce
  refine ⟨g, hgrant, habove, ?_, hkind, ?_, ?_⟩
  · apply h.capped g
    rw [hsplit]
    exact List.mem_append_right _ List.mem_cons_self
  · intro hsetup
    cases done with
    | false => rfl
    | true =>
        simp only [hsetup, if_true] at honce
        omega
  · refine { h with taken := ?_, queued := ?_, once := ?_ }
    · refine ⟨handled ++ [g], ?_, ?_⟩
      · rw [hsplit, List.append_assoc, List.singleton_append]
      · rw [List.getLast?_append]
        rfl
    · intro m hm
      exact h.queued m (List.mem_cons_of_mem _ hm)
    · cases hsetup : isSetup client msg with
      | false =>
          rw [Bool.or_false]
          simp only [hsetup, Bool.false_eq_true, if_false] at honce
          omega
      | true =>
          simp only [Bool.or_true, if_true]
          simp only [hsetup, if_true] at honce
          omega

/-- What is taken in is at most what the peer allows. -/
theorem limit_le (h : Grants client max limit parsed done sent tasks) :
    ∀ l ∈ limit, ∃ m ∈ max, l ≤ m := by
  intro l hl
  obtain ⟨handled, hsplit, hlimit⟩ := h.taken
  rw [hlimit] at hl
  apply h.capped l
  rw [hsplit]
  exact List.mem_append_left _ (List.mem_of_getLast? hl)

end Grants

/-! ## REQUESTS_BLOCKED -/

/-- The limits at which an endpoint was blocked. -/
structure Blocks (sent : List ControlMessage) (limit : Option Nat) (told : Bool) : Prop where
  rise : (sent.filterMap blockedAt).Pairwise (· < ·)
  below : ∀ b ∈ sent.filterMap blockedAt, ∃ l ∈ limit, b ≤ l ∧ (told = false → b < l)

namespace Blocks

variable {sent : List ControlMessage} {limit : Option Nat} {told : Bool} {msg : ControlMessage}

theorem quiet (h : Blocks sent limit told) (hmsg : blockedAt msg = none) :
    Blocks (sent ++ [msg]) limit told := by
  have hsame : (sent ++ [msg]).filterMap blockedAt = sent.filterMap blockedAt := by
    rw [Numbers.filterMap_snoc, hmsg, Option.toList_none, List.append_nil]
  refine ⟨?_, ?_⟩
  · rw [hsame]
    exact h.rise
  · rw [hsame]
    exact h.below

/-- The limit is named once. -/
theorem tell {l : Nat} (h : Blocks sent (some l) false) (hmsg : blockedAt msg = some l) :
    Blocks (sent ++ [msg]) (some l) true := by
  have hsnoc : (sent ++ [msg]).filterMap blockedAt = sent.filterMap blockedAt ++ [l] := by
    rw [Numbers.filterMap_snoc, hmsg]
    rfl
  have hbelow : ∀ b ∈ sent.filterMap blockedAt, b < l := by
    intro b hb
    obtain ⟨l', hl', -, hlt⟩ := h.below b hb
    obtain rfl : l = l' := Option.some.inj hl'
    exact hlt rfl
  refine ⟨?_, ?_⟩
  · rw [hsnoc, List.pairwise_append]
    refine ⟨h.rise, List.pairwise_singleton _ _, ?_⟩
    intro b hb last hlast
    rw [List.mem_singleton.mp hlast]
    exact hbelow b hb
  · intro b hb
    rw [hsnoc] at hb
    refine ⟨l, rfl, ?_, fun h => by cases h⟩
    obtain hb | hb := List.mem_append.mp hb
    · exact Nat.le_of_lt (hbelow b hb)
    · exact Nat.le_of_eq (List.mem_singleton.mp hb)

/-- A higher limit. -/
theorem raise (h : Blocks sent limit told) {g : Nat} (habove : ∀ l ∈ limit, l < g) (told' : Bool) :
    Blocks sent (some g) told' := by
  refine ⟨h.rise, ?_⟩
  intro b hb
  obtain ⟨l, hl, hle, -⟩ := h.below b hb
  have hlt := habove l hl
  exact ⟨g, rfl, by omega, fun _ => by omega⟩

end Blocks

/-! ## Both directions -/

namespace Endpoint

/-- The parity of the peer's Request IDs. -/
def parity (e : Endpoint) : Nat := if e.isClient then 1 else 0

/-- What the peer may use: before SETUP nothing more than the window it will have. -/
def ceiling (e : Endpoint) : Nat := e.control.localRequestMax.getD requestIdWindow

/-- The requests of `x` to `y`, and the limits of `y` to `x`. -/
structure Flow (x y : Endpoint) : Prop where
  opposite : x.isClient = !y.isClient
  numbers : Numbers y.parity x.nextRequestId y.ceiling y.parsed x.control.sent
    y.control.peerRequests
  grants : Grants y.isClient y.control.localRequestMax x.peerRequestLimit x.parsed x.setupDone
    y.control.sent x.tasks
  blocks : Blocks x.control.sent x.peerRequestLimit x.requestsBlockedSent

/-- An endpoint that did not close; a server answers SETUP as it takes it in. -/
structure Sound (e : Endpoint) : Prop where
  opened : e.closed = none
  answers : e.isClient = false → e.setupDone = false → e.control.localRequestMax = none

/-- An endpoint and its peer. -/
structure Healthy (e p : Endpoint) : Prop where
  sound : e.Sound
  peer : p.Sound
  out : Flow e p
  back : Flow p e

variable {e p e' : Endpoint} {msg : ControlMessage}

theorem Healthy.symm (h : Healthy e p) : Healthy p e := ⟨h.peer, h.sound, h.back, h.out⟩

theorem healthy_new : Healthy (new true) (new false) := by
  have hempty : ∀ {parity next : Nat}, parity < 2 → next % 2 = parity →
      Numbers parity next requestIdWindow 0 [] {} := by
    intro parity next hparity hslot
    exact ⟨hparity, hslot, by simp, by simp, Nat.le_refl _, by simp, by simp, by simp, by simp⟩
  have hgrants : ∀ client, Grants client none none 0 false [] [] := by
    intro client
    exact ⟨Nat.le_refl _, by simp, by simp, ⟨[], rfl, rfl⟩, by simp, by simp, by simp⟩
  have hblocks : Blocks [] none false := ⟨by simp, by simp⟩
  exact ⟨⟨rfl, fun _ _ => rfl⟩, ⟨rfl, fun _ _ => rfl⟩,
    ⟨rfl, hempty (by decide) rfl, hgrants _, hblocks⟩,
    ⟨rfl, hempty (by decide) rfl, hgrants _, hblocks⟩⟩

/-! ### Sending -/

/-- A message that says nothing of ids and limits. -/
theorem Healthy.send (h : Healthy e p) (hid : usedId msg = none) (hsched : schedules msg = false)
    (hblocked : blockedAt msg = none) : Healthy (e.send msg) p :=
  ⟨⟨h.sound.opened, h.sound.answers⟩, h.peer,
    ⟨h.out.opposite, h.out.numbers.quiet hid, h.out.grants, h.out.blocks.quiet hblocked⟩,
    ⟨h.back.opposite, h.back.numbers, h.back.grants.quiet hsched, h.back.blocks⟩⟩

theorem usedId_of_consumes (h : consumesId msg = true) :
    usedId msg = msg.requestId ∧ schedules msg = false ∧ blockedAt msg = none := by
  refine ⟨if_pos h, ?_⟩
  cases msg <;> first | exact ⟨rfl, rfl⟩ | cases h

/-- What becomes of an id. -/
theorem allocate_cases (opener : Bool) :
    e.allocateRequestId opener = (none, e) ∨
      (∃ l, e.peerRequestLimit = some l ∧ e.requestsBlockedSent = false ∧
        e.allocateRequestId opener =
          (none, { e with requestsBlockedSent := true }.send (.subscribesBlocked ⟨l⟩))) ∨
      ((∀ l ∈ e.peerRequestLimit, e.nextRequestId < l) ∧ e.allocateRequestId opener =
        (some e.nextRequestId, { e with nextRequestId := e.nextRequestId + 2 })) := by
  unfold allocateRequestId
  by_cases hgone : opener = true ∧ e.goawayReceived = true
  · rw [if_pos hgone]
    exact Or.inl rfl
  · rw [if_neg hgone]
    cases hlimit : e.peerRequestLimit with
    | none => exact Or.inr (Or.inr ⟨by simp, rfl⟩)
    | some l =>
        simp only
        by_cases hle : l ≤ e.nextRequestId
        · rw [if_pos hle]
          cases htold : e.requestsBlockedSent with
          | true => exact Or.inl rfl
          | false => exact Or.inr (Or.inl ⟨l, rfl, rfl, rfl⟩)
        · rw [if_neg hle]
          refine Or.inr (Or.inr ⟨?_, rfl⟩)
          intro l' hl'
          obtain rfl : l = l' := Option.some.inj hl'
          omega

/-- REQUESTS_BLOCKED. -/
theorem Healthy.block (h : Healthy e p) {l : Nat} (hlimit : e.peerRequestLimit = some l)
    (htold : e.requestsBlockedSent = false) :
    Healthy ({ e with requestsBlockedSent := true }.send (.subscribesBlocked ⟨l⟩)) p := by
  have hblocks := h.out.blocks
  rw [hlimit, htold] at hblocks
  have htell := hblocks.tell (show blockedAt (.subscribesBlocked ⟨l⟩) = some l from rfl)
  rw [← hlimit] at htell
  exact ⟨⟨h.sound.opened, h.sound.answers⟩, h.peer,
    ⟨h.out.opposite, h.out.numbers.quiet rfl, h.out.grants, htell⟩,
    ⟨h.back.opposite, h.back.numbers, h.back.grants.quiet rfl, h.back.blocks⟩⟩

theorem Healthy.skip (h : Healthy e p) :
    Healthy { e with nextRequestId := e.nextRequestId + 2 } p :=
  ⟨⟨h.sound.opened, h.sound.answers⟩, h.peer,
    ⟨h.out.opposite, h.out.numbers.skip, h.out.grants, h.out.blocks⟩,
    ⟨h.back.opposite, h.back.numbers, h.back.grants, h.back.blocks⟩⟩

theorem Healthy.abandon (h : Healthy e p) (opener : Bool) :
    Healthy (e.allocateRequestId opener).2 p := by
  obtain heq | ⟨l, hlimit, htold, heq⟩ | ⟨-, heq⟩ := allocate_cases (e := e) opener
  · rw [heq]
    exact h
  · rw [heq]
    exact h.block hlimit htold
  · rw [heq]
    exact h.skip

/-- An id within the peer's limit is within what the peer allows. -/
theorem Healthy.lt_ceiling (h : Healthy e p) (hlimit : ∀ l ∈ e.peerRequestLimit, e.nextRequestId < l)
    (hearly : e.peerRequestLimit = none → e.nextRequestId < requestIdWindow) :
    e.nextRequestId < p.ceiling := by
  cases hl : e.peerRequestLimit with
  | none => exact Nat.lt_of_lt_of_le (hearly hl) h.out.numbers.window
  | some l =>
      obtain ⟨m, hm, hle⟩ := h.out.grants.limit_le l hl
      have hceiling : p.ceiling = m := by
        rw [ceiling, Option.mem_def.mp hm, Option.getD_some]
      have hlt := hlimit l hl
      omega

theorem Healthy.request (h : Healthy e p) (hconsumes : consumesId msg = true)
    (hid : msg.requestId = some e.nextRequestId)
    (hearly : e.peerRequestLimit = none → e.nextRequestId < requestIdWindow) :
    Healthy (e.request msg) p := by
  obtain ⟨hused, hsched, hblocked⟩ := usedId_of_consumes hconsumes
  unfold Endpoint.request
  obtain heq | ⟨l, hlimit, htold, heq⟩ | ⟨hlimit, heq⟩ :=
    allocate_cases (e := e) (isRequestOpener msg)
  · rw [heq]
    exact h
  · rw [heq]
    exact h.block hlimit htold
  · rw [heq]
    have hnumbers := h.out.numbers.request (hused.trans hid) (h.lt_ceiling hlimit hearly)
    exact ⟨⟨h.sound.opened, h.sound.answers⟩, h.peer,
      ⟨h.out.opposite, hnumbers, h.out.grants, h.out.blocks.quiet hblocked⟩,
      ⟨h.back.opposite, h.back.numbers, h.back.grants.quiet hsched, h.back.blocks⟩⟩

/-! ### Raising the limit -/

/-- A session that allows more, or as much as before. -/
def Raises (c c' : ControlSession (Finset Nat)) : Prop :=
  c'.localRequestMax = c.localRequestMax ∧ c'.sent = c.sent ∨
    ∃ m, c.localRequestMax = some m ∧ c'.localRequestMax = some (m + requestIdWindow) ∧
      c'.sent = c.sent ++ [.maxSubscribeId ⟨m + requestIdWindow⟩]

theorem extend_raises (env : ControlEnv (Finset Nat)) (c : ControlSession (Finset Nat)) (rid : Nat) :
    Raises c (extendRequestCredit env c rid) ∧
      (extendRequestCredit env c rid).peerRequests = c.peerRequests := by
  unfold extendRequestCredit
  split
  · exact ⟨Or.inl ⟨rfl, rfl⟩, rfl⟩
  next limit hlimit =>
      split
      · exact ⟨Or.inl ⟨rfl, rfl⟩, rfl⟩
      · split
        · exact ⟨Or.inl ⟨rfl, rfl⟩, rfl⟩
        · exact ⟨Or.inr ⟨limit, hlimit, rfl, rfl⟩, rfl⟩

theorem Healthy.raise (h : Healthy e p) {c : ControlSession (Finset Nat)}
    (hraises : Raises e.control c) (hpeer : c.peerRequests = e.control.peerRequests) :
    Healthy { e with control := c } p := by
  obtain ⟨hmax, hsent⟩ | ⟨m, hmax, hmax', hsent⟩ := hraises
  · have hceiling : ceiling { e with control := c } = e.ceiling := by
      rw [ceiling, ceiling, hmax]
    refine ⟨⟨h.sound.opened, ?_⟩, h.peer, ⟨h.out.opposite, ?_, h.out.grants, ?_⟩,
      ⟨h.back.opposite, ?_, ?_, h.back.blocks⟩⟩
    · rw [hmax]
      exact h.sound.answers
    · rw [hsent]
      exact h.out.numbers
    · rw [hsent]
      exact h.out.blocks
    · rw [hceiling, hpeer]
      exact h.back.numbers
    · rw [hmax, hsent]
      exact h.back.grants
  · have hceiling : ceiling { e with control := c } = m + requestIdWindow := by
      rw [ceiling, hmax', Option.getD_some]
    have hold : e.ceiling = m := by
      rw [ceiling, hmax, Option.getD_some]
    have hgrants := h.back.grants
    rw [hmax] at hgrants
    have hmore : m < m + requestIdWindow := Nat.lt_add_of_pos_right (by decide)
    refine ⟨⟨h.sound.opened, ?_⟩, h.peer, ⟨h.out.opposite, ?_, h.out.grants, ?_⟩,
      ⟨h.back.opposite, ?_, ?_, h.back.blocks⟩⟩
    · intro hserver hdone
      have hnone := h.sound.answers hserver hdone
      rw [hmax] at hnone
      cases hnone
    · rw [hsent]
      exact h.out.numbers.quiet rfl
    · rw [hsent]
      exact h.out.blocks.quiet rfl
    · rw [hceiling, hpeer]
      exact h.back.numbers.raise (hold ▸ Nat.le_add_right _ _)
    · rw [hmax', hsent]
      apply hgrants.send (g := m + requestIdWindow) rfl rfl (Nat.le_refl _)
      · intro old hmem
        obtain rfl : m = old := Option.some.inj hmem
        exact hmore
      · intro hsetup
        cases hsetup

/-! ### Parsing -/

/-- A message's id is not looked at, or it is admitted. -/
theorem check_cases (env : ControlEnv (Finset Nat)) (c : ControlSession (Finset Nat))
    (msg : ControlMessage) :
    checkRequestId env c none msg = .ok c ∨
      ∃ rid, usedId msg = some rid ∧
        checkRequestId env c none msg = admitRequestId env c msg rid := by
  unfold checkRequestId
  split
  next hchecked =>
      cases hrid : msg.requestId with
      | none => exact Or.inl rfl
      | some rid =>
          refine Or.inr ⟨rid, ?_, rfl⟩
          have hconsumes : consumesId msg = true := by
            unfold consumesId
            obtain ⟨-, hopener⟩ | hupdate := hchecked
            · rw [hopener]
              rfl
            · rw [hupdate, Bool.or_true]
              rfl
          rw [usedId, if_pos hconsumes, hrid]
  · exact Or.inl rfl

/-- An id of the right parity that is new and allowed is noted. -/
theorem admit_ok (env : ControlEnv (Finset Nat)) (msg : ControlMessage)
    {c : ControlSession (Finset Nat)} {rid : Nat}
    (hparity : rid % 2 = if env.isClient then 1 else 0)
    (hnew : c.peerRequests.duplicate rid = false) (hmax : ∀ m ∈ c.localRequestMax, rid < m) :
    ∃ c', admitRequestId env c msg rid = .ok (extendRequestCredit env c' rid) ∧
      c'.peerRequests = c.peerRequests.note rid (if env.isClient then 1 else 0) ∧
      c'.localRequestMax = c.localRequestMax ∧ c'.sent = c.sent := by
  have hallowed : c.localRequestMax.any (· ≤ rid) = false := by
    cases hlimit : c.localRequestMax with
    | none => rfl
    | some m =>
        have hlt := hmax m hlimit
        simpa using hlt
  unfold admitRequestId
  simp only [hparity, ne_eq, not_true_eq_false, if_false, hnew, Bool.false_eq_true, hallowed]
  split
  · exact ⟨_, rfl, rfl, rfl, rfl⟩
  · exact ⟨_, rfl, rfl, rfl, rfl⟩

theorem Healthy.parse (h : Healthy e p) (hget : p.control.sent[e.parsed]? = some msg) :
    Healthy (e.parse msg) p := by
  have hgrants := h.out.grants.parse hget
  unfold Endpoint.parse
  obtain hok | ⟨rid, hused, hverdict⟩ := check_cases e.env e.control msg
  · rw [hok]
    exact ⟨⟨h.sound.opened, h.sound.answers⟩, h.peer,
      ⟨h.out.opposite, h.out.numbers, hgrants, h.out.blocks⟩,
      ⟨h.back.opposite, h.back.numbers.pass, h.back.grants, h.back.blocks⟩⟩
  · obtain ⟨⟨hparity, hnew, hceiling⟩, hnumbers⟩ := h.back.numbers.note hget hused
    have hmax : ∀ m ∈ e.control.localRequestMax, rid < m := by
      intro m hm
      rwa [ceiling, Option.mem_def.mp hm, Option.getD_some] at hceiling
    obtain ⟨c, hc, hpeer, hlimit, hsent⟩ := admit_ok e.env msg hparity hnew hmax
    rw [hverdict, hc]
    have hnoted : Healthy { e with
        control := c
        parsed := e.parsed + 1
        tasks := if schedules msg then e.tasks ++ [msg] else e.tasks } p := by
      refine ⟨⟨h.sound.opened, ?_⟩, h.peer, ⟨h.out.opposite, ?_, hgrants, ?_⟩,
        ⟨h.back.opposite, ?_, ?_, h.back.blocks⟩⟩
      · rw [hlimit]
        exact h.sound.answers
      · rw [hsent]
        exact h.out.numbers
      · rw [hsent]
        exact h.out.blocks
      · rw [ceiling, hlimit, hpeer]
        exact hnumbers
      · rw [hlimit, hsent]
        exact h.back.grants
    obtain ⟨hraises, hsame⟩ := extend_raises e.env c rid
    exact hnoted.raise hraises hsame

theorem Healthy.recheck (h : Healthy e p) : Healthy e.recheck p := by
  unfold Endpoint.recheck
  split
  · obtain ⟨hraises, hsame⟩ := extend_raises e.env { e.control with creditRecheck := false }
      e.control.peerRequests.max.toNat
    exact h.raise hraises hsame
  · exact h

/-! ### Handler tasks -/

/-- MAX_REQUEST_ID as a SERVER_SETUP may carry it. -/
def Allowed (params : Params) : Prop :=
  setupMaxRequestId ∈ params.keys →
    ∃ limit, setupLimit params = some limit ∧ limit ≤ requestIdWindow

theorem setupLimit_insert (params : Params) (limit : Nat) :
    setupLimit (params.insert setupMaxRequestId (limitValue limit)) = some limit := by
  rw [setupLimit, Dict.get?_insert, if_pos rfl]
  rfl

/-- SETUP is sent. -/
theorem Healthy.setup (h : Healthy e p) (hnone : e.control.localRequestMax = none) {g : Nat}
    (hgrant : grant msg = some g) (hother : isSetup (!e.isClient) msg = false)
    (hle : g ≤ requestIdWindow) (hid : usedId msg = none) (hblocked : blockedAt msg = none)
    (hdone : e.isClient = false → e.setupDone = true) :
    Healthy ({ e with control := { e.control with
      localRequestMax := some requestIdWindow } }.send msg) p := by
  have hceiling : e.ceiling = requestIdWindow := by
    rw [ceiling, hnone, Option.getD_none]
  have hnumbers := h.back.numbers
  rw [hceiling] at hnumbers
  refine ⟨⟨h.sound.opened, ?_⟩, h.peer,
    ⟨h.out.opposite, h.out.numbers.quiet hid, h.out.grants, h.out.blocks.quiet hblocked⟩,
    ⟨h.back.opposite, hnumbers, ?_, h.back.blocks⟩⟩
  · intro hserver hnot
    rw [hdone hserver] at hnot
    cases hnot
  · refine h.back.grants.send hgrant hother hle ?_ (fun _ => hnone)
    intro old hold
    rw [hnone] at hold
    cases hold

theorem Healthy.clientSetup (h : Healthy e p) (hclient : e.isClient = true)
    (hnone : e.control.localRequestMax = none) (params : Params) :
    Healthy (e.clientSetup params) p := by
  have hgrant : grant (.clientSetup
      { parameters := params.insert setupMaxRequestId (limitValue requestIdWindow) }) =
        some requestIdWindow := setupLimit_insert params requestIdWindow
  apply h.setup hnone hgrant _ (Nat.le_refl _) rfl rfl
  · intro hserver
    rw [hclient] at hserver
    cases hserver
  · show (!e.isClient) = false
    rw [hclient]
    rfl

/-- A server's answer. -/
theorem Healthy.serverSetup (h : Healthy e p) (hserver : e.isClient = false)
    (hdone : e.setupDone = true) (hnone : e.control.localRequestMax = none) {params : Params}
    (hparams : Allowed params) : Healthy (e.serverSetup params) p := by
  have hsend : ∀ {params : Params} {g : Nat}, setupLimit params = some g → g ≤ requestIdWindow →
      Healthy ({ e with control := { e.control with
        localRequestMax := some requestIdWindow } }.send (.serverSetup { parameters := params })) p := by
    intro params g hlimit hle
    have hgrant : grant (.serverSetup { parameters := params }) = some g := hlimit
    apply h.setup hnone hgrant _ hle rfl rfl (fun _ => hdone)
    show (!(!e.isClient)) = false
    rw [hserver]
    rfl
  unfold Endpoint.serverSetup
  split
  next hin =>
      obtain ⟨limit, hlimit, hle⟩ := hparams hin
      exact hsend hlimit hle
  · exact hsend (setupLimit_insert params requestIdWindow) (Nat.le_refl _)

/-- A limit is taken in. -/
theorem Healthy.ingest (h : Healthy e p) (told : Bool) {tasks : List ControlMessage} {g : Nat}
    {done : Bool} (habove : ∀ l ∈ e.peerRequestLimit, l < g)
    (hgrants : Grants p.isClient p.control.localRequestMax (some g) e.parsed done p.control.sent
      tasks)
    (hanswers : e.isClient = false → done = false → e.control.localRequestMax = none) :
    Healthy { e with
      tasks, peerRequestLimit := some g, requestsBlockedSent := told, setupDone := done } p :=
  ⟨⟨h.sound.opened, hanswers⟩, h.peer,
    ⟨h.out.opposite, h.out.numbers, hgrants, h.out.blocks.raise habove told⟩,
    ⟨h.back.opposite, h.back.numbers, h.back.grants, h.back.blocks⟩⟩

theorem ingest_eq (tolerate : Bool) {params : Params} {g : Nat} (hlimit : setupLimit params = some g) :
    e.ingestRequestLimit tolerate params = { e with peerRequestLimit := some g } := by
  rw [ingestRequestLimit, hlimit]

theorem handleClientSetup_eq (tolerate : Bool) {msg : ClientSetup} {g : Nat} (params : Params)
    (hserver : e.isClient = false) (hnot : e.setupDone = false)
    (hlimit : setupLimit msg.parameters = some g) :
    e.handleClientSetup tolerate msg params =
      { e with peerRequestLimit := some g, setupDone := true }.serverSetup params := by
  rw [handleClientSetup, if_neg (by simp [hserver, hnot]), ingest_eq tolerate hlimit]
  rfl

theorem handleServerSetup_eq (tolerate : Bool) {msg : ServerSetup} {g : Nat}
    (hclient : e.isClient = true) (hnot : e.setupDone = false)
    (hlimit : setupLimit msg.parameters = some g) :
    e.handleServerSetup tolerate msg =
      { e with peerRequestLimit := some g, setupDone := true } := by
  rw [handleServerSetup, if_neg (by simp [hclient, hnot]), ingest_eq tolerate hlimit]

theorem Healthy.handle (h : Healthy e p) (tolerate : Bool) {params : Params}
    (hparams : Allowed params) : Healthy (e.handle tolerate params) p := by
  unfold Endpoint.handle
  cases htasks : e.tasks with
  | nil => exact h
  | cons msg tasks =>
      have hgrants := h.out.grants
      rw [htasks] at hgrants
      obtain ⟨g, hgrant, habove, -, hkind, hdone, hnext⟩ := hgrants.handle
      have hclient := h.out.opposite
      cases msg with
      | clientSetup msg =>
          have hpeer : p.isClient = true := by
            have hkind : (!p.isClient) = false := hkind
            simpa using hkind
          have hserver : e.isClient = false := by rw [hclient, hpeer, Bool.not_true]
          have hnot : e.setupDone = false := hdone hpeer
          have hset : isSetup p.isClient (.clientSetup msg) = true := hpeer
          rw [hset, Bool.or_true] at hnext
          have hingested := h.ingest e.requestsBlockedSent habove hnext
            (fun _ hfalse => by cases hfalse)
          have heq := handleClientSetup_eq (e := { e with tasks }) tolerate params hserver hnot hgrant
          simp only [heq]
          exact hingested.serverSetup hserver rfl (h.sound.answers hserver hnot) hparams
      | serverSetup msg =>
          have hpeer : p.isClient = false := by
            have hkind : (!(!p.isClient)) = false := hkind
            simpa using hkind
          have hself : e.isClient = true := by rw [hclient, hpeer, Bool.not_false]
          have hset : isSetup p.isClient (.serverSetup msg) = true := by
            show (!p.isClient) = true
            rw [hpeer, Bool.not_false]
          have hnot : e.setupDone = false := hdone hset
          rw [hset, Bool.or_true] at hnext
          have hingested := h.ingest e.requestsBlockedSent habove hnext
            (fun _ hfalse => by cases hfalse)
          have heq := handleServerSetup_eq (e := { e with tasks }) tolerate hself hnot hgrant
          simp only [heq]
          exact hingested
      | maxSubscribeId msg =>
          obtain rfl : msg.requestId = g := Option.some.inj hgrant
          have hset : isSetup p.isClient (.maxSubscribeId msg) = false := rfl
          rw [hset, Bool.or_false] at hnext
          have hallowed : e.peerRequestLimit.any (msg.requestId ≤ ·) = false := by
            cases hl : e.peerRequestLimit with
            | none => rfl
            | some l =>
                have hlt := habove l hl
                simpa using hlt
          have hingested := h.ingest false habove hnext h.sound.answers
          simp only [handleMaxRequestId, hallowed, Bool.false_eq_true, if_false]
          exact hingested
      | _ => cases hgrant

/-! ### Steps -/

/-- What a step has to meet: a request is not made with an id past the window before the peer's
SETUP is taken in, and a server does not answer with a MAX_REQUEST_ID of its own past it. -/
def Meets (e : Endpoint) : CreditEvent → Prop
  | .request _ | .abandon _ =>
      e.peerRequestLimit = none → e.nextRequestId < requestIdWindow
  | .handle params => Allowed params
  | _ => True

theorem usedId_of_not (h : ¬ consumesId msg = true) : usedId msg = none := if_neg h

theorem Healthy.step (h : Healthy e p) {tolerate : Bool} {event : CreditEvent}
    (hmeets : e.Meets event) (hstep : e.step tolerate p.control.sent event = some e') :
    Healthy e' p := by
  cases event with
  | setup params =>
      simp only [Endpoint.step] at hstep
      split at hstep
      next hcond =>
          obtain rfl := Option.some.inj hstep
          exact h.clientSetup hcond.1 hcond.2 params
      · cases hstep
  | parse =>
      obtain ⟨msg, hget, rfl⟩ := Option.map_eq_some_iff.mp hstep
      exact h.parse hget
  | handle params =>
      simp only [Endpoint.step] at hstep
      split at hstep
      · cases hstep
      · obtain rfl := Option.some.inj hstep
        exact h.handle tolerate hmeets
  | request msg =>
      simp only [Endpoint.step] at hstep
      split at hstep
      next hcond =>
          obtain rfl := Option.some.inj hstep
          exact h.request hcond.1 hcond.2 hmeets
      · cases hstep
  | abandon opener =>
      obtain rfl := Option.some.inj hstep
      exact h.abandon opener
  | answer msg =>
      simp only [Endpoint.step] at hstep
      split at hstep
      next hcond =>
          obtain rfl := Option.some.inj hstep
          obtain ⟨hconsumes, hsched, hcls⟩ := hcond
          apply h.send (usedId_of_not hconsumes) (Bool.not_eq_true _ ▸ hsched)
          cases msg <;> first | rfl | exact absurd rfl hcls
      · cases hstep
  | hold requests =>
      obtain rfl := Option.some.inj hstep
      exact h.raise (Or.inl ⟨rfl, rfl⟩) rfl
  | recheck =>
      obtain rfl := Option.some.inj hstep
      exact h.recheck
  | goaway =>
      obtain rfl := Option.some.inj hstep
      exact ⟨⟨h.sound.opened, h.sound.answers⟩, h.peer,
        ⟨h.out.opposite, h.out.numbers, h.out.grants, h.out.blocks⟩,
        ⟨h.back.opposite, h.back.numbers, h.back.grants, h.back.blocks⟩⟩

end Endpoint

/-! ## Runs -/

namespace Link

/-- Events, each at its endpoint. -/
def run (tolerate : Bool) : Link → List (Side × CreditEvent) → Option Link
  | s, [] => some s
  | s, (side, event) :: events => (s.step tolerate side event).bind fun s => run tolerate s events

/-- Every step of a run meets the condition. -/
def Meets (tolerate : Bool) : Link → List (Side × CreditEvent) → Prop
  | _, [] => True
  | s, (side, event) :: events =>
      (s side).Meets event ∧ ∀ s', s.step tolerate side event = some s' → Meets tolerate s' events

/-- Credit is respected in both directions. -/
structure Respected (s : Link) : Prop where
  /-- No limit that was taken in is past the peer's own. -/
  limit : ∀ side, ∀ l ∈ (s side).peerRequestLimit,
    ∃ m ∈ (s side.other).control.localRequestMax, l ≤ m
  /-- A Request ID that arrives is below the limit. -/
  arrival : ∀ side msg rid, (s side.other).control.sent[(s side).parsed]? = some msg →
    usedId msg = some rid → ∀ m ∈ (s side).control.localRequestMax, rid < m
  /-- MAX_REQUEST_ID raises the limit. -/
  raised : ∀ side msg tasks, (s side).tasks = .maxSubscribeId msg :: tasks →
    ∀ l ∈ (s side).peerRequestLimit, l < msg.requestId
  /-- No endpoint closes the session. -/
  opened : ∀ side, (s side).closed = none
  /-- REQUESTS_BLOCKED names no limit twice. -/
  blocked : ∀ side, ((s side).control.sent.filterMap blockedAt).Nodup

theorem respected_of_healthy {s : Link} (h : ∀ side, (s side).Healthy (s side.other)) :
    Respected s where
  limit side := (h side).out.grants.limit_le
  arrival side msg rid hget hused m hm := by
    have hids := (h side).back.numbers.ids rid
      (List.mem_filterMap.mpr ⟨msg, List.mem_of_getElem? hget, hused⟩)
    have hceiling := hids.2.2
    rwa [Endpoint.ceiling, Option.mem_def.mp hm, Option.getD_some] at hceiling
  raised side msg tasks htasks := by
    have hgrants := (h side).out.grants
    rw [htasks] at hgrants
    obtain ⟨g, hgrant, habove, -⟩ := hgrants.handle
    obtain rfl : msg.requestId = g := Option.some.inj hgrant
    exact habove
  opened side := (h side).sound.opened
  blocked side := (h side).out.blocks.rise.imp Nat.ne_of_lt

theorem healthy_step {tolerate : Bool} {s s' : Link} {side : Side} {event : CreditEvent}
    (h : ∀ side, (s side).Healthy (s side.other)) (hmeets : (s side).Meets event)
    (hstep : s.step tolerate side event = some s') : ∀ side, (s' side).Healthy (s' side.other) := by
  unfold Link.step at hstep
  split at hstep
  · obtain ⟨e, he, rfl⟩ := Option.map_eq_some_iff.mp hstep
    have hnext := (h side).step hmeets he
    intro other
    cases side <;> cases other <;> first | exact hnext | exact hnext.symm
  · cases hstep

theorem healthy_run {tolerate : Bool} {events : List (Side × CreditEvent)} :
    ∀ {s s' : Link}, (∀ side, (s side).Healthy (s side.other)) → Meets tolerate s events →
      run tolerate s events = some s' → ∀ side, (s' side).Healthy (s' side.other) := by
  induction events with
  | nil =>
      intro s s' h _ hrun
      obtain rfl := Option.some.inj hrun
      exact h
  | cons event events ih =>
      intro s s' h hmeets hrun
      obtain ⟨mid, hstep, hrest⟩ := Option.bind_eq_some_iff.mp hrun
      exact ih (healthy_step h hmeets.1 hstep) (hmeets.2 mid hstep) hrest

/-- In every run whose steps meet the condition, credit is respected. -/
theorem respected_of_meets (tolerate : Bool) (events : List (Side × CreditEvent)) (s : Link)
    (hmeets : Meets tolerate new events) (hrun : run tolerate new events = some s) :
    Respected s := by
  apply respected_of_healthy
  apply healthy_run _ hmeets hrun
  intro side
  cases side with
  | client => exact Endpoint.healthy_new
  | server => exact Endpoint.healthy_new.symm

/-- SETUP in both directions, and a request. -/
def handshake (params : Params) : List (Side × CreditEvent) :=
  [(.client, .setup .empty), (.server, .parse), (.server, .handle params), (.client, .parse),
    (.client, .handle .empty),
    (.client, .request (.subscribe { trackNamespace := [], trackName := [], parameters := .empty })),
    (.server, .parse)]

theorem meets_cons {tolerate : Bool} {s : Link} {side : Side} {event : CreditEvent}
    {events : List (Side × CreditEvent)} (hsome : (s.step tolerate side event).isSome = true)
    (hmeets : (s side).Meets event)
    (hrest : Meets tolerate ((s.step tolerate side event).get hsome) events) :
    Meets tolerate s ((side, event) :: events) := by
  refine ⟨hmeets, ?_⟩
  intro s' hs'
  have heq : (s.step tolerate side event).get hsome = s' := by simp [hs']
  rwa [heq] at hrest

theorem respected_handshake :
    ∃ s, run false new (handshake .empty) = some s ∧ Respected s := by
  have hrun : (run false new (handshake .empty)).isSome = true := by decide +kernel
  obtain ⟨s, hs⟩ := Option.isSome_iff_exists.mp hrun
  refine ⟨s, hs, respected_of_meets false (handshake .empty) s ?_ hs⟩
  have hempty : Endpoint.Allowed .empty := fun hin => by cases hin
  unfold handshake
  refine meets_cons (by decide +kernel) trivial ?_
  refine meets_cons (by decide +kernel) trivial ?_
  refine meets_cons (by decide +kernel) hempty ?_
  refine meets_cons (by decide +kernel) trivial ?_
  refine meets_cons (by decide +kernel) hempty ?_
  refine meets_cons (by decide +kernel) (fun _ => by decide +kernel) ?_
  exact meets_cons (by decide +kernel) trivial trivial

/-- A server that answers with a MAX_REQUEST_ID of its own keeps its limit. -/
theorem not_respected_of_option :
    ∃ s, run false new (handshake ⟨[(setupMaxRequestId, limitValue 50000)], by decide⟩) = some s ∧
      ¬ Respected s := by
  have hrun : (run false new (handshake ⟨[(setupMaxRequestId, limitValue 50000)], by decide⟩)).map
      (fun s => ((s .client).peerRequestLimit, (s .server).control.localRequestMax)) =
        some (some 50000, some 10000) := by decide +kernel
  obtain ⟨s, hs, hlimits⟩ := Option.map_eq_some_iff.mp hrun
  refine ⟨s, hs, ?_⟩
  intro hrespected
  obtain ⟨hclient, hserver⟩ := Prod.mk.inj hlimits
  obtain ⟨m, hm, hle⟩ := hrespected.limit .client 50000 hclient
  obtain rfl : 10000 = m := Option.some.inj (hserver.symm.trans hm)
  omega

end Link

end AioMoqt.Session
