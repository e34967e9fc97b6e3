import AioMoqt.Session.Proofs.Bindings

/-!
# What a session holds

The bytes that no object was made of yet and the objects that no handler came for are counted
as they come and go.  While the session is open the counters are exact, and within their limits.
-/

namespace AioMoqt.Session

open AioMoqt.Lib AioMoqt.Lib.BigEndian AioMoqt.Messages

/-- What the counters are about. -/
structure HoldTables where
  streams : Dict Nat DataStream
  rxHeldBytes : Int
  earlyObjects : Dict Nat (List EarlyObject)
  earlyObjectsCount : Int
  earlyObjectsBytes : Int
  closeErr : Option SessionCloseCode

namespace HoldTables

/-- What is counted of the streams beyond what they hold. -/
def heldDrift (t : HoldTables) : Int := t.rxHeldBytes - t.streams.total (·.held)

/-- What is counted of the early objects beyond those that are held. -/
def countDrift (t : HoldTables) : Int := t.earlyObjectsCount - t.earlyObjects.total (·.length)

def bytesDrift (t : HoldTables) : Int := t.earlyObjectsBytes - t.earlyObjects.total earlyBytes

/-- No stream is counted other than before, and only the stream that is being drained has other
bytes; `count` and `bytes` for the early objects that were counted and not held. -/
structure Pays (cur : Option Nat) (count bytes : Int) (t t' : HoldTables) : Prop where
  held : t'.heldDrift = t.heldDrift
  heldLe : t'.rxHeldBytes ≤ t.rxHeldBytes
  kept : ∀ streamId st', t'.streams.get? streamId = some st' →
    ∃ st, t.streams.get? streamId = some st ∧ st'.held = st.held ∧
      (cur ≠ some streamId → st'.chain = st.chain)
  count : t'.countDrift = t.countDrift - count
  bytes : t'.bytesDrift = t.bytesDrift - bytes
  countLe : t'.earlyObjectsCount ≤ max t.earlyObjectsCount earlyObjectMax
  bytesLe : t'.earlyObjectsBytes ≤ max t.earlyObjectsBytes earlyObjectMaxBytes

theorem Pays.rfl {cur : Option Nat} {t : HoldTables} : t.Pays cur 0 0 t where
  held := Eq.refl _
  heldLe := le_rfl
  kept := fun _ st' h => ⟨st', h, Eq.refl _, fun _ => Eq.refl _⟩
  count := by omega
  bytes := by omega
  countLe := le_max_left _ _
  bytesLe := le_max_left _ _

theorem Pays.trans {cur : Option Nat} {n b m c : Int} {t t' t'' : HoldTables}
    (h : t.Pays cur n b t') (h' : t'.Pays cur m c t'') : t.Pays cur (n + m) (b + c) t'' where
  held := h'.held.trans h.held
  heldLe := h'.heldLe.trans h.heldLe
  kept := by
    intro streamId st'' hget
    obtain ⟨st', hget', hheld', hchain'⟩ := h'.kept streamId st'' hget
    obtain ⟨st, hget'', hheld, hchain⟩ := h.kept streamId st' hget'
    refine ⟨st, hget'', hheld'.trans hheld, fun hcur => ?_⟩
    exact (hchain' hcur).trans (hchain hcur)
  count := by
    rw [h'.count, h.count]
    omega
  bytes := by
    rw [h'.bytes, h.bytes]
    omega
  countLe := h'.countLe.trans (max_le h.countLe (le_max_right _ _))
  bytesLe := h'.bytesLe.trans (max_le h.bytesLe (le_max_right _ _))

/-- Where nothing is drained, a stream keeps its bytes. -/
theorem Pays.weaken {n b : Int} {t t' : HoldTables} (h : t.Pays none n b t') (cur : Option Nat) :
    t.Pays cur n b t' where
  __ := h
  kept := by
    intro streamId st' hget
    obtain ⟨st, hget', hheld, hchain⟩ := h.kept streamId st' hget
    exact ⟨st, hget', hheld, fun _ => hchain (by simp)⟩

/-- A stream is gone, and its bytes are no longer counted. -/
theorem pays_erase {t : HoldTables} {streamId : Nat} {st : DataStream}
    (h : t.streams.get? streamId = some st) :
    t.Pays none 0 0
      { t with
        streams := t.streams.erase streamId
        rxHeldBytes := t.rxHeldBytes - st.held } where
  held := by
    have htotal := Dict.total_erase_some h (·.held)
    unfold heldDrift
    dsimp only
    omega
  heldLe := by
    show t.rxHeldBytes - st.held ≤ t.rxHeldBytes
    omega
  kept := by
    intro id st' hget
    rw [Dict.get?_erase] at hget
    split_ifs at hget
    exact ⟨st', hget, rfl, fun _ => rfl⟩
  count := by
    show t.countDrift = _
    omega
  bytes := by
    show t.bytesDrift = _
    omega
  countLe := le_max_left _ _
  bytesLe := le_max_left _ _

/-- A stream whose state changes, but for what is counted of it. -/
theorem pays_insert {t : HoldTables} {streamId : Nat} {old st : DataStream} {cur : Option Nat}
    (h : t.streams.get? streamId = some old) (hheld : st.held = old.held)
    (hchain : cur ≠ some streamId → st.chain = old.chain) :
    t.Pays cur 0 0 { t with streams := t.streams.insert streamId st } where
  held := by
    unfold heldDrift
    rw [Dict.total_insert_same h hheld]
  heldLe := le_rfl
  kept := by
    intro id st' hget
    rw [Dict.get?_insert] at hget
    split_ifs at hget with hid
    · cases hget
      subst hid
      exact ⟨old, h, hheld, hchain⟩
    · exact ⟨st', hget, rfl, fun _ => rfl⟩
  count := by
    show t.countDrift = _
    omega
  bytes := by
    show t.bytesDrift = _
    omega
  countLe := le_max_left _ _
  bytesLe := le_max_left _ _

/-- A change to the early objects and their counters. -/
theorem pays_early {t : HoldTables} {cur : Option Nat} (objects : Dict Nat (List EarlyObject))
    (count bytes : Int) {n b : Int}
    (hcount : count - objects.total (·.length) = t.countDrift - n)
    (hbytes : bytes - objects.total earlyBytes = t.bytesDrift - b)
    (hcountLe : count ≤ max t.earlyObjectsCount earlyObjectMax)
    (hbytesLe : bytes ≤ max t.earlyObjectsBytes earlyObjectMaxBytes) :
    t.Pays cur n b
      { t with
        earlyObjects := objects
        earlyObjectsCount := count
        earlyObjectsBytes := bytes } where
  held := rfl
  heldLe := le_rfl
  kept := fun _ st' h => ⟨st', h, rfl, fun _ => rfl⟩
  count := hcount
  bytes := hbytes
  countLe := hcountLe
  bytesLe := hbytesLe

end HoldTables

namespace DataPlane

def holds (s : DataPlane) : HoldTables where
  streams := s.streams
  rxHeldBytes := s.rxHeldBytes
  earlyObjects := s.earlyObjects
  earlyObjectsCount := s.earlyObjectsCount
  earlyObjectsBytes := s.earlyObjectsBytes
  closeErr := s.closeErr

/-- As long as the session is open, the counters follow what is held. -/
def Pays (cur : Option Nat) (count bytes : Int) (s s' : DataPlane) : Prop :=
  s'.closeErr = none → s.closeErr = none ∧ s.holds.Pays cur count bytes s'.holds

theorem Pays.of_holds {cur : Option Nat} {s s' : DataPlane} (h : s'.holds = s.holds) :
    Pays cur 0 0 s s' := by
  intro hopen
  have hclose : s'.closeErr = s.closeErr := congrArg HoldTables.closeErr h
  refine ⟨hclose ▸ hopen, ?_⟩
  rw [h]
  exact HoldTables.Pays.rfl

/-- One table follows from the other. -/
theorem Pays.of_tables {cur : Option Nat} {n b : Int} {s s' : DataPlane} {t' : HoldTables}
    (h : s.holds.Pays cur n b t') (hclose : s'.closeErr = s.closeErr) (heq : s'.holds = t') :
    Pays cur n b s s' := by
  intro hopen
  refine ⟨hclose ▸ hopen, ?_⟩
  rw [heq]
  exact h

theorem Pays.trans {cur : Option Nat} {n b m c : Int} {s s' s'' : DataPlane}
    (h : Pays cur n b s s') (h' : Pays cur m c s' s'') : Pays cur (n + m) (b + c) s s'' := by
  intro hopen
  have hlater := h' hopen
  have hearlier := h hlater.1
  exact ⟨hearlier.1, hearlier.2.trans hlater.2⟩

/-- Steps that leave nothing owed. -/
theorem Pays.andThen {cur : Option Nat} {s s' s'' : DataPlane} (h : Pays cur 0 0 s s')
    (h' : Pays cur 0 0 s' s'') : Pays cur 0 0 s s'' := Pays.trans h h'

theorem Pays.weaken {n b : Int} {s s' : DataPlane} (h : Pays none n b s s') (cur : Option Nat) :
    Pays cur n b s s' :=
  fun hopen => ⟨(h hopen).1, (h hopen).2.weaken cur⟩

theorem Pays.of_closed {cur : Option Nat} {n b : Int} {s s' : DataPlane}
    (h : s'.closeErr ≠ none) : Pays cur n b s s' :=
  fun hopen => absurd hopen h

theorem holds_of_core {s s' : DataPlane} (h : s'.core = s.core) : s'.holds = s.holds :=
  (congrArg holds h :)

/-! ## Streams -/

theorem markStreamTornDown_holds (s : DataPlane) (now streamId : Nat) :
    (s.markStreamTornDown now streamId).holds = s.holds := by
  unfold markStreamTornDown
  dsimp only
  split <;> rfl

/-- A stream that is cleaned up: its bytes leave the count with it. -/
theorem pays_cleanupStream (env : DataEnv) (s : DataPlane) (now streamId : Nat) (clean : Bool)
    (resetCode : Nat) : Pays none 0 0 s (s.cleanupStream env now streamId clean resetCode) := by
  have hgone : (({ s with streams := s.streams.erase streamId } : DataPlane).markStreamTornDown now
      streamId).holds = { s.holds with streams := s.streams.erase streamId } :=
    markStreamTornDown_holds _ now streamId
  unfold cleanupStream
  dsimp only
  generalize ({ s with streams := s.streams.erase streamId } : DataPlane).markStreamTornDown now
    streamId = gone at hgone
  split
  · rename_i hget
    have hkey : streamId ∉ s.streams.keys := fun hmem => Dict.mem_keys.mp hmem hget
    apply Pays.of_holds
    rw [hgone, Dict.erase_of_notMem hkey]
    rfl
  · rename_i st hget
    set counted : DataPlane := { gone with rxHeldBytes := gone.rxHeldBytes - st.held }
    have hcounted : Pays none 0 0 s counted := by
      apply Pays.of_tables (HoldTables.pays_erase (t := s.holds) hget)
      · exact congrArg HoldTables.closeErr hgone
      · show ({ gone.holds with rxHeldBytes := gone.holds.rxHeldBytes - st.held } : HoldTables) = _
        rw [hgone]
        rfl
    split
    · exact hcounted
    · rename_i key _
      apply hcounted.andThen
      apply Pays.of_holds
      set fixed := counted.fixGroupEnd st key clean
      calc
        _ = (fixed.reportStreamEnd now streamId key clean resetCode).holds := rfl
        _ = fixed.holds :=
          (holds_of_core (reportStreamEnd_core fixed now streamId key clean resetCode)).trans rfl
        _ = counted.holds := holds_of_core (fixGroupEnd_core counted st key clean)
    · exact hcounted.andThen (Pays.of_holds rfl)

theorem pays_ends (env : DataEnv) (now : Nat) (cur : Option Nat) :
    Ends env now (fun _ => True) (Pays cur 0 0) where
  refl := fun _ => Pays.of_holds rfl
  trans := Pays.andThen
  known := fun h => h fun _ _ => trivial
  aside := fun h => Pays.of_holds (holds_of_core h)
  logged := fun _ _ _ => Pays.of_holds rfl
  tear := fun s _ _ => Pays.of_holds (markStreamTornDown_holds s now _)
  cleanup := fun s _ clean resetCode _ => (pays_cleanupStream env s now _ clean resetCode).weaken cur
  close := fun s errorCode => Pays.of_closed (closeSession_closed s now errorCode)

/-- A stream gets or loses a key. -/
theorem pays_rekey (s : DataPlane) {streamId : Nat} {st : DataStream}
    (h : s.streams.get? streamId = some st) (key : Option StreamKey) :
    Pays none 0 0 s { s with streams := s.streams.insert streamId { st with key := key } } := by
  have hinsert : s.holds.Pays none 0 0
      { s.holds with streams := s.streams.insert streamId { st with key := key } } :=
    HoldTables.pays_insert h rfl fun _ => rfl
  exact Pays.of_tables hinsert rfl rfl

theorem pays_bindSubgroupStream (s : DataPlane) (streamId : Nat) (key : SubgroupKey) :
    Pays none 0 0 s (s.bindSubgroupStream streamId key) := by
  apply bindSubgroupStream_steps
  case refl => exact fun s => Pays.of_holds rfl
  case trans => exact Pays.andThen
  case rekey => exact fun s _ _ key hst => pays_rekey s hst key
  case logged => exact fun s history => Pays.of_holds rfl
  case grant => exact fun s => Pays.of_holds rfl

/-! ## Early objects -/

/-- What is held for an alias, taken out of the whole. -/
theorem erase_early (objects : Dict Nat (List EarlyObject)) (trackAlias : Nat)
    {f : List EarlyObject → Nat} (hf : f [] = 0) :
    f ((objects.get? trackAlias).getD []) + (objects.erase trackAlias).total f =
      objects.total f := by
  rcases Option.eq_none_or_eq_some (objects.get? trackAlias) with hget | ⟨held, hget⟩
  · rw [hget, Option.getD_none, hf, Dict.total_erase_none hget, Nat.zero_add]
  · rw [hget, Option.getD_some]
    exact Dict.total_erase_some hget f

theorem pays_discardEarlyObjects (cur : Option Nat) (s : DataPlane) (trackAlias : Nat) :
    Pays cur 0 0 s (s.discardEarlyObjects trackAlias) := by
  set held := (s.earlyObjects.get? trackAlias).getD [] with hheld
  have hlength := erase_early s.earlyObjects trackAlias (f := (·.length)) rfl
  have hbytes := erase_early s.earlyObjects trackAlias (f := earlyBytes) rfl
  rw [← hheld] at hlength hbytes
  refine Pays.of_tables (HoldTables.pays_early (t := s.holds) (s.earlyObjects.erase trackAlias)
    (s.earlyObjectsCount - held.length) (s.earlyObjectsBytes - earlyBytes held) ?_ ?_ ?_ ?_) rfl rfl
  · show _ = s.earlyObjectsCount - (s.earlyObjects.total (·.length) : Nat) - 0
    omega
  · show _ = s.earlyObjectsBytes - (s.earlyObjects.total earlyBytes : Nat) - 0
    omega
  · apply le_trans _ (le_max_left _ _)
    show s.earlyObjectsCount - held.length ≤ s.earlyObjectsCount
    omega
  · apply le_trans _ (le_max_left _ _)
    show s.earlyObjectsBytes - earlyBytes held ≤ s.earlyObjectsBytes
    omega

theorem takeWhile_dropWhile_total (objects : Dict Nat (List EarlyObject))
    (p : EarlyObject → Bool) {f : List EarlyObject → Nat} (hnil : f [] = 0)
    (hf : ∀ held, f (held.takeWhile p) + f (held.dropWhile p) = f held) :
    (objects.map fun held => held.takeWhile p).total f +
        ((objects.map fun held => held.dropWhile p).filter fun _ held => held ≠ []).total f =
      objects.total f := by
  have hempty : ∀ (k : Nat) (held : List EarlyObject), decide (held ≠ []) = false → f held = 0 := by
    intro _ held hheld
    have heq : held = [] := by simpa using hheld
    rw [heq, hnil]
  rw [Dict.total_filter hempty, Dict.total_map, Dict.total_map, ← Dict.total_add]
  congr 1
  funext held
  exact hf held

theorem earlyBytes_append (held later : List EarlyObject) :
    earlyBytes (held ++ later) = earlyBytes held + earlyBytes later := by
  unfold earlyBytes
  rw [List.map_append, List.sum_append]

theorem pays_expireEarlyObjects (cur : Option Nat) (s : DataPlane) (now : Nat) :
    Pays cur 0 0 s (s.expireEarlyObjects now) := by
  set expired : EarlyObject → Bool := fun early => early.heldAt + earlyObjectHold < now
  have hlength := takeWhile_dropWhile_total s.earlyObjects expired (f := (·.length)) rfl fun held => by
    rw [← List.length_append, List.takeWhile_append_dropWhile]
  have hbytes := takeWhile_dropWhile_total s.earlyObjects expired (f := earlyBytes) rfl fun held => by
    rw [← earlyBytes_append, List.takeWhile_append_dropWhile]
  set gone := s.earlyObjects.map fun held => held.takeWhile expired
  set kept := (s.earlyObjects.map fun held => held.dropWhile expired).filter fun _ held => held ≠ []
  refine Pays.of_tables (HoldTables.pays_early (t := s.holds) kept
    (s.earlyObjectsCount - gone.total fun held => held.length)
    (s.earlyObjectsBytes - gone.total earlyBytes) ?_ ?_ ?_ ?_) rfl rfl
  · show _ = s.earlyObjectsCount - (s.earlyObjects.total (·.length) : Nat) - 0
    omega
  · show _ = s.earlyObjectsBytes - (s.earlyObjects.total earlyBytes : Nat) - 0
    omega
  · apply le_trans _ (le_max_left _ _)
    show s.earlyObjectsCount - _ ≤ s.earlyObjectsCount
    omega
  · apply le_trans _ (le_max_left _ _)
    show s.earlyObjectsBytes - _ ≤ s.earlyObjectsBytes
    omega

/-- One more object, which fits. -/
theorem pays_holdEarlyObject (cur : Option Nat) (s : DataPlane) (now : Nat) (arrival : Arrival) :
    Pays cur 0 0 s (s.holdEarlyObject now arrival) := by
  have hexpire := pays_expireEarlyObjects cur s now
  unfold holdEarlyObject
  dsimp only
  split
  · exact Pays.of_holds rfl
  · set kept := s.expireEarlyObjects now
    split
    · exact hexpire
    · rename_i hfits
      apply hexpire.andThen
      set held := (kept.earlyObjects.get? arrival.trackAlias).getD [] with hheld
      set held' := held ++ [⟨now, arrival⟩] with hheld'
      have hlength := erase_early kept.earlyObjects arrival.trackAlias (f := (·.length)) rfl
      have hbytes := erase_early kept.earlyObjects arrival.trackAlias (f := earlyBytes) rfl
      rw [← hheld] at hlength hbytes
      have hlength' : held'.length = held.length + 1 := by
        rw [hheld', List.length_append]
        rfl
      have hbytes' : earlyBytes held' = earlyBytes held + arrival.consumed := by
        rw [hheld', earlyBytes_append]
        simp [earlyBytes]
      refine Pays.of_tables (HoldTables.pays_early (t := kept.holds)
        (kept.earlyObjects.insert arrival.trackAlias held') (kept.earlyObjectsCount + 1)
        (kept.earlyObjectsBytes + arrival.consumed) ?_ ?_ ?_ ?_) rfl rfl
      · show _ = kept.earlyObjectsCount - (kept.earlyObjects.total (·.length) : Nat) - 0
        rw [Dict.total_insert]
        omega
      · show _ = kept.earlyObjectsBytes - (kept.earlyObjects.total earlyBytes : Nat) - 0
        rw [Dict.total_insert]
        omega
      · apply le_trans _ (le_max_right _ _)
        omega
      · apply le_trans _ (le_max_right _ _)
        omega

/-! ## Callbacks -/

/-- A replayed object is paid for, whatever its callback does. -/
theorem pays_replayObject {cur : Option Nat} (now : Nat) {after : DataPlane → DataPlane}
    (hafter : ∀ s : DataPlane, Pays cur 0 0 s (after s)) (cb : Callback) (s : DataPlane)
    (early : EarlyObject) :
    Pays cur 1 early.arrival.consumed s (replayObject now cb after s early) := by
  set counted : DataPlane :=
    { s with
      earlyObjectsCount := s.earlyObjectsCount - 1
      earlyObjectsBytes := s.earlyObjectsBytes - early.arrival.consumed }
  have hcounted : Pays cur 1 early.arrival.consumed s counted := by
    refine Pays.of_tables (HoldTables.pays_early (t := s.holds) s.earlyObjects
      (s.earlyObjectsCount - 1) (s.earlyObjectsBytes - early.arrival.consumed) ?_ ?_ ?_ ?_) rfl rfl
    · show _ = s.earlyObjectsCount - (s.earlyObjects.total (·.length) : Nat) - 1
      omega
    · show _ = s.earlyObjectsBytes - (s.earlyObjects.total earlyBytes : Nat) - _
      omega
    · apply le_trans _ (le_max_left _ _)
      show s.earlyObjectsCount - 1 ≤ s.earlyObjectsCount
      omega
    · apply le_trans _ (le_max_left _ _)
      show s.earlyObjectsBytes - early.arrival.consumed ≤ s.earlyObjectsBytes
      omega
  unfold replayObject
  dsimp only
  split
  · exact hcounted
  · have hlogged : Pays cur 0 0 counted
        { counted with log := counted.log ++ [.replayed cb early.arrival] } := Pays.of_holds rfl
    have hcall := hcounted.trans (hlogged.andThen (hafter _))
    rwa [add_zero, add_zero] at hcall

theorem pays_replays {cur : Option Nat} (now : Nat) {after : DataPlane → DataPlane}
    (hafter : ∀ s : DataPlane, Pays cur 0 0 s (after s)) (cb : Callback) (held : List EarlyObject)
    (s : DataPlane) :
    Pays cur held.length (earlyBytes held) s (held.foldl (replayObject now cb after) s) := by
  induction held generalizing s with
  | nil => exact Pays.of_holds rfl
  | cons early held ih =>
      have hboth := (pays_replayObject now hafter cb s early).trans (ih _)
      have hlength : (1 : Int) + held.length = ((early :: held).length : Nat) := by
        rw [List.length_cons]
        omega
      have hbytes : (early.arrival.consumed : Int) + earlyBytes held =
          (earlyBytes (early :: held) : Nat) := by
        simp [earlyBytes]
      rw [hlength, hbytes] at hboth
      exact hboth

/-- The objects of an alias are owed once they are taken, and paid for one by one. -/
theorem pays_bindHandlerWith {cur : Option Nat} {now : Nat} {after : DataPlane → DataPlane}
    (hafter : ∀ s : DataPlane, Pays cur 0 0 s (after s)) (s : DataPlane) (trackAlias : Nat)
    (cb : Callback) : Pays cur 0 0 s (s.bindHandlerWith now after trackAlias cb) := by
  unfold bindHandlerWith
  set held := (s.earlyObjects.get? trackAlias).getD [] with hheld
  set bound : DataPlane :=
    { s with
      objectHandlers := s.objectHandlers.insert trackAlias cb
      earlyObjects := s.earlyObjects.erase trackAlias }
  have hlength := erase_early s.earlyObjects trackAlias (f := (·.length)) rfl
  have hbytes := erase_early s.earlyObjects trackAlias (f := earlyBytes) rfl
  rw [← hheld] at hlength hbytes
  have htaken : Pays cur (-held.length) (-earlyBytes held) s bound := by
    refine Pays.of_tables (HoldTables.pays_early (t := s.holds) (s.earlyObjects.erase trackAlias)
      s.earlyObjectsCount s.earlyObjectsBytes ?_ ?_ (le_max_left _ _) (le_max_left _ _)) rfl rfl
    · show _ = s.earlyObjectsCount - (s.earlyObjects.total (·.length) : Nat) - _
      omega
    · show _ = s.earlyObjectsBytes - (s.earlyObjects.total earlyBytes : Nat) - _
      omega
  have hpaid := htaken.trans (pays_replays now hafter cb held bound)
  rwa [neg_add_cancel, neg_add_cancel] at hpaid

/-- The counters follow what is held, whatever callbacks do. -/
theorem pays_walks (env : DataEnv) (now : Nat) (cur : Option Nat) :
    Walks env now (fun _ => True) (Pays cur 0 0) where
  toEnds := pays_ends env now cur
  sweeps := fun s trackAlias => (pays_ends env now cur).sweep s trackAlias (Pays.of_holds rfl)
  forget := fun _ _ => Pays.of_holds rfl
  discard := pays_discardEarlyObjects cur
  binds := pays_bindHandlerWith

theorem pays_deliverArrival (env : DataEnv) (cur : Option Nat) (s : DataPlane) (now : Nat)
    (arrival : Arrival) : Pays cur 0 0 s (s.deliverArrival env now arrival) :=
  (pays_walks env now cur).deliver (fun _ => Pays.of_holds rfl)
    (pays_holdEarlyObject cur s now arrival)

/-! ## The drain loop -/

/-- The loop writes its state object back. -/
theorem pays_putStream {s : DataPlane} {streamId : Nat} {st st' : DataStream}
    (h : s.Current streamId st) (hheld : st'.held = st.held) :
    Pays (some streamId) 0 0 s (s.putStream streamId st') := by
  rcases Option.eq_none_or_eq_some (s.streams.get? streamId) with hget | ⟨old, hget⟩
  · rw [putStream_of_gone hget]
    exact Pays.of_holds rfl
  · rw [putStream_of_open hget]
    rw [← h old hget] at hheld
    have hinsert : s.holds.Pays (some streamId) 0 0
        { s.holds with streams := s.streams.insert streamId st' } :=
      HoldTables.pays_insert hget hheld fun hcur => absurd rfl hcur
    exact Pays.of_tables hinsert rfl rfl

theorem pays_handleObject (env : DataEnv) {s : DataPlane} (now : Nat) {streamId : Nat}
    {st : DataStream} (h : s.Current streamId st) (rest : Bytes) (obj : ObjectHeader)
    (hdr : SubgroupHeader) (consumed : Nat) :
    Pays (some streamId) 0 0 s
      (s.handleObject env now streamId { st with chain := rest } obj hdr consumed).plane := by
  have hput : Pays (some streamId) 0 0 s
      (s.putStream streamId { st with chain := rest, parser := some (.subgroup hdr) }) :=
    pays_putStream h rfl
  obtain ⟨bound, hbound, hturn⟩ := handleObject_cases env s now streamId { st with chain := rest }
    obj hdr consumed
  have hbind : Pays (some streamId) 0 0 s bound := by
    rcases hbound with rfl | ⟨key, rfl⟩
    · exact hput
    · exact hput.andThen ((pays_bindSubgroupStream _ streamId key).weaken _)
  rw [hturn]
  apply hbind.andThen
  apply (pays_walks env now (some streamId)).checkObject (k := Pays (some streamId) 0 0)
    (q := Pays (some streamId) 0 0) trivial Pays.andThen Pays.andThen id
  · exact fun s st st' hst halike => pays_putStream hst halike.held
  · exact fun s arrival _ => pays_deliverArrival env _ s now arrival
  · exact current_streamState bound streamId _

theorem pays_drainTurn (env : DataEnv) {s : DataPlane} (now : Nat) {streamId : Nat}
    {st : DataStream} (h : s.Current streamId st) :
    Pays (some streamId) 0 0 s (s.drainTurn env now streamId st).plane := by
  have hwalks := pays_walks env now (some streamId)
  unfold drainTurn
  dsimp only
  set told : DataPlane :=
    if decide (streamId ∈ s.streams.keys) = true then s
    else { s with strays := s.strays ++ [streamId] } with htold
  have hholds : told.holds = s.holds := by
    rw [htold]
    split <;> rfl
  have hcurrent : told.Current streamId st := by
    intro old hold
    apply h old
    rw [← hold]
    exact congrArg (fun t : HoldTables => t.streams.get? streamId) hholds.symm
  apply (Pays.of_holds hholds : Pays (some streamId) 0 0 s told).andThen
  split
  · exact hwalks.parseFailed trivial (fun _ => pays_putStream hcurrent rfl) _ _
  · rename_i item cur _
    cases item with
    | padding => exact hwalks.reject told trivial _
    | subgroupHeader hdr =>
        apply hwalks.subgroupHeader trivial
        · exact fun s key => (pays_bindSubgroupStream s streamId key).weaken _
        · exact pays_putStream (current_of_core (noteUnboundAlias_core told _) hcurrent) rfl
    | fetchHeader requestId =>
        apply hwalks.fetchHeader trivial
        intro hdr _
        set bound : DataPlane :=
          { told with
            fetchStreamByRequest := told.fetchStreamByRequest.insert requestId streamId }
        have hbound : Pays (some streamId) 0 0 told bound := Pays.of_holds rfl
        have hopen : bound.Current streamId st := hcurrent
        exact hbound.andThen (pays_putStream hopen rfl)
    | object obj hdr => exact pays_handleObject env now hcurrent cur.rest obj hdr cur.pos
    | fetchObject obj hdr =>
        apply hwalks.fetchObject
        exact pays_putStream hcurrent rfl

/-! ## Runs -/

/-- The counters are exact and within their limits, but for the unparsed bytes of the stream that
is being drained. -/
structure HoldsBut (env : DataEnv) (cur : Option Nat) (s : DataPlane) : Prop where
  held : s.rxHeldBytes = s.streams.total (·.held)
  settled : ∀ streamId st, cur ≠ some streamId → s.streams.get? streamId = some st →
    st.held = st.chain.length
  heldLe : s.rxHeldBytes ≤ env.rxHeldLimit
  count : s.earlyObjectsCount = s.earlyObjects.total (·.length)
  bytes : s.earlyObjectsBytes = s.earlyObjects.total earlyBytes
  countLe : s.earlyObjectsCount ≤ earlyObjectMax
  bytesLe : s.earlyObjectsBytes ≤ earlyObjectMaxBytes

/-- What the session counts is what it holds. -/
def HoldsExact (env : DataEnv) (s : DataPlane) : Prop := HoldsBut env none s

theorem HoldsBut.pays {env : DataEnv} {cur : Option Nat} {s s' : DataPlane}
    (h : HoldsBut env cur s) (hpays : s.holds.Pays cur 0 0 s'.holds) : HoldsBut env cur s' where
  held := by
    have hdrift : s'.rxHeldBytes - (s'.streams.total (·.held) : Nat) =
      s.rxHeldBytes - (s.streams.total (·.held) : Nat) := hpays.held
    have hheld := h.held
    omega
  settled := by
    intro streamId st' hcur hget
    obtain ⟨st, hget', hheld, hchain⟩ := hpays.kept streamId st' hget
    rw [hheld, hchain hcur]
    exact h.settled streamId st hcur hget'
  heldLe := hpays.heldLe.trans h.heldLe
  count := by
    have hdrift : s'.earlyObjectsCount - (s'.earlyObjects.total (·.length) : Nat) =
      s.earlyObjectsCount - (s.earlyObjects.total (·.length) : Nat) - 0 := hpays.count
    have hcount := h.count
    omega
  bytes := by
    have hdrift : s'.earlyObjectsBytes - (s'.earlyObjects.total earlyBytes : Nat) =
      s.earlyObjectsBytes - (s.earlyObjects.total earlyBytes : Nat) - 0 := hpays.bytes
    have hbytes := h.bytes
    omega
  countLe := hpays.countLe.trans (max_le h.countLe le_rfl)
  bytesLe := hpays.bytesLe.trans (max_le h.bytesLe le_rfl)

/-- From one state to the other, as long as the session is open. -/
def Follows (env : DataEnv) (cur cur' : Option Nat) (s s' : DataPlane) : Prop :=
  s'.closeErr = none → s.closeErr = none ∧ (HoldsBut env cur s → HoldsBut env cur' s')

theorem Pays.follows {env : DataEnv} {cur : Option Nat} {s s' : DataPlane}
    (h : Pays cur 0 0 s s') : Follows env cur cur s s' :=
  fun hopen => ⟨(h hopen).1, fun hholds => hholds.pays (h hopen).2⟩

theorem Follows.trans {env : DataEnv} {cur cur' cur'' : Option Nat} {s s' s'' : DataPlane}
    (h : Follows env cur cur' s s') (h' : Follows env cur' cur'' s' s'') :
    Follows env cur cur'' s s'' := by
  intro hopen
  have hlater := h' hopen
  have hearlier := h hlater.1
  exact ⟨hearlier.1, fun hholds => hlater.2 (hearlier.2 hholds)⟩

/-- Bytes come for a stream, which may be new. -/
theorem follows_opened {env : DataEnv} {s : DataPlane} {streamId : Nat} {st : DataStream}
    (h : st.held = ((s.streams.get? streamId).map (·.held)).getD 0) :
    Follows env none (some streamId) s { s with streams := s.streams.insert streamId st } := by
  intro hopen
  refine ⟨hopen, fun hholds => ?_⟩
  constructor
  · have hheld := hholds.held
    show s.rxHeldBytes = _
    rcases Option.eq_none_or_eq_some (s.streams.get? streamId) with hget | ⟨old, hget⟩
    · rw [hget] at h
      rw [hheld, Dict.total_insert_new hget, show st.held = 0 from h, Nat.zero_add]
    · rw [hget] at h
      rw [hheld, Dict.total_insert_same hget h]
  · intro id st' hcur hget
    rw [Dict.get?_insert, if_neg (fun hid => hcur (congrArg some hid.symm))] at hget
    exact hholds.settled id st' (by simp) hget
  · exact hholds.heldLe
  · exact hholds.count
  · exact hholds.bytes
  · exact hholds.countLe
  · exact hholds.bytesLe

/-- The unparsed bytes of the drained stream are counted, and the session closes over its limit. -/
theorem follows_countHeld (env : DataEnv) (s : DataPlane) (now streamId : Nat) :
    Follows env (some streamId) none s (s.countHeld env now streamId) := by
  have hother : ∀ {id : Nat}, id ≠ streamId → some streamId ≠ some id := by
    intro id hid heq
    exact hid (Option.some.inj heq).symm
  unfold countHeld
  split
  · rename_i hget
    intro hopen
    refine ⟨hopen, fun hholds => { hholds with settled := ?_ }⟩
    intro id st _ hst
    have hid : id ≠ streamId := by
      rintro rfl
      rw [hget] at hst
      cases hst
    exact hholds.settled id st (hother hid) hst
  · rename_i st hget
    split
    · rename_i hsame
      intro hopen
      refine ⟨hopen, fun hholds => { hholds with settled := ?_ }⟩
      intro id st' _ hst
      by_cases hid : id = streamId
      · subst hid
        rw [hget, Option.some.injEq] at hst
        rw [← hst, hsame]
      · exact hholds.settled id st' (hother hid) hst
    · dsimp only
      split
      · intro hopen
        exact absurd hopen (closeSession_closed _ now _)
      · rename_i hlimit
        intro hopen
        refine ⟨hopen, fun hholds => { hholds with held := ?_, settled := ?_, heldLe := ?_ }⟩
        · have hheld := hholds.held
          have htotal := Dict.total_erase_some hget (·.held)
          show s.rxHeldBytes + st.chain.length - st.held = _
          rw [Dict.total_insert]
          dsimp only
          omega
        · intro id st' _ hst
          rw [Dict.get?_insert] at hst
          split_ifs at hst with hid
          · cases hst
            rfl
          · exact hholds.settled id st' (hother hid) hst
        · show s.rxHeldBytes + st.chain.length - st.held ≤ _
          omega

theorem follows_onStreamData (env : DataEnv) (s : DataPlane) (now streamId : Nat) (data : Bytes)
    (endStream : Bool) :
    Follows env none none s (s.onStreamData env now streamId data endStream) := by
  rcases onStreamData_cases env s now streamId data endStream with
    hsame | ⟨chain, need, st, opened, drained, hst, hopen, hcurrent, hdrain, hrest⟩
  · rw [hsame]
    exact Pays.follows (Pays.of_holds rfl)
  have hopened : Follows env none (some streamId) s opened := by
    rw [hopen]
    apply follows_opened
    rw [hst]
    show (s.streamState streamId _).held = _
    rw [streamState]
    cases s.streams.get? streamId with
    | none => rfl
    | some old => rfl
  have hdrained : Pays (some streamId) 0 0 opened drained := by
    rcases hdrain with rfl | rfl
    · exact Pays.of_holds rfl
    · exact (pays_walks env now _).drain (fun s st hst => pays_drainTurn env now hst) _ hcurrent
  have hcounted := (hopened.trans hdrained.follows).trans
    (follows_countHeld env drained now streamId)
  rcases hrest with hrest | hrest
  · rw [hrest]
    exact hcounted
  · rw [hrest]
    exact hcounted.trans ((pays_ends env now none).finish _ trivial).follows

theorem follows_step (env : DataEnv) (s : DataPlane) (event : Nat × DataPlaneEvent) :
    Follows env none none s (s.step env event) := by
  obtain ⟨now, event⟩ := event
  have hfetch : ∀ requestId, Pays none 0 0 s (s.handleFetchError requestId) := by
    intro requestId
    apply (pays_ends env now none).fetchError
    · exact fun _ => Pays.of_holds rfl
    · exact fun s _ _ hst => pays_rekey s hst none
  have hdatagram : ∀ trackAlias groupId obj consumed endOfGroup, Pays none 0 0 s
      (s.deliverDatagram env now trackAlias groupId obj consumed endOfGroup) := by
    intro trackAlias groupId obj consumed endOfGroup
    exact (pays_walks env now none).datagram (fun _ => pays_deliverArrival env none s now _)
      endOfGroup
  cases event with
  | streamData streamId data endStream =>
      unfold step
      dsimp only
      split
      · exact Pays.follows (Pays.of_holds rfl)
      · exact follows_onStreamData env s now streamId data endStream
  | _ =>
      apply Pays.follows
      apply (pays_walks env now none).step
      · exact fun _ _ => trivial
      · intro _ _ _ heq
        cases heq
      · exact hdatagram
      · exact hfetch

theorem holds_initial (env : DataEnv) : HoldsExact env {} where
  held := rfl
  settled := by
    intro streamId st _ hget
    cases hget
  heldLe := by
    show (0 : Int) ≤ env.rxHeldLimit
    omega
  count := rfl
  bytes := rfl
  countLe := by decide
  bytesLe := by decide

/-- In every run that leaves the session open, the held bytes and the early objects are counted
exactly and within their limits. -/
theorem receive_holds_exact (env : DataEnv) (events : List (Nat × DataPlaneEvent))
    (hopen : (run env events).closeErr = none) : HoldsExact env (run env events) := by
  have hrun : ∀ (events : List (Nat × DataPlaneEvent)) (s : DataPlane),
      Follows env none none s (events.foldl (step env) s) := by
    intro events
    induction events with
    | nil => exact fun s => Pays.follows (Pays.of_holds rfl)
    | cons event events ih => exact fun s => (follows_step env s event).trans (ih _)
  exact (hrun events {} hopen).2 (holds_initial env)

/-- A header and half an object on a stream, and two objects of an alias that nothing has bound;
the first of them has expired when the second one comes. -/
def heldEvents : List (Nat × DataPlaneEvent) :=
  [(0, .streamData 3 [0x10, 2, 0, 0x80, 0, 5, 9] false),
    (0, .datagram 9 0 { objectId := 0, payload := [1] } 4 false),
    (6000, .datagram 9 1 { objectId := 0, payload := [1] } 7 false)]

theorem receive_holds_exact_held :
    (run strayEnv heldEvents).rxHeldBytes = 3 ∧ (run strayEnv heldEvents).earlyObjectsCount = 1 ∧
      (run strayEnv heldEvents).earlyObjectsBytes = 7 ∧
      HoldsExact strayEnv (run strayEnv heldEvents) :=
  ⟨by decide +kernel, by decide +kernel, by decide +kernel,
    receive_holds_exact strayEnv heldEvents (by decide +kernel)⟩

end DataPlane

end AioMoqt.Session
