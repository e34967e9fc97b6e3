import AioMoqt.Media.MpegTs

/-!
# Transport stream demuxing: timestamps and synchronisation

Unwrapped timestamps follow the true ones as long as none goes back to an earlier epoch, and
demuxing does not depend on the chunks as long as no chunk ends where the look at the next sync
byte is missed.
-/

namespace AioMoqt.Media

open AioMoqt.Lib AioMoqt.Lib.BigEndian

namespace TsDemuxer

/-! ## Timestamps -/

/-- Consecutive timestamps are less than half a wrap apart. -/
def Close (t u : Nat) : Prop := t < u + ptsHalf ∧ u < t + ptsHalf

/-- No step back over a wrap. -/
def Onward (t u : Nat) : Prop := t / ptsWrap ≤ u / ptsWrap

/-- **One timestamp**: the base takes the wraps that the step goes forward, and none back. -/
theorem unwrap_step {s : TsDemuxer} {pid t u base : Nat}
    (hlast : s.lastPts.get? pid = some (t % ptsWrap, base)) (hclose : Close t u) :
    ∃ base', base' = base + ptsWrap * (u / ptsWrap - t / ptsWrap) ∧
      (s.unwrap pid (u % ptsWrap)).1.lastPts.get? pid = some (u % ptsWrap, base') ∧
      (s.unwrap pid (u % ptsWrap)).2 = base' + u % ptsWrap := by
  simp only [unwrap, hlast, Dict.get?_insert, if_true]
  refine ⟨_, ?_, rfl, rfl⟩
  obtain ⟨hback, hforth⟩ := hclose
  unfold ptsWrap ptsHalf at *
  split <;> omega

/-- From a known timestamp on, the offset stays as it is iff no step goes back over a wrap. -/
theorem unwrapAll_offset {s : TsDemuxer} {pid t base : Nat} {us : List Nat} {c : Int}
    (hlast : s.lastPts.get? pid = some (t % ptsWrap, base))
    (hbase : (base : Int) = ptsWrap * (t / ptsWrap : Nat) + c * ptsWrap)
    (hclose : (t :: us).IsChain Close) :
    ((unwrapAll pid s (us.map (· % ptsWrap))).map Int.ofNat =
      us.map fun u : Nat => (u : Int) + c * ptsWrap) ↔ (t :: us).IsChain Onward := by
  induction us generalizing s t base with
  | nil => simp [unwrapAll]
  | cons u us ih =>
      rw [List.isChain_cons_cons] at hclose ⊢
      obtain ⟨base', hbase', hlast', hvalue⟩ := unwrap_step hlast hclose.1
      have hhead : ((base' + u % ptsWrap : Nat) : Int) = u + c * ptsWrap ↔ Onward t u := by
        unfold Onward ptsWrap at *
        omega
      simp only [List.map_cons, unwrapAll, hvalue, List.cons.injEq, Int.ofNat_eq_natCast, hhead]
      refine and_congr_right fun honward => ih hlast' ?_ hclose.2
      unfold Onward ptsWrap at *
      omega

/-- **The unwrapped timestamps of a PID** differ from the true ones by one multiple of the wrap
iff no step goes back over a wrap. -/
theorem unwrapAll_exact (s : TsDemuxer) (pid : Nat) (ts : List Nat)
    (hfresh : s.lastPts.get? pid = none) (hclose : ts.IsChain Close) :
    (∃ c : Int, (unwrapAll pid s (ts.map (· % ptsWrap))).map Int.ofNat =
      ts.map fun t : Nat => (t : Int) + c * ptsWrap) ↔ ts.IsChain Onward := by
  cases ts with
  | nil => simp [unwrapAll]
  | cons t us =>
      have hstep : s.unwrap pid (t % ptsWrap) =
          ({ s with lastPts := s.lastPts.insert pid (t % ptsWrap, 0) }, t % ptsWrap) := by
        simp only [unwrap, hfresh]
      have hlast : ({ s with lastPts := s.lastPts.insert pid (t % ptsWrap, 0) } :
          TsDemuxer).lastPts.get? pid = some (t % ptsWrap, 0) := by
        simp only [Dict.get?_insert, if_true]
      have hrest := fun c hbase => unwrapAll_offset (c := c) hlast hbase hclose
      simp only [List.map_cons, unwrapAll, hstep, List.cons.injEq, Int.ofNat_eq_natCast]
      constructor
      · rintro ⟨c, hhead, htail⟩
        refine (hrest c ?_).mp htail
        unfold ptsWrap at *
        omega
      · intro honward
        have hbase : ((0 : Nat) : Int) =
            ptsWrap * (t / ptsWrap : Nat) + (-(t / ptsWrap : Nat)) * ptsWrap := by
          ring
        refine ⟨_, ?_, (hrest _ hbase).mpr honward⟩
        unfold ptsWrap
        omega

/-- Two wraps, with reordered frames between them. -/
theorem unwrapAll_exact_twoWraps :
    ∃ c : Int, (unwrapAll 0 {} ([2 ^ 33 - 5, 2 ^ 33 + 9, 2 ^ 33 + 3, 2 ^ 33 + 2 ^ 32,
      2 ^ 34 - 9, 2 ^ 34 + 1].map (· % ptsWrap))).map Int.ofNat =
        [2 ^ 33 - 5, 2 ^ 33 + 9, 2 ^ 33 + 3, 2 ^ 33 + 2 ^ 32, 2 ^ 34 - 9, 2 ^ 34 + 1].map
          fun t : Nat => (t : Int) + c * ptsWrap :=
  (unwrapAll_exact {} 0 _ rfl (by simp [Close, ptsHalf])).mpr (by simp [Onward, ptsWrap])

/-- A frame of before the wrap, in decode order behind one of after it, is a wrap ahead. -/
theorem unwrapAll_stepBack :
    [2 ^ 33 + 5, 2 ^ 33 - 5].IsChain Close ∧
      ¬ ∃ c : Int, (unwrapAll 0 {} ([2 ^ 33 + 5, 2 ^ 33 - 5].map (· % ptsWrap))).map Int.ofNat =
        [2 ^ 33 + 5, 2 ^ 33 - 5].map fun t : Nat => (t : Int) + c * ptsWrap := by
  refine ⟨by simp [Close, ptsHalf], ?_⟩
  have hvalues : unwrapAll 0 {} ([2 ^ 33 + 5, 2 ^ 33 - 5].map (· % ptsWrap)) = [5, 2 ^ 33 - 5] := by
    decide
  rw [hvalues]
  rintro ⟨c, h⟩
  simp only [List.map_cons, List.map_nil, List.cons.injEq, ptsWrap, Int.ofNat_eq_natCast] at h
  omega

/-! ## Packets -/

/-- Packets one after another are packets in two goes. -/
theorem packets_append (s : TsDemuxer) (first second : List Bytes) :
    s.packets (first ++ second) = (s.packets first >>= fun after =>
      (after.1.packets second).map fun more => (more.1, after.2 ++ more.2)) := by
  induction first generalizing s with
  | nil =>
      simp only [List.nil_append, packets, bind, Except.bind]
      cases s.packets second <;> rfl
  | cons pkt first ih =>
      simp only [List.cons_append, packets]
      cases hpkt : s.packet pkt with
      | error e => rfl
      | ok after =>
          obtain ⟨s', units⟩ := after
          simp only [bind, Except.bind, ih]
          cases s'.packets first with
          | error e => rfl
          | ok after =>
              obtain ⟨s'', more⟩ := after
              simp only [pure, Except.pure, Except.map]
              cases s''.packets second <;> simp

theorem packets_append_ok {s : TsDemuxer} {first : List Bytes} {after : TsDemuxer × List TsUnit}
    (h : s.packets first = .ok after) (second : List Bytes) :
    s.packets (first ++ second) =
      (after.1.packets second).map fun more => (more.1, after.2 ++ more.2) := by
  rw [packets_append, h]
  rfl

theorem packets_append_error {s : TsDemuxer} {first : List Bytes} {e : RecordError}
    (h : s.packets first = .error e) (second : List Bytes) :
    s.packets (first ++ second) = .error e := by
  rw [packets_append, h]
  rfl

end TsDemuxer

/-! ## Synchronisation -/

namespace TsStream

/-- The loop of `feed` on a whole buffer. -/
def synced (buf : Bytes) : List Bytes × Bytes := sync buf.length buf

/-- How far the loop goes on. -/
def stride (buf : Bytes) : Nat := if outOfSync buf then 1 else tsPacket

theorem stride_pos (buf : Bytes) : 0 < stride buf := by
  unfold stride tsPacket
  split <;> decide

theorem stride_le (buf : Bytes) : stride buf ≤ tsPacket := by
  unfold stride tsPacket
  split <;> decide

/-- The suffixes at which the loop looks for a packet. -/
def standsFrom : Nat → Bytes → List Bytes
  | 0, _ => []
  | fuel + 1, buf =>
      if buf.length < tsPacket then [] else buf :: standsFrom fuel (buf.drop (stride buf))

def stands (buf : Bytes) : List Bytes := standsFrom buf.length buf

/-- A buffer loses a byte at least at each turn of the loop. -/
theorem stand_induct {P : Bytes → Prop} (short : ∀ b : Bytes, b.length < tsPacket → P b)
    (long : ∀ b : Bytes, tsPacket ≤ b.length → P (b.drop (stride b)) → P b) (b : Bytes) : P b := by
  induction hlen : b.length using Nat.strong_induction_on generalizing b with
  | _ n ih =>
      subst hlen
      by_cases hshort : b.length < tsPacket
      · exact short b hshort
      · have hpos := stride_pos b
        have hlong : 0 < b.length := by unfold tsPacket at hshort; omega
        refine long b (Nat.not_lt.mp hshort) (ih _ ?_ _ rfl)
        rw [List.length_drop]
        omega

theorem sync_of_length_le {fuel : Nat} {b : Bytes} (h : b.length ≤ fuel) :
    sync fuel b = synced b := by
  induction fuel using Nat.strong_induction_on generalizing b with
  | _ fuel ih =>
      unfold synced
      cases hlen : b.length with
      | zero =>
          obtain rfl := List.length_eq_zero_iff.mp hlen
          cases fuel <;> rfl
      | succ len =>
          obtain ⟨fuel, rfl⟩ : ∃ k, fuel = k + 1 := ⟨fuel - 1, by omega⟩
          have hdrop : ∀ n, 0 < n → (b.drop n).length ≤ len := fun n hn => by
            rw [List.length_drop]
            omega
          have hone := hdrop 1 Nat.one_pos
          have hpacket := hdrop tsPacket (by decide)
          simp only [sync]
          rw [ih fuel (by omega) (hone.trans (by omega)), ih len (by omega) hone,
            ih fuel (by omega) (hpacket.trans (by omega)), ih len (by omega) hpacket]

theorem standsFrom_of_length_le {fuel : Nat} {b : Bytes} (h : b.length ≤ fuel) :
    standsFrom fuel b = stands b := by
  induction fuel using Nat.strong_induction_on generalizing b with
  | _ fuel ih =>
      unfold stands
      cases hlen : b.length with
      | zero =>
          obtain rfl := List.length_eq_zero_iff.mp hlen
          cases fuel <;> rfl
      | succ len =>
          obtain ⟨fuel, rfl⟩ : ∃ k, fuel = k + 1 := ⟨fuel - 1, by omega⟩
          have hpos := stride_pos b
          have hdrop : (b.drop (stride b)).length ≤ len := by
            rw [List.length_drop]
            omega
          simp only [standsFrom]
          rw [ih fuel (by omega) (hdrop.trans (by omega)), ih len (by omega) hdrop]

theorem synced_short {b : Bytes} (h : b.length < tsPacket) : synced b = ([], b) := by
  rw [← sync_of_length_le (Nat.le_succ _), sync, if_pos h]

/-- One turn of the loop. -/
theorem synced_long {b : Bytes} (h : tsPacket ≤ b.length) :
    synced b =
      ((if outOfSync b then [] else [b.take tsPacket]) ++ (synced (b.drop (stride b))).1,
        (synced (b.drop (stride b))).2) := by
  have hdrop : ∀ n, (b.drop n).length ≤ b.length := fun n => by
    rw [List.length_drop]
    omega
  rw [← sync_of_length_le (Nat.le_succ _), sync, if_neg (Nat.not_lt.mpr h),
    sync_of_length_le (hdrop 1), sync_of_length_le (hdrop tsPacket)]
  unfold stride
  cases outOfSync b <;> rfl

theorem stands_short {b : Bytes} (h : b.length < tsPacket) : stands b = [] := by
  rw [← standsFrom_of_length_le (Nat.le_succ _), standsFrom, if_pos h]

theorem stands_long {b : Bytes} (h : tsPacket ≤ b.length) :
    stands b = b :: stands (b.drop (stride b)) := by
  have hdrop : (b.drop (stride b)).length ≤ b.length := by
    rw [List.length_drop]
    omega
  rw [← standsFrom_of_length_le (Nat.le_succ _), standsFrom, if_neg (Nat.not_lt.mpr h),
    standsFrom_of_length_le hdrop]

theorem length_of_mem_stands {b t : Bytes} (h : t ∈ stands b) :
    tsPacket ≤ t.length ∧ t.length ≤ b.length := by
  induction b using stand_induct with
  | short b hb => simp [stands_short hb] at h
  | long b hb ih =>
      rw [stands_long hb] at h
      rcases List.mem_cons.mp h with rfl | h
      · exact ⟨hb, le_rfl⟩
      · have hrest := ih h
        rw [List.length_drop] at hrest
        omega

theorem length_synced (b : Bytes) : (synced b).2.length < tsPacket := by
  induction b using stand_induct with
  | short b hb => rwa [synced_short hb]
  | long b hb ih => rwa [synced_long hb]

/-! ### Chunks -/

/-- With `k` bytes to come a packet is taken at `t` on its own sync byte, and the byte behind
it is none. -/
def Misread (t : Bytes) (k : Nat) : Prop :=
  k + tsPacket ≤ t.length ∧ t.length < k + 2 * tsPacket ∧ 2 * tsPacket ≤ t.length ∧
    t[0]? = some 0x47 ∧ t[tsPacket]? ≠ some 0x47

instance (t : Bytes) (k : Nat) : Decidable (Misread t k) :=
  inferInstanceAs (Decidable (_ ∧ _ ∧ _ ∧ _ ∧ _))

theorem outOfSync_append {x : Bytes} (y : Bytes) (hx : tsPacket ≤ x.length)
    (h : ¬ Misread (x ++ y) y.length) : outOfSync (x ++ y) = outOfSync x := by
  have hzero : (x ++ y)[0]? = x[0]? := List.getElem?_append_left (by unfold tsPacket at hx; omega)
  unfold Misread at h
  unfold outOfSync
  rw [hzero] at h ⊢
  rw [List.length_append] at *
  by_cases hsync : x[0]? = some 0x47
  · by_cases hlook : 2 * tsPacket ≤ x.length
    · have hnext : (x ++ y)[tsPacket]? = x[tsPacket]? :=
        List.getElem?_append_left (by unfold tsPacket at *; omega)
      simp [hnext, hlook, Nat.le_add_right_of_le hlook]
    · by_cases hlong : 2 * tsPacket ≤ x.length + y.length
      · have hnext : (x ++ y)[tsPacket]? = some 0x47 := by
          by_contra hne
          exact h ⟨by omega, by omega, hlong, hsync, hne⟩
        simp [hsync, hlook, hnext]
      · simp [hlook, hlong]
  · simp [hsync]

theorem outOfSync_of_misread {x y : Bytes} (hx : tsPacket ≤ x.length)
    (h : Misread (x ++ y) y.length) : outOfSync x = false ∧ outOfSync (x ++ y) = true := by
  have hzero : (x ++ y)[0]? = x[0]? := List.getElem?_append_left (by unfold tsPacket at hx; omega)
  obtain ⟨-, hshort, hlong, hsync, hnext⟩ := h
  have hlook : ¬ 2 * tsPacket ≤ x.length := by
    rw [List.length_append] at hshort
    omega
  have hskip : outOfSync (x ++ y) = true := by
    unfold outOfSync
    rw [decide_eq_true hlong, decide_eq_true hnext]
    exact Bool.or_true _
  rw [hzero] at hsync
  exact ⟨by simp [outOfSync, hsync, hlook], hskip⟩

theorem drop_stride_append {x : Bytes} (y : Bytes) (hx : tsPacket ≤ x.length)
    (h : ¬ Misread (x ++ y) y.length) :
    (x ++ y).drop (stride (x ++ y)) = x.drop (stride x) ++ y := by
  have hle := (stride_le x).trans hx
  unfold stride at *
  rw [outOfSync_append y hx h, List.drop_append_of_le_length hle]

/-- **One chunk**: where no packet is misread, the loop goes on from what it left. -/
theorem synced_append (x y : Bytes) (h : ∀ t ∈ stands (x ++ y), ¬ Misread t y.length) :
    stands (x ++ y) = (stands x).map (· ++ y) ++ stands ((synced x).2 ++ y) ∧
      synced (x ++ y) =
        ((synced x).1 ++ (synced ((synced x).2 ++ y)).1, (synced ((synced x).2 ++ y)).2) := by
  induction x using stand_induct with
  | short x hx => simp [stands_short hx, synced_short hx]
  | long x hx ih =>
      have hxy : tsPacket ≤ (x ++ y).length := by
        rw [List.length_append]
        omega
      have hhere : ¬ Misread (x ++ y) y.length := h _ (by rw [stands_long hxy]; exact .head _)
      have hdrop := drop_stride_append y hx hhere
      have htake : (x ++ y).take tsPacket = x.take tsPacket := List.take_append_of_le_length hx
      rw [stands_long hxy, hdrop] at h ⊢
      obtain ⟨hstands, hsynced⟩ := ih fun t ht => h t (.tail _ ht)
      rw [synced_long hxy, synced_long hx, stands_long hx, hdrop, hstands, hsynced,
        outOfSync_append y hx hhere, htake]
      simp

/-- The bytes to come after each chunk. -/
def toCome : List Bytes → List Nat
  | [] => []
  | _ :: chunks => chunks.flatten.length :: toCome chunks

theorem toCome_le {chunks : List Bytes} {k : Nat} (h : k ∈ toCome chunks) :
    k ≤ chunks.flatten.length := by
  induction chunks with
  | nil => cases h
  | cons chunk chunks ih =>
      rw [List.flatten_cons, List.length_append]
      rcases List.mem_cons.mp h with rfl | h
      · exact Nat.le_add_left _ _
      · exact Nat.le_add_left_of_le (ih h)

/-- No chunk ends where the look at the next sync byte is missed. -/
def Confirmed (buf : Bytes) (chunks : List Bytes) : Prop :=
  ∀ k ∈ toCome chunks, ∀ t ∈ stands (buf ++ chunks.flatten), ¬ Misread t k

/-- The first chunk, and the others from what the loop left. -/
theorem confirmed_cons {buf chunk : Bytes} {chunks : List Bytes} :
    Confirmed buf (chunk :: chunks) ↔
      (∀ t ∈ stands (buf ++ chunk ++ chunks.flatten), ¬ Misread t chunks.flatten.length) ∧
        Confirmed (synced (buf ++ chunk)).2 chunks := by
  unfold Confirmed
  simp only [toCome, List.flatten_cons, List.forall_mem_cons, ← List.append_assoc]
  refine and_congr_right fun hfirst => ?_
  obtain ⟨hstands, -⟩ := synced_append _ _ hfirst
  refine forall₂_congr fun k hk => ?_
  have hle := toCome_le hk
  rw [hstands, List.forall_mem_append, and_iff_right_iff_imp, List.forall_mem_map]
  rintro - u hu ⟨-, hshort, hlong, hsync, hnext⟩
  refine hfirst (u ++ chunks.flatten) ?_ ⟨?_, by omega, hlong, hsync, hnext⟩
  · rw [hstands]
    exact List.mem_append_left _ (List.mem_map_of_mem hu)
  · have := (length_of_mem_stands hu).1
    rw [List.length_append]
    omega

/-- The packets of a buffer and the chunks behind it, and the bytes left. -/
def syncedAll : Bytes → List Bytes → List Bytes × Bytes
  | buf, [] => ([], buf)
  | buf, chunk :: chunks =>
      ((synced (buf ++ chunk)).1 ++ (syncedAll (synced (buf ++ chunk)).2 chunks).1,
        (syncedAll (synced (buf ++ chunk)).2 chunks).2)

/-- **All chunks**: where no packet is misread, the packets are those of the whole. -/
theorem syncedAll_confirmed {buf : Bytes} {chunks : List Bytes} (hbuf : buf.length < tsPacket)
    (h : Confirmed buf chunks) : syncedAll buf chunks = synced (buf ++ chunks.flatten) := by
  induction chunks generalizing buf with
  | nil => rw [List.flatten_nil, List.append_nil, synced_short hbuf, syncedAll]
  | cons chunk chunks ih =>
      obtain ⟨hfirst, hrest⟩ := confirmed_cons.mp h
      rw [syncedAll, ih (length_synced _) hrest, List.flatten_cons, ← List.append_assoc,
        (synced_append _ _ hfirst).2]

/-! ### Places

A packet is taken at a place of the stream, told by the bytes from there to its end. -/

/-- The places at which the loop takes a packet. -/
def taken (b : Bytes) : List Nat := ((stands b).filter fun t => !outOfSync t).map List.length

theorem taken_long {b : Bytes} (h : tsPacket ≤ b.length) :
    taken b = (if outOfSync b then [] else [b.length]) ++ taken (b.drop (stride b)) := by
  unfold taken
  rw [stands_long h, List.filter_cons]
  cases outOfSync b <;> rfl

theorem le_of_mem_taken {b : Bytes} {n : Nat} (h : n ∈ taken b) : n ≤ b.length := by
  obtain ⟨t, ht, rfl⟩ := List.mem_map.mp h
  exact (length_of_mem_stands (List.mem_of_mem_filter ht)).2

/-- The places at which a stream in chunks has its packets taken. -/
def takenAll : Bytes → List Bytes → List Nat
  | _, [] => []
  | buf, chunk :: chunks =>
      (taken (buf ++ chunk)).map (· + chunks.flatten.length) ++
        takenAll (synced (buf ++ chunk)).2 chunks

theorem taken_append (x y : Bytes) (h : ∀ t ∈ stands (x ++ y), ¬ Misread t y.length) :
    taken (x ++ y) = (taken x).map (· + y.length) ++ taken ((synced x).2 ++ y) := by
  induction x using stand_induct with
  | short x hx => simp [taken, stands_short hx, synced_short hx]
  | long x hx ih =>
      have hxy : tsPacket ≤ (x ++ y).length := by
        rw [List.length_append]
        omega
      have hhere : ¬ Misread (x ++ y) y.length := h _ (by rw [stands_long hxy]; exact .head _)
      have hdrop := drop_stride_append y hx hhere
      rw [stands_long hxy, hdrop] at h
      rw [taken_long hxy, taken_long hx, synced_long hx, hdrop, outOfSync_append y hx hhere,
        ih fun t ht => h t (.tail _ ht), List.length_append]
      cases outOfSync x <;> simp

/-- A misread packet is one that the whole does not take there. -/
theorem confirmed_of_taken {x y : Bytes} {later : List Nat}
    (h : (taken x).map (· + y.length) ++ later = taken (x ++ y)) :
    ∀ t ∈ stands (x ++ y), ¬ Misread t y.length := by
  induction x using stand_induct with
  | short x hx =>
      rintro t ht ⟨hlong, -⟩
      have hle := (length_of_mem_stands ht).2
      rw [List.length_append] at hle
      omega
  | long x hx ih =>
      have hxy : tsPacket ≤ (x ++ y).length := by
        rw [List.length_append]
        omega
      by_cases hhere : Misread (x ++ y) y.length
      · obtain ⟨htake, hskip⟩ := outOfSync_of_misread hx hhere
        rw [taken_long hx, taken_long hxy, htake, hskip] at h
        have hmem : x.length + y.length ∈ taken ((x ++ y).drop (stride (x ++ y))) := by
          simp only [Bool.false_eq_true, if_false, if_true, List.nil_append] at h
          rw [← h]
          simp
        have hle := le_of_mem_taken hmem
        have hpos := stride_pos (x ++ y)
        rw [List.length_drop, List.length_append] at hle
        rw [List.length_append] at hxy
        unfold tsPacket at hxy
        omega
      · have hdrop := drop_stride_append y hx hhere
        rw [taken_long hx, taken_long hxy, hdrop, outOfSync_append y hx hhere] at h
        have hrest : (taken (x.drop (stride x))).map (· + y.length) ++ later =
            taken (x.drop (stride x) ++ y) := by
          cases hsync : outOfSync x <;> simpa [hsync] using h
        rw [stands_long hxy, hdrop, List.forall_mem_cons]
        exact ⟨hhere, ih hrest⟩

/-- **Packets are taken at the places of the whole** iff none is misread. -/
theorem takenAll_eq_iff {buf : Bytes} {chunks : List Bytes} (hbuf : buf.length < tsPacket) :
    takenAll buf chunks = taken (buf ++ chunks.flatten) ↔ Confirmed buf chunks := by
  induction chunks generalizing buf with
  | nil =>
      rw [List.flatten_nil, List.append_nil]
      simp [takenAll, taken, stands_short hbuf, Confirmed, toCome]
  | cons chunk chunks ih =>
      rw [confirmed_cons, takenAll, List.flatten_cons, ← List.append_assoc]
      constructor
      · intro h
        have hfirst := confirmed_of_taken h
        rw [taken_append _ _ hfirst, List.append_cancel_left_eq] at h
        exact ⟨hfirst, (ih (length_synced _)).mp h⟩
      · rintro ⟨hfirst, hrest⟩
        rw [taken_append _ _ hfirst, (ih (length_synced _)).mpr hrest]

/-! ### Units -/

theorem feed_eq (s : TsStream) (chunk : Bytes) :
    s.feed chunk = (s.demuxer.packets (synced (s.buf ++ chunk)).1).map fun r =>
      (⟨(synced (s.buf ++ chunk)).2, r.1⟩, r.2) := by
  simp only [feed]
  rw [← synced]
  cases s.demuxer.packets (synced (s.buf ++ chunk)).1 <;> rfl

/-- Where no packet raises, the units are those of the packets one after another. -/
theorem feedAll_ok {s : TsStream} {chunks : List Bytes} {r : TsDemuxer × List TsUnit}
    (h : s.demuxer.packets (syncedAll s.buf chunks).1 = .ok r) :
    s.feedAll chunks = (r.2, .ok ⟨(syncedAll s.buf chunks).2, r.1⟩) := by
  induction chunks generalizing s r with
  | nil =>
      cases h
      rfl
  | cons chunk chunks ih =>
      have hfeed := s.feed_eq chunk
      rw [syncedAll] at h
      cases hfirst : s.demuxer.packets (synced (s.buf ++ chunk)).1 with
      | error e =>
          rw [TsDemuxer.packets_append_error hfirst] at h
          cases h
      | ok after =>
          rw [TsDemuxer.packets_append_ok hfirst] at h
          rw [hfirst] at hfeed
          cases hrest : after.1.packets (syncedAll (synced (s.buf ++ chunk)).2 chunks).1 with
          | error e =>
              rw [hrest] at h
              cases h
          | ok more =>
              rw [hrest] at h
              cases h
              have hlater := ih (s := ⟨(synced (s.buf ++ chunk)).2, after.1⟩) hrest
              rw [feedAll, hfeed]
              simp only [Except.map, hlater]
              rfl

/-- Where a packet raises, the units are those of the chunks before the one it is in. -/
theorem feedAll_error {s : TsStream} {chunks : List Bytes} {e : RecordError}
    (h : s.demuxer.packets (syncedAll s.buf chunks).1 = .error e) :
    (s.feedAll chunks).2 = .error e ∧ ((s.feedAll chunks).1 = [] ↔
      ∀ n r, s.demuxer.packets (syncedAll s.buf (chunks.take n)).1 = .ok r → r.2 = []) := by
  induction chunks generalizing s with
  | nil => cases h
  | cons chunk chunks ih =>
      have hfeed := s.feed_eq chunk
      have hzero : ∀ r, s.demuxer.packets (syncedAll s.buf []).1 = .ok r → r.2 = [] := by
        intro r hr
        cases hr
        rfl
      rw [syncedAll] at h
      cases hfirst : s.demuxer.packets (synced (s.buf ++ chunk)).1 with
      | error e' =>
          rw [TsDemuxer.packets_append_error hfirst] at h
          rw [hfirst] at hfeed
          cases h
          rw [feedAll, hfeed]
          refine ⟨rfl, iff_of_true rfl fun n r hr => ?_⟩
          cases n with
          | zero => exact hzero r hr
          | succ n =>
              rw [List.take_succ_cons, syncedAll, TsDemuxer.packets_append_error hfirst] at hr
              cases hr
      | ok after =>
          rw [TsDemuxer.packets_append_ok hfirst] at h
          rw [hfirst] at hfeed
          have hrest : after.1.packets (syncedAll (synced (s.buf ++ chunk)).2 chunks).1 =
              .error e := by
            cases hrest : after.1.packets (syncedAll (synced (s.buf ++ chunk)).2 chunks).1 with
            | error e' =>
                rw [hrest] at h
                cases h
                rfl
            | ok more =>
                rw [hrest] at h
                cases h
          obtain ⟨hraised, hunits⟩ := ih (s := ⟨(synced (s.buf ++ chunk)).2, after.1⟩) hrest
          rw [feedAll, hfeed]
          refine ⟨hraised, ?_⟩
          simp only [Except.map, List.append_eq_nil_iff, hunits]
          constructor
          · rintro ⟨hnone, hlater⟩ n r hr
            cases n with
            | zero => exact hzero r hr
            | succ n =>
                rw [List.take_succ_cons, syncedAll, TsDemuxer.packets_append_ok hfirst] at hr
                cases hmore : after.1.packets
                    (syncedAll (synced (s.buf ++ chunk)).2 (chunks.take n)).1 with
                | error e' =>
                    rw [hmore] at hr
                    cases hr
                | ok more =>
                    rw [hmore] at hr
                    cases hr
                    exact List.append_eq_nil_iff.mpr ⟨hnone, hlater n more hmore⟩
          · intro hall
            have hwith : ∀ n more,
                after.1.packets (syncedAll (synced (s.buf ++ chunk)).2 (chunks.take n)).1 = .ok more →
                after.2 = [] ∧ more.2 = [] := by
              intro n more hmore
              apply List.append_eq_nil_iff.mp
              refine hall (n + 1) (more.1, after.2 ++ more.2) ?_
              rw [List.take_succ_cons, syncedAll, TsDemuxer.packets_append_ok hfirst, hmore]
              rfl
            exact ⟨(hwith 0 (after.1, []) rfl).1, fun n more hmore => (hwith n more hmore).2⟩

/-- No packet raises once a chunk before it has completed a unit. -/
def Intact (chunks : List Bytes) : Prop :=
  ∀ n r, TsDemuxer.packets {} (syncedAll [] (chunks.take n)).1 = .ok r → r.2 ≠ [] →
    (TsDemuxer.packets {} (syncedAll [] chunks).1).isOk

/-- **Demuxing does not depend on the chunks** where no chunk makes a packet be misread, and that
is where the packets are taken at the same places.  Then the results are the same iff no unit was
returned before a packet raises, which one feed of the whole does not return. -/
theorem demux_chunks (chunks : List Bytes) :
    (takenAll [] chunks = takenAll [] [chunks.flatten] ↔ Confirmed [] chunks) ∧
      (Confirmed [] chunks → (demux chunks = demux [chunks.flatten] ↔ Intact chunks)) := by
  have hnil : ([] : Bytes).length < tsPacket := by decide
  have hwhole : takenAll [] [chunks.flatten] = taken ([] ++ chunks.flatten) := by
    simp [takenAll]
  refine ⟨by rw [hwhole, takenAll_eq_iff hnil], fun h => ?_⟩
  have hsynced : syncedAll [] [chunks.flatten] = syncedAll [] chunks := by
    rw [syncedAll_confirmed hnil h]
    simp [syncedAll]
  unfold Intact
  cases hpackets : TsDemuxer.packets {} (syncedAll [] chunks).1 with
  | ok r =>
      have hchunks := feedAll_ok (s := {}) hpackets
      rw [← hsynced] at hpackets
      have hone := feedAll_ok (s := {}) hpackets
      rw [hsynced] at hone
      refine iff_of_true ?_ fun _ _ _ _ => rfl
      unfold demux
      rw [hchunks, hone]
  | error e =>
      obtain ⟨hraised, hunits⟩ := feedAll_error (s := {}) hpackets
      rw [← hsynced] at hpackets
      obtain ⟨hraised', hnone⟩ := feedAll_error (s := {}) hpackets
      -- one feed of the whole returns nothing
      have hnone : (feedAll {} [chunks.flatten]).1 = [] := by
        rw [hnone]
        intro n r hr
        cases n with
        | zero =>
            cases hr
            rfl
        | succ n =>
            rw [List.take_succ_cons, List.take_nil] at hr
            rw [hpackets] at hr
            cases hr
      have hdemux : ∀ chunks, (feedAll {} chunks).2 = .error e →
          demux chunks = ((feedAll {} chunks).1, .error e) := by
        intro chunks hraised
        unfold demux
        rw [← Prod.mk.eta (p := feedAll {} chunks), hraised]
        rfl
      rw [hdemux _ hraised, hdemux _ hraised', hnone]
      rw [Prod.mk.injEq, and_iff_left rfl, hunits]
      refine forall₃_congr fun n r hr => ?_
      constructor
      · intro hempty hne
        exact absurd hempty hne
      · intro hok
        by_contra hne
        cases hok hne

/-- A PAT packet: program 1 is on PID 0x1000. -/
def patPacket : Bytes :=
  [0x47, 0x40, 0x00, 0x10, 0x00, 0x00, 0xB0, 0x0D, 0x00, 0x01, 0xC1, 0x00, 0x00,
    0x00, 0x01, 0xF0, 0x00, 0x2A, 0xB1, 0x04, 0xB2] ++ List.replicate 167 0xFF

/-- A PMT packet: H.264 on PID 0x100. -/
def pmtPacket : Bytes :=
  [0x47, 0x50, 0x00, 0x10, 0x00, 0x02, 0xB0, 0x12, 0x00, 0x01, 0xC1, 0x00, 0x00, 0xE1, 0x00,
    0xF0, 0x00, 0x1B, 0xE1, 0x00, 0xF0, 0x00, 0x15, 0xBD, 0x4D, 0x56] ++ List.replicate 162 0xFF

/-- Junk and two packets, cut within the second. -/
theorem demux_chunks_junk :
    demux [0x00 :: patPacket ++ pmtPacket.take 60, pmtPacket.drop 60] =
      demux [[0x00 :: patPacket ++ pmtPacket.take 60, pmtPacket.drop 60].flatten] :=
  ((demux_chunks [0x00 :: patPacket ++ pmtPacket.take 60, pmtPacket.drop 60]).2
    (by unfold Confirmed; decide +kernel)).mpr fun _ _ _ _ => by decide +kernel

/-- A stray sync byte, and a chunk that ends 188 bytes behind it. -/
def swallowing : List Bytes := [0x47 :: patPacket.take 187, patPacket.drop 187 ++ pmtPacket]

/-- The PAT is swallowed, and with it the video PID. -/
theorem demux_chunks_swallowed :
    (demux [swallowing.flatten]).2.map (fun s => s.demuxer.videoPid) = .ok (some 0x100) ∧
      (demux swallowing).2.map (fun s => s.demuxer.videoPid) = .ok none := by
  decide +kernel

end TsStream

end AioMoqt.Media
