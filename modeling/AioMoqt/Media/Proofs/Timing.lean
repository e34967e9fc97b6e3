import AioMoqt.Media.Timing
import Mathlib.Algebra.Order.Floor.Ring
import Mathlib.Tactic.Linarith
import Mathlib.Tactic.FieldSimp
import Mathlib.Tactic.Ring

/-!
# Capture times come back

What a writer puts into the timing properties is read back as the capture time: to the
microsecond for a generated track, within one and a half ticks for a media track.
-/

namespace AioMoqt.Media

open AioMoqt.Lib AioMoqt.Lib.BigEndian AioMoqt.Messages

/-! ## Codecs -/

/-- A correction that is not negative is doubled. -/
theorem zigzagWrite_ofNat {n : Nat} (h : n < 2 ^ 63) : zigzagWrite n = (2 * n : Nat) := by
  have hshift : (n : Int) >>> (63 : Nat) = ((0 : Nat) : Int) := by
    rw [Int.shiftRight_eq_div_pow]
    omega
  have hdouble : 2 * (n : Int) = ((2 * n : Nat) : Int) := rfl
  rw [zigzagWrite, hshift, hdouble]
  show ((2 * n ^^^ 0 : Nat) : Int) = _
  rw [Nat.xor_zero]

/-- A negative one takes the odd numbers. -/
theorem zigzagWrite_negSucc {n : Nat} (h : n < 2 ^ 63) :
    zigzagWrite (Int.negSucc n) = (2 * n + 1 : Nat) := by
  have hshift : Int.negSucc n >>> (63 : Nat) = Int.negSucc 0 := by
    rw [Int.shiftRight_eq_div_pow, Int.negSucc_eq]
    omega
  have hdouble : 2 * Int.negSucc n = Int.negSucc (2 * n + 1) := by
    rw [Int.negSucc_eq, Int.negSucc_eq]
    omega
  rw [zigzagWrite, hshift, hdouble]
  show ((2 * n + 1 ^^^ 0 : Nat) : Int) = _
  rw [Nat.xor_zero]

theorem zigzagDecode_even (n : Nat) : zigzagDecode (2 * n : Nat) = n := by
  have hhalf : ((2 * n : Nat) : Int) >>> (1 : Nat) = ((n : Nat) : Int) := by
    rw [Int.shiftRight_eq_div_pow]
    omega
  have hparity : Int.land ((2 * n : Nat) : Int) 1 = 0 := by
    show ((2 * n &&& 1 : Nat) : Int) = 0
    rw [Nat.and_one_is_mod]
    omega
  rw [zigzagDecode, hhalf, hparity]
  show ((n ^^^ 0 : Nat) : Int) = n
  rw [Nat.xor_zero]

theorem zigzagDecode_odd (n : Nat) : zigzagDecode (2 * n + 1 : Nat) = Int.negSucc n := by
  have hhalf : ((2 * n + 1 : Nat) : Int) >>> (1 : Nat) = ((n : Nat) : Int) := by
    rw [Int.shiftRight_eq_div_pow]
    omega
  have hparity : Int.land ((2 * n + 1 : Nat) : Int) 1 = 1 := by
    show ((2 * n + 1 &&& 1 : Nat) : Int) = 1
    rw [Nat.and_one_is_mod]
    omega
  rw [zigzagDecode, hhalf, hparity]
  show Int.negSucc (n ^^^ 0) = _
  rw [Nat.xor_zero]

/-- **A 64-bit correction comes back.** -/
theorem zigzagDecode_write {c : Int} (hlow : -2 ^ 63 ≤ c) (hhigh : c < 2 ^ 63) :
    zigzagDecode (zigzagWrite c) = c := by
  cases c with
  | ofNat n =>
      have h : n < 2 ^ 63 := by
        rw [Int.ofNat_eq_natCast] at hhigh
        omega
      exact (congrArg zigzagDecode (zigzagWrite_ofNat h)).trans (zigzagDecode_even n)
  | negSucc n =>
      have h : n < 2 ^ 63 := by
        rw [Int.negSucc_eq] at hlow
        omega
      rw [zigzagWrite_negSucc h, zigzagDecode_odd]

/-- Four integers of 64 bits. -/
structure TimestampMapping.Fits (m : TimestampMapping) : Prop where
  baseGroup : m.baseGroup ≤ Messages.u64Max
  baseTimestamp : m.baseTimestamp ≤ Messages.u64Max
  groupMultiplier : m.groupMultiplier ≤ Messages.u64Max
  objectMultiplier : m.objectMultiplier ≤ Messages.u64Max

/-- **A mapping comes back** under both varint flavours. -/
theorem decodeMapping_encode {m : TimestampMapping} (h : m.Fits) (vi64 : Bool) :
    ∃ raw, encodeMapping m = .ok raw ∧ decodeMapping raw vi64 = .ok m := by
  have hbound : Buffer.vi64.bound = Messages.u64Max + 1 := rfl
  have hvalues : ∀ v ∈ [m.baseGroup, m.baseTimestamp, m.groupMultiplier, m.objectMultiplier],
      v < Buffer.vi64.bound := by
    rw [hbound]
    simp only [List.forall_mem_cons, Nat.lt_succ_iff]
    exact ⟨h.baseGroup, h.baseTimestamp, h.groupMultiplier, h.objectMultiplier, by simp⟩
  refine ⟨_, if_pos hvalues, ?_⟩
  have hfour : fourInts (Buffer.vi64.encList [m.baseGroup, m.baseTimestamp, m.groupMultiplier,
      m.objectMultiplier]) true = some m := by
    unfold fourInts
    rw [if_pos rfl, Buffer.vi64.decList_encList hvalues]
  unfold decodeMapping
  rw [hfour]

/-! ## Reading -/

/-- What a track of these writers declares: a timescale and at most a mapping, on the wall clock. -/
def declaredTiming (timescale : Int) (mapping : Option TimestampMapping) : TrackTiming :=
  { timescale := some timescale, mapping }

/-- A timescale alone. -/
theorem fromProperties_timescale {timescale : Int} (h : timescale ≠ 0) (vi64 : Bool) :
    TrackTiming.fromProperties (.ofEntries [(TimingId.timescale, .int timescale)]) vi64 [] =
      .ok (declaredTiming timescale none) := by
  have hget : Properties.int? (.ofEntries [(TimingId.timescale, .int timescale)])
      TimingId.timescale = some timescale := rfl
  unfold TrackTiming.fromProperties
  simp only [hget]
  cases timescale with
  | negSucc n => rfl
  | ofNat n =>
      cases n with
      | zero => exact absurd rfl h
      | succ n => rfl

theorem fromProperties_mapping {timescale : Int} {raw : Bytes} {vi64 : Bool}
    {m : TimestampMapping} (h : timescale ≠ 0) (hraw : decodeMapping raw vi64 = .ok m) :
    TrackTiming.fromProperties (.ofEntries [(TimingId.timescale, .int timescale),
        (TimingId.timestampMapping, .bytes raw)]) vi64 [] =
      .ok (declaredTiming timescale (some m)) := by
  have hget : Properties.int? (.ofEntries [(TimingId.timescale, .int timescale),
      (TimingId.timestampMapping, .bytes raw)]) TimingId.timescale = some timescale := rfl
  have hmap : (Dict.get? (.ofEntries [(TimingId.timescale, .int timescale),
      (TimingId.timestampMapping, .bytes raw)] : Properties) TimingId.timestampMapping).bind
        PropertyValue.bytes? = some raw := rfl
  unfold TrackTiming.fromProperties
  simp only [hget, hmap, hraw]
  cases timescale with
  | negSucc n => rfl
  | ofNat n =>
      cases n with
      | zero => exact absurd rfl h
      | succ n => rfl

/-- The properties of an object of these writers: of the timing properties OBJECT_TIMESTAMP only. -/
structure Stamped (props : Properties) (ots : Option Int) : Prop where
  track : ∀ ptype ∈ TimingId.track, ptype ∉ props.keys
  stamp : props.int? TimingId.objectTimestamp = ots

theorem stamped_empty : Stamped .empty none := ⟨fun _ _ hmem => List.not_mem_nil hmem, rfl⟩

/-- LOC TIMESTAMP is no timing property of the other draft. -/
theorem stamped_loc (v : Int) : Stamped (.ofEntries [(TimingId.locTimestamp, .int v)]) none := by
  refine ⟨fun ptype htrack hmem => ?_, rfl⟩
  obtain rfl : ptype = TimingId.locTimestamp := List.mem_singleton.mp hmem
  exact absurd htrack (by decide)

theorem Stamped.insert {props : Properties} (h : Stamped props none) (v : Int) :
    Stamped (props.insert TimingId.objectTimestamp (.int v)) (some v) := by
  refine ⟨fun ptype htrack hmem => h.track ptype htrack ?_, ?_⟩
  · have hne : ptype ≠ TimingId.objectTimestamp := by
      rintro rfl
      exact absurd htrack (by decide)
    rw [Dict.mem_keys, Dict.get?_insert, if_neg hne] at hmem
    exact Dict.mem_keys.mpr hmem
  · rw [Properties.int?, Dict.get?_insert, if_pos rfl]
    rfl

/-- The timestamp of an object, in ticks. -/
def stampedTicks (mapping : Option TimestampMapping) (group object : Nat) (ots : Option Int) :
    Option Int :=
  match mapping with
  | some m => some (TimestampWriter.scheduled m group object + (ots.map zigzagDecode).getD 0)
  | none => ots

/-- **A stamped object is read** where its timestamp is of 64 bits. -/
theorem captureTimeUs_stamped {timescale : Int} {mapping : Option TimestampMapping}
    {props : Properties} {ots : Option Int} (hstamped : Stamped props ots) {group object : Nat}
    {ts : Int} (hts : stampedTicks mapping group object ots = some ts) (hlow : 0 ≤ ts)
    (hhigh : ts ≤ Messages.u64Max) :
    captureTimeUs (some (declaredTiming timescale mapping)) group object ⟨props, none⟩ =
      .ok (some (declaredTiming timescale mapping),
        some (floorDiv (ts * 1000000) timescale, .frindell)) := by
  have hticks : (declaredTiming timescale mapping).timestamp group object ⟨props, none⟩ =
      .ok (some ts) := by
    have hcheck : ¬ ((∃ ptype ∈ TimingId.track, ptype ∈ props.keys) ∨
        (ots.isSome ∧ (none : Option (List Nat)).isSome)) := by
      rintro (⟨ptype, htrack, hmem⟩ | ⟨-, hnone⟩)
      · exact hstamped.track ptype htrack hmem
      · cases hnone
    have hrange : ¬ (ts < 0 ∨ (Messages.u64Max : Int) < ts) := by omega
    unfold TrackTiming.timestamp
    simp only [hstamped.stamp]
    rw [if_neg hcheck]
    cases mapping with
    | none =>
        obtain rfl : ots = some ts := hts
        simp only [declaredTiming, if_neg hrange]
        rfl
    | some m =>
        have hsum := Option.some.inj hts
        unfold TimestampWriter.scheduled at hsum
        simp only [declaredTiming, hsum, if_neg hrange]
        rfl
  have hdeclared : (declaredTiming timescale mapping).timescale = some timescale := rfl
  have hwall : (declaredTiming timescale mapping).wall = true := rfl
  have horigin : (declaredTiming timescale mapping).origin = 0 := rfl
  unfold captureTimeUs
  simp only [Option.bind_some, hdeclared, Option.map_some, hticks, hwall, if_true, bind,
    Except.bind, pure, Except.pure, horigin, zero_add]

theorem floorDiv_eq {a : Int} {b : Nat} : floorDiv a b = a / (b : Int) :=
  Int.fdiv_eq_ediv_of_nonneg a (Int.natCast_nonneg b)

/-! ## Generated tracks -/

theorem limitDenominator_nonneg {r : ℚ} (h : 0 < r) (max : Nat) : 0 ≤ limitDenominator r max := by
  unfold limitDenominator
  split
  · exact h.le
  · dsimp only
    split <;> positivity

namespace TimestampWriter

/-- The numbers of a paced writer: a timescale of whole microseconds, and an object period of
whole ticks. -/
theorem paced_numbers {p q : Nat} (hp : p ≠ 0) (hq : q ≠ 0) :
    ∃ k om, 0 < k ∧ 0 < om ∧ 1000000 * p / (1000000 * q).gcd p = 1000000 * k ∧
      1000000 * k * q / p = om := by
  have hgcd : 0 < (1000000 * q).gcd p := Nat.gcd_pos_of_pos_right _ (Nat.pos_of_ne_zero hp)
  obtain ⟨k, hk⟩ := Nat.gcd_dvd_right (1000000 * q) p
  obtain ⟨om, hom⟩ := Nat.gcd_dvd_left (1000000 * q) p
  generalize (1000000 * q).gcd p = g at *
  have hkpos : 0 < k := by
    refine Nat.pos_of_ne_zero fun hzero => hp ?_
    rw [hk, hzero, Nat.mul_zero]
  have hompos : 0 < om := by
    refine Nat.pos_of_ne_zero fun hzero => hq ?_
    rw [hzero, Nat.mul_zero] at hom
    omega
  refine ⟨k, om, hkpos, hompos, ?_, ?_⟩
  · rw [hk, Nat.mul_left_comm, Nat.mul_div_cancel_left _ hgcd]
  · have hprod : 1000000 * k * q = om * p := by
      calc 1000000 * k * q = 1000000 * q * k := by ring
        _ = g * om * k := by rw [hom]
        _ = om * (g * k) := by ring
        _ = om * p := by rw [← hk]
    rw [hprod, Nat.mul_div_cancel _ (Nat.pos_of_ne_zero hp)]

/-- A writer on a schedule: ticks that divide a microsecond, and whole ticks an object. -/
structure Paced (w : TimestampWriter) (groupSize firstGroup wallUs : Nat) : Prop where
  scale : w.timescale = 1000000 * w.k
  ticks : 0 < w.k
  mapping : ∃ om, 0 < om ∧ w.mapping = some ⟨firstGroup, wallUs * w.k, om * groupSize, om⟩

/-- **A paced writer is constructed** for every rate that is not rounded to 0. -/
theorem init_paced {mode : TimestampMode} {rate : ℚ} (hrate : 0 < rate)
    (hlimit : limitDenominator rate 1001 ≠ 0) (groupSize firstGroup wallUs : Nat) :
    ∃ w, init mode rate groupSize firstGroup wallUs = .ok w ∧
      w.Paced groupSize firstGroup wallUs ∧ w.loc = decide (mode = .loc ∨ mode = .both) ∧
      w.frindell = decide (mode = .frindell ∨ mode = .both) := by
  have hpos := lt_of_le_of_ne (limitDenominator_nonneg hrate 1001) (Ne.symm hlimit)
  have hp : (limitDenominator rate 1001).num.toNat ≠ 0 := by
    have hnum := Rat.num_pos.mpr hpos
    omega
  obtain ⟨k, om, hk, hom, hscale, hperiod⟩ :=
    paced_numbers hp (limitDenominator rate 1001).den_ne_zero
  have hdiv : 1000000 * k / 1000000 = k := Nat.mul_div_cancel_left k (by decide)
  unfold init
  rw [if_pos hrate]
  dsimp only
  rw [if_neg hp]
  refine ⟨_, rfl, ⟨?_, ?_, om, hom, ?_⟩, rfl, rfl⟩
  · simp only [TimestampWriter.k, hscale, hdiv]
  · simp only [TimestampWriter.k, hscale, hdiv, hk]
  · simp only [TimestampWriter.k, hscale, hdiv, hperiod]

/-- A rate of 0 leaves microseconds and no mapping. -/
theorem init_unpaced (mode : TimestampMode) (groupSize firstGroup wallUs : Nat) :
    ∃ w, init mode 0 groupSize firstGroup wallUs = .ok w ∧ w.mapping = none ∧
      w.timescale = 1000000 ∧ w.loc = decide (mode = .loc ∨ mode = .both) ∧
      w.frindell = decide (mode = .frindell ∨ mode = .both) := by
  unfold init
  rw [if_neg (lt_irrefl 0)]
  exact ⟨_, rfl, rfl, rfl, rfl, rfl⟩

/-- What `stamp` writes. -/
theorem stamp_stamped {w : TimestampWriter} (hfrindell : w.frindell = true)
    (now group object : Nat) :
    Stamped (w.stamp now group object) (match w.mapping with
      | none => some (now : Int)
      | some m => if w.correction m group object now ≠ 0 then
          some (zigzagWrite (w.correction m group object now)) else none) := by
  have hloc : Stamped
      (if w.loc then .ofEntries [(TimingId.locTimestamp, .int (now : Int))] else .empty) none := by
    split
    · exact stamped_loc now
    · exact stamped_empty
  unfold stamp
  simp only [hfrindell, Bool.not_true, Bool.false_eq_true, if_false]
  cases w.mapping with
  | none => exact hloc.insert now
  | some m =>
      dsimp only
      split
      · exact hloc.insert _
      · exact hloc

/-- The bounds within which a paced writer can say what it means. -/
structure Sayable (w : TimestampWriter) (m : TimestampMapping) (group object now : Nat) :
    Prop where
  fits : m.Fits
  ticks : now * w.k ≤ Messages.u64Max
  low : -2 ^ 63 ≤ w.correction m group object now
  high : w.correction m group object now < 2 ^ 63

/-- The mapping and the correction of an object make the ticks of its send time. -/
theorem stampedTicks_paced {w : TimestampWriter} {m : TimestampMapping} {group object now : Nat}
    (h : w.Sayable m group object now) :
    stampedTicks (some m) group object (if w.correction m group object now ≠ 0 then
      some (zigzagWrite (w.correction m group object now)) else none) =
      some ((now * w.k : Nat) : Int) := by
  have hsum : scheduled m group object + w.correction m group object now =
      ((now * w.k : Nat) : Int) := by
    unfold correction
    push_cast
    ring
  rw [← hsum]
  by_cases hzero : w.correction m group object now ≠ 0
  · rw [if_pos hzero, stampedTicks, Option.map_some, Option.getD_some,
      zigzagDecode_write h.low h.high]
  · rw [if_neg hzero, not_not.mp hzero]
    rfl

/-- **The send time of a paced object comes back**, under both varint flavours. -/
theorem paced_roundtrip {w : TimestampWriter} {groupSize firstGroup wallUs : Nat}
    (hpaced : w.Paced groupSize firstGroup wallUs) (hfrindell : w.frindell = true)
    {group object now : Nat} (hsay : ∀ m ∈ w.mapping, w.Sayable m group object now) (vi64 : Bool) :
    ∃ props timing, w.trackProperties vi64 = .ok props ∧
      TrackTiming.fromProperties props vi64 [] = .ok timing ∧
      captureTimeUs (some timing) group object ⟨w.stamp now group object, none⟩ =
        .ok (some timing, some ((now : Int), .frindell)) := by
  obtain ⟨om, hom, hmapping⟩ := hpaced.mapping
  have hsay' := hsay _ hmapping
  obtain ⟨raw, hencode, hdecode⟩ := decodeMapping_encode hsay'.fits vi64
  have hscale : (w.timescale : Int) ≠ 0 := by
    have := hpaced.ticks
    have := hpaced.scale
    omega
  have hstamped := stamp_stamped hfrindell now group object
  rw [hmapping] at hstamped
  have hread := @captureTimeUs_stamped w.timescale _ _ _ hstamped group object _
    (stampedTicks_paced hsay') (Int.natCast_nonneg _) (by exact_mod_cast hsay'.ticks)
  have hvalue : floorDiv (((now * w.k : Nat) : Int) * 1000000) w.timescale = now := by
    rw [floorDiv_eq]
    have hprod : ((now * w.k : Nat) : Int) * 1000000 = now * (w.timescale : Nat) := by
      rw [hpaced.scale]
      push_cast
      ring
    rw [hprod, Int.mul_ediv_cancel _ hscale]
  refine ⟨_, _, ?_, fromProperties_mapping hscale hdecode, by rw [hread, hvalue]⟩
  unfold trackProperties
  simp only [hfrindell, hmapping, hencode]
  rfl

/-- **An unpaced one** is its own timestamp. -/
theorem unpaced_roundtrip {w : TimestampWriter} (hmapping : w.mapping = none)
    (hscale : w.timescale = 1000000) (hfrindell : w.frindell = true) {now : Nat}
    (hnow : now ≤ Messages.u64Max) (group object : Nat) (vi64 : Bool) :
    ∃ props timing, w.trackProperties vi64 = .ok props ∧
      TrackTiming.fromProperties props vi64 [] = .ok timing ∧
      captureTimeUs (some timing) group object ⟨w.stamp now group object, none⟩ =
        .ok (some timing, some ((now : Int), .frindell)) := by
  have hstamped := stamp_stamped hfrindell now group object
  rw [hmapping] at hstamped
  have hread := @captureTimeUs_stamped w.timescale none _ _ hstamped group object _ rfl
    (Int.natCast_nonneg _) (by exact_mod_cast hnow)
  have hvalue : floorDiv ((now : Int) * 1000000) w.timescale = now := by
    rw [floorDiv_eq, hscale]
    exact Int.mul_ediv_cancel _ (by decide)
  have hne : (w.timescale : Int) ≠ 0 := by
    rw [hscale]
    decide
  refine ⟨_, _, ?_, fromProperties_timescale hne vi64, by rw [hread, hvalue]⟩
  unfold trackProperties
  simp only [hfrindell, hmapping]
  rfl

/-! ### The next group -/

/-- A group is due no earlier than `now` iff its ticks are. -/
theorem le_scheduledUs {w : TimestampWriter} {m : TimestampMapping} (hk : 0 < w.k) {group now : Nat} :
    (now : Int) ≤ floorDiv (scheduled m group 0) w.k ↔ (now : Int) * w.k ≤ scheduled m group 0 := by
  rw [floorDiv_eq, Int.le_ediv_iff_mul_le (by exact_mod_cast hk)]

/-- `-(-a // b)` rounds up. -/
theorem ceil_spec {a : Int} {b : Nat} (hb : 0 < b) :
    a ≤ -floorDiv (-a) b * b ∧ (-floorDiv (-a) b - 1) * b < a := by
  have hpos : (0 : Int) < b := by exact_mod_cast hb
  have hdiv := Int.mul_ediv_add_emod (-a) b
  have hlow := Int.emod_nonneg (-a) hpos.ne'
  have hhigh := Int.emod_lt_of_pos (-a) hpos
  rw [floorDiv_eq]
  constructor <;> nlinarith

/-- **`next_group` is the first group** from its bound on that is not yet due. -/
theorem nextGroup_first {w : TimestampWriter} {groupSize firstGroup wallUs : Nat}
    (hpaced : w.Paced groupSize firstGroup wallUs) (hsize : 1 ≤ groupSize) {now : Nat}
    (hnow : wallUs ≤ now) (atLeast : Nat) :
    ∃ n : Nat, w.nextGroup now atLeast = n ∧ atLeast ≤ n ∧
      (∀ start ∈ w.scheduledUs n 0, (now : Int) ≤ start) ∧
      ∀ n' : Nat, atLeast ≤ n' → (∀ start ∈ w.scheduledUs n' 0, (now : Int) ≤ start) → n ≤ n' := by
  obtain ⟨om, hom, hmapping⟩ := hpaced.mapping
  have hperiod : 0 < om * groupSize := Nat.mul_pos hom hsize
  have hdue : ∀ n : Nat, (∀ start ∈ w.scheduledUs n 0, (now : Int) ≤ start) ↔
      ((now : Int) - wallUs) * w.k ≤ ((n : Int) - firstGroup) * (om * groupSize : Nat) := fun n => by
    unfold scheduledUs
    rw [hmapping]
    simp only [Option.map_some, Option.mem_def, Option.some.injEq, forall_eq']
    rw [le_scheduledUs hpaced.ticks]
    unfold scheduled
    push_cast
    constructor <;> intro h <;> linarith
  have hahead : (0 : Int) ≤ ((now : Int) - wallUs) * w.k :=
    mul_nonneg (by omega) (Int.natCast_nonneg _)
  obtain ⟨hlow, hhigh⟩ := ceil_spec (a := ((now : Int) - wallUs) * w.k) hperiod
  have hvalue : w.nextGroup now atLeast = max (atLeast : Int) (firstGroup +
      max 0 (-floorDiv (-(((now : Int) - wallUs) * w.k)) (om * groupSize : Nat))) := by
    unfold nextGroup
    rw [hmapping]
    dsimp only
    congr 5
    push_cast
    ring
  generalize ((now : Int) - wallUs) * w.k = ahead at *
  generalize -floorDiv (-ahead) (om * groupSize : Nat) = rounds at *
  generalize om * groupSize = period at *
  have hpos : (0 : Int) < period := by exact_mod_cast hperiod
  have hrounds : 0 ≤ rounds := by
    by_contra hneg
    have hprod : rounds * period < 0 := mul_neg_of_neg_of_pos (not_le.mp hneg) hpos
    omega
  obtain ⟨n, hn⟩ : ∃ n : Nat, max (atLeast : Int) (firstGroup + max 0 rounds) = n :=
    ⟨(max (atLeast : Int) (firstGroup + max 0 rounds)).toNat, by omega⟩
  rw [max_eq_right hrounds] at hn
  refine ⟨n, by rw [hvalue, max_eq_right hrounds, hn], by omega, ?_, fun n' hbound hstart => ?_⟩
  · refine (hdue n).mpr (hlow.trans (mul_le_mul_of_nonneg_right ?_ hpos.le))
    omega
  · have hstart' := (hdue n').mp hstart
    -- a group before the rounded one would be due
    have hlate : rounds - 1 < (n' : Int) - firstGroup :=
      lt_of_mul_lt_mul_right (hhigh.trans_le hstart') hpos.le
    omega

end TimestampWriter

/-! ## Media tracks -/

namespace MediaTimestamps

variable (m : MediaTimestamps)

/-- A tick of the track in microseconds. -/
def tick : ℚ := 1000000 / m.timescale

theorem floorDiv_floor (a : Int) (b : Nat) : floorDiv a b = ⌊(a : ℚ) / b⌋ := by
  rw [floorDiv_eq, Rat.floor_intCast_div_natCast]

/-- The anchor and the ticks of a capture time, together at most half a tick late and less than
one and a half early. -/
theorem ticks_bounds (hscale : 0 < m.timescale) (captureUs : ℚ) :
    captureUs - 3 / 2 * m.tick < ((m.base : Int) + m.ticks captureUs : Int) * m.tick ∧
      ((m.base : Int) + m.ticks captureUs : Int) * m.tick ≤ captureUs + 1 / 2 * m.tick := by
  have hT : (0 : ℚ) < m.timescale := by exact_mod_cast hscale
  have hbase : (m.base : ℚ) * 1000000 ≤ m.wall0Us * m.timescale ∧
      (m.wall0Us : ℚ) * m.timescale < (m.base + 1) * 1000000 := by
    have hdiv := Nat.div_add_mod (m.wall0Us * m.timescale) 1000000
    have hmod := Nat.mod_lt (m.wall0Us * m.timescale) (show 0 < 1000000 by decide)
    unfold base
    constructor
    · exact_mod_cast Nat.div_mul_le_self _ _
    · have hlt : m.wall0Us * m.timescale < (m.wall0Us * m.timescale / 1000000 + 1) * 1000000 := by
        omega
      exact_mod_cast hlt
  have hfloor := Int.floor_le ((2 * ((captureUs - m.wall0Us) * m.timescale) + 1000000) / 2000000)
  have hceil := Int.lt_floor_add_one
    ((2 * ((captureUs - m.wall0Us) * m.timescale) + 1000000) / 2000000)
  have hticks : m.ticks captureUs =
      ⌊(2 * ((captureUs - m.wall0Us) * m.timescale) + 1000000) / 2000000⌋ := rfl
  rw [← hticks] at hfloor hceil
  rw [le_div_iff₀ (by norm_num)] at hfloor
  rw [div_lt_iff₀ (by norm_num)] at hceil
  unfold tick
  push_cast
  constructor
  · rw [← sub_pos]
    have hrepr : ((m.base : ℚ) + m.ticks captureUs) * (1000000 / m.timescale) -
        (captureUs - 3 / 2 * (1000000 / m.timescale)) =
        (((m.base : ℚ) + m.ticks captureUs) * 1000000 - captureUs * m.timescale + 1500000) /
          m.timescale := by
      field_simp
      ring
    rw [hrepr]
    refine div_pos ?_ hT
    nlinarith [hbase.1, hbase.2]
  · rw [← sub_nonneg]
    have hrepr : captureUs + 1 / 2 * (1000000 / m.timescale) -
        ((m.base : ℚ) + m.ticks captureUs) * (1000000 / m.timescale) =
        (captureUs * m.timescale + 500000 - ((m.base : ℚ) + m.ticks captureUs) * 1000000) /
          m.timescale := by
      field_simp
      ring
    rw [hrepr]
    refine div_nonneg ?_ hT.le
    nlinarith [hbase.1, hbase.2]

/-- The capture time that a subscriber resolves. -/
def resolvedUs (captureUs : ℚ) : Int :=
  if m.mapped then floorDiv ((m.base + m.ticks captureUs) * 1000000) m.timescale
  else roundUs captureUs

/-- The bounds within which a media track can say what it means. -/
structure Sayable (m : MediaTimestamps) (group object : Nat) (captureUs : ℚ) : Prop where
  fits : m.mapping.Fits
  nonneg : 0 ≤ m.base + m.ticks captureUs
  ticks : m.base + m.ticks captureUs ≤ Messages.u64Max
  low : -2 ^ 63 ≤ m.correction captureUs group object
  high : m.correction captureUs group object < 2 ^ 63

/-- What `object_properties` writes on a fixed cadence. -/
theorem objectProperties_stamped {m : MediaTimestamps} (hmapped : m.mapped = true)
    (group object : Nat) (captureUs : ℚ) :
    Stamped (m.objectProperties group object captureUs)
      (if m.correction captureUs group object ≠ 0 then
        some (zigzagWrite (m.correction captureUs group object)) else none) := by
  unfold objectProperties
  simp only [hmapped, Bool.not_true, Bool.false_eq_true, if_false]
  split
  · exact stamped_empty.insert _
  · exact stamped_empty

theorem stampedTicks_mapped {m : MediaTimestamps} {group object : Nat} {captureUs : ℚ}
    (h : m.Sayable group object captureUs) :
    stampedTicks (some m.mapping) group object (if m.correction captureUs group object ≠ 0 then
      some (zigzagWrite (m.correction captureUs group object)) else none) =
      some (m.base + m.ticks captureUs) := by
  have hsum : TimestampWriter.scheduled m.mapping group object +
      m.correction captureUs group object = m.base + m.ticks captureUs := by
    unfold TimestampWriter.scheduled correction mapping
    push_cast
    ring
  rw [← hsum]
  by_cases hzero : m.correction captureUs group object ≠ 0
  · rw [if_pos hzero, stampedTicks, Option.map_some, Option.getD_some,
      zigzagDecode_write h.low h.high]
  · rw [if_neg hzero, not_not.mp hzero]
    rfl

/-- **An object on a fixed cadence resolves** to the microsecond its ticks lie in. -/
theorem mapped_roundtrip {m : MediaTimestamps} (hmapped : m.mapped = true)
    (hscale : 0 < m.timescale) {group object : Nat} {captureUs : ℚ}
    (hsay : m.Sayable group object captureUs) (vi64 : Bool) :
    ∃ props timing, m.trackProperties vi64 = .ok props ∧
      TrackTiming.fromProperties props vi64 [] = .ok timing ∧
      captureTimeUs (some timing) group object ⟨m.objectProperties group object captureUs, none⟩ =
        .ok (some timing, some (m.resolvedUs captureUs, .frindell)) := by
  obtain ⟨raw, hencode, hdecode⟩ := decodeMapping_encode hsay.fits vi64
  have hne : (m.timescale : Int) ≠ 0 := by omega
  have hread := @captureTimeUs_stamped m.timescale _ _ _
    (objectProperties_stamped hmapped group object captureUs) group object _
    (stampedTicks_mapped hsay) hsay.nonneg hsay.ticks
  refine ⟨_, _, ?_, fromProperties_mapping hne hdecode, ?_⟩
  · unfold trackProperties
    simp only [hmapped, hencode]
    rfl
  · rw [hread, resolvedUs, if_pos hmapped]

/-- **Off a cadence** an object is its own timestamp, to the nearest microsecond. -/
theorem unmapped_roundtrip {m : MediaTimestamps} (hmapped : m.mapped = false)
    (hscale : m.timescale = 1000000) {captureUs : ℚ} (hnonneg : 0 ≤ roundUs captureUs)
    (hmax : roundUs captureUs ≤ Messages.u64Max) (group object : Nat) (vi64 : Bool) :
    ∃ props timing, m.trackProperties vi64 = .ok props ∧
      TrackTiming.fromProperties props vi64 [] = .ok timing ∧
      captureTimeUs (some timing) group object ⟨m.objectProperties group object captureUs, none⟩ =
        .ok (some timing, some (m.resolvedUs captureUs, .frindell)) := by
  have hne : (m.timescale : Int) ≠ 0 := by
    rw [hscale]
    decide
  have hobject : m.objectProperties group object captureUs =
      Dict.insert .empty TimingId.objectTimestamp (.int (roundUs captureUs)) := by
    unfold objectProperties
    simp only [hmapped, Bool.not_false, if_true]
    rfl
  have hread := @captureTimeUs_stamped m.timescale none _ _
    (stamped_empty.insert (roundUs captureUs)) group object _ rfl hnonneg hmax
  have hvalue : floorDiv (roundUs captureUs * 1000000) m.timescale = roundUs captureUs := by
    rw [floorDiv_eq, hscale]
    exact Int.mul_ediv_cancel _ (by decide)
  refine ⟨_, _, ?_, fromProperties_timescale hne vi64, ?_⟩
  · unfold trackProperties
    simp only [hmapped]
    rfl
  · rw [hobject, hread, hvalue, resolvedUs, hmapped, if_neg Bool.false_ne_true]

/-- `round_us` rounds half up, whole microseconds included. -/
theorem roundUs_eq (t : ℚ) : roundUs t = ⌊t + 1 / 2⌋ := by
  unfold roundUs
  split
  case isTrue hden =>
    have ht : ((t.num : ℤ) : ℚ) = t := Rat.den_eq_one_iff t |>.mp hden
    symm
    rw [Int.floor_eq_iff, ht]
    constructor <;> linarith
  case isFalse => rfl

theorem roundUs_bounds (t : ℚ) : t - 1 / 2 < roundUs t ∧ (roundUs t : ℚ) ≤ t + 1 / 2 := by
  have hlow := Int.floor_le (t + 1 / 2)
  have hhigh := Int.lt_floor_add_one (t + 1 / 2)
  rw [roundUs_eq]
  constructor <;> linarith

/-- **The resolved time** is at most half a tick late, and one and a half ticks and a microsecond
early. -/
theorem resolvedUs_bounds {m : MediaTimestamps} (hscale : 0 < m.timescale) (captureUs : ℚ)
    (hunmapped : m.mapped = false → m.timescale = 1000000) :
    captureUs - 3 / 2 * m.tick - 1 < m.resolvedUs captureUs ∧
      (m.resolvedUs captureUs : ℚ) ≤ captureUs + 1 / 2 * m.tick := by
  unfold resolvedUs
  by_cases hmapped : m.mapped = true
  · rw [if_pos hmapped, floorDiv_floor]
    obtain ⟨hlow, hhigh⟩ := m.ticks_bounds hscale captureUs
    have hrepr : (((m.base + m.ticks captureUs) * 1000000 : Int) : ℚ) / m.timescale =
        ((m.base : Int) + m.ticks captureUs : Int) * m.tick := by
      unfold tick
      push_cast
      ring
    rw [hrepr]
    have hfloor := Int.floor_le (((m.base : Int) + m.ticks captureUs : Int) * m.tick)
    have hceil := Int.lt_floor_add_one (((m.base : Int) + m.ticks captureUs : Int) * m.tick)
    constructor <;> linarith
  · rw [if_neg hmapped]
    have htick : m.tick = 1 := by
      unfold tick
      rw [hunmapped (Bool.eq_false_iff.mpr hmapped)]
      norm_num
    obtain ⟨hlow, hhigh⟩ := roundUs_bounds captureUs
    rw [htick]
    constructor <;> linarith

/-- A time on the tick grid of the track. -/
def OnGrid (t : ℚ) : Prop := ∃ n : Int, t * m.timescale = n * 1000000

/-- **A capture time on the grid resolves to itself**, to the microsecond it lies in. -/
theorem resolvedUs_onGrid {m : MediaTimestamps} (hscale : 0 < m.timescale) {captureUs : ℚ}
    (hunmapped : m.mapped = false → m.timescale = 1000000) (hwall : m.OnGrid m.wall0Us)
    (hcapture : m.OnGrid captureUs) : m.resolvedUs captureUs = ⌊captureUs⌋ := by
  obtain ⟨wall, hwall⟩ := hwall
  obtain ⟨capture, hcapture⟩ := hcapture
  have hT : (m.timescale : ℚ) ≠ 0 := by
    have : (0 : ℚ) < m.timescale := by exact_mod_cast hscale
    exact this.ne'
  unfold resolvedUs
  by_cases hmapped : m.mapped = true
  · have hbase : (m.base : Int) = wall := by
      have hprod : ((m.wall0Us * m.timescale : Nat) : Int) = wall * 1000000 := by
        exact_mod_cast hwall
      unfold base
      omega
    have hticks : m.ticks captureUs = capture - wall := by
      have hrepr : (2 * ((captureUs - m.wall0Us) * m.timescale) + 1000000) / 2000000 =
          ((capture - wall : Int) : ℚ) + 1 / 2 := by
        rw [sub_mul, hcapture, hwall]
        push_cast
        ring
      unfold ticks
      dsimp only
      rw [hrepr, Int.floor_intCast_add]
      norm_num
    rw [if_pos hmapped, floorDiv_floor, hbase, hticks]
    congr 1
    rw [eq_comm, eq_div_iff hT, hcapture]
    push_cast
    ring
  · rw [if_neg hmapped, roundUs_eq]
    rw [hunmapped (Bool.eq_false_iff.mpr hmapped)] at hcapture
    have hwhole : captureUs = capture := by
      push_cast at hcapture
      linarith
    rw [hwhole, Int.floor_intCast_add, Int.floor_intCast]
    norm_num

end MediaTimestamps

/-! ## Both ends -/

/-- The track and object properties of a writer are read as a capture time, under both flavours. -/
def ReadsBack (track : Bool → Except TimingError Properties) (group object : Nat)
    (exts : Properties) (us : Int) : Prop :=
  ∀ vi64, ∃ props timing, track vi64 = .ok props ∧
    TrackTiming.fromProperties props vi64 [] = .ok timing ∧
    captureTimeUs (some timing) group object ⟨exts, none⟩ =
      .ok (some timing, some (us, .frindell))

/-- **Capture times survive the timing properties**, where what they say fits its integers. -/
theorem capture_times_survive :
    (∀ (mode : TimestampMode) (rate : ℚ) (groupSize firstGroup wallUs : Nat), mode ≠ .loc →
      0 < rate → limitDenominator rate 1001 ≠ 0 → 1 ≤ groupSize →
      ∃ w, TimestampWriter.init mode rate groupSize firstGroup wallUs = .ok w ∧
        (∀ group object now : Nat, wallUs ≤ now →
          (∀ m ∈ w.mapping, w.Sayable m group object now) →
          ReadsBack w.trackProperties group object (w.stamp now group object) now) ∧
        ∀ now atLeast : Nat, wallUs ≤ now → ∃ n : Nat, w.nextGroup now atLeast = n ∧ atLeast ≤ n ∧
          (∀ start ∈ w.scheduledUs n 0, (now : Int) ≤ start) ∧
          ∀ n' : Nat, atLeast ≤ n' →
            (∀ start ∈ w.scheduledUs n' 0, (now : Int) ≤ start) → n ≤ n') ∧
    (∀ (mode : TimestampMode) (groupSize firstGroup wallUs : Nat), mode ≠ .loc →
      ∃ w, TimestampWriter.init mode 0 groupSize firstGroup wallUs = .ok w ∧
        (∀ group object now : Nat, now ≤ Messages.u64Max →
          ReadsBack w.trackProperties group object (w.stamp now group object) now) ∧
        ∀ now atLeast group object : Nat, w.nextGroup now atLeast = atLeast ∧
          w.scheduledUs group object = none) ∧
    ∀ (wall0Us timescale : Nat) (groupMultiplier : Option Nat) (objectMultiplier : Nat)
      (m : MediaTimestamps),
      MediaTimestamps.init wall0Us timescale groupMultiplier objectMultiplier = m →
      0 < m.timescale → ∀ (group object : Nat) (captureUs : ℚ),
        (if m.mapped then m.Sayable group object captureUs
          else 0 ≤ roundUs captureUs ∧ roundUs captureUs ≤ Messages.u64Max) →
        ∃ us : Int,
          ReadsBack m.trackProperties group object (m.objectProperties group object captureUs) us ∧
          captureUs - 3 / 2 * m.tick - 1 < us ∧ (us : ℚ) ≤ captureUs + 1 / 2 * m.tick ∧
          (m.OnGrid m.wall0Us → m.OnGrid captureUs → us = ⌊captureUs⌋) := by
  have hmode : ∀ mode : TimestampMode, mode ≠ .loc →
      decide (mode = .frindell ∨ mode = .both) = true := by
    rintro (_ | _ | _) hne
    · exact absurd rfl hne
    · rfl
    · rfl
  refine ⟨fun mode rate groupSize firstGroup wallUs hne hrate hlimit hsize => ?_,
    fun mode groupSize firstGroup wallUs hne => ?_, ?_⟩
  · obtain ⟨w, hinit, hpaced, -, hfrindell⟩ :=
      @TimestampWriter.init_paced mode _ hrate hlimit groupSize firstGroup wallUs
    rw [hmode mode hne] at hfrindell
    exact ⟨w, hinit,
      fun group object now _ hsay vi64 => TimestampWriter.paced_roundtrip hpaced hfrindell hsay vi64,
      fun now atLeast hnow => TimestampWriter.nextGroup_first hpaced hsize hnow atLeast⟩
  · obtain ⟨w, hinit, hmapping, hscale, -, hfrindell⟩ :=
      TimestampWriter.init_unpaced mode groupSize firstGroup wallUs
    rw [hmode mode hne] at hfrindell
    refine ⟨w, hinit, fun group object now hnow vi64 =>
      TimestampWriter.unpaced_roundtrip hmapping hscale hfrindell hnow group object vi64, ?_⟩
    unfold TimestampWriter.nextGroup TimestampWriter.scheduledUs
    simp only [hmapping, Option.map_none, and_self, implies_true]
  · rintro wall0Us timescale groupMultiplier objectMultiplier m rfl hscale group object captureUs
      hsay
    generalize hm : MediaTimestamps.init wall0Us timescale groupMultiplier objectMultiplier = m at *
    have hunmapped : m.mapped = false → m.timescale = 1000000 := by
      subst hm
      exact fun hnone => if_neg (Bool.eq_false_iff.mp hnone)
    obtain ⟨hlow, hhigh⟩ := MediaTimestamps.resolvedUs_bounds hscale captureUs hunmapped
    refine ⟨m.resolvedUs captureUs, fun vi64 => ?_, hlow, hhigh,
      MediaTimestamps.resolvedUs_onGrid hscale hunmapped⟩
    by_cases hmapped : m.mapped = true
    · rw [if_pos hmapped] at hsay
      exact MediaTimestamps.mapped_roundtrip hmapped hscale hsay vi64
    · rw [if_neg hmapped] at hsay
      have hnone := Bool.eq_false_iff.mpr hmapped
      exact MediaTimestamps.unmapped_roundtrip hnone (hunmapped hnone) hsay.1 hsay.2 group object
        vi64

/-- Thirty frames a second, the sixth object of the second group sent 5 µs late; and a track of
90000 ticks a second. -/
theorem capture_times_survive_thirtyFrames :
    (∃ w, TimestampWriter.init .frindell 30 30 0 1700000000000000 = .ok w ∧
      ReadsBack w.trackProperties 1 6 (w.stamp 1700000001200005 1 6) 1700000001200005) ∧
    ∃ m, MediaTimestamps.init 1700000000000000 90000 (some 3000) 3000 = m ∧
      ∃ us : Int, ReadsBack m.trackProperties 1 0 (m.objectProperties 1 0 1700000000033333) us := by
  obtain ⟨hpaced, -, hmedia⟩ := capture_times_survive
  refine ⟨?_, _, rfl, ?_⟩
  · obtain ⟨w, hinit, hread, -⟩ := hpaced .frindell 30 30 0 1700000000000000 (by decide)
      (by norm_num) (by decide +kernel) (by decide)
    refine ⟨w, hinit, hread 1 6 1700000001200005 (by decide) ?_⟩
    have hw : TimestampWriter.init .frindell 30 30 0 1700000000000000 =
        .ok ⟨false, true, some ⟨0, 5100000000000000, 3000000, 100000⟩, 3000000, 1700000000000000⟩ := by
      decide +kernel
    obtain rfl := Except.ok.inj (hinit.symm.trans hw)
    rintro m hm
    obtain rfl := Option.some.inj hm
    exact ⟨by constructor <;> decide, by decide, by decide, by decide⟩
  · obtain ⟨us, hread, -⟩ := hmedia 1700000000000000 90000 (some 3000) 3000 _ rfl (by decide) 1 0
      1700000000033333 (by
        refine if_pos rfl ▸ ⟨by constructor <;> decide, ?_, ?_, ?_, ?_⟩ <;> decide +kernel)
    exact ⟨us, hread⟩

/-- A rate below one object in 2002 seconds is rounded to 0 and divided by; a clock of 90000
ticks anchored at 11 µs resolves 16 µs to 0, beyond a tick and a microsecond. -/
theorem capture_times_lost :
    TimestampWriter.init .frindell (1 / 4000) 1 0 0 = .error .zeroDivision ∧
    (∃ w, TimestampWriter.init .frindell 12007 1 0 1700000000000000 = .ok w ∧
      w.trackProperties true = .error (.valueError "value outside the integer range")) ∧
    ∃ m, MediaTimestamps.init 11 90000 (some 3000) 3000 = m ∧ m.resolvedUs 16 = 0 ∧
      m.tick + 1 < 16 - m.resolvedUs 16 ∧
      captureTimeUs (some (declaredTiming m.timescale (some m.mapping))) 0 0
        ⟨m.objectProperties 0 0 16, none⟩ =
          .ok (some (declaredTiming m.timescale (some m.mapping)), some (0, .frindell)) := by
  have hlimit : TimestampWriter.init .frindell 12007 1 0 1700000000000000 = .ok ⟨false, true,
      some ⟨0, 20411900000000000000, 1000000, 1000000⟩, 12007000000, 1700000000000000⟩ := by
    decide +kernel
  refine ⟨by decide +kernel, ⟨_, hlimit, rfl⟩, _, rfl, by decide +kernel, ?_, by decide +kernel⟩
  have hzero : (MediaTimestamps.init 11 90000 (some 3000) 3000).resolvedUs 16 = 0 := by
    decide +kernel
  rw [hzero]
  have hscale : (MediaTimestamps.init 11 90000 (some 3000) 3000).timescale = 90000 := rfl
  unfold MediaTimestamps.tick
  rw [hscale]
  norm_num

end AioMoqt.Media
