import AioMoqt.Lib.BigEndian

/-!
# Prefix codes for natural numbers

A variable-length integer code as a parser sees it: what the writer emits is
read back whatever follows it, and a successful read consumes a non-empty
prefix that decides the value.  `ofClasses` builds the two usual instances,
where the first byte selects how many bytes follow.
-/

namespace AioMoqt.Lib

open AioMoqt.Lib.BigEndian

/-- A prefix code for the naturals below `bound`.  `dec` returns the value and
the bytes after it, or `none` on a short input. -/
structure PrefixCode where
  bound : Nat
  enc : Nat → Bytes
  dec : Bytes → Option (Nat × Bytes)
  dec_enc : ∀ {v : Nat}, v < bound → ∀ rest, dec (enc v ++ rest) = some (v, rest)
  dec_append : ∀ {bs rest : Bytes} {v : Nat}, dec bs = some (v, rest) →
    ∀ more, dec (bs ++ more) = some (v, rest ++ more)
  dec_suffix : ∀ {bs rest : Bytes} {v : Nat}, dec bs = some (v, rest) →
    ∃ used, used ≠ [] ∧ bs = used ++ rest
  dec_lt : ∀ {bs rest : Bytes} {v : Nat}, dec bs = some (v, rest) → v < bound

namespace PrefixCode

variable (code : PrefixCode)

theorem length_dec_lt {bs rest : Bytes} {v : Nat} (h : code.dec bs = some (v, rest)) :
    rest.length < bs.length := by
  obtain ⟨used, hused, rfl⟩ := code.dec_suffix h
  have hpos : 0 < used.length := List.length_pos_iff.mpr hused
  simp only [List.length_append]
  omega

theorem enc_ne_nil {v : Nat} (h : v < code.bound) : code.enc v ≠ [] := by
  intro hnil
  have hdec := code.dec_enc h []
  have hlt := code.length_dec_lt hdec
  simp [hnil] at hlt

theorem length_enc_pos {v : Nat} (h : v < code.bound) : 0 < (code.enc v).length :=
  List.length_pos_iff.mpr (code.enc_ne_nil h)

theorem dec_nil : code.dec [] = none := by
  cases h : code.dec [] with
  | none => rfl
  | some p =>
      have hlt := code.length_dec_lt h
      simp at hlt

/-! ## Bytes that are one value -/

/-- `bs` is one value. -/
def Spells (bs : Bytes) (v : Nat) : Prop := code.dec bs = some (v, [])

/-- Of what a read finds, only the bytes that it takes count. -/
def Local : Prop :=
  ∀ {used rest : Bytes} {v : Nat}, code.dec (used ++ rest) = some (v, rest) → code.Spells used v

/-- Bytes that begin a value may become one, and the last byte of it is free. -/
structure Open : Prop where
  intro ::
  completes : ∀ {bs : Bytes}, bs ≠ [] → code.dec bs = none → ∃ more v, code.Spells (bs ++ more) v
  lastFree : ∀ {bs : Bytes} {b : UInt8} {v : Nat}, bs ≠ [] → code.Spells (bs ++ [b]) v →
    ∃ base, v = base * 256 + b.toNat ∧
      ∀ b' : UInt8, code.Spells (bs ++ [b']) (base * 256 + b'.toNat)

variable {code}

theorem Spells.dec_append {bs : Bytes} {v : Nat} (h : code.Spells bs v) (rest : Bytes) :
    code.dec (bs ++ rest) = some (v, rest) :=
  code.dec_append h rest

theorem Spells.length_pos {bs : Bytes} {v : Nat} (h : code.Spells bs v) : 0 < bs.length := by
  have hlt := code.length_dec_lt h
  rwa [List.length_nil] at hlt

theorem spells_enc {v : Nat} (h : v < code.bound) : code.Spells (code.enc v) v := by
  have hdec := code.dec_enc h []
  rwa [List.append_nil] at hdec

/-- A read that succeeds splits the bytes. -/
theorem Local.dec_eq_some (h : code.Local) {bs rest : Bytes} {v : Nat} :
    code.dec bs = some (v, rest) ↔ ∃ used, bs = used ++ rest ∧ code.Spells used v := by
  constructor
  · intro hdec
    obtain ⟨used, -, rfl⟩ := code.dec_suffix hdec
    exact ⟨used, rfl, h hdec⟩
  · rintro ⟨used, rfl, hused⟩
    exact hused.dec_append rest

/-- Every value that the bytes may become leaves its last byte free. -/
theorem Open.completion (h : code.Open) {bs more : Bytes} {v : Nat} (hbs : bs ≠ [])
    (hnone : code.dec bs = none) (hv : code.Spells (bs ++ more) v) :
    ∃ front last base, v = base * 256 + last ∧ last < 256 ∧
      ∀ b : UInt8, code.Spells (bs ++ (front ++ [b])) (base * 256 + b.toNat) := by
  rcases List.eq_nil_or_concat more with rfl | ⟨front, last, rfl⟩
  · rw [List.append_nil, Spells, hnone] at hv
    cases hv
  · rw [List.concat_eq_append, ← List.append_assoc] at hv
    have hfront : bs ++ front ≠ [] := by simp [hbs]
    obtain ⟨base, hbase, hfree⟩ := h.lastFree hfront hv
    refine ⟨front, last.toNat, base, hbase, UInt8.toNat_lt last, ?_⟩
    intro b
    rw [← List.append_assoc]
    exact hfree b

variable (code)

/-! ## Runs of values -/

/-- The concatenated encodings of a list of values. -/
def encList (vs : List Nat) : Bytes := vs.flatMap code.enc

/-- Read values until the input is exhausted; `none` when it ends inside one.
The fuel bounds the number of values, and the input's length is always enough. -/
def decListFuel : Nat → Bytes → Option (List Nat)
  | _, [] => some []
  | 0, _ :: _ => none
  | fuel + 1, b :: bs =>
      match code.dec (b :: bs) with
      | none => none
      | some (v, rest) => (decListFuel fuel rest).map (v :: ·)

def decList (bs : Bytes) : Option (List Nat) := code.decListFuel bs.length bs

theorem decListFuel_encList {vs : List Nat} (h : ∀ v ∈ vs, v < code.bound) :
    ∀ {fuel : Nat}, (code.encList vs).length ≤ fuel →
      code.decListFuel fuel (code.encList vs) = some vs := by
  induction vs with
  | nil => intro fuel _; cases fuel <;> simp [encList, decListFuel]
  | cons v vs ih =>
      intro fuel hfuel
      have hv : v < code.bound := h v (by simp)
      have hpos := code.length_enc_pos hv
      have hcons : code.encList (v :: vs) = code.enc v ++ code.encList vs := by
        simp [encList]
      rw [hcons] at hfuel ⊢
      simp only [List.length_append] at hfuel
      obtain ⟨fuel, rfl⟩ : ∃ k, fuel = k + 1 := ⟨fuel - 1, by omega⟩
      obtain ⟨b, bs, hbs⟩ := List.exists_cons_of_ne_nil (code.enc_ne_nil hv)
      have hdec := code.dec_enc hv (code.encList vs)
      rw [hbs, List.cons_append] at hdec ⊢
      rw [decListFuel, hdec]
      simp only
      rw [ih (fun w hw => h w (by simp [hw])) (by omega)]
      rfl

theorem decList_encList {vs : List Nat} (h : ∀ v ∈ vs, v < code.bound) :
    code.decList (code.encList vs) = some vs :=
  code.decListFuel_encList h le_rfl

end PrefixCode

/-! ## Codes whose first byte selects the length -/

/-- First bytes `base ≤ b < base + span` announce `extra` further bytes; the
value is `b - base` followed by those bytes, big-endian. -/
structure ByteClass where
  base : Nat
  span : Nat
  extra : Nat
deriving Repr, DecidableEq

namespace ByteClass

/-- Values below this fit the class. -/
def capacity (c : ByteClass) : Nat := c.span * 256 ^ c.extra

def holds (c : ByteClass) (b : Nat) : Bool := decide (c.base ≤ b ∧ b < c.base + c.span)

/-- Ascending, disjoint first-byte ranges inside one byte. -/
def Valid (cs : List ByteClass) : Prop :=
  cs.Pairwise (fun c d => c.base + c.span ≤ d.base) ∧ ∀ c ∈ cs, c.base + c.span ≤ 256

instance (cs : List ByteClass) : Decidable (Valid cs) :=
  inferInstanceAs (Decidable (_ ∧ _))

theorem find_holds {cs : List ByteClass} (hvalid : Valid cs) {c : ByteClass} (hc : c ∈ cs)
    {b : Nat} (hb : c.holds b = true) : cs.find? (·.holds b) = some c := by
  have hdisj := hvalid.1
  clear hvalid
  induction cs with
  | nil => simp at hc
  | cons d cs ih =>
      rw [List.pairwise_cons] at hdisj
      rcases List.mem_cons.mp hc with rfl | hmem
      · simp [hb]
      · have hle := hdisj.1 c hmem
        have hd : d.holds b = false := by
          simp only [holds, decide_eq_true_eq, decide_eq_false_iff_not] at hb ⊢
          omega
        rw [List.find?_cons, hd]
        exact ih hmem hdisj.2

def encode (cs : List ByteClass) (v : Nat) : Bytes :=
  match cs.find? (fun c => decide (v < c.capacity)) with
  | none => []
  | some c => UInt8.ofNat (c.base + v / 256 ^ c.extra) :: toBE c.extra v

theorem length_encode_le {cs : List ByteClass} {n : Nat} (hextra : ∀ c ∈ cs, c.extra ≤ n)
    (v : Nat) : (encode cs v).length ≤ n + 1 := by
  unfold encode
  split
  · simp
  · next c hfind =>
      have hle := hextra c (List.mem_of_find?_eq_some hfind)
      rw [List.length_cons, length_toBE]
      omega

def decode (cs : List ByteClass) : Bytes → Option (Nat × Bytes)
  | [] => none
  | b :: bs =>
      match cs.find? (·.holds b.toNat) with
      | none => none
      | some c =>
          if bs.length < c.extra then none
          else some ((b.toNat - c.base) * 256 ^ c.extra + ofBE (bs.take c.extra),
            bs.drop c.extra)

theorem decode_eq_some {cs : List ByteClass} {bs rest : Bytes} {v : Nat}
    (h : decode cs bs = some (v, rest)) :
    ∃ b tail c, bs = b :: tail ∧ c ∈ cs ∧ c.holds b.toNat = true ∧
      cs.find? (·.holds b.toNat) = some c ∧ c.extra ≤ tail.length ∧
      v = (b.toNat - c.base) * 256 ^ c.extra + ofBE (tail.take c.extra) ∧
      rest = tail.drop c.extra := by
  cases bs with
  | nil => simp [decode] at h
  | cons b tail =>
      cases hfind : cs.find? (·.holds b.toNat) with
      | none => simp [decode, hfind] at h
      | some c =>
          simp only [decode, hfind] at h
          split at h
          · simp at h
          · next hlen =>
              simp only [Option.some.injEq, Prod.mk.injEq] at h
              have hholds := List.find?_some hfind
              exact ⟨b, tail, c, rfl, List.mem_of_find?_eq_some hfind, hholds, hfind,
                by omega, h.1.symm, h.2.symm⟩

theorem decode_encode {cs : List ByteClass} (hvalid : Valid cs) {bound v : Nat}
    (hbound : ∃ c ∈ cs, bound ≤ c.capacity) (hv : v < bound) (rest : Bytes) :
    decode cs (encode cs v ++ rest) = some (v, rest) := by
  obtain ⟨d, hd, hcap⟩ := hbound
  cases hfind : cs.find? (fun c => decide (v < c.capacity)) with
  | none =>
      have hnone := List.find?_eq_none.mp hfind d hd
      simp only [decide_eq_true_eq] at hnone
      omega
  | some c =>
      have hmem := List.mem_of_find?_eq_some hfind
      have hlt : v < c.capacity := by simpa using List.find?_some hfind
      have hspan : v / 256 ^ c.extra < c.span :=
        Nat.div_lt_of_lt_mul (by rw [Nat.mul_comm]; exact hlt)
      have hfit := hvalid.2 c hmem
      have hbyte : (UInt8.ofNat (c.base + v / 256 ^ c.extra)).toNat =
          c.base + v / 256 ^ c.extra := by
        simp only [UInt8.toNat_ofNat', Nat.reducePow]
        exact Nat.mod_eq_of_lt (lt_of_lt_of_le (Nat.add_lt_add_left hspan _) hfit)
      have hholds : c.holds (UInt8.ofNat (c.base + v / 256 ^ c.extra)).toNat = true := by
        rw [hbyte]
        simpa [holds] using hspan
      have hclass := find_holds hvalid hmem hholds
      have hlen : (toBE c.extra v).length = c.extra := length_toBE _ _
      simp only [encode, hfind, List.cons_append, decode, hclass, List.length_append, hlen]
      rw [if_neg (by omega), hbyte, List.take_left' hlen, List.drop_left' hlen,
        ofBE_toBE_mod, Nat.add_sub_cancel_left, Nat.div_add_mod']

theorem decode_append {cs : List ByteClass} {bs rest : Bytes} {v : Nat}
    (h : decode cs bs = some (v, rest)) (more : Bytes) :
    decode cs (bs ++ more) = some (v, rest ++ more) := by
  obtain ⟨b, tail, c, rfl, -, -, hfind, hlen, rfl, rfl⟩ := decode_eq_some h
  simp only [List.cons_append, decode, hfind, List.length_append]
  rw [if_neg (by omega), List.take_append_of_le_length hlen,
    List.drop_append_of_le_length hlen]

theorem decode_suffix {cs : List ByteClass} {bs rest : Bytes} {v : Nat}
    (h : decode cs bs = some (v, rest)) : ∃ used, used ≠ [] ∧ bs = used ++ rest := by
  obtain ⟨b, tail, c, rfl, -, -, -, -, -, rfl⟩ := decode_eq_some h
  exact ⟨b :: tail.take c.extra, by simp, by simp⟩

/-- The bytes behind a value do not count. -/
theorem decode_local {cs : List ByteClass} {used rest : Bytes} {v : Nat}
    (h : decode cs (used ++ rest) = some (v, rest)) : decode cs used = some (v, []) := by
  obtain ⟨b, tail, c, hbytes, -, -, hfind, hlen, rfl, hrest⟩ := decode_eq_some h
  cases used with
  | nil =>
      rw [List.nil_append] at hbytes
      have hlonger := congrArg List.length hbytes
      rw [hrest, List.length_drop, List.length_cons] at hlonger
      omega
  | cons b' front =>
      rw [List.cons_append, List.cons.injEq] at hbytes
      obtain ⟨rfl, rfl⟩ := hbytes
      have hfront : front.length = c.extra := by
        have hlonger := congrArg List.length hrest
        rw [List.length_drop, List.length_append] at hlonger
        rw [List.length_append] at hlen
        omega
      rw [List.take_left' hfront]
      simp only [decode, hfind]
      rw [if_neg (by omega), List.take_of_length_le (by omega), List.drop_of_length_le (by omega)]

/-- Where every first byte has a class, bytes that begin a value may become one. -/
theorem decode_completes {cs : List ByteClass} (hcover : ∀ b < 256, ∃ c ∈ cs, c.holds b = true)
    {bs : Bytes} (hbs : bs ≠ []) (h : decode cs bs = none) :
    ∃ more v, decode cs (bs ++ more) = some (v, []) := by
  obtain ⟨first, tail, rfl⟩ := List.exists_cons_of_ne_nil hbs
  obtain ⟨d, hd, hholds⟩ := hcover first.toNat (UInt8.toNat_lt first)
  cases hfind : cs.find? (·.holds first.toNat) with
  | none => exact absurd hholds (List.find?_eq_none.mp hfind d hd)
  | some c =>
      simp only [decode, hfind] at h
      split at h
      · rename_i hshort
        have hlength : (tail ++ List.replicate (c.extra - tail.length) 0).length = c.extra := by
          rw [List.length_append, List.length_replicate]
          omega
        refine ⟨List.replicate (c.extra - tail.length) 0, (first.toNat - c.base) * 256 ^ c.extra +
          ofBE (tail ++ List.replicate (c.extra - tail.length) 0), ?_⟩
        rw [List.cons_append]
        simp only [decode, hfind]
        rw [if_neg (by omega), List.take_of_length_le (by omega), List.drop_of_length_le (by omega)]
      · cases h

/-- Behind the first byte the last one is free. -/
theorem decode_last_free {cs : List ByteClass} {bs : Bytes} {b : UInt8} {v : Nat} (hbs : bs ≠ [])
    (h : decode cs (bs ++ [b]) = some (v, [])) :
    ∃ base, v = base * 256 + b.toNat ∧
      ∀ b' : UInt8, decode cs (bs ++ [b']) = some (base * 256 + b'.toNat, []) := by
  obtain ⟨first, tail, rfl⟩ := List.exists_cons_of_ne_nil hbs
  obtain ⟨first', tail', c, hbytes, -, -, hfind, hlen, hv, hrest⟩ := decode_eq_some h
  rw [List.cons_append, List.cons.injEq] at hbytes
  obtain ⟨rfl, rfl⟩ := hbytes
  have hextra : tail.length + 1 = c.extra := by
    have hdrop := congrArg List.length hrest
    simp only [List.length_nil, List.length_drop, List.length_append, List.length_singleton] at hdrop hlen
    omega
  have hpow : 256 ^ c.extra = 256 ^ tail.length * 256 := by rw [← hextra, Nat.pow_succ]
  have hvalue : ∀ b' : UInt8, (first.toNat - c.base) * 256 ^ c.extra + ofBE (tail ++ [b']) =
      ((first.toNat - c.base) * 256 ^ tail.length + ofBE tail) * 256 + b'.toNat := by
    intro b'
    rw [ofBE_concat, hpow, Nat.add_mul, Nat.mul_assoc, Nat.add_assoc]
  have htake : ∀ b' : UInt8, (tail ++ [b']).take c.extra = tail ++ [b'] := by
    intro b'
    apply List.take_of_length_le
    rw [List.length_append, List.length_singleton]
    omega
  refine ⟨(first.toNat - c.base) * 256 ^ tail.length + ofBE tail, ?_, ?_⟩
  · rw [hv, htake, hvalue]
  · intro b'
    have hlength : (tail ++ [b']).length = c.extra := by
      rw [List.length_append, List.length_singleton, hextra]
    rw [List.cons_append]
    simp only [decode, hfind]
    rw [if_neg (by omega), htake, hvalue, List.drop_of_length_le (by omega)]

/-- Where every first byte has a class, only few bytes hold no value. -/
theorem length_of_decode_none {cs : List ByteClass} {n : Nat} (hextra : ∀ c ∈ cs, c.extra < n)
    (hcover : ∀ b < 256, ∃ c ∈ cs, c.holds b = true) {bs : Bytes} (h : decode cs bs = none) :
    bs.length < n := by
  cases bs with
  | nil =>
      obtain ⟨c, hc, -⟩ := hcover 0 (by omega)
      have hpos := hextra c hc
      rw [List.length_nil]
      omega
  | cons first tail =>
      obtain ⟨d, hd, hholds⟩ := hcover first.toNat (UInt8.toNat_lt first)
      cases hfind : cs.find? (·.holds first.toNat) with
      | none => exact absurd hholds (List.find?_eq_none.mp hfind d hd)
      | some c =>
          have hlt := hextra c (List.mem_of_find?_eq_some hfind)
          simp only [decode, hfind] at h
          split at h
          · rw [List.length_cons]
            omega
          · cases h

theorem decode_lt {cs : List ByteClass} {bound : Nat}
    (hbound : ∀ c ∈ cs, c.capacity ≤ bound) {bs rest : Bytes} {v : Nat}
    (h : decode cs bs = some (v, rest)) : v < bound := by
  obtain ⟨b, tail, c, rfl, hmem, hholds, -, hlen, rfl, -⟩ := decode_eq_some h
  simp only [holds, decide_eq_true_eq] at hholds
  have htail := ofBE_lt (tail.take c.extra)
  rw [List.length_take, Nat.min_eq_left hlen] at htail
  have hle : b.toNat - c.base + 1 ≤ c.span := by omega
  calc (b.toNat - c.base) * 256 ^ c.extra + ofBE (tail.take c.extra)
      < (b.toNat - c.base) * 256 ^ c.extra + 256 ^ c.extra := by omega
    _ = (b.toNat - c.base + 1) * 256 ^ c.extra := by ring
    _ ≤ c.span * 256 ^ c.extra := Nat.mul_le_mul_right _ hle
    _ ≤ bound := hbound c hmem

end ByteClass

/-- The prefix code of a table of byte classes. -/
def PrefixCode.ofClasses (cs : List ByteClass) (bound : Nat) (hvalid : ByteClass.Valid cs)
    (hbound : ∃ c ∈ cs, bound ≤ c.capacity) (hmax : ∀ c ∈ cs, c.capacity ≤ bound) :
    PrefixCode where
  bound := bound
  enc := ByteClass.encode cs
  dec := ByteClass.decode cs
  dec_enc := fun hv rest => ByteClass.decode_encode hvalid hbound hv rest
  dec_append := fun h more => ByteClass.decode_append h more
  dec_suffix := fun h => ByteClass.decode_suffix h
  dec_lt := fun h => ByteClass.decode_lt hmax h

theorem PrefixCode.ofClasses_local (cs : List ByteClass) (bound : Nat)
    (hvalid : ByteClass.Valid cs) (hbound : ∃ c ∈ cs, bound ≤ c.capacity)
    (hmax : ∀ c ∈ cs, c.capacity ≤ bound) :
    (PrefixCode.ofClasses cs bound hvalid hbound hmax).Local :=
  fun h => ByteClass.decode_local h

theorem PrefixCode.ofClasses_open (cs : List ByteClass) (bound : Nat)
    (hvalid : ByteClass.Valid cs) (hbound : ∃ c ∈ cs, bound ≤ c.capacity)
    (hmax : ∀ c ∈ cs, c.capacity ≤ bound)
    (hcover : ∀ b < 256, ∃ c ∈ cs, c.holds b = true) :
    (PrefixCode.ofClasses cs bound hvalid hbound hmax).Open :=
  ⟨fun hbs h => ByteClass.decode_completes hcover hbs h,
    fun hbs h => ByteClass.decode_last_free hbs h⟩

end AioMoqt.Lib
