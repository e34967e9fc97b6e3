import AioMoqt.Lib.PrefixCode

/-!
# Readers over a byte buffer

A reader consumes bytes from a cursor and may fail.  `Reads r pos bs a` says that
`r`, started at `pos`, takes exactly `bs` and yields `a` whatever follows; the
rules below put such facts together along a `do` block.
-/

namespace AioMoqt.Lib

open AioMoqt.Lib.BigEndian

/-- A read position: the number of bytes behind it, and the bytes ahead. -/
structure Cursor where
  pos : Nat
  rest : Bytes
deriving Repr, DecidableEq

/-- A computation that consumes bytes and may fail with `ε`. -/
abbrev Reader (ε α : Type) : Type := StateT Cursor (Except ε) α

namespace Reader

variable {ε α β : Type}

/-- The current position. -/
def tell : Reader ε Nat := fun cur => .ok (cur.pos, cur)

def fail (e : ε) : Reader ε α := fun _ => .error e

/-- A computation that reads nothing. -/
def ofExcept (x : Except ε α) : Reader ε α := fun cur => x.map fun a => (a, cur)

/-- A reader run over a byte string of its own. -/
def within (r : Reader ε α) (bs : Bytes) : Except ε α := (r ⟨0, bs⟩).map Prod.fst

/-- One integer of a prefix code; `short` is the failure on a short buffer. -/
def int (code : PrefixCode) (short : Nat → ε) : Reader ε Nat := fun cur =>
  match code.dec cur.rest with
  | none => .error (short cur.pos)
  | some (v, rest) => .ok (v, ⟨cur.pos + (cur.rest.length - rest.length), rest⟩)

/-- The next `n` bytes. -/
def bytes (n : Nat) (short : Nat → ε) : Reader ε Bytes := fun cur =>
  if n ≤ cur.rest.length then .ok (cur.rest.take n, ⟨cur.pos + n, cur.rest.drop n⟩)
  else .error (short cur.pos)

/-- One byte. -/
def byte (short : Nat → ε) : Reader ε UInt8 := fun cur =>
  match cur.rest with
  | [] => .error (short cur.pos)
  | b :: rest => .ok (b, ⟨cur.pos + 1, rest⟩)

/-- A sequence of pure steps that succeeds: both did. -/
theorem except_bind_eq_ok {x : Except ε α} {f : α → Except ε β} {b : β} :
    (x >>= f) = .ok b ↔ ∃ a, x = .ok a ∧ f a = .ok b := by
  cases x with
  | error e => simp [Bind.bind, Except.bind]
  | ok a => simp [Bind.bind, Except.bind]

/-- A sequence that succeeds: both steps did. -/
theorem bind_eq_ok {r : Reader ε α} {f : α → Reader ε β} {cur last : Cursor} {b : β} :
    (r >>= f) cur = .ok (b, last) ↔
      ∃ a mid, r cur = .ok (a, mid) ∧ f a mid = .ok (b, last) := by
  simp only [Bind.bind, StateT.bind]
  cases h : r cur with
  | error e => simp [Except.bind]
  | ok result =>
      obtain ⟨a, mid⟩ := result
      simp [Except.bind]

/-- A sequence that fails: the first step did, or the second. -/
theorem bind_eq_error {r : Reader ε α} {f : α → Reader ε β} {cur : Cursor} {e : ε} :
    (r >>= f) cur = .error e ↔
      r cur = .error e ∨ ∃ a mid, r cur = .ok (a, mid) ∧ f a mid = .error e := by
  simp only [Bind.bind, StateT.bind]
  cases h : r cur with
  | error e => simp [Except.bind]
  | ok result =>
      obtain ⟨a, mid⟩ := result
      simp [Except.bind]

theorem pure_eq_ok {a b : α} {cur last : Cursor} :
    (Pure.pure a : Reader ε α) cur = .ok (b, last) ↔ a = b ∧ cur = last := by
  show Except.ok (a, cur) = Except.ok (b, last) ↔ a = b ∧ cur = last
  rw [Except.ok.injEq, Prod.mk.injEq]

theorem map_eq_ok {r : Reader ε α} {f : α → β} {cur last : Cursor} {b : β} :
    (f <$> r) cur = .ok (b, last) ↔ ∃ a, r cur = .ok (a, last) ∧ f a = b := by
  simp only [Functor.map, StateT.map, Bind.bind, Except.bind]
  cases h : r cur with
  | error e => simp
  | ok result =>
      obtain ⟨a, mid⟩ := result
      simp [Pure.pure, Except.pure, and_comm]

theorem ofExcept_eq_ok {x : Except ε α} {cur last : Cursor} {a : α} :
    ofExcept x cur = .ok (a, last) ↔ x = .ok a ∧ cur = last := by
  cases x <;> simp [ofExcept, Except.map]

/-- An integer that was read, between the bytes before it and those after it. -/
theorem int_eq_ok {code : PrefixCode} (hlocal : code.Local) {short : Nat → ε} {cur next : Cursor}
    {v : Nat} :
    int code short cur = .ok (v, next) ↔
      ∃ used, cur.rest = used ++ next.rest ∧ code.Spells used v ∧
        next.pos = cur.pos + used.length := by
  unfold int
  constructor
  · intro h
    cases hdec : code.dec cur.rest with
    | none =>
        rw [hdec] at h
        cases h
    | some read =>
        obtain ⟨w, rest⟩ := read
        rw [hdec] at h
        cases h
        obtain ⟨used, hrest, hused⟩ := hlocal.dec_eq_some.mp hdec
        refine ⟨used, hrest, hused, ?_⟩
        dsimp only
        rw [hrest, List.length_append, Nat.add_sub_cancel]
  · rintro ⟨used, hrest, hused, hpos⟩
    rw [hrest, hused.dec_append]
    dsimp only
    rw [List.length_append, Nat.add_sub_cancel, ← hpos]

theorem int_eq_error {code : PrefixCode} {short : Nat → ε} {cur : Cursor} {e : ε} :
    int code short cur = .error e ↔ code.dec cur.rest = none ∧ e = short cur.pos := by
  unfold int
  cases hdec : code.dec cur.rest with
  | none => simp [eq_comm]
  | some read => simp

/-- `r` started at `pos` takes exactly `bs` and yields `a`, whatever follows. -/
def Reads (r : Reader ε α) (pos : Nat) (bs : Bytes) (a : α) : Prop :=
  ∀ rest, r ⟨pos, bs ++ rest⟩ = .ok (a, ⟨pos + bs.length, rest⟩)

theorem Reads.pure (pos : Nat) (a : α) : Reads (Pure.pure a : Reader ε α) pos [] a :=
  fun _ => rfl

theorem Reads.bind {r : Reader ε α} {f : α → Reader ε β} {pos : Nat} {bs bs' : Bytes}
    {a : α} {b : β} (hr : Reads r pos bs a) (hf : Reads (f a) (pos + bs.length) bs' b) :
    Reads (r >>= f) pos (bs ++ bs') b := by
  intro rest
  have hstep := hr (bs' ++ rest)
  have hnext := hf rest
  simp only [Bind.bind, StateT.bind, List.append_assoc, hstep, Except.bind, hnext,
    List.length_append]
  rw [Nat.add_assoc]

/-- The rest of a sequence takes over behind what was read. -/
theorem Reads.bind_apply {r : Reader ε α} {pos : Nat} {bs : Bytes} {a : α}
    (hr : Reads r pos bs a) (f : α → Reader ε β) (rest : Bytes) :
    (r >>= f) ⟨pos, bs ++ rest⟩ = f a ⟨pos + bs.length, rest⟩ := by
  simp only [Bind.bind, StateT.bind, hr rest, Except.bind]

/-- A step that takes nothing. -/
theorem Reads.bind_nil {r : Reader ε α} {f : α → Reader ε β} {pos : Nat} {bs : Bytes}
    {a : α} {b : β} (hr : Reads r pos [] a) (hf : Reads (f a) pos bs b) :
    Reads (r >>= f) pos bs b :=
  Reads.bind hr hf

/-- A last step that takes nothing. -/
theorem Reads.bind_last {r : Reader ε α} {f : α → Reader ε β} {pos : Nat} {bs : Bytes}
    {a : α} {b : β} (hr : Reads r pos bs a) (hf : Reads (f a) (pos + bs.length) [] b) :
    Reads (r >>= f) pos bs b := by
  have hread := hr.bind hf
  rwa [List.append_nil] at hread

/-- A result put together from what was read. -/
theorem Reads.map {r : Reader ε α} {pos : Nat} {bs : Bytes} {a : α} (hr : Reads r pos bs a)
    (f : α → β) : Reads (r >>= fun x => Pure.pure (f x)) pos bs (f a) :=
  hr.bind_last (Reads.pure (pos + bs.length) (f a))

theorem Reads.tell (pos : Nat) : Reads (Reader.tell : Reader ε Nat) pos [] pos :=
  fun _ => rfl

theorem tell_bind_apply (f : Nat → Reader ε β) (cur : Cursor) :
    (Reader.tell >>= f) cur = f cur.pos cur := rfl

theorem Reads.tell_bind {f : Nat → Reader ε β} {pos : Nat} {bs : Bytes} {b : β}
    (hf : Reads (f pos) pos bs b) : Reads (Reader.tell >>= f) pos bs b :=
  Reads.bind_nil (Reads.tell pos) hf

/-- A check that passes. -/
theorem Reads.guard {c : Prop} [Decidable c] {e : ε} {r : Reader ε α} {pos : Nat} {bs : Bytes}
    {a : α} (hc : ¬ c) (hr : Reads r pos bs a) :
    Reads (if c then Reader.fail e else r) pos bs a := by
  rwa [if_neg hc]

theorem Reads.ofExcept {x : Except ε α} {a : α} (h : x = .ok a) (pos : Nat) :
    Reads (Reader.ofExcept x) pos [] a := by
  intro rest
  rw [h]
  rfl

/-- `r` started at `pos` takes exactly `bs` and yields `a` when `rest` follows. -/
def ReadsBefore (r : Reader ε α) (pos : Nat) (bs rest : Bytes) (a : α) : Prop :=
  r ⟨pos, bs ++ rest⟩ = .ok (a, ⟨pos + bs.length, rest⟩)

theorem Reads.before {r : Reader ε α} {pos : Nat} {bs : Bytes} {a : α} (h : Reads r pos bs a)
    (rest : Bytes) : ReadsBefore r pos bs rest a := h rest

theorem ReadsBefore.bind {r : Reader ε α} {f : α → Reader ε β} {pos : Nat} {bs bs' rest : Bytes}
    {a : α} {b : β} (hr : ReadsBefore r pos bs (bs' ++ rest) a)
    (hf : ReadsBefore (f a) (pos + bs.length) bs' rest b) :
    ReadsBefore (r >>= f) pos (bs ++ bs') rest b := by
  unfold ReadsBefore at *
  simp only [Bind.bind, StateT.bind, List.append_assoc, hr, Except.bind, hf, List.length_append,
    Nat.add_assoc]

theorem ReadsBefore.bind_last {r : Reader ε α} {f : α → Reader ε β} {pos : Nat} {bs rest : Bytes}
    {a : α} {b : β} (hr : ReadsBefore r pos bs rest a)
    (hf : ReadsBefore (f a) (pos + bs.length) [] rest b) : ReadsBefore (r >>= f) pos bs rest b := by
  have hnil : ReadsBefore r pos bs ([] ++ rest) a := hr
  have hread := hnil.bind hf
  rwa [List.append_nil] at hread

/-- A step that takes nothing. -/
theorem ReadsBefore.bind_nil {r : Reader ε α} {f : α → Reader ε β} {pos : Nat} {bs rest : Bytes}
    {a : α} {b : β} (hr : ReadsBefore r pos [] (bs ++ rest) a)
    (hf : ReadsBefore (f a) pos bs rest b) : ReadsBefore (r >>= f) pos bs rest b :=
  ReadsBefore.bind hr hf

theorem ReadsBefore.map {r : Reader ε α} {pos : Nat} {bs rest : Bytes} {a : α}
    (hr : ReadsBefore r pos bs rest a) (f : α → β) :
    ReadsBefore (r >>= fun x => Pure.pure (f x)) pos bs rest (f a) :=
  hr.bind_last ((Reads.pure _ (f a)).before rest)

theorem Reads.int (code : PrefixCode) (short : Nat → ε) {v : Nat} (hv : v < code.bound)
    (pos : Nat) : Reads (Reader.int code short) pos (code.enc v) v := by
  intro rest
  simp only [Reader.int, code.dec_enc hv, List.length_append, Nat.add_sub_cancel]

theorem Reads.bytes (short : Nat → ε) (bs : Bytes) (pos : Nat) :
    Reads (Reader.bytes bs.length short) pos bs bs := by
  intro rest
  simp [Reader.bytes]

/-! ## What a reader makes of given bytes -/

/-- Started at `pos` in front of `bs`, `r` takes exactly `bs` and yields `a` if `c` holds,
and fails if it does not. -/
structure Decides (r : Reader ε α) (pos : Nat) (bs : Bytes) (c : Prop) (a : α) : Prop where
  reads : c → Reads r pos bs a
  holds : ∀ rest result, r ⟨pos, bs ++ rest⟩ = .ok result → c

theorem Reads.decides {r : Reader ε α} {pos : Nat} {bs : Bytes} {a : α} (h : Reads r pos bs a) :
    Decides r pos bs True a :=
  ⟨fun _ => h, fun _ _ _ => trivial⟩

theorem Decides.congr {r : Reader ε α} {pos : Nat} {bs : Bytes} {c c' : Prop} {a : α}
    (h : Decides r pos bs c a) (hc : c ↔ c') : Decides r pos bs c' a :=
  ⟨fun hc' => h.reads (hc.mpr hc'), fun rest result hread => hc.mp (h.holds rest result hread)⟩

theorem Decides.bind {r : Reader ε α} {f : α → Reader ε β} {pos : Nat} {bs bs' : Bytes}
    {c c' : Prop} {a : α} {b : β} (hr : Decides r pos bs c a)
    (hf : Decides (f a) (pos + bs.length) bs' c' b) :
    Decides (r >>= f) pos (bs ++ bs') (c ∧ c') b := by
  constructor
  · rintro ⟨hc, hc'⟩
    exact (hr.reads hc).bind (hf.reads hc')
  · rintro rest ⟨b', last⟩ hread
    rw [List.append_assoc] at hread
    obtain ⟨a', mid, hfirst, -⟩ := bind_eq_ok.mp hread
    have hc := hr.holds _ _ hfirst
    rw [(hr.reads hc).bind_apply] at hread
    exact ⟨hc, hf.holds _ _ hread⟩

/-- Behind a step that only reads. -/
theorem Reads.bind_decides {r : Reader ε α} {f : α → Reader ε β} {pos : Nat} {bs bs' : Bytes}
    {c : Prop} {a : α} {b : β} (hr : Reads r pos bs a)
    (hf : Decides (f a) (pos + bs.length) bs' c b) : Decides (r >>= f) pos (bs ++ bs') c b :=
  (hr.decides.bind hf).congr (by simp)

/-- In front of steps that only read. -/
theorem Decides.bind_reads {r : Reader ε α} {f : α → Reader ε β} {pos : Nat} {bs bs' : Bytes}
    {c : Prop} {a : α} {b : β} (hr : Decides r pos bs c a)
    (hf : Reads (f a) (pos + bs.length) bs' b) : Decides (r >>= f) pos (bs ++ bs') c b :=
  (hr.bind hf.decides).congr (by simp)

theorem Decides.bind_last {r : Reader ε α} {f : α → Reader ε β} {pos : Nat} {bs : Bytes}
    {c c' : Prop} {a : α} {b : β} (hr : Decides r pos bs c a)
    (hf : Decides (f a) (pos + bs.length) [] c' b) : Decides (r >>= f) pos bs (c ∧ c') b := by
  have hread := hr.bind hf
  rwa [List.append_nil] at hread

theorem Reads.bind_last_decides {r : Reader ε α} {f : α → Reader ε β} {pos : Nat} {bs : Bytes}
    {c : Prop} {a : α} {b : β} (hr : Reads r pos bs a)
    (hf : Decides (f a) (pos + bs.length) [] c b) : Decides (r >>= f) pos bs c b :=
  (hr.decides.bind_last hf).congr (by simp)

/-- The last step of a sequence, which only puts the result together. -/
theorem Decides.bind_last_reads {r : Reader ε α} {f : α → Reader ε β} {pos : Nat} {bs : Bytes}
    {c : Prop} {a : α} {b : β} (hr : Decides r pos bs c a)
    (hf : Reads (f a) (pos + bs.length) [] b) : Decides (r >>= f) pos bs c b :=
  (hr.bind_last hf.decides).congr (by simp)

theorem Decides.map {r : Reader ε α} {pos : Nat} {bs : Bytes} {c : Prop} {a : α}
    (hr : Decides r pos bs c a) (f : α → β) :
    Decides (r >>= fun x => Pure.pure (f x)) pos bs c (f a) :=
  hr.bind_last_reads (Reads.pure (pos + bs.length) (f a))

/-- A check, and what follows it. -/
theorem Decides.guard {d : Prop} [Decidable d] {e : ε} {r : Reader ε α} {pos : Nat} {bs : Bytes}
    {c : Prop} {a : α} (hr : Decides r pos bs c a) :
    Decides (if d then Reader.fail e else r) pos bs (¬ d ∧ c) a := by
  by_cases hd : d
  · rw [if_pos hd]
    refine ⟨fun h => absurd hd h.1, ?_⟩
    intro rest result hread
    cases hread
  · rw [if_neg hd]
    exact hr.congr (by simp [hd])

end Reader

end AioMoqt.Lib
