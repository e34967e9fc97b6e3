import AioMoqt.Lib.Reader

/-!
# Readers inside a frame

A frame ends at `stop`, and other bytes may already be buffered behind it.  A reader
is framed when those bytes cannot change what it does: two runs that differ only
behind `stop` either read the same and stay inside, or fail alike, or are both lost.
A run is lost when it left the frame or failed with an error that the caller does not
tell from leaving it.

`Framed` is a class, so that instances put a `do` block together from its steps.
-/

namespace AioMoqt.Lib

open AioMoqt.Lib.BigEndian

/-- A value that does not end inside `body` ends behind it. -/
theorem PrefixCode.Local.dec_past {code : PrefixCode} (hlocal : code.Local) {body more rest : Bytes}
    {v : Nat} (hnone : code.dec body = none) (h : code.dec (body ++ more) = some (v, rest)) :
    rest.length < more.length := by
  by_contra hle
  obtain ⟨used, -, hused⟩ := code.dec_suffix h
  have hlen := congrArg List.length hused
  simp only [List.length_append] at hlen
  obtain ⟨mid, rfl⟩ : ∃ mid, body = used ++ mid := by
    have hbefore := List.prefix_of_prefix_length_le (List.prefix_append used rest)
      (hused ▸ List.prefix_append body more) (by omega)
    obtain ⟨mid, hmid⟩ := hbefore
    exact ⟨mid, hmid.symm⟩
  have hdec : code.dec used = some (v, []) := hlocal (by rw [← hused]; exact h)
  have hbody := code.dec_append hdec mid
  rw [hnone] at hbody
  exact absurd hbody (by simp)

namespace Reader

variable {ε α β : Type} {lost : ε → Prop} {stop : Nat}

/-- The run left the frame, or failed as one that might have. -/
def Lost (lost : ε → Prop) (stop : Nat) : Except ε (α × Cursor) → Prop
  | .error e => lost e
  | .ok (_, cur) => stop < cur.pos

/-- Two runs over the same frame, with `rest` and `rest'` behind it. -/
inductive Agree (lost : ε → Prop) (stop : Nat) (rest rest' : Bytes) :
    Except ε (α × Cursor) → Except ε (α × Cursor) → Prop where
  | inside (a : α) (pos : Nat) (body : Bytes) (hstop : pos + body.length = stop) :
      Agree lost stop rest rest' (.ok (a, ⟨pos, body ++ rest⟩)) (.ok (a, ⟨pos, body ++ rest'⟩))
  | failed (e : ε) : Agree lost stop rest rest' (.error e) (.error e)
  | lost {x y : Except ε (α × Cursor)} (hx : Lost lost stop x) (hy : Lost lost stop y) :
      Agree lost stop rest rest' x y

/-- A reader that cannot be influenced from behind the frame, started at `pos`. -/
structure FramedAt (lost : ε → Prop) (stop pos : Nat) (r : Reader ε α) : Prop where
  inside : ∀ body rest rest', pos + body.length = stop →
    Agree lost stop rest rest' (r ⟨pos, body ++ rest⟩) (r ⟨pos, body ++ rest'⟩)
  past : stop < pos → ∀ rest, Lost lost stop (r ⟨pos, rest⟩)

/-- A reader that is framed wherever it starts. -/
class Framed (lost : ε → Prop) (stop : Nat) (r : Reader ε α) : Prop where
  framedAt : ∀ pos, FramedAt lost stop pos r

/-- A computation whose failures count as lost. -/
class Fails (lost : ε → Prop) (x : Except ε α) : Prop where
  fails : ∀ e, x = .error e → lost e

/-- Where the frame alone is too short, every run over it is lost. -/
theorem FramedAt.lost_of_short {r : Reader ε α} {pos : Nat} (hr : FramedAt lost stop pos r)
    {body : Bytes} (hstop : pos + body.length = stop) {e : ε} (he : lost e)
    (h : r ⟨pos, body⟩ = .error e) (rest : Bytes) : Lost lost stop (r ⟨pos, body ++ rest⟩) := by
  have hagree := hr.inside body rest [] hstop
  rw [List.append_nil, h] at hagree
  generalize r ⟨pos, body ++ rest⟩ = x at hagree
  generalize hy : (Except.error e : Except ε (α × Cursor)) = y at hagree
  cases hagree with
  | inside a next mid hnext => exact absurd hy (by simp)
  | failed e' =>
      obtain rfl : e = e' := by simpa using hy
      exact he
  | lost hx _ => exact hx

/-! ## More failures that count -/

theorem Lost.mono {lost' : ε → Prop} (hle : ∀ e, lost e → lost' e) {x : Except ε (α × Cursor)}
    (hx : Lost lost stop x) : Lost lost' stop x := by
  cases x with
  | error e => exact hle e hx
  | ok result => exact hx

theorem Agree.mono {lost' : ε → Prop} (hle : ∀ e, lost e → lost' e) {rest rest' : Bytes}
    {x y : Except ε (α × Cursor)} (h : Agree lost stop rest rest' x y) :
    Agree lost' stop rest rest' x y := by
  cases h with
  | inside a pos body hstop => exact .inside a pos body hstop
  | failed e => exact .failed e
  | lost hx hy => exact .lost (hx.mono hle) (hy.mono hle)

theorem FramedAt.mono {lost' : ε → Prop} (hle : ∀ e, lost e → lost' e) {pos : Nat}
    {r : Reader ε α} (hr : FramedAt lost stop pos r) : FramedAt lost' stop pos r where
  inside body rest rest' hstop := (hr.inside body rest rest' hstop).mono hle
  past hpos rest := (hr.past hpos rest).mono hle

theorem Framed.mono {lost' : ε → Prop} (hle : ∀ e, lost e → lost' e) {r : Reader ε α}
    (hr : Framed lost stop r) : Framed lost' stop r :=
  ⟨fun pos => (hr.framedAt pos).mono hle⟩

/-! ## Sequences -/

theorem Lost.bind {r : Reader ε α} {f : α → Reader ε β} {cur : Cursor}
    (hr : Lost lost stop (r cur))
    (hf : ∀ a last, r cur = .ok (a, last) → stop < last.pos → Lost lost stop (f a last)) :
    Lost lost stop ((r >>= f) cur) := by
  cases h : r cur with
  | error e =>
      rw [h] at hr
      simp only [Bind.bind, StateT.bind, h, Except.bind]
      exact hr
  | ok result =>
      obtain ⟨a, last⟩ := result
      rw [h] at hr
      simp only [Bind.bind, StateT.bind, h, Except.bind]
      exact hf a last h hr

/-- A sequence whose second step is framed where the first one ends inside, and lost
where the first one left. -/
theorem FramedAt.bind_of {r : Reader ε α} {f : α → Reader ε β} {pos : Nat}
    (hr : FramedAt lost stop pos r)
    (hf : ∀ a next, next ≤ stop → FramedAt lost stop next (f a))
    (hpast : ∀ cur a last, r cur = .ok (a, last) → stop < last.pos →
      Lost lost stop (f a last)) : FramedAt lost stop pos (r >>= f) where
  inside body rest rest' hstop := by
    generalize hx : r ⟨pos, body ++ rest⟩ = x
    generalize hy : r ⟨pos, body ++ rest'⟩ = y
    have hagree := hr.inside body rest rest' hstop
    rw [hx, hy] at hagree
    cases hagree with
    | inside a next body' hnext =>
        have hstep := (hf a next (by omega)).inside body' rest rest' hnext
        simpa only [Bind.bind, StateT.bind, hx, hy, Except.bind] using hstep
    | failed e =>
        simp only [Bind.bind, StateT.bind, hx, hy, Except.bind]
        exact .failed e
    | lost hxl hyl =>
        rw [← hx] at hxl
        rw [← hy] at hyl
        exact .lost (hxl.bind fun a last h => hpast _ a last h)
          (hyl.bind fun a last h => hpast _ a last h)
  past hpos rest := (hr.past hpos rest).bind fun a last h => hpast _ a last h

theorem FramedAt.bind {r : Reader ε α} {f : α → Reader ε β} {pos : Nat}
    (hr : FramedAt lost stop pos r) (hf : ∀ a next, FramedAt lost stop next (f a)) :
    FramedAt lost stop pos (r >>= f) :=
  hr.bind_of (fun a next _ => hf a next)
    fun _ a last _ hlast => (hf a last.pos).past hlast last.rest

theorem Framed.seq {r : Reader ε α} {f : α → Reader ε β} (hr : Framed lost stop r)
    (hf : ∀ a, Framed lost stop (f a)) : Framed lost stop (r >>= f) :=
  ⟨fun pos => (hr.framedAt pos).bind fun a next => (hf a).framedAt next⟩

instance Framed.bind {r : Reader ε α} {f : α → Reader ε β} [hr : Framed lost stop r]
    [hf : ∀ a, Framed lost stop (f a)] : Framed lost stop (r >>= f) :=
  hr.seq hf

theorem FramedAt.pure (pos : Nat) (a : α) :
    FramedAt lost stop pos (Pure.pure a : Reader ε α) where
  inside body _ _ hstop := .inside a pos body hstop
  past hpos _ := hpos

instance Framed.pure (a : α) : Framed lost stop (Pure.pure a : Reader ε α) :=
  ⟨fun pos => .pure pos a⟩

instance Framed.map {r : Reader ε α} (f : α → β) [hr : Framed lost stop r] :
    Framed lost stop (f <$> r) := by
  have h : (f <$> r) = r >>= fun a => Pure.pure (f a) := rfl
  rw [h]
  infer_instance

/-- The position is known to what follows. -/
theorem FramedAt.tell_bind {f : Nat → Reader ε β} {pos : Nat}
    (hf : FramedAt lost stop pos (f pos)) :
    FramedAt lost stop pos (Reader.tell >>= f) where
  inside body rest rest' hstop := hf.inside body rest rest' hstop
  past hpos rest := hf.past hpos rest

instance Framed.tell : Framed lost stop (Reader.tell : Reader ε Nat) where
  framedAt pos :=
    { inside := fun body _ _ hstop => .inside pos pos body hstop
      past := fun hpos _ => hpos }

instance Framed.ite {c : Prop} [Decidable c] {r r' : Reader ε α} [hr : Framed lost stop r]
    [hr' : Framed lost stop r'] : Framed lost stop (if c then r else r') := by
  split
  · exact hr
  · exact hr'

/-! ## Computations that read nothing -/

instance Fails.ok (a : α) : Fails lost (.ok a : Except ε α) := ⟨nofun⟩

instance Fails.pure (a : α) : Fails lost (Pure.pure a : Except ε α) := ⟨nofun⟩

theorem Fails.seq {x : Except ε α} {f : α → Except ε β} (hx : Fails lost x)
    (hf : ∀ a, Fails lost (f a)) : Fails lost (x >>= f) := by
  constructor
  intro e he
  cases x with
  | error e' =>
      have heq : e' = e := by simpa [Bind.bind, Except.bind] using he
      exact hx.fails e (by rw [heq])
  | ok a => exact (hf a).fails e he

instance Fails.bind {x : Except ε α} {f : α → Except ε β} [hx : Fails lost x]
    [hf : ∀ a, Fails lost (f a)] : Fails lost (x >>= f) := hx.seq hf

instance Fails.ite {c : Prop} [Decidable c] {x y : Except ε α} [hx : Fails lost x]
    [hy : Fails lost y] : Fails lost (if c then x else y) := by
  split
  · exact hx
  · exact hy

/-- Inside the frame any failure is the same in both runs. -/
theorem FramedAt.ofExcept_inside {pos : Nat} (hpos : pos ≤ stop) (x : Except ε α) :
    FramedAt lost stop pos (Reader.ofExcept x) where
  inside body rest rest' hstop := by
    cases x with
    | error e => exact .failed e
    | ok a => exact .inside a pos body hstop
  past h := absurd h (by omega)

theorem FramedAt.fail_inside {pos : Nat} (hpos : pos ≤ stop) (e : ε) :
    FramedAt lost stop pos (Reader.fail e : Reader ε α) :=
  .ofExcept_inside hpos (.error e)

instance Framed.ofExcept {x : Except ε α} [hx : Fails lost x] :
    Framed lost stop (Reader.ofExcept x) where
  framedAt pos :=
    { inside := fun body rest rest' hstop =>
        (FramedAt.ofExcept_inside (by omega) x).inside body rest rest' hstop
      past := by
        intro hpos rest
        cases x with
        | error e => exact hx.fails e rfl
        | ok a => exact hpos }

theorem Fails.of_lost {e : ε} (he : lost e) : Fails lost (.error e : Except ε α) :=
  ⟨fun e' he' => by cases he'; exact he⟩

instance Framed.fail {e : ε} [hx : Fails lost (.error e : Except ε α)] :
    Framed lost stop (Reader.fail e : Reader ε α) := Framed.ofExcept (x := .error e)

theorem Framed.fail_of_lost {e : ε} (he : lost e) :
    Framed lost stop (Reader.fail e : Reader ε α) :=
  have : Fails lost (.error e : Except ε α) := .of_lost he
  Framed.fail

/-! ## Readers over a string of their own -/

/-- A reader whose failures count as lost. -/
class FailsOnly (lost : ε → Prop) (r : Reader ε α) : Prop where
  fails : ∀ cur e, r cur = .error e → lost e

instance FailsOnly.pure (a : α) : FailsOnly lost (Pure.pure a : Reader ε α) := ⟨nofun⟩

instance FailsOnly.bind {r : Reader ε α} {f : α → Reader ε β} [hr : FailsOnly lost r]
    [hf : ∀ a, FailsOnly lost (f a)] : FailsOnly lost (r >>= f) := by
  constructor
  intro cur e he
  rcases bind_eq_error.mp he with h | ⟨a, mid, -, h⟩
  · exact hr.fails cur e h
  · exact (hf a).fails mid e h

instance FailsOnly.ite {c : Prop} [Decidable c] {r r' : Reader ε α} [hr : FailsOnly lost r]
    [hr' : FailsOnly lost r'] : FailsOnly lost (if c then r else r') := by
  split
  · exact hr
  · exact hr'

instance FailsOnly.ofExcept {x : Except ε α} [hx : Fails lost x] :
    FailsOnly lost (Reader.ofExcept x) := by
  constructor
  intro cur e he
  cases x with
  | ok a => cases he
  | error e' =>
      cases he
      exact hx.fails e rfl

theorem FailsOnly.int {code : PrefixCode} {short : Nat → ε} (hshort : ∀ n, lost (short n)) :
    FailsOnly lost (Reader.int code short) := by
  constructor
  intro cur e he
  unfold Reader.int at he
  split at he
  · cases he
    exact hshort _
  · cases he

instance Fails.within {r : Reader ε α} {bs : Bytes} [hr : FailsOnly lost r] :
    Fails lost (Reader.within r bs) := by
  constructor
  intro e he
  apply hr.fails ⟨0, bs⟩ e
  unfold Reader.within at he
  cases h : r ⟨0, bs⟩ with
  | ok result => simp [h, Except.map] at he
  | error e' =>
      rw [h] at he
      cases he
      rfl

/-! ## Integers and bytes -/

theorem int_inside {code : PrefixCode} {short : Nat → ε} {body mid : Bytes} {v : Nat}
    (h : code.dec body = some (v, mid)) (pos : Nat) (rest : Bytes) :
    Reader.int code short ⟨pos, body ++ rest⟩ =
      .ok (v, ⟨pos + (body.length - mid.length), mid ++ rest⟩) := by
  simp only [Reader.int, code.dec_append h rest, List.length_append]
  rw [Nat.add_sub_add_right]

/-- An integer that does not end inside the frame is lost. -/
theorem int_lost {code : PrefixCode} (hlocal : code.Local) {short : Nat → ε}
    (hshort : ∀ n, lost (short n)) {body : Bytes} (h : code.dec body = none) {pos : Nat}
    (hstop : pos + body.length = stop) (rest : Bytes) :
    Lost lost stop (Reader.int code short ⟨pos, body ++ rest⟩) := by
  unfold Reader.int
  cases hdec : code.dec (body ++ rest) with
  | none => exact hshort pos
  | some result =>
      obtain ⟨v, more⟩ := result
      have hlt := hlocal.dec_past h hdec
      show stop < pos + ((body ++ rest).length - more.length)
      rw [List.length_append]
      omega

theorem Framed.int {code : PrefixCode} (hlocal : code.Local) {short : Nat → ε}
    (hshort : ∀ n, lost (short n)) : Framed lost stop (Reader.int code short) where
  framedAt pos :=
    { inside := by
        intro body rest rest' hstop
        cases h : code.dec body with
        | none =>
            exact .lost (int_lost hlocal hshort h hstop rest)
              (int_lost hlocal hshort h hstop rest')
        | some result =>
            obtain ⟨v, mid⟩ := result
            have hlt := code.length_dec_lt h
            rw [int_inside h, int_inside h]
            exact .inside v _ mid (by omega)
      past := by
        intro hpos rest
        unfold Reader.int
        cases code.dec rest with
        | none => exact hshort pos
        | some result => exact Nat.lt_of_lt_of_le hpos (Nat.le_add_right _ _) }

/-- Bytes, with what follows started behind them. -/
theorem FramedAt.bytes_bind {n : Nat} {short : Nat → ε} (hshort : ∀ n, lost (short n))
    {f : Bytes → Reader ε β} {pos : Nat}
    (hf : ∀ raw, FramedAt lost stop (pos + n) (f raw)) :
    FramedAt lost stop pos (Reader.bytes n short >>= f) := by
  have hlost : stop < pos + n → ∀ rest,
      Lost lost stop ((Reader.bytes n short >>= f) ⟨pos, rest⟩) := by
    intro hpast rest
    simp only [Bind.bind, StateT.bind, Reader.bytes]
    split
    · exact (hf _).past hpast _
    · exact hshort pos
  constructor
  · intro body rest rest' hstop
    by_cases hn : n ≤ body.length
    · have hstep := (hf (body.take n)).inside (body.drop n) rest rest'
        (by rw [List.length_drop]; omega)
      simp only [Bind.bind, StateT.bind, Reader.bytes, List.length_append,
        List.take_append_of_le_length hn, List.drop_append_of_le_length hn]
      rw [if_pos (by omega), if_pos (by omega)]
      exact hstep
    · exact .lost (hlost (by omega) _) (hlost (by omega) _)
  · intro hpos rest
    exact hlost (by omega) rest

theorem Framed.bytes {n : Nat} {short : Nat → ε} (hshort : ∀ n, lost (short n)) :
    Framed lost stop (Reader.bytes n short) where
  framedAt pos := by
    have h : FramedAt lost stop pos (Reader.bytes n short >>= Pure.pure) :=
      .bytes_bind hshort fun raw => .pure _ raw
    rwa [bind_pure] at h

theorem Framed.byte {short : Nat → ε} (hshort : ∀ n, lost (short n)) :
    Framed lost stop (Reader.byte short) where
  framedAt pos :=
    { inside := by
        intro body rest rest' hstop
        cases body with
        | nil =>
            have hlost : ∀ rest, Lost lost stop (Reader.byte short ⟨pos, rest⟩) := by
              intro rest
              cases rest with
              | nil => exact hshort pos
              | cons b rest =>
                  show stop < pos + 1
                  simp only [List.length_nil] at hstop
                  omega
            exact .lost (hlost rest) (hlost rest')
        | cons b body => exact .inside b (pos + 1) body (by rw [← hstop, List.length_cons]; omega)
      past := by
        intro hpos rest
        cases rest with
        | nil => exact hshort pos
        | cons b rest => exact Nat.lt_of_lt_of_le hpos (Nat.le_add_right _ _) }

/-! ## Frames inside frames -/

/-- A block that must fill its own extent: what it does behind `valueEnd` is refused
before it can matter. -/
theorem FramedAt.fill {r : Reader ε α} {f : α → Reader ε β} {e : ε} (he : lost e) {pos valueEnd : Nat}
    (hend : valueEnd ≤ stop) (hpos : pos ≤ valueEnd) (hr : FramedAt lost valueEnd pos r)
    (hf : ∀ a, FramedAt lost stop valueEnd (f a)) :
    FramedAt lost stop pos
      (r >>= fun a => Reader.tell >>= fun p => if p ≠ valueEnd then Reader.fail e else f a) := by
  constructor
  · intro body rest rest' hstop
    have hcut : pos + (body.take (valueEnd - pos)).length = valueEnd := by
      rw [List.length_take]
      omega
    have hsplit : ∀ rest, body ++ rest =
        body.take (valueEnd - pos) ++ (body.drop (valueEnd - pos) ++ rest) := by
      intro rest
      rw [← List.append_assoc, List.take_append_drop]
    have hagree := hr.inside _ (body.drop (valueEnd - pos) ++ rest)
      (body.drop (valueEnd - pos) ++ rest') hcut
    rw [← hsplit, ← hsplit] at hagree
    have hlost : ∀ rest, Lost lost valueEnd (r ⟨pos, body ++ rest⟩) → Lost lost stop
        ((r >>= fun a => Reader.tell >>= fun p =>
          if p ≠ valueEnd then Reader.fail e else f a) ⟨pos, body ++ rest⟩) := by
      intro rest hx
      cases h : r ⟨pos, body ++ rest⟩ with
      | error e' =>
          rw [h] at hx
          simp only [Bind.bind, StateT.bind, h, Except.bind]
          exact hx
      | ok result =>
          obtain ⟨a, last⟩ := result
          rw [h] at hx
          have hne : last.pos ≠ valueEnd := Nat.ne_of_gt hx
          simp only [Bind.bind, StateT.bind, h, Except.bind, Reader.tell, if_pos hne]
          exact he
    generalize hx : r ⟨pos, body ++ rest⟩ = x at hagree hlost
    generalize hy : r ⟨pos, body ++ rest'⟩ = y at hagree hlost
    cases hagree with
    | inside a next mid hnext =>
        simp only [Bind.bind, StateT.bind, hx, hy, Except.bind, Reader.tell]
        by_cases hfull : next = valueEnd
        · subst hfull
          have hmid : mid = [] := List.length_eq_zero_iff.mp (by omega)
          subst hmid
          simp only [ne_eq, not_true_eq_false, if_false, List.nil_append]
          exact (hf a).inside _ rest rest' (by rw [List.length_drop]; omega)
        · rw [if_pos hfull]
          exact .failed e
    | failed e' =>
        simp only [Bind.bind, StateT.bind, hx, hy, Except.bind]
        exact .failed e'
    | lost hxl hyl => exact .lost (hlost rest (hx ▸ hxl)) (hlost rest' (hy ▸ hyl))
  · intro h
    omega

end Reader

end AioMoqt.Lib
