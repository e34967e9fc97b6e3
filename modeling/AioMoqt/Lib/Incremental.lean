import AioMoqt.Lib.BigEndian

/-!
# Incremental parsing

A parser that takes whole items off the front of a buffer and waits where one is not
complete.  If a verdict on a buffer is final, that is, more bytes behind it do not
change it, the result does not depend on how the input was cut into chunks.
-/

namespace AioMoqt.Lib.Incremental

open AioMoqt.Lib.BigEndian

variable {σ ρ : Type}

/-- What a parser says about the front of its buffer. -/
inductive Next (σ ρ : Type) where
  | wait
  | stop (result : ρ)
  | take (n : Nat) (s : σ)

/-- Between two chunks: the state and the bytes not taken, or the final result. -/
abbrev Progress (σ ρ : Type) : Type := (σ × Bytes) ⊕ ρ

section

variable (next : σ → Bytes → Next σ ρ)

/-- Items off the front; each takes a byte at least, so the length is fuel enough. -/
def run : Nat → σ → Bytes → Progress σ ρ
  | 0, s, buf => .inl (s, buf)
  | fuel + 1, s, buf =>
      match next s buf with
      | .wait => .inl (s, buf)
      | .stop result => .inr result
      | .take n s => run fuel s (buf.drop n)

/-- One more chunk. -/
def feed (progress : Progress σ ρ) (chunk : Bytes) : Progress σ ρ :=
  match progress with
  | .inl (s, buf) => run next (buf ++ chunk).length s (buf ++ chunk)
  | .inr result => .inr result

/-- Verdicts are final, and items are not empty. -/
structure Stable : Prop where
  nil : ∀ s, next s [] = .wait
  take : ∀ {s buf n s'}, next s buf = .take n s' → 0 < n ∧ n ≤ buf.length
  append : ∀ {s buf} (more : Bytes), next s buf ≠ .wait → next s (buf ++ more) = next s buf

end

variable {next : σ → Bytes → Next σ ρ}

theorem run_of_wait {fuel : Nat} {s : σ} {buf : Bytes} (h : next s buf = .wait) :
    run next fuel s buf = .inl (s, buf) := by
  cases fuel with
  | zero => rfl
  | succ fuel => simp only [run, h]

/-- Fuel beyond the length of the buffer changes nothing. -/
theorem run_of_length_le (hstable : Stable next) {fuel : Nat} {s : σ} {buf : Bytes}
    (hfuel : buf.length ≤ fuel) : run next fuel s buf = run next buf.length s buf := by
  induction fuel using Nat.strong_induction_on generalizing s buf with
  | _ fuel ih =>
      cases hlen : buf.length with
      | zero =>
          obtain rfl := List.length_eq_zero_iff.mp hlen
          cases fuel with
          | zero => rfl
          | succ fuel => simp only [run, hstable.nil]
      | succ len =>
          obtain ⟨fuel, rfl⟩ : ∃ k, fuel = k + 1 := ⟨fuel - 1, by omega⟩
          cases hnext : next s buf with
          | wait => simp only [run, hnext]
          | stop result => simp only [run, hnext]
          | take n s' =>
              have htake := hstable.take hnext
              have hdrop : (buf.drop n).length ≤ len := by
                rw [List.length_drop]
                omega
              simp only [run, hnext]
              rw [ih fuel (by omega) (by omega), ih len (by omega) hdrop]

/-- One item, and the run goes on behind it. -/
theorem run_of_take (hstable : Stable next) {fuel n : Nat} {s s' : σ} {buf : Bytes}
    (hfuel : buf.length ≤ fuel) (h : next s buf = .take n s') :
    run next fuel s buf = run next (buf.drop n).length s' (buf.drop n) := by
  have htake := hstable.take h
  obtain ⟨fuel, rfl⟩ : ∃ k, fuel = k + 1 := ⟨fuel - 1, by omega⟩
  simp only [run, h]
  exact run_of_length_le hstable (by rw [List.length_drop]; omega)

/-- A buffer that grows behind: the run goes on where it waited. -/
theorem run_append (hstable : Stable next) {fuel : Nat} {s : σ} {buf : Bytes}
    (hfuel : buf.length ≤ fuel) (more : Bytes) :
    run next (buf ++ more).length s (buf ++ more) = feed next (run next fuel s buf) more := by
  induction fuel generalizing s buf with
  | zero =>
      obtain rfl := List.length_eq_zero_iff.mp (Nat.le_zero.mp hfuel)
      rfl
  | succ fuel ih =>
      cases hnext : next s buf with
      | wait => simp only [run, hnext, feed]
      | stop result =>
          have hmore : next s (buf ++ more) = .stop result := by
            rw [hstable.append more (by simp [hnext]), hnext]
          have hne : buf ≠ [] := by
            rintro rfl
            rw [hstable.nil] at hnext
            exact absurd hnext (by simp)
          obtain ⟨len, hlen⟩ : ∃ len, (buf ++ more).length = len + 1 :=
            ⟨(buf ++ more).length - 1, by
              have := List.length_pos_iff.mpr hne
              rw [List.length_append]
              omega⟩
          simp only [hlen, run, hmore, hnext, feed]
      | take n mid =>
          have htake := hstable.take hnext
          have hmore : next s (buf ++ more) = .take n mid := by
            rw [hstable.append more (by simp [hnext]), hnext]
          obtain ⟨len, hlen⟩ : ∃ len, (buf ++ more).length = len + 1 :=
            ⟨(buf ++ more).length - 1, by rw [List.length_append]; omega⟩
          have hdrop : (buf ++ more).drop n = buf.drop n ++ more :=
            List.drop_append_of_le_length htake.2
          have hshort : (buf.drop n ++ more).length ≤ len := by
            rw [← hdrop, List.length_drop]
            omega
          simp only [hlen, run, hmore, hnext, hdrop]
          rw [run_of_length_le hstable hshort]
          exact ih (by rw [List.length_drop]; omega)

theorem feed_append (hstable : Stable next) (progress : Progress σ ρ) (a b : Bytes) :
    feed next (feed next progress a) b = feed next progress (a ++ b) := by
  cases progress with
  | inr result => rfl
  | inl waiting =>
      obtain ⟨s, buf⟩ := waiting
      show feed next (run next (buf ++ a).length s (buf ++ a)) b = _
      rw [← run_append hstable le_rfl]
      simp only [feed, List.append_assoc]

/-- **Feeding chunk by chunk is feeding the concatenation.** -/
theorem feed_foldl (hstable : Stable next) (progress : Progress σ ρ) (chunks : List Bytes)
    (last : Bytes) :
    feed next (chunks.foldl (feed next) progress) last =
      feed next progress (chunks.flatten ++ last) := by
  induction chunks generalizing progress with
  | nil => rfl
  | cons chunk chunks ih =>
      rw [List.foldl_cons, ih, feed_append hstable, List.flatten_cons, List.append_assoc]

end AioMoqt.Lib.Incremental
