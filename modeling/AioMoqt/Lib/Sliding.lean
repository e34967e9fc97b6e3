import Mathlib.Data.List.DropRight
import Mathlib.Order.Bounds.Basic
import Mathlib.Order.MinMax

/-!
# Sliding windows over a timed history

Values that come in time order, and two queues that answer for them.  One holds the least value of
a window at its front: a value goes when a later one is not above it.  The other holds the greatest
value up to each time, and tells whether a value was exceeded by some time; only its newest entries
are kept.
-/

namespace AioMoqt.Lib.Sliding

section Drop

variable {α : Type} {p : α → Bool} {xs : List α}

/-- What is dropped from the front is dropped anywhere, where it comes first. -/
theorem dropWhile_eq_filter (h : xs.Pairwise fun a b => p b = true → p a = true) :
    xs.dropWhile p = xs.filter fun a => !p a := by
  induction xs with
  | nil => rfl
  | cons x xs ih =>
      rw [List.pairwise_cons] at h
      cases hx : p x with
      | true => rw [List.dropWhile_cons_of_pos hx, ih h.2, List.filter_cons_of_neg (by simp [hx])]
      | false =>
          have hrest : xs.filter (fun a => !p a) = xs := by
            rw [List.filter_eq_self]
            intro a ha
            rw [Bool.not_eq_true', ← Bool.not_eq_true]
            intro hpa
            rw [h.1 a ha hpa] at hx
            exact Bool.noConfusion hx
          rw [List.dropWhile_cons_of_neg (by simp [hx]), List.filter_cons_of_pos (by simp [hx]), hrest]

/-- What is dropped from the back is dropped anywhere, where it comes last. -/
theorem rdropWhile_eq_filter (h : xs.Pairwise fun a b => p a = true → p b = true) :
    xs.rdropWhile p = xs.filter fun a => !p a := by
  rw [List.rdropWhile, dropWhile_eq_filter (List.pairwise_reverse.mpr h), List.filter_reverse,
    List.reverse_reverse]

end Drop

variable {τ α : Type} [LinearOrder τ] [LinearOrder α]

/-- The entries come in time order. -/
def Timed (entries : List (τ × α)) : Prop := entries.Pairwise fun a b => a.1 ≤ b.1

omit [LinearOrder α] in
theorem Timed.le_last {entries : List (τ × α)} {last : τ × α} (h : Timed (entries ++ [last])) :
    ∀ e ∈ entries ++ [last], e.1 ≤ last.1 := by
  intro e he
  rcases List.mem_append.mp he with he | he
  · exact (List.pairwise_append.mp h).2.2 e he last (List.mem_singleton_self last)
  · rw [List.mem_singleton.mp he]

omit [LinearOrder α] in
theorem Timed.init {entries : List (τ × α)} {last : τ × α} (h : Timed (entries ++ [last])) :
    Timed entries := (List.pairwise_append.mp h).1

/-! ## The least value of a window -/

/-- A value comes in: those at the back that are not below it go, and those at the front that are
older than the window. -/
def slide (cut : τ) (queue : List (τ × α)) (entry : τ × α) : List (τ × α) :=
  ((queue.rdropWhile fun e => entry.2 ≤ e.2) ++ [entry]).dropWhile fun e => e.1 < cut

/-- The queue ascends and lies in the window, and below each value of the window it has one as
late. -/
structure Covers (cut : τ) (entries queue : List (τ × α)) : Prop where
  sub : queue.Sublist entries
  ascends : queue.Pairwise fun a b => a.2 < b.2
  inside : ∀ e ∈ queue, cut ≤ e.1
  below : ∀ e ∈ entries, cut ≤ e.1 → ∃ least ∈ queue, e.1 ≤ least.1 ∧ least.2 ≤ e.2

namespace Covers

variable {cut cut' : τ} {entries queue : List (τ × α)} {entry : τ × α}

theorem nil (cut : τ) : Covers cut ([] : List (τ × α)) [] where
  sub := List.Sublist.refl _
  ascends := List.Pairwise.nil
  inside := by simp
  below := by simp

/-- The two loops leave what is below the new value and young enough, and the new value. -/
theorem slide_eq (h : Covers cut entries queue) (htimed : Timed (entries ++ [entry]))
    (hentry : cut' ≤ entry.1) :
    slide cut' queue entry =
      (queue.filter fun e => e.2 < entry.2 ∧ cut' ≤ e.1) ++ [entry] := by
  have hback : (queue.rdropWhile fun e => entry.2 ≤ e.2) =
      queue.filter fun e => !decide (entry.2 ≤ e.2) := by
    apply rdropWhile_eq_filter
    refine h.ascends.imp fun {a b} hab => ?_
    simp only [decide_eq_true_eq]
    exact fun hle => hle.trans hab.le
  have hsub : ((queue.filter fun e => !decide (entry.2 ≤ e.2)) ++ [entry]).Sublist
      (entries ++ [entry]) := ((List.filter_sublist).trans h.sub).append (List.Sublist.refl _)
  have hfront := dropWhile_eq_filter (p := fun e : τ × α => decide (e.1 < cut'))
    ((htimed.sublist hsub).imp fun {a b} hab => by
      simp only [decide_eq_true_eq]
      exact fun hlt => hab.trans_lt hlt)
  rw [slide, hback, hfront, List.filter_append, List.filter_filter]
  congr 1
  · apply List.filter_congr
    intro e _
    by_cases hvalue : e.2 < entry.2 <;> by_cases htime : cut' ≤ e.1 <;>
      simp [hvalue, htime, not_le.mpr, not_lt.mpr, le_of_not_gt, lt_of_not_ge]
  · rw [List.filter_cons_of_pos (by simpa using hentry), List.filter_nil]

/-- The window moves on and takes a value in. -/
theorem slide (h : Covers cut entries queue) (htimed : Timed (entries ++ [entry]))
    (hcut : cut ≤ cut') (hentry : cut' ≤ entry.1) :
    Covers cut' (entries ++ [entry]) (slide cut' queue entry) := by
  rw [h.slide_eq htimed hentry]
  have hkept : ∀ e ∈ queue.filter (fun e => e.2 < entry.2 ∧ cut' ≤ e.1),
      e ∈ queue ∧ e.2 < entry.2 ∧ cut' ≤ e.1 := by
    intro e he
    obtain ⟨hmem, hpass⟩ := List.mem_filter.mp he
    exact ⟨hmem, of_decide_eq_true hpass⟩
  constructor
  case sub => exact ((List.filter_sublist).trans h.sub).append (List.Sublist.refl _)
  case ascends =>
    rw [List.pairwise_append]
    refine ⟨h.ascends.sublist List.filter_sublist, List.pairwise_singleton _ _, ?_⟩
    intro e he last hlast
    rw [List.mem_singleton.mp hlast]
    exact (hkept e he).2.1
  case inside =>
    intro e he
    rcases List.mem_append.mp he with he | he
    · exact (hkept e he).2.2
    · rw [List.mem_singleton.mp he]
      exact hentry
  case below =>
    intro e he hinside
    by_cases hvalue : entry.2 ≤ e.2
    · exact ⟨entry, List.mem_append_right _ (List.mem_singleton_self _), htimed.le_last e he, hvalue⟩
    · have hold : e ∈ entries := by
        rcases List.mem_append.mp he with hold | hlast
        · exact hold
        · rw [List.mem_singleton.mp hlast] at hvalue
          exact absurd le_rfl hvalue
      obtain ⟨least, hleast, htime, hle⟩ := h.below e hold (hcut.trans hinside)
      refine ⟨least, List.mem_append_left _ (List.mem_filter.mpr ⟨hleast, ?_⟩), htime, hle⟩
      exact decide_eq_true ⟨hle.trans_lt (not_le.mp hvalue), hinside.trans htime⟩

/-- The front is the least value of the window. -/
theorem isLeast {first : τ × α} {rest : List (τ × α)} (h : Covers cut entries (first :: rest)) :
    IsLeast {v | ∃ e ∈ entries, cut ≤ e.1 ∧ e.2 = v} first.2 := by
  refine ⟨⟨first, h.sub.subset List.mem_cons_self, h.inside first List.mem_cons_self, rfl⟩, ?_⟩
  rintro v ⟨e, he, hinside, rfl⟩
  obtain ⟨least, hleast, -, hle⟩ := h.below e he hinside
  rcases List.mem_cons.mp hleast with rfl | hrest
  · exact hle
  · exact ((List.pairwise_cons.mp h.ascends).1 least hrest).le.trans hle

end Covers

/-! ## The greatest value so far -/

/-- The greater of the greatest value so far and the next. -/
def raise (top : Option α) (v : α) : α := top.elim v fun m => max m v

/-- Every value with the greatest up to it in its place. -/
def crests : Option α → List (τ × α) → List (τ × α)
  | _, [] => []
  | top, (t, v) :: entries => (t, raise top v) :: crests (some (raise top v)) entries

/-- The greatest value of a history. -/
def crest (entries : List (τ × α)) : Option α :=
  entries.foldl (fun top entry => some (raise top entry.2)) none

omit [LinearOrder τ] in
theorem crests_concat (top : Option α) (entries : List (τ × α)) (entry : τ × α) :
    crests top (entries ++ [entry]) = crests top entries ++
      [(entry.1, raise (entries.foldl (fun top entry => some (raise top entry.2)) top) entry.2)] := by
  induction entries generalizing top with
  | nil => rfl
  | cons e entries ih =>
      obtain ⟨t, v⟩ := e
      rw [List.cons_append, crests, ih, crests, List.foldl_cons, List.cons_append]

omit [LinearOrder τ] in
/-- The times stay as they are. -/
theorem mem_crests {top : Option α} {entries : List (τ × α)} {c : τ × α}
    (h : c ∈ crests top entries) : ∃ e ∈ entries, e.1 = c.1 := by
  induction entries generalizing top with
  | nil => cases h
  | cons e entries ih =>
      obtain ⟨t, v⟩ := e
      rw [crests, List.mem_cons] at h
      rcases h with rfl | h
      · exact ⟨(t, v), List.mem_cons_self, rfl⟩
      · obtain ⟨e, he, htime⟩ := ih h
        exact ⟨e, List.mem_cons_of_mem _ he, htime⟩

/-- `crests` leaves a history in time order. -/
theorem Timed.crests {entries : List (τ × α)} (h : Timed entries) (top : Option α) :
    Timed (crests top entries) := by
  induction entries generalizing top with
  | nil => exact List.Pairwise.nil
  | cons e entries ih =>
      obtain ⟨t, v⟩ := e
      obtain ⟨hfirst, hrest⟩ := List.pairwise_cons.mp h
      refine List.pairwise_cons.mpr ⟨fun c hc => ?_, ih hrest _⟩
      obtain ⟨e, he, htime⟩ := mem_crests hc
      exact (hfirst e he).trans_eq htime

omit [LinearOrder τ] in
theorem crest_concat (entries : List (τ × α)) (entry : τ × α) :
    crest (entries ++ [entry]) = some (raise (crest entries) entry.2) :=
  List.foldl_concat _ _ _ _

omit [LinearOrder τ] in
/-- A value is exceeded by the greatest where it is exceeded by some. -/
theorem lt_raise_crest (entries : List (τ × α)) (entry : τ × α) (m : α) :
    m < raise (crest entries) entry.2 ↔ ∃ e ∈ entries ++ [entry], m < e.2 := by
  induction entries using List.reverseRecOn generalizing entry with
  | nil => simp [raise, crest]
  | append_singleton entries last ih =>
      rw [crest_concat, raise, Option.elim_some, lt_max_iff, ih last]
      simp only [List.mem_append, List.mem_singleton, or_and_right, exists_or, exists_eq_left]

/-- `while len(q) > 1 and q[0] is too old: q.popleft()`. -/
def expire (cut : τ) : List (τ × α) → List (τ × α)
  | e :: next :: rest => if e.1 < cut then expire cut (next :: rest) else e :: next :: rest
  | queue => queue

omit [LinearOrder α] in
/-- The last entry is young enough, so that the loop ends before it. -/
theorem expire_concat (cut : τ) (queue : List (τ × α)) {last : τ × α} (hlast : cut ≤ last.1) :
    expire cut (queue ++ [last]) = (queue ++ [last]).dropWhile fun e => e.1 < cut := by
  induction queue with
  | nil =>
      rw [List.nil_append, List.dropWhile_cons_of_neg (by simpa using hlast)]
      rfl
  | cons e queue ih =>
      obtain ⟨next, rest, hqueue⟩ : ∃ next rest, queue ++ [last] = next :: rest := by
        cases queue with
        | nil => exact ⟨last, [], rfl⟩
        | cons next queue => exact ⟨next, queue ++ [last], rfl⟩
      rw [List.cons_append, hqueue, expire, ← hqueue]
      by_cases hold : e.1 < cut
      · rw [if_pos hold, ih, List.dropWhile_cons_of_pos (by simpa using hold)]
      · rw [if_neg hold, List.dropWhile_cons_of_neg (by simpa using hold)]

/-- The youngest entries of a history with one more, from those of the history. -/
theorem expire_crests {entries : List (τ × α)} {last : τ × α} (htimed : Timed (entries ++ [last]))
    {cut cut' : τ} (hcut : cut ≤ cut') (hlast : cut' ≤ last.1) :
    expire cut' (((crests none entries).filter fun e => cut ≤ e.1) ++
        [(last.1, raise (crest entries) last.2)]) =
      (crests none (entries ++ [last])).filter fun e => cut' ≤ e.1 := by
  have hcrests : crests none (entries ++ [last]) =
      crests none entries ++ [(last.1, raise (crest entries) last.2)] := crests_concat none entries last
  have hyoung : cut' ≤ (last.1, raise (crest entries) last.2).1 := hlast
  have hwhole := htimed.crests none
  rw [hcrests] at hwhole ⊢
  have hsorted := hwhole.sublist (List.Sublist.append_right
    (List.filter_sublist (p := fun e : τ × α => decide (cut ≤ e.1))) _)
  have hdrop := dropWhile_eq_filter (p := fun e : τ × α => decide (e.1 < cut'))
    (hsorted.imp fun {a b} hab => by
      simp only [decide_eq_true_eq]
      exact fun hlt => hab.trans_lt hlt)
  rw [expire_concat cut' _ hyoung]
  refine hdrop.trans ?_
  rw [List.filter_append, List.filter_append, List.filter_filter]
  congr 1
  · apply List.filter_congr
    intro e _
    by_cases hyoung : cut' ≤ e.1
    · simp [hyoung, hcut.trans hyoung]
    · simp [hyoung, lt_of_not_ge hyoung]
  · simp [hlast]

/-- Was a value exceeded by some time?  The latest entry of that time or before tells. -/
def exceededBy (queue : List (τ × α)) (m : α) (t : τ) : Bool :=
  match queue.reverse.find? fun e => e.1 ≤ t with
  | none => false
  | some e => m < e.2

/-- The entries that are young enough tell of the whole history, where there is one of them by the
time in question. -/
theorem exceededBy_iff {entries : List (τ × α)} (htimed : Timed entries) (cut : τ) (m : α) (t : τ) :
    exceededBy ((crests none entries).filter fun e => cut ≤ e.1) m t = true ↔
      (∃ e ∈ entries, cut ≤ e.1 ∧ e.1 ≤ t) ∧ ∃ e ∈ entries, e.1 ≤ t ∧ m < e.2 := by
  induction entries using List.reverseRecOn with
  | nil => simp [crests, exceededBy]
  | append_singleton entries last ih =>
      have hle := htimed.le_last
      rw [crests_concat, List.filter_append]
      by_cases hcut : cut ≤ last.1
      · rw [List.filter_cons_of_pos (by simpa using hcut), List.filter_nil, exceededBy,
          List.reverse_append, List.reverse_singleton, List.singleton_append]
        by_cases htime : last.1 ≤ t
        · rw [List.find?_cons_of_pos (by simpa using htime)]
          have hall : (∃ e ∈ entries ++ [last], e.1 ≤ t ∧ m < e.2) ↔
              ∃ e ∈ entries ++ [last], m < e.2 :=
            exists_congr fun e => and_congr_right fun he =>
              and_iff_right ((hle e he).trans htime)
          rw [hall, ← lt_raise_crest, and_iff_right ⟨last, by simp, hcut, htime⟩]
          exact decide_eq_true_iff
        · rw [List.find?_cons_of_neg (by simpa using htime)]
          have hrest := ih htimed.init
          rw [exceededBy] at hrest
          rw [hrest]
          have hlate : ∀ P : τ × α → Prop, (∃ e ∈ entries ++ [last], P e ∧ e.1 ≤ t) ↔
              ∃ e ∈ entries, P e ∧ e.1 ≤ t := by
            intro P
            simp only [List.mem_append, List.mem_singleton, or_and_right, exists_or, exists_eq_left]
            exact or_iff_left fun hlast => htime hlast.2
          simp only [and_comm (b := m < _), hlate]
      · have hold : ∀ e ∈ entries ++ [last], ¬ cut ≤ e.1 := fun e he hinside =>
          hcut (hinside.trans (hle e he))
        have hnone : ((crests none entries).filter fun e => cut ≤ e.1) = [] := by
          rw [List.filter_eq_nil_iff]
          intro c hc
          obtain ⟨e, he, htime⟩ := mem_crests hc
          rw [decide_eq_true_eq, ← htime]
          exact hold e (List.mem_append_left _ he)
        rw [hnone, List.filter_cons_of_neg (by simpa using hcut), List.filter_nil]
        refine iff_of_false Bool.false_ne_true ?_
        rintro ⟨⟨e, he, hinside, -⟩, -⟩
        exact hold e he hinside

end AioMoqt.Lib.Sliding
