import Mathlib.Data.List.Induction
import AioMoqt.Messages.Base

/-!
# The grammar of Key-Value-Pair blocks

A block is a concatenation of pairs, each a type and a value in the form that the type's parity
selects.  The decoder reads integers against the buffer and looks at the end of the block only
behind each pair, and still takes a block behind its length exactly when it is one.
-/

namespace AioMoqt.Messages

open AioMoqt.Lib AioMoqt.Lib.BigEndian
open AioMoqt.Lib.Reader (Reads)

section Grammar

variable (code : PrefixCode) (delta : Bool)

/-- The value of a type: an integer, or a length and as many bytes. -/
inductive SpellsValue : Nat → Bytes → KvpValue → Prop where
  | int {extId v : Nat} {bs : Bytes} (heven : extId % 2 = 0) (hv : code.Spells bs v) :
      SpellsValue extId bs (.int v)
  | bytes {extId : Nat} {len v : Bytes} (hodd : extId % 2 = 1) (hlen : code.Spells len v.length)
      (hmax : v.length ≤ kvpValueMax) : SpellsValue extId (len ++ v) (.bytes v)

/-- A type behind another one: deltas are summed up, and stay in the type space. -/
structure SpellsType (prev : Nat) (bs : Bytes) (extId : Nat) : Prop where
  intro ::
  spelled : ∃ step, code.Spells bs step ∧ extId = if delta then step + prev else step
  inSpace : delta = true → extId ≤ kvpTypeMax

/-- The pairs of a block behind a type. -/
inductive SpellsPairs : Nat → Bytes → List (Nat × KvpValue) → Prop where
  | nil {prev : Nat} : SpellsPairs prev [] []
  | cons {prev extId : Nat} {type body rest : Bytes} {value : KvpValue}
      {pairs : List (Nat × KvpValue)} (htype : SpellsType code delta prev type extId)
      (hvalue : SpellsValue code extId body value) (hrest : SpellsPairs extId rest pairs) :
      SpellsPairs prev (type ++ body ++ rest) ((extId, value) :: pairs)

/-- The type that stands last. -/
def lastType (prev : Nat) (pairs : List (Nat × KvpValue)) : Nat :=
  (pairs.map Prod.fst).getLastD prev

/-- The bytes end in an integer of the pair that they begin with. -/
def Dangles (prev : Nat) (bs : Bytes) : Prop :=
  code.dec bs = none ∨
    ∃ type extId rest, bs = type ++ rest ∧ SpellsType code delta prev type extId ∧
      code.dec rest = none

/-- Behind the cursor stand a length and a block of these pairs, and behind them `last`. -/
structure SpellsBlock (cur : Cursor) (pairs : List (Nat × KvpValue)) (last : Cursor) : Prop where
  intro ::
  spelled : ∃ len block, cur.rest = len ++ block ++ last.rest ∧ code.Spells len block.length ∧
    block.length ≤ extensionsLenLimit ∧ SpellsPairs code delta 0 block pairs ∧
    last.pos = cur.pos + len.length + block.length

/-- The bytes end before the block that they declare does. -/
def EndsInBlock (cur : Cursor) : Prop :=
  code.dec cur.rest = none ∨
    ∃ len n rest, cur.rest = len ++ rest ∧ code.Spells len n ∧ rest.length < n

/-- The whole block is there, and ends inside a pair of which an integer runs to the end of the
bytes. -/
def RunsOut (cur : Cursor) : Prop :=
  ∃ len done cut after pairs, cur.rest = len ++ (done ++ cut) ++ after ∧ cut ≠ [] ∧
    code.Spells len (done ++ cut).length ∧ (done ++ cut).length ≤ extensionsLenLimit ∧
    SpellsPairs code delta 0 done pairs ∧ Dangles code delta (lastType 0 pairs) (cut ++ after)

end Grammar

/-- What a block of pairs is read as: each type with its last value. -/
def collect (pairs : List (Nat × KvpValue)) : KeyValuePairs :=
  pairs.foldl (fun kvps pair => kvps.put pair.1 pair.2) ⟨.empty, []⟩

/-- The last value of a type. -/
def lastValue (pairs : List (Nat × KvpValue)) (extId : Nat) : Option KvpValue :=
  (pairs.reverse.find? fun pair => pair.1 = extId).map Prod.snd

/-! ## What is collected -/

theorem collect_concat (pairs : List (Nat × KvpValue)) (pair : Nat × KvpValue) :
    collect (pairs ++ [pair]) = (collect pairs).put pair.1 pair.2 := by
  rw [collect, List.foldl_append]
  rfl

theorem collect_get? (pairs : List (Nat × KvpValue)) (extId : Nat) :
    (collect pairs).dict.get? extId = lastValue pairs extId := by
  induction pairs using List.reverseRecOn with
  | nil => rfl
  | append_singleton pairs pair ih =>
      rw [collect_concat, KeyValuePairs.put, lastValue, List.reverse_append]
      dsimp only
      rw [Dict.get?_insert]
      by_cases htype : extId = pair.1
      · rw [if_pos htype]
        simp [htype]
      · rw [if_neg htype, ih]
        simp [Ne.symm htype, lastValue]

theorem collect_mem_keys (pairs : List (Nat × KvpValue)) (extId : Nat) :
    extId ∈ (collect pairs).dict.keys ↔ extId ∈ pairs.map Prod.fst := by
  induction pairs using List.reverseRecOn with
  | nil => exact Iff.rfl
  | append_singleton pairs pair ih =>
      rw [collect_concat, KeyValuePairs.put]
      dsimp only
      rw [Dict.keys_insert, List.map_append, List.mem_append, ← ih]
      split_ifs with hmem
      · constructor
        · exact Or.inl
        · rintro (hmem' | hlast)
          · exact hmem'
          · rw [List.map_singleton, List.mem_singleton] at hlast
            rw [hlast]
            exact hmem
      · simp

/-- The types that stand more than once. -/
theorem collect_mem_duplicates (pairs : List (Nat × KvpValue)) (extId : Nat) :
    extId ∈ (collect pairs).duplicates ↔ 1 < (pairs.map Prod.fst).count extId := by
  induction pairs using List.reverseRecOn with
  | nil => simp [collect]
  | append_singleton pairs pair ih =>
      have hkeys : extId ∈ (collect pairs).dict.keys ↔ 0 < (pairs.map Prod.fst).count extId := by
        rw [collect_mem_keys, List.count_pos_iff]
      rw [collect_concat, KeyValuePairs.put, List.map_append, List.count_append]
      dsimp only
      by_cases htype : pair.1 = extId
      · subst htype
        simp only [List.map_singleton, List.count_singleton_self]
        split_ifs with hcond
        · have hseen := hkeys.mp hcond.1
          constructor
          · intro _
            omega
          · intro _
            exact List.mem_cons_self
        · constructor
          · intro hmem
            have hcount := ih.mp hmem
            omega
          · intro hcount
            have hseen : pair.1 ∈ (collect pairs).dict.keys := hkeys.mpr (by omega)
            exact Classical.not_not.mp fun hmem => hcond ⟨hseen, hmem⟩
      · have hnone : List.count extId [pair.1] = 0 := by
          rw [List.count_eq_zero, List.mem_singleton]
          exact Ne.symm htype
        rw [List.map_singleton, hnone, Nat.add_zero, ← ih]
        split_ifs
        · rw [List.mem_cons]
          exact or_iff_right (Ne.symm htype)
        · exact Iff.rfl

theorem collect_entries_nil (pairs : List (Nat × KvpValue)) :
    (collect pairs).dict.entries = [] ↔ pairs = [] := by
  constructor
  · intro hnil
    cases pairs with
    | nil => rfl
    | cons pair pairs =>
        have hmem : pair.1 ∈ (collect (pair :: pairs)).dict.keys :=
          (collect_mem_keys _ _).mpr (by simp)
        rw [Dict.keys, hnil] at hmem
        cases hmem
  · rintro rfl
    rfl

/-! ## One pair -/

section Read

variable {code : PrefixCode}

theorem spells_reads {used : Bytes} {v : Nat} (h : code.Spells used v) (pos : Nat) :
    Reads (pullVint code) pos used v := by
  intro rest
  unfold pullVint Reader.int
  dsimp only
  rw [h.dec_append]
  dsimp only
  rw [List.length_append, Nat.add_sub_cancel]

theorem pullVint_spells (hlocal : code.Local) {cur next : Cursor} {v : Nat}
    (h : pullVint code cur = .ok (v, next)) :
    ∃ used, cur.rest = used ++ next.rest ∧ code.Spells used v ∧
      next.pos = cur.pos + used.length :=
  (Reader.int_eq_ok hlocal).mp h

theorem pullKvpValue_reads {extId extsEnd : Nat} {used : Bytes} {value : KvpValue}
    (h : SpellsValue code extId used value) (mode : KvpMode) {pos : Nat}
    (hend : pos + used.length ≤ extsEnd) :
    Reads (pullKvpValue code mode extsEnd extId) pos used value := by
  unfold pullKvpValue
  cases h with
  | int heven hv =>
      rw [if_pos heven]
      exact (spells_reads hv pos).map KvpValue.int
  | @bytes len v hodd hlen hmax =>
      rw [List.length_append] at hend
      rw [if_neg (by omega)]
      have hbytes : Reads (pullKvpBytes code mode extsEnd extId) pos (len ++ v) v := by
        apply (spells_reads hlen pos).bind
        apply Reads.tell_bind
        rw [if_neg (by omega), if_neg (by omega)]
        exact Reads.bytes _ v _
      exact hbytes.map KvpValue.bytes

/-- A value that is read is spelled by the bytes that it took. -/
theorem pullKvpValue_spells (hlocal : code.Local) {mode : KvpMode} {extsEnd extId : Nat}
    {cur next : Cursor} {value : KvpValue}
    (h : pullKvpValue code mode extsEnd extId cur = .ok (value, next)) :
    ∃ used, cur.rest = used ++ next.rest ∧ SpellsValue code extId used value ∧
      next.pos = cur.pos + used.length := by
  unfold pullKvpValue at h
  split at h
  · rename_i heven
    obtain ⟨v, mid, hv, hpure⟩ := Reader.bind_eq_ok.mp h
    obtain ⟨rfl, rfl⟩ := Reader.pure_eq_ok.mp hpure
    obtain ⟨used, hrest, hspells, hpos⟩ := pullVint_spells hlocal hv
    exact ⟨used, hrest, .int heven hspells, hpos⟩
  · rename_i hodd
    obtain ⟨v, mid, hbytes, hpure⟩ := Reader.bind_eq_ok.mp h
    obtain ⟨rfl, rfl⟩ := Reader.pure_eq_ok.mp hpure
    unfold pullKvpBytes at hbytes
    obtain ⟨valueLen, behind, hlen, hrest⟩ := Reader.bind_eq_ok.mp hbytes
    obtain ⟨pos, same, htell, hvalue⟩ := Reader.bind_eq_ok.mp hrest
    cases htell
    split_ifs at hvalue with hmax hend
    · cases hvalue
    · cases hvalue
    · cases hvalue
    · obtain ⟨used, hused, hspells, hpos⟩ := pullVint_spells hlocal hlen
      unfold pullBytes Reader.bytes at hvalue
      split_ifs at hvalue with henough
      cases hvalue
      have hlength : (behind.rest.take valueLen).length = valueLen := by
        rw [List.length_take, Nat.min_eq_left henough]
      refine ⟨used ++ behind.rest.take valueLen, ?_, ?_, ?_⟩
      · dsimp only
        rw [hused, List.append_assoc, List.take_append_drop]
      · apply SpellsValue.bytes (by omega)
        · rwa [hlength]
        · rw [hlength]
          omega
      · dsimp only
        rw [hpos, List.length_append, hlength, Nat.add_assoc]

/-- Behind a type, only an integer that is cut makes the read come short: the bytes that a length
announces lie in the block. -/
theorem pullKvpValue_underflow (hlocal : code.Local) {mode : KvpMode} {extsEnd extId : Nat}
    {cur : Cursor} (hmode : mode.withLength = true) (hfull : extsEnd ≤ cur.pos + cur.rest.length) :
    (∃ pos, pullKvpValue code mode extsEnd extId cur = .error (.underflow pos)) ↔
      code.dec cur.rest = none := by
  constructor
  · rintro ⟨pos, h⟩
    unfold pullKvpValue at h
    split at h
    · rcases Reader.bind_eq_error.mp h with hv | ⟨v, mid, -, hpure⟩
      · exact (Reader.int_eq_error.mp hv).1
      · cases hpure
    · rcases Reader.bind_eq_error.mp h with hbytes | ⟨v, mid, -, hpure⟩
      · unfold pullKvpBytes at hbytes
        rcases Reader.bind_eq_error.mp hbytes with hlen | ⟨valueLen, behind, hlen, hrest⟩
        · exact (Reader.int_eq_error.mp hlen).1
        · exfalso
          obtain ⟨used, hused, -, hpos⟩ := pullVint_spells hlocal hlen
          have hlength := congrArg List.length hused
          rw [List.length_append] at hlength
          rcases Reader.bind_eq_error.mp hrest with htell | ⟨at', same, htell, hvalue⟩
          · cases htell
          · cases htell
            simp only [hmode, true_or, if_true] at hvalue
            split_ifs at hvalue with hmax hend
            · cases hvalue
            · cases hvalue
            · unfold pullBytes Reader.bytes at hvalue
              rw [if_pos (by omega)] at hvalue
              cases hvalue
      · cases hpure
  · intro hnone
    have hint : pullVint code cur = .error (.underflow cur.pos) :=
      Reader.int_eq_error.mpr ⟨hnone, rfl⟩
    refine ⟨cur.pos, ?_⟩
    unfold pullKvpValue
    split
    · exact Reader.bind_eq_error.mpr (Or.inl hint)
    · apply Reader.bind_eq_error.mpr
      left
      exact Reader.bind_eq_error.mpr (Or.inl hint)

/-- One pair. -/
theorem pullKvp_reads {mode : KvpMode} {prev extId : Nat} {type body : Bytes}
    {value : KvpValue} (htype : SpellsType code mode.delta prev type extId)
    (hvalue : SpellsValue code extId body value) {extsEnd pos : Nat}
    (hend : pos + (type ++ body).length ≤ extsEnd) :
    Reads (pullKvp code mode extsEnd prev) pos (type ++ body) (extId, value) := by
  obtain ⟨step, hstep, hextId⟩ := htype.spelled
  rw [List.length_append] at hend
  apply (spells_reads hstep pos).bind
  rw [← hextId, if_neg]
  · exact (pullKvpValue_reads hvalue mode (by omega)).map (Prod.mk extId)
  · rintro ⟨hdelta, hover⟩
    have hinSpace := htype.inSpace hdelta
    omega

theorem pullKvp_spells (hlocal : code.Local) {mode : KvpMode} {prev extId extsEnd : Nat}
    {cur next : Cursor} {value : KvpValue}
    (h : pullKvp code mode extsEnd prev cur = .ok ((extId, value), next)) :
    ∃ type body, cur.rest = type ++ body ++ next.rest ∧
      SpellsType code mode.delta prev type extId ∧ SpellsValue code extId body value ∧
      next.pos = cur.pos + (type ++ body).length := by
  unfold pullKvp at h
  obtain ⟨step, behind, hstep, hrest⟩ := Reader.bind_eq_ok.mp h
  obtain ⟨type, htype, hspells, hpos⟩ := pullVint_spells hlocal hstep
  generalize hextId : (if mode.delta = true then step + prev else step) = absolute at hrest
  split_ifs at hrest with hover
  · cases hrest
  · obtain ⟨value', mid, hvalue, hpure⟩ := Reader.bind_eq_ok.mp hrest
    obtain ⟨heq, rfl⟩ := Reader.pure_eq_ok.mp hpure
    cases heq
    obtain ⟨body, hbody, hspellsValue, hpos'⟩ := pullKvpValue_spells hlocal hvalue
    refine ⟨type, body, ?_, ⟨⟨step, hspells, hextId.symm⟩, ?_⟩, hspellsValue, ?_⟩
    · rw [htype, hbody, List.append_assoc]
    · intro hdelta
      exact Nat.le_of_not_lt fun hlt => hover ⟨hdelta, hlt⟩
    · rw [hpos', hpos, List.length_append, Nat.add_assoc]

/-- With the whole block there, a pair comes short where the bytes end in one of its integers. -/
theorem pullKvp_underflow (hlocal : code.Local) {mode : KvpMode} {prev extsEnd : Nat}
    {cur : Cursor} (hmode : mode.withLength = true) (hfull : extsEnd ≤ cur.pos + cur.rest.length) :
    (∃ pos, pullKvp code mode extsEnd prev cur = .error (.underflow pos)) ↔
      Dangles code mode.delta prev cur.rest := by
  constructor
  · rintro ⟨pos, h⟩
    unfold pullKvp at h
    rcases Reader.bind_eq_error.mp h with hstep | ⟨step, behind, hstep, hrest⟩
    · exact Or.inl (Reader.int_eq_error.mp hstep).1
    · obtain ⟨type, htype, hspells, hpos⟩ := pullVint_spells hlocal hstep
      have hlength := congrArg List.length htype
      rw [List.length_append] at hlength
      generalize hextId : (if mode.delta = true then step + prev else step) = extId at hrest
      split_ifs at hrest with hover
      · cases hrest
      · right
        refine ⟨type, extId, behind.rest, htype, ⟨⟨step, hspells, hextId.symm⟩, ?_⟩, ?_⟩
        · intro hdelta
          exact Nat.le_of_not_lt fun hlt => hover ⟨hdelta, hlt⟩
        · have hfull' : extsEnd ≤ behind.pos + behind.rest.length := by omega
          apply (pullKvpValue_underflow hlocal hmode hfull').mp
          rcases Reader.bind_eq_error.mp hrest with hvalue | ⟨value, mid, -, hpure⟩
          · exact ⟨pos, hvalue⟩
          · cases hpure
  · rintro (hnone | ⟨type, extId, rest, htype, hspells, hnone⟩)
    · refine ⟨cur.pos, ?_⟩
      exact Reader.bind_eq_error.mpr (Or.inl (Reader.int_eq_error.mpr ⟨hnone, rfl⟩))
    · obtain ⟨step, hstep, hextId⟩ := hspells.spelled
      have hlength := congrArg List.length htype
      rw [List.length_append] at hlength
      have hread : pullVint code cur = .ok (step, ⟨cur.pos + type.length, rest⟩) := by
        have hreads := spells_reads hstep cur.pos rest
        rwa [← htype] at hreads
      have hfull' : extsEnd ≤ cur.pos + type.length + rest.length := by omega
      obtain ⟨pos, hvalue⟩ : ∃ pos, pullKvpValue code mode extsEnd extId
          ⟨cur.pos + type.length, rest⟩ = .error (.underflow pos) :=
        (pullKvpValue_underflow hlocal hmode hfull').mpr hnone
      refine ⟨pos, Reader.bind_eq_error.mpr (Or.inr ⟨step, _, hread, ?_⟩)⟩
      rw [← hextId, if_neg]
      · exact Reader.bind_eq_error.mpr (Or.inl hvalue)
      · rintro ⟨hdelta, hover⟩
        have hinSpace := hspells.inSpace hdelta
        omega

/-! ## The loop over the pairs -/

theorem SpellsType.length_pos {delta : Bool} {prev extId : Nat} {type : Bytes}
    (h : SpellsType code delta prev type extId) : 0 < type.length := by
  obtain ⟨step, hstep, -⟩ := h.spelled
  exact hstep.length_pos

theorem lastType_cons (prev extId : Nat) (value : KvpValue) (pairs : List (Nat × KvpValue)) :
    lastType prev ((extId, value) :: pairs) = lastType extId pairs := by
  unfold lastType
  rw [List.map_cons, List.getLastD_cons]

/-- A pair takes bytes. -/
theorem SpellsPairs.eq_nil {delta : Bool} {prev : Nat} {bs : Bytes}
    {pairs : List (Nat × KvpValue)} (h : SpellsPairs code delta prev bs pairs) (hbs : bs.length = 0) :
    pairs = [] := by
  cases h with
  | nil => rfl
  | cons htype hvalue hrest =>
      have hpos := htype.length_pos
      simp only [List.length_append] at hbs
      omega

/-- At the end of the block. -/
theorem pullKvps_end {mode : KvpMode} {extsEnd : Nat} (fuel prev : Nat) (kvps : KeyValuePairs)
    {cur : Cursor} (hend : extsEnd ≤ cur.pos) :
    pullKvps code mode extsEnd fuel prev kvps cur = .ok (kvps, cur) := by
  cases fuel with
  | zero => rfl
  | succ fuel => simp only [pullKvps, if_pos hend]

/-- One pair that ends inside the block. -/
theorem pullKvps_pair {mode : KvpMode} {extsEnd prev extId : Nat} {cur mid : Cursor}
    {value : KvpValue} (fuel : Nat) (kvps : KeyValuePairs) (hopen : cur.pos < extsEnd)
    (hpair : pullKvp code mode extsEnd prev cur = .ok ((extId, value), mid))
    (hinside : mid.pos ≤ extsEnd) :
    pullKvps code mode extsEnd (fuel + 1) prev kvps cur =
      pullKvps code mode extsEnd fuel extId (kvps.put extId value) mid := by
  simp only [pullKvps, hpair]
  rw [if_neg (by omega), if_neg (by omega)]

/-- A pair that fails ends the loop, for data that carries its length. -/
theorem pullKvps_failed {mode : KvpMode} {extsEnd prev : Nat} {cur : Cursor} {e : MoqtError}
    (fuel : Nat) (kvps : KeyValuePairs) (hmode : mode.withLength = true) (hopen : cur.pos < extsEnd)
    (hpair : pullKvp code mode extsEnd prev cur = .error e) :
    pullKvps code mode extsEnd (fuel + 1) prev kvps cur = .error e := by
  simp only [pullKvps, hpair, if_neg (Nat.not_le_of_gt hopen)]
  cases e with
  | underflow pos => simp only [hmode, true_or, if_true]
  | _ => rfl

/-- A pair that ends behind the block. -/
theorem pullKvps_overrun {mode : KvpMode} {extsEnd prev : Nat} {cur mid : Cursor}
    {pair : Nat × KvpValue} (fuel : Nat) (kvps : KeyValuePairs) (hopen : cur.pos < extsEnd)
    (hpair : pullKvp code mode extsEnd prev cur = .ok (pair, mid)) (hpast : extsEnd < mid.pos) :
    ∃ reason, pullKvps code mode extsEnd (fuel + 1) prev kvps cur = .error (.malformedKvp reason) := by
  simp only [pullKvps, hpair, if_neg (Nat.not_le_of_gt hopen), if_pos hpast]
  exact ⟨_, rfl⟩

/-- The loop goes over whole pairs of the block, and on behind them. -/
theorem pullKvps_over {mode : KvpMode} (extsEnd : Nat) {prev : Nat} {done : Bytes}
    {pairs : List (Nat × KvpValue)} (h : SpellsPairs code mode.delta prev done pairs) :
    ∀ (fuel pos : Nat) (kvps : KeyValuePairs) (rest : Bytes), pos + done.length ≤ extsEnd →
      extsEnd - pos ≤ fuel →
      ∃ left, extsEnd - (pos + done.length) ≤ left ∧
        pullKvps code mode extsEnd fuel prev kvps ⟨pos, done ++ rest⟩ =
          pullKvps code mode extsEnd left (lastType prev pairs)
            (pairs.foldl (fun kvps pair => kvps.put pair.1 pair.2) kvps)
            ⟨pos + done.length, rest⟩ := by
  induction h with
  | nil =>
      intro fuel pos kvps rest _ hfuel
      exact ⟨fuel, hfuel, rfl⟩
  | @cons prev extId type body block value pairs htype hvalue hblock ih =>
      intro fuel pos kvps rest hend hfuel
      have hpos := htype.length_pos
      have hlength : (type ++ body ++ block).length = (type ++ body).length + block.length :=
        List.length_append
      have hpair : 0 < (type ++ body).length := by
        rw [List.length_append]
        omega
      have hinside : pos + (type ++ body).length ≤ extsEnd := by omega
      obtain ⟨fuel, rfl⟩ : ∃ k, fuel = k + 1 := ⟨fuel - 1, by omega⟩
      have hread := pullKvp_reads htype hvalue hinside (block ++ rest)
      obtain ⟨left, hleft, hloop⟩ := ih fuel (pos + (type ++ body).length) (kvps.put extId value)
        rest (by omega) (by omega)
      refine ⟨left, by omega, ?_⟩
      rw [List.append_assoc (type ++ body) block rest, pullKvps_pair fuel kvps _ hread hinside, hloop,
        lastType_cons, List.foldl_cons, hlength, Nat.add_assoc]
      show pos < extsEnd
      omega

/-- At its end the loop has read pairs up to the end of the block. -/
theorem pullKvps_spells (hlocal : code.Local) {mode : KvpMode} {extsEnd : Nat}
    (hmode : mode.withLength = true) {fuel prev : Nat} {kvps kvps' : KeyValuePairs}
    {cur next : Cursor} (hcur : cur.pos ≤ extsEnd) (hfuel : extsEnd - cur.pos ≤ fuel)
    (h : pullKvps code mode extsEnd fuel prev kvps cur = .ok (kvps', next)) :
    ∃ block pairs, cur.rest = block ++ next.rest ∧ SpellsPairs code mode.delta prev block pairs ∧
      cur.pos + block.length = extsEnd ∧ next.pos = extsEnd := by
  induction fuel generalizing prev kvps cur with
  | zero =>
      cases h
      exact ⟨[], [], rfl, .nil, by simp; omega, by omega⟩
  | succ fuel ih =>
      by_cases hend : extsEnd ≤ cur.pos
      · rw [pullKvps_end _ _ _ hend] at h
        cases h
        exact ⟨[], [], rfl, .nil, by simp; omega, by omega⟩
      · have hopen : cur.pos < extsEnd := Nat.lt_of_not_le hend
        cases hpair : pullKvp code mode extsEnd prev cur with
        | error e =>
            rw [pullKvps_failed fuel kvps hmode hopen hpair] at h
            cases h
        | ok result =>
            obtain ⟨⟨extId, value⟩, mid⟩ := result
            rcases Nat.lt_or_ge extsEnd mid.pos with hpast | hinside
            · obtain ⟨reason, hover⟩ := pullKvps_overrun fuel kvps hopen hpair hpast
              rw [hover] at h
              cases h
            · rw [pullKvps_pair fuel kvps hopen hpair hinside] at h
              obtain ⟨type, body, hrest, htype, hvalue, hpos⟩ := pullKvp_spells hlocal hpair
              have hlength := htype.length_pos
              rw [List.length_append] at hpos
              have hleft : extsEnd - mid.pos ≤ fuel := by omega
              obtain ⟨block, pairs, hblock, hpairs, hclosed, hnext⟩ := ih hinside hleft h
              refine ⟨type ++ body ++ block, (extId, value) :: pairs, ?_,
                .cons htype hvalue hpairs, ?_, hnext⟩
              · rw [hrest, hblock, List.append_assoc (type ++ body)]
              · simp only [List.length_append]
                omega

/-- The loop comes short, with the whole block there, in a pair that dangles. -/
theorem pullKvps_underflow (hlocal : code.Local) {mode : KvpMode} {extsEnd : Nat}
    (hmode : mode.withLength = true) {fuel prev pos : Nat} {kvps : KeyValuePairs} {cur : Cursor}
    (hfull : extsEnd ≤ cur.pos + cur.rest.length)
    (h : pullKvps code mode extsEnd fuel prev kvps cur = .error (.underflow pos)) :
    ∃ done cut after pairs, cur.rest = done ++ cut ++ after ∧ cut ≠ [] ∧
      cur.pos + (done ++ cut).length = extsEnd ∧ SpellsPairs code mode.delta prev done pairs ∧
      Dangles code mode.delta (lastType prev pairs) (cut ++ after) := by
  induction fuel generalizing prev kvps cur with
  | zero => cases h
  | succ fuel ih =>
      by_cases hend : extsEnd ≤ cur.pos
      · rw [pullKvps_end _ _ _ hend] at h
        cases h
      · have hopen : cur.pos < extsEnd := Nat.lt_of_not_le hend
        cases hpair : pullKvp code mode extsEnd prev cur with
        | error e =>
            rw [pullKvps_failed fuel kvps hmode hopen hpair] at h
            cases h
            have hdangles := (pullKvp_underflow hlocal hmode hfull).mp ⟨pos, hpair⟩
            have hlength : (cur.rest.take (extsEnd - cur.pos)).length = extsEnd - cur.pos := by
              rw [List.length_take]
              omega
            refine ⟨[], cur.rest.take (extsEnd - cur.pos), cur.rest.drop (extsEnd - cur.pos), [],
              ?_, ?_, ?_, .nil, ?_⟩
            · rw [List.nil_append, List.take_append_drop]
            · intro hnil
              rw [hnil, List.length_nil] at hlength
              omega
            · rw [List.nil_append, hlength]
              omega
            · rwa [List.take_append_drop]
        | ok result =>
            obtain ⟨⟨extId, value⟩, mid⟩ := result
            rcases Nat.lt_or_ge extsEnd mid.pos with hpast | hinside
            · obtain ⟨reason, hover⟩ := pullKvps_overrun fuel kvps hopen hpair hpast
              rw [hover] at h
              cases h
            · rw [pullKvps_pair fuel kvps hopen hpair hinside] at h
              obtain ⟨type, body, hrest, htype, hvalue, hpos⟩ := pullKvp_spells hlocal hpair
              have hlength := congrArg List.length hrest
              rw [List.length_append] at hlength
              have hfull' : extsEnd ≤ mid.pos + mid.rest.length := by omega
              obtain ⟨done, cut, after, pairs, hmid, hcut, hclosed, hpairs, hdangles⟩ := ih hfull' h
              refine ⟨type ++ body ++ done, cut, after, (extId, value) :: pairs, ?_, hcut, ?_,
                .cons htype hvalue hpairs, ?_⟩
              · rw [hrest, hmid]
                simp only [List.append_assoc]
              · simp only [List.length_append] at hpos hclosed ⊢
                omega
              · rwa [lastType_cons]

/-! ## A block behind its length -/

/-- The decoder takes a length and a block of pairs, and yields what they are read as. -/
theorem extensionsDecode_reads {delta : Bool} {cur last : Cursor} {pairs : List (Nat × KvpValue)}
    (h : SpellsBlock code delta cur pairs last) :
    extensionsDecode code delta cur = .ok ((collect pairs).orNone, last) := by
  obtain ⟨len, block, hrest, hlen, hmax, hpairs, hlast⟩ := h.spelled
  have hcur : cur = ⟨cur.pos, len ++ (block ++ last.rest)⟩ := by
    rw [← List.append_assoc, ← hrest]
  have hread : pullVint code cur = .ok (block.length, ⟨cur.pos + len.length, block ++ last.rest⟩) := by
    rw [hcur]
    exact spells_reads hlen cur.pos (block ++ last.rest)
  have hend : last = ⟨cur.pos + len.length + block.length, last.rest⟩ := by
    rw [← hlast]
  unfold extensionsDecode
  simp only [Reader.tell, bind, StateT.bind, Except.bind, hread]
  rw [if_neg (by omega)]
  by_cases hzero : block.length = 0
  · have hnil : pairs = [] := hpairs.eq_nil hzero
    have hempty : block = [] := List.length_eq_zero_iff.mp hzero
    rw [if_pos hzero, hend, hnil, hempty]
    rfl
  · rw [if_neg hzero]
    have hpairs' : SpellsPairs code ({ delta } : KvpMode).delta 0 block pairs := hpairs
    obtain ⟨left, -, hloop⟩ := pullKvps_over (cur.pos + len.length + block.length) hpairs'
      block.length (cur.pos + len.length) ⟨.empty, []⟩ last.rest (by omega) (by omega)
    have hdone := hloop.trans (pullKvps_end left _ _ (Nat.le_refl _))
    simp only [StateT.bind, Reader.tell, Except.bind, bind, hdone]
    rw [hend]
    rfl

theorem extensionsDecode_spells (hlocal : code.Local) {delta : Bool} {cur last : Cursor}
    {result : Option KeyValuePairs} (h : extensionsDecode code delta cur = .ok (result, last)) :
    ∃ pairs, SpellsBlock code delta cur pairs last := by
  unfold extensionsDecode at h
  obtain ⟨pos, same, htell, h⟩ := Reader.bind_eq_ok.mp h
  cases htell
  obtain ⟨extsLen, behind, hlen, h⟩ := Reader.bind_eq_ok.mp h
  obtain ⟨len, hrest, hspells, hpos⟩ := pullVint_spells hlocal hlen
  split_ifs at h with hlimit hzero
  · cases h
  · obtain ⟨-, rfl⟩ := Reader.pure_eq_ok.mp h
    refine ⟨[], ⟨len, [], ?_, ?_, Nat.zero_le _, .nil, hpos⟩⟩
    · rw [List.append_nil]
      exact hrest
    · rwa [hzero] at hspells
  · obtain ⟨start, same, htell, h⟩ := Reader.bind_eq_ok.mp h
    cases htell
    obtain ⟨kvps, mid, hkvps, hpure⟩ := Reader.bind_eq_ok.mp h
    obtain ⟨-, rfl⟩ := Reader.pure_eq_ok.mp hpure
    have hfuel : behind.pos + extsLen - behind.pos ≤ extsLen := by omega
    obtain ⟨block, pairs, hblock, hpairs, hclosed, hmid⟩ :=
      pullKvps_spells hlocal rfl (by omega) hfuel hkvps
    have hlength : block.length = extsLen := by omega
    refine ⟨pairs, ⟨len, block, ?_, ?_, by omega, hpairs, by omega⟩⟩
    · rw [hrest, hblock, List.append_assoc]
    · rw [hlength]
      exact hspells

/-- The decoder comes short in front of a block that is cut, or that runs out. -/
theorem extensionsDecode_underflow (hlocal : code.Local) {delta : Bool} {cur : Cursor} {pos : Nat}
    (h : extensionsDecode code delta cur = .error (.underflow pos)) :
    EndsInBlock code cur ∨ RunsOut code delta cur := by
  unfold extensionsDecode at h
  rcases Reader.bind_eq_error.mp h with htell | ⟨pos, same, htell, h⟩
  · cases htell
  · cases htell
    rcases Reader.bind_eq_error.mp h with hlen | ⟨extsLen, behind, hlen, h⟩
    · exact Or.inl (Or.inl (Reader.int_eq_error.mp hlen).1)
    · obtain ⟨len, hrest, hspells, hpos⟩ := pullVint_spells hlocal hlen
      split_ifs at h with hlimit hzero
      · cases h
      · cases h
      · rcases Reader.bind_eq_error.mp h with htell | ⟨start, same, htell, h⟩
        · cases htell
        · cases htell
          rcases Reader.bind_eq_error.mp h with hkvps | ⟨kvps, mid, -, hpure⟩
          · rcases Nat.lt_or_ge behind.rest.length extsLen with hshort | hfull
            · exact Or.inl (Or.inr ⟨len, extsLen, behind.rest, hrest, hspells, hshort⟩)
            · right
              have hfull' : behind.pos + extsLen ≤ behind.pos + behind.rest.length := by omega
              obtain ⟨done, cut, after, pairs, hblock, hcut, hclosed, hpairs, hdangles⟩ :=
                pullKvps_underflow hlocal rfl hfull' hkvps
              have hlength : (done ++ cut).length = extsLen := by omega
              refine ⟨len, done, cut, after, pairs, ?_, hcut, ?_, by omega, hpairs, hdangles⟩
              · rw [hrest, hblock]
                simp only [List.append_assoc]
              · rw [hlength]
                exact hspells
          · cases hpure

/-- A block that runs out makes the decoder come short, though all of it is there. -/
theorem extensionsDecode_runsOut (hlocal : code.Local) {delta : Bool} {cur : Cursor}
    (h : RunsOut code delta cur) :
    (∃ pos, extensionsDecode code delta cur = .error (.underflow pos)) ∧ ¬ EndsInBlock code cur := by
  obtain ⟨len, done, cut, after, pairs, hrest, hcut, hlen, hmax, hpairs, hdangles⟩ := h
  set block := done ++ cut with hblock
  have hcutPos : 0 < cut.length := List.length_pos_iff.mpr hcut
  have hlength : block.length = done.length + cut.length := List.length_append
  have hcur : cur = ⟨cur.pos, len ++ (block ++ after)⟩ := by
    rw [← List.append_assoc, ← hrest]
  have hread : pullVint code cur = .ok (block.length, ⟨cur.pos + len.length, block ++ after⟩) := by
    rw [hcur]
    exact spells_reads hlen cur.pos (block ++ after)
  constructor
  · have hpairs' : SpellsPairs code ({ delta } : KvpMode).delta 0 done pairs := hpairs
    obtain ⟨left, hleft, hloop⟩ := pullKvps_over (cur.pos + len.length + block.length) hpairs'
      block.length (cur.pos + len.length) ⟨.empty, []⟩ (cut ++ after) (by omega) (by omega)
    have hfull : cur.pos + len.length + block.length ≤
        cur.pos + len.length + done.length + (cut ++ after).length := by
      have hsum : (cut ++ after).length = cut.length + after.length := List.length_append
      omega
    obtain ⟨pos, hpair⟩ : ∃ pos, pullKvp code { delta } (cur.pos + len.length + block.length)
        (lastType 0 pairs) ⟨cur.pos + len.length + done.length, cut ++ after⟩ =
          .error (.underflow pos) :=
      (pullKvp_underflow hlocal rfl hfull).mpr hdangles
    obtain ⟨left, rfl⟩ : ∃ k, left = k + 1 := ⟨left - 1, by omega⟩
    have hopen : cur.pos + len.length + done.length < cur.pos + len.length + block.length := by omega
    rw [pullKvps_failed left _ rfl hopen hpair, ← List.append_assoc, ← hblock] at hloop
    refine ⟨pos, ?_⟩
    unfold extensionsDecode
    simp only [Reader.tell, bind, StateT.bind, Except.bind, hread]
    rw [if_neg (by omega), if_neg (by omega)]
    simp only [StateT.bind, Reader.tell, Except.bind, bind, hloop]
  · rintro (hnone | ⟨len', n, rest, hrest', hlen', hshort⟩)
    · rw [hrest, List.append_assoc, hlen.dec_append] at hnone
      cases hnone
    · have hone := hlen.dec_append (block ++ after)
      have hother := hlen'.dec_append rest
      rw [← hrest', hrest, List.append_assoc, hone, Option.some.injEq, Prod.mk.injEq] at hother
      rw [← hother.1, ← hother.2, List.length_append] at hshort
      omega

/-! ## The grammar -/

/-- The result maps each type to its last value, and names those that stand more than once; it is
nothing without a pair. -/
def Represents (pairs : List (Nat × KvpValue)) : Option KeyValuePairs → Prop
  | none => pairs = []
  | some kvps =>
      pairs ≠ [] ∧ (∀ extId, kvps.dict.get? extId = lastValue pairs extId) ∧
        ∀ extId, extId ∈ kvps.duplicates ↔ 1 < (pairs.map Prod.fst).count extId

theorem collect_represents (pairs : List (Nat × KvpValue)) :
    Represents pairs (collect pairs).orNone := by
  unfold KeyValuePairs.orNone
  split_ifs with hnil
  · exact (collect_entries_nil pairs).mp hnil
  · exact ⟨fun h => hnil ((collect_entries_nil pairs).mpr h), collect_get? pairs,
      collect_mem_duplicates pairs⟩

/-- The decoder parses exactly the grammar: it returns in front of a block, and then behind it
and with what it says; otherwise it raises, an underflow only where the bytes end in the block. -/
structure ParsesGrammar (code : PrefixCode) (delta : Bool) (cur : Cursor) : Prop where
  returns : (∃ result last, extensionsDecode code delta cur = .ok (result, last)) ↔
    ∃ pairs last, SpellsBlock code delta cur pairs last
  result : ∀ result last, extensionsDecode code delta cur = .ok (result, last) →
    ∀ pairs last', SpellsBlock code delta cur pairs last' → last = last' ∧ Represents pairs result
  underflow : ∀ pos, extensionsDecode code delta cur = .error (.underflow pos) →
    EndsInBlock code cur

/-- Key-Value-Pair blocks parse exactly their grammar, unless a block that is all there ends inside
a pair of which an integer runs to the end of the bytes: that counts as bytes to come. -/
theorem parsesGrammar_iff (prof : DraftProfile) (delta : Bool) (cur : Cursor) :
    ParsesGrammar prof.vint delta cur ↔ ¬ RunsOut prof.vint delta cur := by
  constructor
  · intro hparses hruns
    obtain ⟨⟨pos, hunderflow⟩, hnot⟩ := extensionsDecode_runsOut prof.vint_local hruns
    exact hnot (hparses.underflow pos hunderflow)
  · intro hruns
    constructor
    · constructor
      · rintro ⟨result, last, hok⟩
        obtain ⟨pairs, hpairs⟩ := extensionsDecode_spells prof.vint_local hok
        exact ⟨pairs, last, hpairs⟩
      · rintro ⟨pairs, last, hblock⟩
        exact ⟨_, last, extensionsDecode_reads hblock⟩
    · intro result last hok pairs last' hblock
      rw [extensionsDecode_reads hblock] at hok
      cases hok
      exact ⟨rfl, collect_represents pairs⟩
    · intro pos hunderflow
      exact (extensionsDecode_underflow prof.vint_local hunderflow).resolve_right hruns

/-- A block of one byte that begins an integer of two. -/
theorem block_runs_out :
    ¬ ∀ (prof : DraftProfile) (delta : Bool) (cur : Cursor), ParsesGrammar prof.vint delta cur := by
  intro h
  have hparses := h (profileFor .d14) false ⟨0, [0x01, 0x40]⟩
  rcases hparses.underflow 1 rfl with hnone | ⟨len, n, rest, hrest, hlen, hshort⟩
  · cases hnone
  · have hdec := hlen.dec_append rest
    rw [← hrest] at hdec
    cases hdec
    exact absurd hshort (by decide)

end Read

end AioMoqt.Messages
