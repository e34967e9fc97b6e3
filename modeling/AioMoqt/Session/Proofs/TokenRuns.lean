import AioMoqt.Session.TokenRuns
import AioMoqt.Session.Proofs.AuthToken

/-!
# Token cache accounting

The cache of a run holds what its messages registered and did not delete, and its size is the
sum of what it holds.
-/

namespace AioMoqt.Session

open AioMoqt.Lib AioMoqt.Lib.Raising AioMoqt.Messages

/-! ## One message -/

/-- How resolving ends over the cache: what raises does so before it writes. -/
def ended (s : AuthSession) : Except MoqtError Resolved → Except MoqtError Resolution × TokenCache
  | .ok r => (.ok ⟨r.msg, r.validated, r.refusal⟩, r.cache)
  | .error e => (.error e, s.cache)

theorem registerStatements_outcome (s : AuthSession) (msg : ControlMessage) (ref : AuthTokenRef) :
    outcome (registerStatements msg ref) s.cache = match registerToken s msg ref with
      | .ok r => (.ok r.msg, r.cache)
      | .error e => (.error e, s.cache) := by
  unfold registerStatements registerToken
  rw [outcome_get_bind]
  by_cases hknown : ref.tokenAlias ∈ s.cache.tokens.keys
  · simp only [hknown, if_true, outcome_throw]
  · by_cases hfits : s.cache.used + tokenSize (registered ref) ≤ s.cache.max
    · simp only [hknown, hfits, if_true, if_false, outcome_modify_bind, outcome_pure]
    · cases hsetup : inSetup msg
      · simp only [hknown, hfits, if_false, Bool.false_eq_true, outcome_throw]
      · simp only [hknown, hfits, if_true, if_false, outcome_pure]

theorem validate_cache (s : AuthSession) (r : Resolved) : (validate s r).cache = r.cache := by
  unfold validate
  split <;> rfl

/-- The validator sees the message, whatever cache stands beside it. -/
theorem validateStatements_eq (s : AuthSession) (r : Resolved) :
    validateStatements s ⟨r.msg, r.validated, r.refusal⟩ =
      ⟨(validate s r).msg, (validate s r).validated, (validate s r).refusal⟩ := by
  unfold validateStatements validate
  cases refusable s r.msg <;> cases s.validator <;> cases tokenParam r.msg <;> rfl

/-- A registration neither validates nor refuses. -/
theorem registerToken_plain {s : AuthSession} {msg : ControlMessage} {ref : AuthTokenRef}
    {r : Resolved} (h : registerToken s msg ref = .ok r) :
    r.validated = none ∧ r.refusal = none := by
  unfold registerToken at h
  dsimp only at h
  split at h
  · cases h
  · split at h
    · cases h
      exact ⟨rfl, rfl⟩
    · split at h
      · cases h
        exact ⟨rfl, rfl⟩
      · cases h

theorem refStatements_outcome (s : AuthSession) (msg : ControlMessage) (ref : AuthTokenRef) :
    outcome (refStatements s msg ref) s.cache = match applyRef s msg ref with
      | .ok (r, go) => (.ok (⟨r.msg, r.validated, r.refusal⟩, go), r.cache)
      | .error e => (.error e, s.cache) := by
  unfold refStatements applyRef
  by_cases hregister : ref.aliasType = .register
  · rw [if_pos hregister, if_pos hregister, outcome_bind, registerStatements_outcome]
    cases hr : registerToken s msg ref with
    | error e => rfl
    | ok r =>
        obtain ⟨hvalidated, hrefusal⟩ := registerToken_plain hr
        simp only [bind, Except.bind, pure, Except.pure, hvalidated, hrefusal]
        rfl
  · rw [if_neg hregister, if_neg hregister]
    cases hsetup : inSetup msg with
    | true => cases hclient : s.isClient <;> rfl
    | false =>
        simp only [Bool.false_eq_true, if_false]
        rw [outcome_get_bind]
        cases hknown : s.cache.tokens.get? ref.tokenAlias with
        | none => rfl
        | some known =>
            unfold applyKnown
            by_cases hdelete : ref.aliasType = .delete
            · simp only [hdelete, if_true, outcome_modify_bind, outcome_pure]
            · simp only [hdelete, if_false, outcome_pure]

theorem ended_validate (s : AuthSession) (r : Resolved) :
    ended s (.ok (validate s r)) =
      (.ok (validateStatements s ⟨r.msg, r.validated, r.refusal⟩), r.cache) := by
  rw [ended, validateStatements_eq, validate_cache]

/-- **The statements are the resolver**, and a message that raises leaves the cache as it was. -/
theorem resolveStatements_outcome (s : AuthSession) (msg : ControlMessage) :
    outcome (resolveStatements s msg) s.cache = ended s (resolveAuthToken s msg) := by
  have hplain := ended_validate s { cache := s.cache, msg }
  unfold resolveStatements resolveAuthToken
  cases hparam : tokenParam msg with
  | absent => exact hplain.symm
  | bytes token => exact hplain.symm
  | other => exact hplain.symm
  | ref ref =>
      simp only
      rw [outcome_bind, refStatements_outcome]
      cases happly : applyRef s msg ref with
      | error e => rfl
      | ok applied =>
          obtain ⟨r, go⟩ := applied
          cases go with
          | false => rfl
          | true => exact (ended_validate s r).symm

/-! ## What a message does to the cache -/

/-- The cache after a message. -/
inductive CacheStep (s : AuthSession) (msg : ControlMessage) : TokenCache → Prop where
  | same (hregister : ∀ tokenAlias token, ¬ Registers (s, msg) tokenAlias token)
      (hdelete : ∀ tokenAlias, Deletes (s, msg) tokenAlias →
        s.cache.tokens.get? tokenAlias = none) : CacheStep s msg s.cache
  | register {tokenAlias : Nat} {token : AuthToken} (h : Registers (s, msg) tokenAlias token)
      (hnew : s.cache.tokens.get? tokenAlias = none) :
      CacheStep s msg { s.cache with
        tokens := s.cache.tokens.insert tokenAlias token
        used := s.cache.used + tokenSize token }
  | delete {tokenAlias : Nat} {known : AuthToken} (h : Deletes (s, msg) tokenAlias)
      (hknown : s.cache.tokens.get? tokenAlias = some known) :
      CacheStep s msg { s.cache with
        tokens := s.cache.tokens.erase tokenAlias
        used := s.cache.used - tokenSize known }

/-- Without a reference, or with another operation than one of the two, nothing happens. -/
theorem CacheStep.of_param {s : AuthSession} {msg : ControlMessage}
    (hregister : ∀ ref, tokenParam msg = .ref ref → ref.aliasType = .register →
      ¬ s.cache.used + tokenSize (registered ref) ≤ s.cache.max)
    (hdelete : ∀ ref, tokenParam msg = .ref ref → ref.aliasType = .delete → inSetup msg = false →
      s.cache.tokens.get? ref.tokenAlias = none) : CacheStep s msg s.cache := by
  refine .same ?_ ?_
  · rintro tokenAlias token ⟨ref, hparam, htype, -, rfl, hfits⟩
    exact hregister ref hparam htype hfits
  · rintro tokenAlias ⟨ref, hparam, htype, rfl, hsetup⟩
    exact hdelete ref hparam htype hsetup

theorem registerToken_step {s : AuthSession} {msg : ControlMessage} {ref : AuthTokenRef}
    {r : Resolved} (hparam : tokenParam msg = .ref ref) (htype : ref.aliasType = .register)
    (h : registerToken s msg ref = .ok r) : CacheStep s msg r.cache := by
  have hsame : ∀ ref', tokenParam msg = .ref ref' → ref' = ref := fun ref' h' =>
    TokenParam.ref.inj (h'.symm.trans hparam)
  unfold registerToken at h
  dsimp only at h
  split at h
  · cases h
  · rename_i hnew
    split at h
    · rename_i hfits
      cases h
      have hnone : s.cache.tokens.get? ref.tokenAlias = none := Dict.get?_eq_none hnew
      exact .register ⟨ref, hparam, htype, rfl, rfl, hfits⟩ hnone
    · rename_i hfull
      split at h
      · cases h
        refine .of_param (fun ref' h' _ => ?_) (fun ref' h' htype' => ?_)
        · rw [hsame ref' h']
          exact hfull
        · rw [hsame ref' h', htype] at htype'
          cases htype'
      · cases h

theorem applyRef_step {s : AuthSession} {msg : ControlMessage} {ref : AuthTokenRef}
    {r : Resolved × Bool} (hparam : tokenParam msg = .ref ref) (h : applyRef s msg ref = .ok r) :
    CacheStep s msg r.1.cache := by
  have hsame : ∀ ref', tokenParam msg = .ref ref' → ref' = ref := fun ref' h' =>
    TokenParam.ref.inj (h'.symm.trans hparam)
  unfold applyRef at h
  split at h
  · rename_i htype
    obtain ⟨r', hr, h⟩ := Reader.except_bind_eq_ok.mp h
    cases h
    exact registerToken_step hparam htype hr
  · rename_i htype
    have hother : ∀ ref', tokenParam msg = .ref ref' → ref'.aliasType = .register →
        ¬ s.cache.used + tokenSize (registered ref') ≤ s.cache.max := fun ref' h' htype' =>
      absurd (hsame ref' h' ▸ htype') htype
    split at h
    · rename_i hsetup
      split at h
      · cases h
      · cases h
        exact .of_param hother fun ref' _ _ hout => by simp [hsetup] at hout
    · rename_i hsetup
      split at h
      · rename_i hnone
        cases h
        exact .of_param hother fun ref' h' _ _ => hsame ref' h' ▸ hnone
      · rename_i known hknown
        cases h
        unfold applyKnown
        split
        · rename_i hdelete
          exact .delete ⟨ref, hparam, hdelete, rfl, by simpa using hsetup⟩ hknown
        · rename_i hdelete
          exact .of_param hother fun ref' h' htype' => absurd (hsame ref' h' ▸ htype') hdelete

/-- **One message** registers a new alias that fits, deletes a known one, or leaves the cache. -/
theorem resolve_step {s : AuthSession} {msg : ControlMessage} {r : Resolved}
    (h : resolveAuthToken s msg = .ok r) : CacheStep s msg r.cache := by
  unfold resolveAuthToken at h
  split at h
  · rename_i ref hparam
    obtain ⟨applied, happly, h⟩ := Reader.except_bind_eq_ok.mp h
    have hstep := applyRef_step hparam happly
    cases h
    split
    · rwa [validate_cache]
    · exact hstep
  · rename_i hparam
    cases h
    rw [validate_cache]
    exact .of_param (fun ref h' => absurd h' (hparam ref)) fun ref h' => absurd h' (hparam ref)

/-! ## Runs -/

/-- A message behind the log: the latest registration of an alias is the message's own, or the one
of the log if the message does not delete it. -/
theorem latest_append {log : List Received} {e : Received} {tokenAlias : Nat} {token : AuthToken} :
    Latest (log ++ [e]) tokenAlias token ↔
      Registers e tokenAlias token ∨
        Latest log tokenAlias token ∧ (∀ token', ¬ Registers e tokenAlias token') ∧
          ¬ Deletes e tokenAlias := by
  constructor
  · rintro ⟨before, first, behind, hlog, hregister, hbehind⟩
    rcases List.eq_nil_or_concat behind with rfl | ⟨behind, last, rfl⟩
    · obtain ⟨rfl, hlast⟩ := List.append_inj' hlog rfl
      obtain rfl := List.singleton_inj.mp hlast
      exact .inl hregister
    · rw [List.concat_eq_append, ← List.cons_append, ← List.append_assoc] at hlog
      obtain ⟨rfl, hlast⟩ := List.append_inj' hlog rfl
      obtain rfl := List.singleton_inj.mp hlast
      refine .inr ⟨⟨before, first, behind, rfl, hregister, fun later hl => hbehind later ?_⟩,
        hbehind e ?_⟩
      · simp [hl]
      · simp
  · rintro (hregister | ⟨⟨before, first, behind, rfl, hregister, hbehind⟩, hkept⟩)
    · exact ⟨log, e, [], rfl, hregister, by simp⟩
    · refine ⟨before, first, behind ++ [e], by simp, hregister, fun later hl => ?_⟩
      rcases List.mem_append.mp hl with hl | hl
      · exact hbehind later hl
      · rwa [List.mem_singleton.mp hl]

/-- The accounts of a cache against what was received. -/
structure Accounted (limit : Option Nat) (log : List Received) (cache : TokenCache) : Prop where
  used : cache.used = cache.tokens.total fun token => 16 + token.value.length
  fits : cache.used ≤ cache.max
  max : cache.max = limit.getD 0
  latest : ∀ tokenAlias token, cache.tokens.get? tokenAlias = some token ↔
    Latest log tokenAlias token

theorem Accounted.start : Accounted none [] { tokens := .empty } where
  used := rfl
  fits := le_rfl
  max := rfl
  latest := by simp [Latest]

/-- Without a SETUP of its own nothing fits, and with one there is what it said. -/
theorem Accounted.sentSetup {log : List Received} {cache : TokenCache}
    (h : Accounted none log cache) (max : Nat) :
    Accounted (some max) log { cache with max := max } where
  __ := h
  fits := by
    have hzero : cache.used ≤ 0 := h.fits.trans (le_of_eq h.max)
    exact hzero.trans (Int.natCast_nonneg max)
  max := rfl

theorem registers_unique {e : Received} {tokenAlias tokenAlias' : Nat} {token token' : AuthToken}
    (h : Registers e tokenAlias token) (h' : Registers e tokenAlias' token') :
    tokenAlias' = tokenAlias ∧ token' = token := by
  obtain ⟨ref, hparam, -, rfl, rfl, -⟩ := h
  obtain ⟨ref', hparam', -, rfl, rfl, -⟩ := h'
  obtain rfl := TokenParam.ref.inj (hparam'.symm.trans hparam)
  exact ⟨rfl, rfl⟩

theorem deletes_unique {e : Received} {tokenAlias tokenAlias' : Nat} (h : Deletes e tokenAlias)
    (h' : Deletes e tokenAlias') : tokenAlias' = tokenAlias := by
  obtain ⟨ref, hparam, -, rfl, -⟩ := h
  obtain ⟨ref', hparam', -, rfl, -⟩ := h'
  obtain rfl := TokenParam.ref.inj (hparam'.symm.trans hparam)
  rfl

theorem not_registers_of_deletes {e : Received} {tokenAlias tokenAlias' : Nat} {token : AuthToken}
    (h : Deletes e tokenAlias) : ¬ Registers e tokenAlias' token := by
  obtain ⟨ref, hparam, hdelete, -, -⟩ := h
  rintro ⟨ref', hparam', hregister, -⟩
  obtain rfl := TokenParam.ref.inj (hparam'.symm.trans hparam)
  rw [hdelete] at hregister
  cases hregister

/-- **One message keeps the accounts.** -/
theorem Accounted.step {limit : Option Nat} {log : List Received} {s : AuthSession}
    {msg : ControlMessage} {cache : TokenCache} (h : Accounted limit log s.cache)
    (hstep : CacheStep s msg cache) : Accounted limit (log ++ [(s, msg)]) cache := by
  cases hstep with
  | same hregister hdelete =>
      refine ⟨h.used, h.fits, h.max, fun tokenAlias token => ?_⟩
      rw [latest_append, ← h.latest]
      constructor
      · intro hget
        refine .inr ⟨hget, hregister tokenAlias, fun hdel => ?_⟩
        rw [hdelete tokenAlias hdel] at hget
        cases hget
      · rintro (hreg | ⟨hget, -⟩)
        · exact absurd hreg (hregister tokenAlias token)
        · exact hget
  | @register tokenAlias token hreg hnew =>
      have hsize : s.cache.used + tokenSize token ≤ s.cache.max := by
        obtain ⟨ref, -, -, -, -, hfits⟩ := hreg
        exact hfits
      refine ⟨?_, hsize, h.max, fun tokenAlias' token' => ?_⟩
      · rw [Dict.total_insert_new hnew, h.used]
        simp only [tokenSize]
        push_cast
        ring
      · rw [latest_append, ← h.latest, Dict.get?_insert]
        split
        · rename_i heq
          subst heq
          rw [hnew]
          constructor
          · intro htoken
            cases htoken
            exact .inl hreg
          · rintro (hreg' | ⟨hget, -⟩)
            · exact congrArg some (registers_unique hreg hreg').2.symm
            · cases hget
        · rename_i hne
          have hother : ∀ token'', ¬ Registers (s, msg) tokenAlias' token'' := fun token'' hreg' =>
            hne (registers_unique hreg hreg').1
          constructor
          · intro hget
            exact .inr ⟨hget, hother, fun hdel => not_registers_of_deletes hdel hreg⟩
          · rintro (hreg' | ⟨hget, -⟩)
            · exact absurd hreg' (hother token')
            · exact hget
  | @delete tokenAlias known hdel hknown =>
      have htotal := Dict.total_erase_some hknown fun token => 16 + token.value.length
      have hused : s.cache.used - tokenSize known =
          ((s.cache.tokens.erase tokenAlias).total fun token => 16 + token.value.length : Nat) := by
        rw [h.used, ← htotal]
        simp only [tokenSize]
        push_cast
        ring
      refine ⟨hused, ?_, h.max, fun tokenAlias' token' => ?_⟩
      · have hpos : 0 ≤ tokenSize known := by
          unfold tokenSize
          omega
        have hfits := h.fits
        show s.cache.used - tokenSize known ≤ s.cache.max
        omega
      · rw [latest_append, ← h.latest, Dict.get?_erase]
        split
        · rename_i heq
          subst heq
          constructor
          · intro hnone
            cases hnone
          · rintro (hreg | ⟨-, -, hkept⟩)
            · exact absurd hreg (not_registers_of_deletes hdel)
            · exact absurd hdel hkept
        · rename_i hne
          constructor
          · intro hget
            exact .inr ⟨hget, fun token'' => not_registers_of_deletes hdel,
              fun hdel' => hne (deletes_unique hdel hdel')⟩
          · rintro (hreg | ⟨hget, -⟩)
            · exact absurd hreg (not_registers_of_deletes hdel)
            · exact hget

/-- **Every run keeps the accounts.** -/
theorem TokenRun.accounted {prof : DraftProfile} {isClient : Bool} {limit : Option Nat}
    {log : List Received} {s : AuthSession} (h : TokenRun prof isClient limit log s) :
    Accounted limit log s.cache := by
  induction h with
  | start validator => exact .start
  | sentSetup h max ih => exact ih.sentSetup max
  | setValidator h validator ih => exact ih
  | @message limit log s h msg r cache hresolve ih =>
      rw [resolveStatements_outcome] at hresolve
      cases hr : resolveAuthToken s msg with
      | error e => simp [hr, ended] at hresolve
      | ok resolved =>
          obtain ⟨-, rfl⟩ : _ ∧ resolved.cache = cache := by simpa [hr, ended] using hresolve
          exact ih.step (resolve_step hr)

/-! ## What a run may count on -/

/-- **The token cache of a run**: its size is what its tokens weigh and stays within what was
advertised; a live alias cannot be registered again; an alias stands for its latest registration
that was kept; and a message that raises or names an unknown alias leaves the cache as it was. -/
theorem token_cache_runs {prof : DraftProfile} {isClient : Bool} {limit : Option Nat}
    {log : List Received} {s : AuthSession} (h : TokenRun prof isClient limit log s) :
    s.cache.used = (s.cache.tokens.total fun token => 16 + token.value.length : Nat) ∧
    (∀ max ∈ limit, s.cache.used ≤ max) ∧
    (∀ msg ref, tokenParam msg = .ref ref → ref.aliasType = .register →
      ref.tokenAlias ∈ s.cache.tokens.keys → ∃ reason,
        (resolveStatements s msg).outcome s.cache =
          (.error (.exception .duplicateAuthTokenAlias reason), s.cache)) ∧
    (∀ msg ref token, tokenParam msg = .ref ref → ref.aliasType = .useAlias →
      inSetup msg = false → Latest log ref.tokenAlias token → ∃ r,
        (resolveStatements s msg).outcome s.cache = (.ok r, s.cache) ∧
          tokenParam r.msg = .bytes token) ∧
    (∀ msg e cache, (resolveStatements s msg).outcome s.cache = (.error e, cache) →
      cache = s.cache) ∧
    (∀ msg ref, tokenParam msg = .ref ref → ref.aliasType ≠ .register → inSetup msg = false →
      (∀ token, ¬ Latest log ref.tokenAlias token) →
        (resolveStatements s msg).outcome s.cache =
          (.ok ⟨msg, none, (unknownAlias s msg ref).refusal⟩, s.cache)) := by
  have haccounts := h.accounted
  refine ⟨haccounts.used, ?_, ?_, ?_, ?_, ?_⟩
  · intro max hmax
    have hfits := haccounts.fits
    rwa [haccounts.max, Option.mem_def.mp hmax] at hfits
  · intro msg ref hparam htype hlive
    obtain ⟨reason, hraise⟩ : ∃ reason, registerToken s msg ref =
        .error (.exception .duplicateAuthTokenAlias reason) := ⟨_, if_pos hlive⟩
    refine ⟨reason, ?_⟩
    rw [resolveStatements_outcome]
    simp [resolveAuthToken, hparam, applyRef, htype, hraise, bind, Except.bind, ended]
  · intro msg ref token hparam htype hsetup hlatest
    have hknown := (haccounts.latest _ _).mpr hlatest
    have hset := tokenParam_setToken hsetup (by simp [hparam]) (some token)
    have hresolve : resolveAuthToken s msg =
        .ok (validate s { cache := s.cache, msg := setToken (some token) msg }) := by
      simp [resolveAuthToken, hparam, applyRef, htype, hsetup, hknown, applyKnown, bind,
        Except.bind, pure, Except.pure]
    refine ⟨_, by rw [resolveStatements_outcome, hresolve, ended_validate], ?_⟩
    rw [validateStatements_eq, validate_msg]
    exact hset
  · intro msg e cache hraised
    rw [resolveStatements_outcome] at hraised
    cases hr : resolveAuthToken s msg with
    | error e' =>
        rw [hr] at hraised
        exact (Prod.mk.inj hraised).2.symm
    | ok r => simp [hr, ended] at hraised
  · intro msg ref hparam htype hsetup hnone
    have hunknown : s.cache.tokens.get? ref.tokenAlias = none := by
      rw [Option.eq_none_iff_forall_ne_some]
      exact fun token hget => hnone token ((haccounts.latest _ _).mp hget)
    rw [resolveStatements_outcome]
    simp [resolveAuthToken, hparam, applyRef, htype, hsetup, hunknown, bind, Except.bind, pure,
      Except.pure, ended, unknownAlias]

/-- A SUBSCRIBE of track `a`/`b` with a token operation. -/
def subscribeWith (ref : AuthTokenRef) : ControlMessage :=
  .subscribe
    { requestId := 0, trackNamespace := [[0x61]], trackName := [0x62]
      parameters := .ofEntries [(ParamType.authToken, .one (.plain (.tokenRef ref)))] }

/-- The token `tok` as alias 1. -/
def registerTok : AuthTokenRef := ⟨.register, 1, some 0, some [0x74, 0x6F, 0x6B]⟩

/-- A server that advertised 64 bytes before the first message. -/
def serverSession (max : Int) : AuthSession :=
  { cache := { tokens := .empty, max := max }, validator := none, prof := profileFor .d18 }

/-- A run of one SUBSCRIBE behind the SETUP. -/
theorem run_registerTok :
    TokenRun (profileFor .d18) false (some 64) [(serverSession 64, subscribeWith registerTok)]
      { serverSession 64 with cache :=
        { tokens := .ofEntries [(1, ⟨[0x74, 0x6F, 0x6B], 0⟩)], used := 19, max := 64 } } :=
  .message (.sentSetup (.start none) 64) (subscribeWith registerTok) rfl

theorem token_cache_runs_oneToken :
    ∃ r, (resolveStatements { serverSession 64 with cache :=
        { tokens := .ofEntries [(1, ⟨[0x74, 0x6F, 0x6B], 0⟩)], used := 19, max := 64 } }
        (subscribeWith ⟨.useAlias, 1, none, none⟩)).outcome
          { tokens := .ofEntries [(1, ⟨[0x74, 0x6F, 0x6B], 0⟩)], used := 19, max := 64 } =
        (.ok r, { tokens := .ofEntries [(1, ⟨[0x74, 0x6F, 0x6B], 0⟩)], used := 19, max := 64 }) ∧
      tokenParam r.msg = .bytes ⟨[0x74, 0x6F, 0x6B], 0⟩ :=
  (token_cache_runs run_registerTok).2.2.2.1 (subscribeWith ⟨.useAlias, 1, none, none⟩)
    ⟨.useAlias, 1, none, none⟩ _ rfl rfl rfl
    ⟨[], _, [], rfl, ⟨registerTok, rfl, rfl, rfl, rfl, by decide⟩, by simp⟩

/-- A SETUP with a token operation. -/
def setupWith (ref : AuthTokenRef) : ControlMessage :=
  .setup { options := .ofEntries [(ParamType.authToken, .tokenRef ref)] }

/-- The registration of a SETUP that comes before the server's own is a value only: the alias is
unknown to the request behind it. -/
theorem setup_registration_dropped :
    TokenRun (profileFor .d18) false (some 64) [(serverSession 0, setupWith registerTok)]
      (serverSession 64) ∧
    tokenParam (setupWith registerTok) = .ref registerTok ∧
    (resolveStatements (serverSession 64) (subscribeWith ⟨.useAlias, 1, none, none⟩)).outcome
      (serverSession 64).cache =
        (.ok ⟨subscribeWith ⟨.useAlias, 1, none, none⟩, none,
          some ⟨0, SessionCloseCode.unknownAuthTokenAlias.code, "token alias 1 not registered"⟩⟩,
          (serverSession 64).cache) :=
  ⟨.sentSetup (.message (.start none) (setupWith registerTok) rfl) 64, rfl, rfl⟩

end AioMoqt.Session
