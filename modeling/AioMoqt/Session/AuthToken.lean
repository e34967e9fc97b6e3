import AioMoqt.Messages.Control

/-!
# The token cache and the token validator

`_resolve_auth_token` of `protocol.py`: the token-cache operation of a peer's message
is applied, the resolved token put in its place, and the token of a request shown to
the application's validator.
-/

namespace AioMoqt.Session

open AioMoqt.Lib AioMoqt.Lib.BigEndian AioMoqt.Messages

/-- The peer's registered tokens, within the size that was advertised. -/
structure TokenCache where
  tokens : Dict Nat AuthToken
  used : Int := 0
  max : Int := 0

/-- What the session consults about tokens.  The validator answers with the code that
refuses the request, or nothing. -/
structure AuthSession where
  cache : TokenCache
  validator : Option (AuthToken → ControlMessage → Option Nat)
  isClient : Bool := false
  prof : DraftProfile

/-! ## The token of a message -/

/-- What `params.get(AUTH_TOKEN)` can be. -/
inductive TokenParam where
  | absent
  | ref (r : AuthTokenRef)
  | bytes (t : AuthToken)
  /-- Neither a reference nor bytes: the resolver does not look inside. -/
  | other
deriving Repr, DecidableEq

def TokenParam.ofPlain : PlainValue → TokenParam
  | .tokenRef r => .ref r
  | .token t => .bytes t
  | .bytes v => .bytes ⟨v, 0⟩
  | _ => .other

def TokenParam.ofSlot : Option (Slot ParamValue) → TokenParam
  | none => .absent
  | some (.one (.plain v)) => ofPlain v
  | some (.one (.fill _)) => .other
  | some (.many _) => .other

/-- `isinstance(msg, (Setup, ClientSetup, ServerSetup))`. -/
def inSetup : ControlMessage → Bool
  | .setup _ | .d20Setup _ | .clientSetup _ | .serverSetup _ => true
  | _ => false

/-- The token parameter of a message, or the token option of a SETUP. -/
def tokenParam : ControlMessage → TokenParam
  | .setup msg => ((msg.options.get? ParamType.authToken).map TokenParam.ofPlain).getD .absent
  | .d20Setup msg => ((msg.options.get? ParamType.authToken).map TokenParam.ofPlain).getD .absent
  | msg => TokenParam.ofSlot (msg.parameters.bind fun params => params.get? ParamType.authToken)

/-- A message with other parameters. -/
def mapParams (f : Params → Params) : ControlMessage → ControlMessage
  | .clientSetup msg => .clientSetup { msg with parameters := f msg.parameters }
  | .serverSetup msg => .serverSetup { msg with parameters := f msg.parameters }
  | .subscribe msg => .subscribe { msg with parameters := f msg.parameters }
  | .subscribeOk msg => .subscribeOk { msg with parameters := f msg.parameters }
  | .subscribeUpdate msg => .subscribeUpdate { msg with parameters := f msg.parameters }
  | .publish msg => .publish { msg with parameters := f msg.parameters }
  | .publishOk msg => .publishOk { msg with parameters := f msg.parameters }
  | .publishStateNotify msg => .publishStateNotify { msg with parameters := f msg.parameters }
  | .fetch msg => .fetch { msg with parameters := f msg.parameters }
  | .fetchOk msg => .fetchOk { msg with parameters := f msg.parameters }
  | .trackStatus msg => .trackStatus { msg with parameters := f msg.parameters }
  | .trackStatusOk msg => .trackStatusOk { msg with parameters := f msg.parameters }
  | .publishNamespace msg => .publishNamespace { msg with parameters := f msg.parameters }
  | .subscribeNamespace msg => .subscribeNamespace { msg with parameters := f msg.parameters }
  | .subscribeTracks msg => .subscribeTracks { msg with parameters := f msg.parameters }
  | .requestOk msg => .requestOk { msg with parameters := f msg.parameters }
  | .requestUpdate msg => .requestUpdate { msg with parameters := f msg.parameters }
  | msg => msg

/-- `params[key] = token`, or `del params[key]`. -/
def setToken (token : Option AuthToken) : ControlMessage → ControlMessage
  | .setup msg => .setup { options := match token with
      | some t => msg.options.insert ParamType.authToken (.token t)
      | none => msg.options.erase ParamType.authToken }
  | .d20Setup msg => .d20Setup { msg with options := match token with
      | some t => msg.options.insert ParamType.authToken (.token t)
      | none => msg.options.erase ParamType.authToken }
  | msg => mapParams (fun params => match token with
      | some t => params.insert ParamType.authToken (.one (.plain (.token t)))
      | none => params.erase ParamType.authToken) msg

/-! ## Resolution -/

/-- REQUEST_ERROR in answer to `requestId`. -/
structure Refusal where
  requestId : Nat
  code : Nat
  reason : String
deriving Repr, DecidableEq

/-- What resolving leaves behind: the cache, the message with its token in place, the
token that was shown to the validator, and the refusal if there is one. -/
structure Resolved where
  cache : TokenCache
  msg : ControlMessage
  validated : Option AuthToken := none
  refusal : Option Refusal := none

/-- A request that can be answered with REQUEST_ERROR. -/
def refusable (s : AuthSession) (msg : ControlMessage) : Option Nat :=
  if inSetup msg ∨ ¬ s.prof.draft16 then none else msg.requestId

/-- The cost of a token in the cache. -/
def tokenSize (token : AuthToken) : Int := 16 + token.value.length

/-- The token a REGISTER carries. -/
def registered (ref : AuthTokenRef) : AuthToken := ⟨ref.value.getD [], ref.tokenType.getD 0⟩

/-- A REGISTER: a SETUP registration that does not fit is used as a value. -/
def registerToken (s : AuthSession) (msg : ControlMessage) (ref : AuthTokenRef) :
    Except MoqtError Resolved :=
  let token := registered ref
  let size := tokenSize token
  let tokenAlias := ref.tokenAlias
  let max := s.cache.max
  if ref.tokenAlias ∈ s.cache.tokens.keys then
    .error (.exception .duplicateAuthTokenAlias
      s!"token alias {tokenAlias} is already registered")
  else if s.cache.used + size ≤ s.cache.max then
    .ok { cache := { s.cache with tokens := s.cache.tokens.insert ref.tokenAlias token
                                  used := s.cache.used + size }
          msg := setToken (some token) msg }
  else if inSetup msg then .ok { cache := s.cache, msg := setToken (some token) msg }
  else .error (.exception .authTokenCacheOverflow
    s!"token alias {tokenAlias} ({size} bytes) exceeds the cache ({max} bytes)")

/-- A DELETE or USE_ALIAS outside SETUP, of an alias that is registered. -/
def applyKnown (s : AuthSession) (msg : ControlMessage) (ref : AuthTokenRef) (known : AuthToken) :
    Resolved :=
  if ref.aliasType = .delete then
    { cache := { s.cache with tokens := s.cache.tokens.erase ref.tokenAlias
                              used := s.cache.used - tokenSize known }
      msg := setToken none msg }
  else { cache := s.cache, msg := setToken (some known) msg }

/-- A request naming an alias that is not registered is refused. -/
def unknownAlias (s : AuthSession) (msg : ControlMessage) (ref : AuthTokenRef) : Resolved :=
  let tokenAlias := ref.tokenAlias
  { cache := s.cache, msg
    refusal := (refusable s msg).map fun rid =>
      ⟨rid, SessionCloseCode.unknownAuthTokenAlias.code,
        s!"token alias {tokenAlias} not registered"⟩ }

/-- The cache operation of a reference; `none` where the source returns at once. -/
def applyRef (s : AuthSession) (msg : ControlMessage) (ref : AuthTokenRef) :
    Except MoqtError (Resolved × Bool) :=
  if ref.aliasType = .register then do
    let r ← registerToken s msg ref
    return (r, true)
  else if inSetup msg then
    if ¬ s.isClient then .error (.violation "DELETE or USE_ALIAS token in SETUP")
    else .ok ({ cache := s.cache, msg := setToken none msg }, true)
  else match s.cache.tokens.get? ref.tokenAlias with
    | none => .ok (unknownAlias s msg ref, false)
    | some known => .ok (applyKnown s msg ref known, true)

/-- The token in place is shown to the validator. -/
def validate (s : AuthSession) (r : Resolved) : Resolved :=
  match refusable s r.msg, s.validator, tokenParam r.msg with
  | some rid, some validator, .bytes token =>
      { r with
        validated := some token
        refusal := (validator token r.msg).map fun code =>
          ⟨rid, code, "authorization token refused"⟩ }
  | _, _, _ => r

/-- `_resolve_auth_token`. -/
def resolveAuthToken (s : AuthSession) (msg : ControlMessage) : Except MoqtError Resolved :=
  match tokenParam msg with
  | .ref ref => do
      let (r, go) ← applyRef s msg ref
      return if go then validate s r else r
  | _ => .ok (validate s { cache := s.cache, msg })

/-! ## Tokens on the wire -/

/-- The peer messages that open or change a request. -/
def requestClasses : List MessageClass :=
  [.subscribe, .publish, .fetch, .trackStatus, .publishNamespace, .subscribeNamespace,
    .subscribeTracks, .requestUpdate]

/-- What stands before the parameters of a request, from draft 16 on. -/
def pullRequestHead (prof : DraftProfile) : MessageClass → Reader MoqtError Unit
  | .subscribe | .trackStatus => do
      let _ ← pullVint prof.vint
      let _ ← pullFullTrackName prof
      return ()
  | .publish => do
      let _ ← pullVint prof.vint
      let _ ← pullFullTrackName prof
      let _ ← pullVint prof.vint
      return ()
  | .fetch =>
      if prof.fetchLocationFilter then do
        let _ ← pullVint prof.vint
        let _ ← pullFullTrackName prof
        return ()
      else do
        let _ ← pullVint prof.vint
        let fetchType ← pullVint prof.vint
        let _ ← Fetch.pullTarget prof fetchType
        return ()
  | .publishNamespace | .subscribeTracks => do
      let _ ← pullVint prof.vint
      let _ ← pullTuple prof none
      return ()
  | .subscribeNamespace => do
      let _ ← pullVint prof.vint
      let _ ← pullTuple prof none
      let _ ← SubscribeNamespace.pullSubscribeOptions prof
      return ()
  | .requestUpdate => do
      let _ ← pullVint prof.vint
      let _ ← RequestUpdate.pullExisting prof
      return ()
  | _ => pure ()

/-- The parameters of a request as they stand on the wire, every instance. -/
def wireParams (prof : DraftProfile) (bufEnd : Nat) (cls : MessageClass) :
    Reader MoqtError (List (Nat × ParamValue)) := do
  pullRequestHead prof cls
  deserializeItems prof bufEnd (some (.message cls))

/-- The AUTHORIZATION TOKEN instances among them. -/
def wireTokens (items : List (Nat × ParamValue)) : List ParamValue :=
  (items.filter fun item => item.1 = ParamType.authToken).map Prod.snd

/-- The token value an instance carries: its own, or that of its alias in the cache. -/
def carriedToken (cache : TokenCache) : ParamValue → Option AuthToken
  | .plain (.token t) => some t
  | .plain (.bytes v) => some ⟨v, 0⟩
  | .plain (.tokenRef ref) =>
      if ref.aliasType = .register then some (registered ref)
      else if ref.aliasType = .delete then none
      else cache.tokens.get? ref.tokenAlias
  | _ => none

/-- `msg.existing_request_id` of a REQUEST_UPDATE that comes without one: the request
of its stream. -/
def bindRequest (requestId : Option Nat) : ControlMessage → ControlMessage
  | .requestUpdate msg => .requestUpdate { msg with
      existingRequestId := msg.existingRequestId <|> requestId }
  | msg => msg

end AioMoqt.Session
