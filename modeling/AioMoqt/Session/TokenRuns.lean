import AioMoqt.Lib.Raising
import AioMoqt.Lib.Tally
import AioMoqt.Session.AuthToken

/-!
# Runs of the token cache

`_resolve_auth_token` of `protocol.py` statement by statement, over the cache it writes, and the
messages of a session one after another around the SETUP that fixes the size of the cache.
-/

namespace AioMoqt.Session

open AioMoqt.Lib AioMoqt.Messages

/-- What resolving a message leaves, but for the cache. -/
structure Resolution where
  msg : ControlMessage
  validated : Option AuthToken := none
  refusal : Option Refusal := none

/-- The branch of a REGISTER. -/
def registerStatements (msg : ControlMessage) (ref : AuthTokenRef) :
    Raising MoqtError TokenCache ControlMessage := do
  let tokenAlias := ref.tokenAlias
  let cache ← get
  if tokenAlias ∈ cache.tokens.keys then
    throw (.exception .duplicateAuthTokenAlias
      s!"token alias {tokenAlias} is already registered")
  else
    let token := registered ref
    let size := tokenSize token
    let max := cache.max
    if cache.used + size ≤ max then
      modify fun cache => { cache with tokens := cache.tokens.insert tokenAlias token }
      modify fun cache => { cache with used := cache.used + size }
      return setToken (some token) msg
    else if inSetup msg then return setToken (some token) msg
    else
      throw (.exception .authTokenCacheOverflow
        s!"token alias {tokenAlias} ({size} bytes) exceeds the cache ({max} bytes)")

/-- The branches of the operations; a refusal is returned at once. -/
def refStatements (s : AuthSession) (msg : ControlMessage) (ref : AuthTokenRef) :
    Raising MoqtError TokenCache (Resolution × Bool) := do
  if ref.aliasType = .register then
    let msg ← registerStatements msg ref
    return (⟨msg, none, none⟩, true)
  else if inSetup msg then
    if s.isClient then return (⟨setToken none msg, none, none⟩, true)
    else throw (.violation "DELETE or USE_ALIAS token in SETUP")
  else
    let cache ← get
    match cache.tokens.get? ref.tokenAlias with
    | none => return (⟨msg, none, (unknownAlias s msg ref).refusal⟩, false)
    | some known =>
        if ref.aliasType = .delete then
          modify fun cache => { cache with tokens := cache.tokens.erase ref.tokenAlias }
          modify fun cache => { cache with used := cache.used - tokenSize known }
          return (⟨setToken none msg, none, none⟩, true)
        else return (⟨setToken (some known) msg, none, none⟩, true)

/-- The token in place is shown to the validator, which does not touch the cache. -/
def validateStatements (s : AuthSession) (r : Resolution) : Resolution :=
  let shown := validate s ⟨s.cache, r.msg, r.validated, r.refusal⟩
  ⟨shown.msg, shown.validated, shown.refusal⟩

/-- `_resolve_auth_token`. -/
def resolveStatements (s : AuthSession) (msg : ControlMessage) :
    Raising MoqtError TokenCache Resolution :=
  match tokenParam msg with
  | .ref ref => do
      let (r, go) ← refStatements s msg ref
      return if go then validateStatements s r else r
  | _ => return validateStatements s ⟨msg, none, none⟩

/-! ## Runs -/

/-- A message that was resolved, with the session before it. -/
abbrev Received : Type := AuthSession × ControlMessage

/-- The messages of a session one after another, and the SETUP of its own that fixes the size of
the cache once.  A message that raises closes the session: the run ends before it. -/
inductive TokenRun (prof : DraftProfile) (isClient : Bool) :
    Option Nat → List Received → AuthSession → Prop where
  | start (validator : Option (AuthToken → ControlMessage → Option Nat)) :
      TokenRun prof isClient none []
        { cache := { tokens := .empty }, validator, isClient, prof }
  | sentSetup {log : List Received} {s : AuthSession}
      (h : TokenRun prof isClient none log s) (max : Nat) :
      TokenRun prof isClient (some max) log { s with cache := { s.cache with max := max } }
  | setValidator {limit : Option Nat} {log : List Received} {s : AuthSession}
      (h : TokenRun prof isClient limit log s)
      (validator : Option (AuthToken → ControlMessage → Option Nat)) :
      TokenRun prof isClient limit log { s with validator }
  | message {limit : Option Nat} {log : List Received} {s : AuthSession}
      (h : TokenRun prof isClient limit log s) (msg : ControlMessage) {r : Resolution}
      {cache : TokenCache}
      (hresolve : (resolveStatements s msg).outcome s.cache = (.ok r, cache)) :
      TokenRun prof isClient limit (log ++ [(s, msg)]) { s with cache }

/-! ## What the messages say -/

/-- A message registers a token and it fits the cache. -/
def Registers (e : Received) (tokenAlias : Nat) (token : AuthToken) : Prop :=
  ∃ ref, tokenParam e.2 = .ref ref ∧ ref.aliasType = .register ∧ ref.tokenAlias = tokenAlias ∧
    registered ref = token ∧ e.1.cache.used + tokenSize token ≤ e.1.cache.max

/-- A message outside SETUP deletes an alias. -/
def Deletes (e : Received) (tokenAlias : Nat) : Prop :=
  ∃ ref, tokenParam e.2 = .ref ref ∧ ref.aliasType = .delete ∧ ref.tokenAlias = tokenAlias ∧
    inSetup e.2 = false

/-- The latest REGISTER of an alias that was kept, with no DELETE behind it. -/
def Latest (log : List Received) (tokenAlias : Nat) (token : AuthToken) : Prop :=
  ∃ before e behind, log = before ++ e :: behind ∧ Registers e tokenAlias token ∧
    ∀ later ∈ behind, (∀ token', ¬ Registers later tokenAlias token') ∧ ¬ Deletes later tokenAlias

end AioMoqt.Session
