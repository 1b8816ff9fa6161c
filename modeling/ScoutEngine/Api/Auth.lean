import ScoutEngine.Lib.Transition
import ScoutEngine.Value

/-!
# API keys and invites

`auth.py`, `api/auth.py` and the command that creates admin keys, as a transition system. A request
is interrupted at each of its database accesses; `SELECT ... FOR UPDATE` locks the invite that it
finds until the transaction ends.

* `ApiKey`, `InviteToken`: the rows. The time of the last use, which no decision reads, is left out.
* `HttpRequest.urlPath`: the path that the middleware sees; `rebuiltPath`: how it comes about.
* `Caller`: what the middleware leaves in `request.state`; `Phase`, `Exchange`: where a request is.
* `Exchange.enter`, `Exchange.authenticate`: the middleware; `AuthState.step`, `authService`: the
  system.
-/

set_option autoImplicit false

namespace ScoutEngine

open Transition

/-! ## Rows and settings -/

/-- A row of `api_keys`. -/
structure ApiKey where
  id : ℕ
  keyHash : String
  label : String
  isAdmin : Bool
  revoked : Bool := false

/-- A row of `invite_tokens`. -/
structure InviteToken where
  id : ℕ
  tokenHash : String
  label : String
  createdById : Option ℕ
  expiresAt : ℕ
  usedAt : Option ℕ := none

def ApiKey.revoke (id : ℕ) (row : ApiKey) : ApiKey :=
  if row.id = id then { row with revoked := true } else row

def InviteToken.markUsed (id now : ℕ) (row : InviteToken) : InviteToken :=
  if row.id = id then { row with usedAt := some now } else row

/-- `settings.api_key`, and the functions `hash_key` and `uuid.UUID`. -/
structure AuthConfig where
  apiKey : String := ""
  hashKey : String → String
  uuid : String → Option ℕ
  /-- `request.url.path`, which the web framework takes from the `Host` header and the path. -/
  urlPath : Option String → String → String

/-- `INVITE_TTL_HOURS`. -/
def inviteTtlHours : ℕ := 24

/-- `PUBLIC_PATHS`. -/
def publicPaths : List String :=
  ["/api/health", "/docs", "/openapi.json", "/redoc", "/api/auth/register"]

/-! ## Requests -/

/-- What a request asks for. -/
inductive Endpoint where
  | createInvite (label : String)
  | register (inviteToken : String)
  | revokeKey (keyId : String)
  | other (path : String)

/-- The path that is asked for, by which the handler is found. -/
def Endpoint.path : Endpoint → String
  | createInvite _ => "/api/auth/invites"
  | register _ => "/api/auth/register"
  | revokeKey keyId => "/api/auth/keys/" ++ keyId
  | other path => path

structure HttpRequest where
  endpoint : Endpoint
  authorization : Option String := none
  host : Option String := none

/-- `request.url.path`. -/
def HttpRequest.urlPath (cfg : AuthConfig) (request : HttpRequest) : String :=
  cfg.urlPath request.host request.endpoint.path

/-- A character that ends the host in a URL. -/
def endsHost (c : Char) : Bool := c = '/' || c = '?' || c = '#'

/-- A character that ends the path in a URL. -/
def endsPath (c : Char) : Bool := c = '?' || c = '#'

/-- **The path of `scheme://host/path`**: Starlette puts the URL together from the header and the
path, and `urlsplit` takes it apart. Without a header the address of the server is used. -/
def rebuiltPath (host : Option String) (path : String) : String :=
  let rest := ((host.getD "127.0.0.1:8000").toList ++ path.toList).dropWhile (!endsHost ·)
  String.ofList (rest.takeWhile (!endsPath ·))

/-- `api_key_id` and `is_admin` of `request.state`. -/
inductive Caller where
  | anonymous
  /-- The static key of the settings. -/
  | legacy
  | key (id : ℕ) (isAdmin : Bool)
  deriving DecidableEq

def Caller.isAdmin : Caller → Bool
  | anonymous => false
  | legacy => true
  | key _ isAdmin => isAdmin

def Caller.keyId : Caller → Option ℕ
  | key id _ => some id
  | _ => none

/-- Where a request is. -/
inductive Phase where
  /-- About to ask whether there are keys. -/
  | counting
  | lookingUp (token : String)
  /-- The handler was reached. -/
  | handling
  /-- `register` holds the lock of an unused invite. -/
  | registering (invite : InviteToken)
  | revoking (id : ℕ)
  | answered (status : ℕ) (detail : String)

/-- A request that has arrived; a caller once the handler was reached. -/
structure Exchange where
  request : HttpRequest
  phase : Phase
  caller : Option Caller := none

/-- The token of an `Authorization` header, or the refusal. -/
def bearer (authorization : Option String) : Except (ℕ × String) String :=
  let header := authorization.getD ""
  if header = "" then .error (401, "Missing Authorization header")
  else
    match splitMax ' ' 1 header.toList with
    | [scheme, token] =>
      if scheme = "Bearer" then .ok token else .error (401, "Missing Bearer token")
    | _ => .error (401, "Missing Bearer token")

/-- `hmac.compare_digest`, which raises unless both texts are ASCII. -/
def compareDigest (a b : String) : Option Bool :=
  if (a.toList ++ b.toList).all fun c => c.toNat < 128 then some (a = b) else none

namespace Exchange

/-- The middleware from the `Authorization` header on, up to the look at the database. -/
def authenticate (cfg : AuthConfig) (request : HttpRequest) : Exchange :=
  match bearer request.authorization with
  | .error (status, detail) => { request := request, phase := .answered status detail }
  | .ok token =>
    if cfg.apiKey = "" then { request := request, phase := .lookingUp token }
    else
      match compareDigest token cfg.apiKey with
      | none => { request := request, phase := .answered 500 "Internal Server Error" }
      | some true => { request := request, phase := .handling, caller := some .legacy }
      | some false => { request := request, phase := .lookingUp token }

/-- The middleware up to its first look at the database. -/
def enter (cfg : AuthConfig) (request : HttpRequest) : Exchange :=
  if request.urlPath cfg ∈ publicPaths then
    { request := request, phase := .handling, caller := some .anonymous }
  else if cfg.apiKey = "" then { request := request, phase := .counting }
  else authenticate cfg request

/-- The request is answered. -/
def answer (status : ℕ) (detail : String) (c : Exchange) : Exchange :=
  { c with phase := .answered status detail }

/-- The handler is reached. -/
def authorize (caller : Caller) (c : Exchange) : Exchange :=
  { c with phase := .handling, caller := some caller }

/-- `_require_admin`. -/
def isAdmin (c : Exchange) : Bool := c.caller.any Caller.isAdmin

/-- `request.state.api_key_id`. -/
def keyId (c : Exchange) : Option ℕ := c.caller.bind Caller.keyId

end Exchange

/-! ## The system -/

/-- The rows, the locked invites and the requests. -/
structure AuthState where
  keys : List ApiKey := []
  invites : List InviteToken := []
  locked : List ℕ := []
  calls : ℕ → Option Exchange := fun _ => none

/-- The next piece of a request, or the command `create_admin_key`. A piece carries what it draws:
a token or key, the id of the new row, the time. -/
inductive AuthAct where
  | arrive (k : ℕ) (request : HttpRequest)
  | count (k : ℕ)
  | lookUp (k : ℕ)
  | createInvite (k : ℕ) (rawToken : String) (id now : ℕ)
  | selectInvite (k now : ℕ)
  | register (k : ℕ) (rawKey : String) (id now : ℕ)
  | findKey (k : ℕ)
  | revokeKey (k : ℕ)
  /-- A handler that touches neither keys nor invites. -/
  | answer (k : ℕ)
  /-- The database fails, or the connection is lost. -/
  | fail (k : ℕ)
  | createAdminKey (rawKey : String) (id : ℕ) (label : String)

namespace AuthState

/-- The request goes on. -/
def put (s : AuthState) (k : ℕ) (c : Exchange) : AuthState :=
  { s with calls := Function.update s.calls k (some c) }

/-- Insert a row into `api_keys`. -/
def addKey (s : AuthState) (row : ApiKey) : AuthState := { s with keys := s.keys ++ [row] }

/-- Insert a row into `invite_tokens`. -/
def addInvite (s : AuthState) (row : InviteToken) : AuthState :=
  { s with invites := s.invites ++ [row] }

def revoke (s : AuthState) (id : ℕ) : AuthState := { s with keys := s.keys.map (ApiKey.revoke id) }

def markUsed (s : AuthState) (id now : ℕ) : AuthState :=
  { s with invites := s.invites.map (InviteToken.markUsed id now) }

def lock (s : AuthState) (id : ℕ) : AuthState := { s with locked := id :: s.locked }

def unlock (s : AuthState) (id : ℕ) : AuthState := { s with locked := s.locked.filter (· ≠ id) }

/-- A unique column of `api_keys` has the value already. -/
def KeyTaken (s : AuthState) (keyHash : String) (id : ℕ) : Prop :=
  ∃ row ∈ s.keys, row.keyHash = keyHash ∨ row.id = id

instance (s : AuthState) (keyHash : String) (id : ℕ) : Decidable (s.KeyTaken keyHash id) :=
  inferInstanceAs (Decidable (∃ row ∈ s.keys, _))

/-- A unique column of `invite_tokens` has the value already. -/
def InviteTaken (s : AuthState) (tokenHash : String) (id : ℕ) : Prop :=
  ∃ row ∈ s.invites, row.tokenHash = tokenHash ∨ row.id = id

instance (s : AuthState) (tokenHash : String) (id : ℕ) : Decidable (s.InviteTaken tokenHash id) :=
  inferInstanceAs (Decidable (∃ row ∈ s.invites, _))

/-- `_has_any_db_keys` and what depends on it. -/
def count (cfg : AuthConfig) (s : AuthState) (k : ℕ) (c : Exchange) : AuthState :=
  if s.keys = [] then s.put k (c.authorize .anonymous) else s.put k (.authenticate cfg c.request)

/-- `_lookup_key` and what depends on it. -/
def lookUp (cfg : AuthConfig) (s : AuthState) (k : ℕ) (c : Exchange) (token : String) : AuthState :=
  match s.keys.find? (·.keyHash = cfg.hashKey token) with
  | none => s.put k (c.answer 403 "Invalid API key")
  | some row =>
    if row.revoked then s.put k (c.answer 403 "API key has been revoked")
    else s.put k (c.authorize (.key row.id row.isAdmin))

/-- `create_invite`. -/
def createInvite (cfg : AuthConfig) (s : AuthState) (k : ℕ) (c : Exchange) (label rawToken : String)
    (id now : ℕ) : AuthState :=
  if c.isAdmin = false then s.put k (c.answer 403 "Admin access required")
  else if label.length < 1 ∨ 255 < label.length then s.put k (c.answer 422 "label")
  else if s.InviteTaken (cfg.hashKey rawToken) id then s.put k (c.answer 500 "Internal Server Error")
  else
    (s.addInvite
      { id := id
        tokenHash := cfg.hashKey rawToken
        label := label
        createdById := c.keyId
        expiresAt := now + inviteTtlHours * 3600 }).put k (c.answer 201 rawToken)

/-- `register`, up to the checks. The query waits while another request holds the lock. -/
def selectInvite (cfg : AuthConfig) (s : AuthState) (k : ℕ) (c : Exchange) (inviteToken : String)
    (now : ℕ) : Option AuthState :=
  match s.invites.find? (·.tokenHash = cfg.hashKey inviteToken) with
  | none => some (s.put k (c.answer 400 "Invalid invite token"))
  | some invite =>
    if invite.id ∈ s.locked then none
    else if invite.usedAt ≠ none then some (s.put k (c.answer 400 "Invite token already used"))
    else if invite.expiresAt < now then some (s.put k (c.answer 400 "Invite token has expired"))
    else
      some ((s.lock invite.id).put k { c with phase := .registering invite })

/-- The transaction of a request ends without a commit. -/
def rollback (s : AuthState) (k : ℕ) (c : Exchange) (status : ℕ) (detail : String) : AuthState :=
  match c.phase with
  | .registering invite => (s.unlock invite.id).put k (c.answer status detail)
  | _ => s.put k (c.answer status detail)

/-- `register`: the invite is marked and the key is made, in one commit. -/
def register (cfg : AuthConfig) (s : AuthState) (k : ℕ) (c : Exchange) (invite : InviteToken)
    (rawKey : String) (id now : ℕ) : AuthState :=
  if s.KeyTaken (cfg.hashKey rawKey) id then s.rollback k c 500 "Internal Server Error"
  else
    (((s.markUsed invite.id now).addKey
      { id := id, keyHash := cfg.hashKey rawKey, label := invite.label, isAdmin := false }).unlock
        invite.id).put k (c.answer 201 rawKey)

/-- `revoke_key`, up to the commit. -/
def findKey (cfg : AuthConfig) (s : AuthState) (k : ℕ) (c : Exchange) (keyId : String) : AuthState :=
  if c.isAdmin = false then s.put k (c.answer 403 "Admin access required")
  else
    match cfg.uuid keyId with
    | none => s.put k (c.answer 404 "API key not found")
    | some id =>
      if c.keyId = some id then s.put k (c.answer 400 "Cannot revoke your own key")
      else if ∃ row ∈ s.keys, row.id = id then s.put k { c with phase := .revoking id }
      else s.put k (c.answer 404 "API key not found")

/-- **What an action makes of a state in which it is enabled.** -/
def step (cfg : AuthConfig) (s : AuthState) : AuthAct → Option AuthState
  | .arrive k request =>
    match s.calls k with
    | none => some (s.put k (.enter cfg request))
    | some _ => none
  | .count k => do
    let c ← s.calls k
    match c.phase with
    | .counting => some (s.count cfg k c)
    | _ => none
  | .lookUp k => do
    let c ← s.calls k
    match c.phase with
    | .lookingUp token => some (s.lookUp cfg k c token)
    | _ => none
  | .createInvite k rawToken id now => do
    let c ← s.calls k
    match c.phase, c.request.endpoint with
    | .handling, .createInvite label => some (s.createInvite cfg k c label rawToken id now)
    | _, _ => none
  | .selectInvite k now => do
    let c ← s.calls k
    match c.phase, c.request.endpoint with
    | .handling, .register inviteToken => s.selectInvite cfg k c inviteToken now
    | _, _ => none
  | .register k rawKey id now => do
    let c ← s.calls k
    match c.phase with
    | .registering invite => some (s.register cfg k c invite rawKey id now)
    | _ => none
  | .findKey k => do
    let c ← s.calls k
    match c.phase, c.request.endpoint with
    | .handling, .revokeKey keyId => some (s.findKey cfg k c keyId)
    | _, _ => none
  | .revokeKey k => do
    let c ← s.calls k
    match c.phase with
    | .revoking id => some ((s.revoke id).put k (c.answer 204 ""))
    | _ => none
  | .answer k => do
    let c ← s.calls k
    match c.phase, c.request.endpoint with
    | .handling, .other _ => some (s.put k (c.answer 200 ""))
    | _, _ => none
  | .fail k => do
    let c ← s.calls k
    match c.phase with
    | .answered _ _ => none
    | .counting => some (s.put k (c.answer 503 "Auth service unavailable"))
    | _ => some (s.rollback k c 500 "Internal Server Error")
  | .createAdminKey rawKey id label =>
    if s.KeyTaken (cfg.hashKey rawKey) id then none
    else
      some (s.addKey { id := id, keyHash := cfg.hashKey rawKey, label := label, isAdmin := true })

end AuthState

/-- **Keys and invites under every interleaving of requests.** -/
def authService (cfg : AuthConfig) : System AuthState AuthAct where
  init := {}
  step := AuthState.step cfg

end ScoutEngine
