import SecretsManager.Server.Repo
import Std.Data.ExtTreeMap

/-!
# The handlers of the HTTP API

Each handler is a function of what its extractors gave it: the authenticated
token, the decoded path segments and the decoded body or its rejection. A handler
stops with an error that becomes a response, or with a panic that does not.
-/

namespace SecretsManager

open FaultySession

inductive AppError where
  | unauthorized
  | forbidden
  | notFound
  | badRequest (msg : String)
  | conflict (msg : String)
  | payloadTooLarge
  | internal (tag : String)
  deriving DecidableEq

inductive Failure where
  | app (e : AppError)
  | panic
  deriving DecidableEq

/-- The body of a response; `invalidPath` is the router's text for a segment that is no UTF-8. -/
inductive ResponseBody where
  | empty
  | invalidPath
  | health
  | error (msg : String)
  | project (name : String)
  | projects (projects : List Project)
  | secrets (values : Std.ExtTreeMap String String)
  | version (key : String) (version : Nat)
  | token (name : String) (scope expiresAt : Option String) (token : String)
  | tokens (tokens : List TokenInfo)
  | revoked (count : Nat)

structure Response where
  status : Nat
  body : ResponseBody

/-- The tag of an internal error stays on the server. -/
def AppError.intoResponse : AppError → Response
  | .unauthorized => ⟨401, .error "unauthorized"⟩
  | .forbidden => ⟨403, .error "forbidden"⟩
  | .notFound => ⟨404, .error "not found"⟩
  | .badRequest m => ⟨400, .error m⟩
  | .conflict m => ⟨409, .error m⟩
  | .payloadTooLarge => ⟨413, .error "payload too large"⟩
  | .internal _ => ⟨500, .error "internal error"⟩

/-- The status of a success. -/
def Response.Succeeded (r : Response) : Prop := 200 ≤ r.status ∧ r.status < 300

/-- The status of a client's or a server's error. -/
def Response.Failed (r : Response) : Prop := 400 ≤ r.status ∧ r.status < 600

theorem intoResponse_failed (e : AppError) : e.intoResponse.Failed := by
  cases e <;> simp [AppError.intoResponse, Response.Failed]

structure CreateProjectBody where
  name : String
  deriving DecidableEq

structure SetSecretBody where
  value : String
  deriving DecidableEq

structure CreateTokenBody where
  name : String
  project : Option String
  ttlDays : Option UInt32
  noExpiry : Bool
  deriving DecidableEq

/-- The crates the server calls: its primitives, its clock and its JSON decoder. -/
structure ServerCrates (Key : Type) extends CryptoCrates Key where
  time : TimeCrate
  parseCreateProject : Bytes → Option CreateProjectBody
  parseSetSecret : Bytes → Option SetSecretBody
  parseCreateToken : Bytes → Option CreateTokenBody

/-- What one request draws from the clock and the random generator. -/
structure Draws (time : TimeCrate) where
  authenticatedAt : Reading time
  expiresFrom : Reading time
  writtenAt : Reading time
  nonce : Nonce
  token : String

abbrev Handler (α : Type) : Type := Prog Db Failure α

def reject (e : AppError) : Handler α := fail (.app e)

def ensure (ok : Bool) (e : AppError) : Handler Unit := if ok then pure () else reject e

/-- A result under `?` in a handler. -/
def orReject (r : Except AppError α) : Handler α := lift (r.mapError .app)

/-- A statement under `?` in a handler. -/
def database (m : Prog Db SqliteError α) : Handler α :=
  mapError (fun _ => .app (.internal "database")) m

def isAsciiAlphanumeric (b : UInt8) : Bool :=
  (48 ≤ b ∧ b ≤ 57) ∨ (65 ≤ b ∧ b ≤ 90) ∨ (97 ≤ b ∧ b ≤ 122)

/-- `valid_project` and `valid_key`: they differ in the length and in the dot. -/
def validName (limit : Nat) (extra : Bytes) (name : String) : Bool :=
  let bytes := utf8 name
  bytes ≠ [] ∧ bytes.length ≤ limit ∧ bytes.all fun b => isAsciiAlphanumeric b || extra.contains b

/-- Letters, digits, `-` and `_`, at most 64 bytes. -/
def validProject (name : String) : Bool := validName 64 [45, 95] name

/-- The same with `.`, at most 128 bytes. -/
def validKey (key : String) : Bool := validName 128 [45, 95, 46] key

lemma validProject_length {name : String} (valid : validProject name = true) :
    (utf8 name).length ≤ 64 := by
  simp only [validProject, validName, decide_eq_true_eq] at valid
  exact valid.2.1

/-- A scoped token may only touch its own project. -/
def ensureScope (token : AuthedToken) (project : String) : Except AppError Unit :=
  match token.scope with
  | some s => if s ≠ project then .error .forbidden else .ok ()
  | none => .ok ()

def ensureAdmin (token : AuthedToken) : Except AppError Unit :=
  if token.scope.isSome then .error .forbidden else .ok ()

/-- Nanoseconds of the last instant of year 9999. -/
def maxInstant : Int := 253402300799999999999

/-- `OffsetDateTime + Duration::days`: past the largest date it panics. -/
def addDays (now : Int) (days : UInt32) : Option Int :=
  let sum := now + days.toNat * 86400 * 1000000000
  if sum ≤ maxInstant then some sum else none

namespace Handlers

variable {Key : Type} (c : ServerCrates Key)

def health : Response := ⟨200, .health⟩

def createProject (token : AuthedToken) (body : Except AppError CreateProjectBody)
    (d : Draws c.time) : Handler Response := do
  let body ← orReject body
  ensure (validProject body.name) (.badRequest "invalid project name")
  orReject (ensureScope token body.name)
  let existing ← database (Repo.projectId body.name)
  ensure existing.isNone (.conflict "project already exists")
  database (Repo.createProject body.name d.writtenAt.rfc3339)
  pure ⟨201, .project body.name⟩

def listProjects (token : AuthedToken) : Handler Response := do
  let projects ← database Repo.listProjects
  let names := projects.filter fun p =>
    match token.scope with
    | some s => s = p.name
    | none => true
  pure ⟨200, .projects names⟩

/-- The loop of `get_secrets` over the rows of the project. -/
def openRows (key : Key) (name : String) :
    Std.ExtTreeMap String String → List StoredSecret → Except AppError (Std.ExtTreeMap String String)
  | out, [] => .ok out
  | out, row :: rest =>
    match decrypt c.toCryptoCrates key row.nonce row.ciphertext (aadBytes name row.key) with
    | .error _ => .error (.internal "decrypt")
    | .ok plaintext =>
      match fromUtf8 plaintext with
      | none => .error (.internal "non-utf8 secret")
      | some value => openRows key name (out.insert row.key value) rest

def getSecrets (key : Key) (token : AuthedToken) (name : String) : Handler Response := do
  ensure (validProject name) (.badRequest "invalid project name")
  orReject (ensureScope token name)
  let some pid ← database (Repo.projectId name) | reject .notFound
  let rows ← database (Repo.listSecretRows pid)
  let out ← orReject (openRows c key name ∅ rows)
  pure ⟨200, .secrets out⟩

def putSecret (key : Key) (token : AuthedToken) (name secretKey : String)
    (body : Except AppError SetSecretBody) (d : Draws c.time) : Handler Response := do
  let body ← orReject body
  ensure (validProject name) (.badRequest "invalid project name")
  orReject (ensureScope token name)
  ensure (validKey secretKey) (.badRequest "invalid key name")
  let some pid ← database (Repo.projectId name) | reject .notFound
  let aad := aadBytes name secretKey
  let (nonce, ciphertext) ← orReject
    ((encrypt c.toCryptoCrates key d.nonce (utf8 body.value) aad).mapError fun _ =>
      .internal "encrypt")
  let version ← database
    (Repo.upsertSecret pid secretKey nonce ciphertext d.writtenAt.rfc3339)
  pure ⟨200, .version secretKey version⟩

/-- The key is checked before the scope here. -/
def deleteSecret (token : AuthedToken) (name secretKey : String) : Handler Response := do
  ensure (validProject name) (.badRequest "invalid project name")
  ensure (validKey secretKey) (.badRequest "invalid key name")
  orReject (ensureScope token name)
  let some pid ← database (Repo.projectId name) | reject .notFound
  let removed ← database (Repo.deleteSecret pid secretKey)
  if removed then pure ⟨204, .empty⟩ else reject .notFound

/-- The expiry of a token asked for: none, or a text of the date `ttl_days` ahead. -/
def tokenExpiry (body : CreateTokenBody) (d : Draws c.time) : Except Failure (Option String) :=
  if body.noExpiry then .ok none
  else
    let days := body.ttlDays.getD 90
    if days = 0 then .error (.app (.badRequest "ttl_days must be at least 1"))
    else match addDays d.expiresFrom.instant days with
      | none => .error .panic
      | some expiry =>
        match c.time.format expiry with
        | none => .error (.app (.internal "format token expiry"))
        | some text => .ok (some text)

def createToken (token : AuthedToken) (body : Except AppError CreateTokenBody)
    (d : Draws c.time) : Handler Response := do
  orReject (ensureAdmin token)
  let body ← orReject body
  ensure (validProject body.name) (.badRequest "invalid token name")
  ensure (body.project.all validProject) (.badRequest "invalid project scope name")
  ensure (!(body.noExpiry && body.ttlDays.isSome))
    (.badRequest "ttl_days cannot be used with no_expiry")
  let expiresAt ← lift (tokenExpiry c body d)
  database (Repo.insertToken body.name (hashToken c.toCryptoCrates d.token) body.project expiresAt
    d.writtenAt.rfc3339)
  pure ⟨201, .token body.name body.project expiresAt d.token⟩

def listTokens (token : AuthedToken) : Handler Response := do
  orReject (ensureAdmin token)
  let tokens ← database Repo.listTokens
  pure ⟨200, .tokens tokens⟩

def revokeToken (token : AuthedToken) (name : String) : Handler Response := do
  orReject (ensureAdmin token)
  ensure (validProject name) (.badRequest "invalid token name")
  let revoked ← database (Repo.revokeToken name)
  pure ⟨200, .revoked revoked⟩

end Handlers

/-! ## A handler with its arguments -/

/-- The calls that work on projects and secrets. -/
inductive StoreCall where
  | createProject (body : Except AppError CreateProjectBody)
  | listProjects
  | getSecrets (name : String)
  | putSecret (name key : String) (body : Except AppError SetSecretBody)
  | deleteSecret (name key : String)

inductive Call where
  | store (call : StoreCall)
  | createToken (body : Except AppError CreateTokenBody)
  | listTokens
  | revokeToken (name : String)

variable {Key : Type} (c : ServerCrates Key)

def StoreCall.perform (key : Key) (token : AuthedToken) (d : Draws c.time) :
    StoreCall → Handler Response
  | .createProject body => Handlers.createProject c token body d
  | .listProjects => Handlers.listProjects token
  | .getSecrets name => Handlers.getSecrets c key token name
  | .putSecret name secretKey body => Handlers.putSecret c key token name secretKey body d
  | .deleteSecret name secretKey => Handlers.deleteSecret token name secretKey

def Call.perform (key : Key) (token : AuthedToken) (d : Draws c.time) : Call → Handler Response
  | .store call => call.perform c key token d
  | .createToken body => Handlers.createToken c token body d
  | .listTokens => Handlers.listTokens token
  | .revokeToken name => Handlers.revokeToken token name

end SecretsManager
