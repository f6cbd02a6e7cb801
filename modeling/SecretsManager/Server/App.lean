import SecretsManager.Server.Handlers

/-!
# The router

A request is matched by its path, cut at every slash, and by its method. The
extractors of the handler then run in the order of its arguments: the bearer
token first, then the path segments, each percent-decoded once, then the body.
-/

namespace SecretsManager

open FaultySession

inductive Method where
  | get
  | head
  | post
  | put
  | delete
  | other
  deriving DecidableEq

/-- The body as the extractor finds it; no bytes when the transfer broke off. -/
structure Payload where
  isJson : Bool
  bytes : Option Bytes

structure Request where
  method : Method
  /-- The path of the URI, as sent. -/
  path : String
  authorization : Option Bytes
  payload : Payload

/-! ## Extractors -/

/-- Why the `Json` extractor turned a body down. -/
inductive JsonRejection where
  | missingContentType
  | tooLarge
  | unreadable
  | malformed
  deriving DecidableEq

def bodyLimit : Nat := 1024 * 1024

def extractJson (parse : Bytes → Option α) (p : Payload) : Except JsonRejection α :=
  if p.isJson then
    match p.bytes with
    | none => .error .unreadable
    | some bytes =>
      if bodyLimit < bytes.length then .error .tooLarge
      else match parse bytes with
        | none => .error .malformed
        | some body => .ok body
  else .error .missingContentType

def mapJsonRejection : JsonRejection → AppError
  | .tooLarge => .payloadTooLarge
  | _ => .badRequest "invalid JSON body"

def jsonBody (parse : Bytes → Option α) (p : Payload) : Except AppError α :=
  (extractJson parse p).mapError mapJsonRejection

/-- `HeaderValue::to_str`: visible ASCII, blanks and tabs only. -/
def headerToStr (value : Bytes) : Option String :=
  if value.all fun b => b = 9 || (32 ≤ b && b < 127) then fromUtf8 value else none

/-- `strip_prefix` on the characters of a string. -/
def stripPrefix (head s : String) : Option String :=
  (head.toList.isPrefixOf? s.toList).map String.ofList

def extractBearer (authorization : Option Bytes) : Option String := do
  let value ← headerToStr (← authorization)
  let token ← stripPrefix "Bearer " value
  if token.isEmpty then none else some token

def hexDigit (b : UInt8) : Option UInt8 :=
  if 48 ≤ b ∧ b ≤ 57 then some (b - 48)
  else if 65 ≤ b ∧ b ≤ 70 then some (b - 55)
  else if 97 ≤ b ∧ b ≤ 102 then some (b - 87)
  else none

/-- A percent sign that no two digits follow stands for itself. -/
def percentDecodeBytes : Bytes → Bytes
  | 37 :: a :: b :: rest =>
    match hexDigit a, hexDigit b with
    | some high, some low => (high * 16 + low) :: percentDecodeBytes rest
    | _, _ => 37 :: percentDecodeBytes (a :: b :: rest)
  | b :: rest => b :: percentDecodeBytes rest
  | [] => []

def percentDecode (segment : String) : Option String :=
  fromUtf8 (percentDecodeBytes (utf8 segment))

/-- Without percent signs nothing is decoded. -/
lemma percentDecodeBytes_id {bytes : Bytes} (h : ∀ b ∈ bytes, b ≠ 37) :
    percentDecodeBytes bytes = bytes := by
  induction bytes using percentDecodeBytes.induct with
  | case1 a b rest => exact absurd rfl (h 37 List.mem_cons_self)
  | case2 a b rest => exact absurd rfl (h 37 List.mem_cons_self)
  | case3 b rest _ ih =>
    rw [percentDecodeBytes]
    · rw [ih fun b hb => h b (List.mem_cons_of_mem _ hb)]
    · assumption
  | case4 => rfl

/-! ## Routes -/

/-- A route with the path segments it captured, as sent. -/
inductive Route where
  | health
  | projects
  | secrets (name : String)
  | secret (name key : String)
  | tokens
  | token (name : String)
  deriving DecidableEq

def pathSegments (path : String) : List String :=
  (path.toList.splitOn '/').map String.ofList

/-- An empty segment is captured in the middle of a path, but not at its end. -/
def matchRoute : List String → Option Route
  | ["", "v1", "health"] => some .health
  | ["", "v1", "projects"] => some .projects
  | ["", "v1", "projects", name, "secrets"] => some (.secrets name)
  | ["", "v1", "projects", name, "secrets", key] =>
    if key = "" then none else some (.secret name key)
  | ["", "v1", "tokens"] => some .tokens
  | ["", "v1", "tokens", name] => if name = "" then none else some (.token name)
  | _ => none

variable {Key : Type} (c : ServerCrates Key)

/-- The handler of a route and method with what its path and body extractors give:
`none` where no method matches, a rejection where a segment is no UTF-8. -/
def Route.call (p : Payload) : Route → Method → Option (Except Unit Call)
  | .projects, .get | .projects, .head => some (.ok (.store .listProjects))
  | .projects, .post => some (.ok (.store (.createProject (jsonBody c.parseCreateProject p))))
  | .secrets name, .get | .secrets name, .head =>
    some (match percentDecode name with
      | some name => .ok (.store (.getSecrets name))
      | none => .error ())
  | .secret name key, .put =>
    some (match percentDecode name, percentDecode key with
      | some name, some key => .ok (.store (.putSecret name key (jsonBody c.parseSetSecret p)))
      | _, _ => .error ())
  | .secret name key, .delete =>
    some (match percentDecode name, percentDecode key with
      | some name, some key => .ok (.store (.deleteSecret name key))
      | _, _ => .error ())
  | .tokens, .get | .tokens, .head => some (.ok .listTokens)
  | .tokens, .post => some (.ok (.createToken (jsonBody c.parseCreateToken p)))
  | .token name, .delete =>
    some (match percentDecode name with
      | some name => .ok (.revokeToken name)
      | none => .error ())
  | _, _ => none

/-- The routed request: answered by the router or by `health`, or behind a token. -/
inductive Routed where
  | answered (r : Response)
  | guarded (call : Except Unit Call)

def Request.routed (r : Request) : Routed :=
  match matchRoute (pathSegments r.path) with
  | none => .answered ⟨404, .empty⟩
  | some .health =>
    match r.method with
    | .get | .head => .answered Handlers.health
    | _ => .answered ⟨405, .empty⟩
  | some route =>
    match route.call c r.payload r.method with
    | none => .answered ⟨405, .empty⟩
    | some call => .guarded call

variable {c} in
lemma routed_guarded {r : Request} {call : Call} (h : r.routed c = .guarded (.ok call)) :
    ∃ route, matchRoute (pathSegments r.path) = some route ∧
      route.call c r.payload r.method = some (.ok call) := by
  unfold Request.routed at h
  split at h
  · cases h
  · split at h <;> cases h
  · rename_i route _ found
    refine ⟨route, found, ?_⟩
    split at h <;> cases h
    assumption

variable {c} in
lemma routed_of_call {r : Request} {route : Route} {call : Except Unit Call}
    (found : matchRoute (pathSegments r.path) = some route) (other : route ≠ .health)
    (called : route.call c r.payload r.method = some call) : r.routed c = .guarded call := by
  unfold Request.routed
  rw [found]
  cases route with
  | health => exact absurd rfl other
  | _ => simp only [called]

/-- The `AuthedToken` extractor. -/
def extractToken (authorization : Option Bytes) (now : Int) : Handler AuthedToken :=
  match extractBearer authorization with
  | none => reject .unauthorized
  | some bearer => do
    match ← database (Repo.authenticate c.time (hashToken c.toCryptoCrates bearer) now) with
    | some token => pure token
    | none => reject .unauthorized

/-- From the router to the response of the handler. -/
def handle (key : Key) (r : Request) (d : Draws c.time) : Handler Response :=
  match r.routed c with
  | .answered response => pure response
  | .guarded call => do
    let token ← extractToken c r.authorization d.authenticatedAt.instant
    match call with
    | .error () => pure ⟨400, .invalidPath⟩
    | .ok call => call.perform c key token d

/-- What leaves the server: an error as its response, nothing after a panic. -/
def reply (method : Method) : Except Failure Response → Option Response
  | .ok response => some (if method = .head then { response with body := .empty } else response)
  | .error (.app e) =>
    some (if method = .head then { e.intoResponse with body := .empty } else e.intoResponse)
  | .error .panic => none

def answer (key : Key) (r : Request) (d : Draws c.time) (s : Session Db) :
    Option Response × Session Db :=
  (reply r.method (handle c key r d s).1, (handle c key r d s).2)

/-- A request with no statement failing. -/
def serve (key : Key) (r : Request) (d : Draws c.time) (db : Db) : Option Response × Db :=
  (reply r.method (run (handle c key r d) db).1, (run (handle c key r d) db).2)

/-! ## A server over primitives made of frames -/

/-- The epoch and the ninetieth day after it. -/
def tableTime : TimeCrate where
  format t :=
    if t = 0 then some "1970-01-01T00:00:00Z"
    else if t = 7776000000000000 then some "1970-04-01T00:00:00Z"
    else none
  parse s :=
    if s = "1970-01-01T00:00:00Z" then some 0
    else if s = "1970-04-01T00:00:00Z" then some 7776000000000000
    else none

def framedServer : ServerCrates Bytes where
  toCryptoCrates := framedCrypto
  time := tableTime
  parseCreateProject b := if b = utf8 "\x7b\"name\":\"app\"\x7d" then some ⟨"app"⟩ else none
  parseSetSecret b := if b = utf8 "\x7b\"value\":\"v\"\x7d" then some ⟨"v"⟩ else none
  parseCreateToken b :=
    if b = utf8 "\x7b\"name\":\"fresh\"\x7d" then some ⟨"fresh", none, none, false⟩ else none

def epoch : Reading tableTime := ⟨0, "1970-01-01T00:00:00Z", by decide⟩

/-- Every reading at the epoch. -/
def epochDraws (token : String) : Draws framedServer.time := ⟨epoch, epoch, epoch, .zero, token⟩

/-- The identity of an unscoped token. -/
def rootIdentity : AuthedToken := ⟨"root", none⟩

/-- A JSON request under this bearer. -/
def bearerRequest (method : Method) (path bearer body : String) : Request :=
  ⟨method, path, some (utf8 ("Bearer " ++ bearer)), ⟨true, some (utf8 body)⟩⟩

example : pathSegments "/v1/projects/a%2Fb/secrets" = ["", "v1", "projects", "a%2Fb", "secrets"] :=
  by decide

end SecretsManager
