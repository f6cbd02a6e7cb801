import SecretsManager.Client.Api
import SecretsManager.Server.Outcomes

/-!
# Calls over the wire

A call of the client, from its URL through the server and back. The URL is built
without escaping. The agent cuts it at the first `#` and takes what follows the
first `?` for the query; the router cuts the rest at slashes and decodes percent
signs. So a call is taken for another one when its names hold such characters.
-/

namespace SecretsManager

open KeyedTable FaultySession

/-- The part of the agent that may turn a URL down or cut a body off, and what it ends with on a
status that is neither of a success nor of an error. -/
structure HttpAgent where
  accepts : String → Bool
  readToVec : Bytes → Nat → Option Bytes
  elsewhere : Nat → Except UreqError HttpResponse

structure HttpAgent.Laws (agent : HttpAgent) : Prop where
  whole : ∀ body limit read, agent.readToVec body limit = some read → read = body
  short : ∀ body limit, body.length < limit → agent.readToVec body limit = some body

def beforeFirst (stop : Char) (s : String) : String :=
  String.ofList (s.toList.takeWhile fun ch => ch ≠ stop)

/-- What is sent of a URL as its path. -/
def sentPath (url : String) : String := beforeFirst '?' (beforeFirst '#' url)

/-- Visible ASCII, blanks and tabs. -/
def headerAccepted (value : String) : Bool :=
  (utf8 value).all fun b => b = 9 || (32 ≤ b && b < 127)

/-- The client's configuration. -/
structure Config where
  serverUrl : String
  token : String

/-- `validate_server_url` lets no query and no fragment pass. -/
def Config.Validated (cfg : Config) : Prop := ∀ ch ∈ cfg.serverUrl.toList, ch ≠ '#' ∧ ch ≠ '?'

/-- What both programs make of JSON, one writing what the other reads. -/
structure Wire {Key : Type} (c : ServerCrates Key) extends ClientJson where
  agent : HttpAgent
  encodeBody : ResponseBody → Bytes

structure Wire.Laws {Key : Type} {c : ServerCrates Key} (w : Wire c) : Prop where
  agent : w.agent.Laws
  setBody : ∀ value, c.parseSetSecret (w.encodeSetBody value) = some ⟨value⟩
  secrets : ∀ values, w.decodeSecrets (w.encodeBody (.secrets values)) = some values
  revoked : ∀ n, w.decodeRevoked (w.encodeBody (.revoked n)) = some n
  noSecrets : (w.encodeBody (.secrets ∅)).length < MAX_RESPONSE_BYTES
  count : ∀ n < 2 ^ 64, (w.encodeBody (.revoked n)).length < MAX_RESPONSE_BYTES

variable {Key : Type} {c : ServerCrates Key} (w : Wire c)

/-- What the agent gives of the server's answer. -/
def Wire.receive (out : Option Response × Db) : Except UreqError HttpResponse × Db :=
  match out.1 with
  | none => (.error (.other "connection closed"), out.2)
  | some r => (callResult r.status (w.agent.readToVec (w.encodeBody r.body))
      (w.agent.elsewhere r.status), out.2)

/-- One exchange with the server that the configured URL names. -/
def exchange (cfg : Config) (key : Key) (d : Draws c.time) (method : Method) (path : String)
    (payload : Payload) (db : Db) : Except UreqError HttpResponse × Db :=
  let url := cfg.serverUrl ++ path
  let bearer := "Bearer " ++ cfg.token
  if w.agent.accepts url && headerAccepted bearer then
    match stripPrefix cfg.serverUrl (sentPath url) with
    | none => (.error (.other "unreachable"), db)
    | some path => w.receive (serve c key ⟨method, path, some (utf8 bearer), payload⟩ d db)
  else (.error (.other "invalid request"), db)

/-- The calls of the client that name a record. -/
inductive ClientCall where
  | setSecret (project key value : String)
  | getSecrets (project : String)
  | revokeToken (name : String)
  deriving DecidableEq

inductive Returned where
  | done
  | secrets (values : SecretMap)
  | revoked (count : Nat)

namespace ClientCall

def method : ClientCall → Method
  | setSecret .. => .put
  | getSecrets _ => .get
  | revokeToken _ => .delete

def path : ClientCall → String
  | setSecret project key _ => Api.secretPath project key
  | getSecrets project => Api.secretsPath project
  | revokeToken name => Api.tokenPath name

def payload : ClientCall → Payload
  | setSecret _ _ value => ⟨true, some (w.encodeSetBody value)⟩
  | _ => ⟨false, some []⟩

def returned (resp : Except UreqError HttpResponse) : ClientCall → Except ClientError Returned
  | setSecret .. => (Api.setSecret resp).map fun _ => .done
  | getSecrets _ => (Api.fetchSecrets w.toClientJson resp).map .secrets
  | revokeToken _ => (Api.revokeToken w.toClientJson resp).map .revoked

/-- What the call returns and the database it leaves. -/
def perform (cfg : Config) (key : Key) (d : Draws c.time) (call : ClientCall) (db : Db) :
    Except ClientError Returned × Db :=
  let out := exchange w cfg key d call.method call.path (call.payload w) db
  (call.returned w out.1, out.2)

end ClientCall

variable (c)

/-- The call returned and acted on what it names, and on nothing else. -/
def ActedOn (key : Key) (d : Draws c.time) (db : Db) : ClientCall → Returned → Db → Prop
  | .setSecret project secretKey value, .done, db' =>
    ∃ p n ct, db.project project = some p ∧
      encrypt c.toCryptoCrates key d.nonce (utf8 value) (aadBytes project secretKey) =
        .ok (n, ct) ∧
      db' = db.putSecretRow p.id secretKey n ct d.writtenAt.rfc3339
  | .getSecrets project, .secrets values, db' =>
    ∃ p, db.project project = some p ∧
      Handlers.openRows c key project ∅ ((db.secretsOf p.id).map SecretRow.stored) = .ok values ∧
      db' = db
  | .revokeToken name, .revoked n, db' =>
    n = db.tokens.countP (TokenRow.activeAs name) ∧ db' = db.revokeTokens name
  | _, _, _ => False

/-- Whatever the server holds and whatever the token, the call acts on exactly what it names or
fails and leaves the server alone. Rows are numbered in 64 bits, so there are not more of them. -/
def ActsExactly {c : ServerCrates Key} (w : Wire c) (serverUrl : String) (key : Key)
    (call : ClientCall) : Prop :=
  ∀ (token : String) (d : Draws c.time) (db : Db), db.tokens.length < 2 ^ 64 →
    match call.perform w ⟨serverUrl, token⟩ key d db with
    | (.ok out, db') => ActedOn c key d db call out db'
    | (.error _, db') => db' = db

variable {c}

/-- One of `#`, `?` and `%`, which the agent and the router take for something else. -/
def hasReserved (name : String) : Bool := (utf8 name).any fun b => b = 35 || b = 63 || b = 37

namespace ClientCall

/-- A name of the call would have to be escaped. -/
def needsEscaping : ClientCall → Bool
  | setSecret project key _ => hasReserved project || hasReserved key
  | getSecrets project => hasReserved project
  | revokeToken name => hasReserved name

/-- The call that a matched route makes of it, when the decoded segments are valid names. -/
def takenAs : ClientCall → Route → Option ClientCall
  | setSecret _ _ value, .secret name key => do
    let name ← percentDecode name
    let key ← percentDecode key
    if validProject name && validKey key then some (setSecret name key value) else none
  | getSecrets _, .secrets name => do
    let name ← percentDecode name
    if validProject name then some (getSecrets name) else none
  | revokeToken _, .token name => do
    let name ← percentDecode name
    if validProject name then some (revokeToken name) else none
  | _, _ => none

/-- The call the router takes it for, if any: what is left of the path has a route's form. -/
def takenFor (call : ClientCall) : Option ClientCall :=
  (matchRoute (pathSegments (sentPath call.path))).bind call.takenAs

/-- The body is within the limit of the server. -/
def bodyFits : ClientCall → Bool
  | setSecret _ _ value => (w.encodeSetBody value).length ≤ bodyLimit
  | _ => true

end ClientCall

/-- The server takes the project that was typed for this one. -/
def TakenProject (typed project : String) : Prop :=
  (ClientCall.getSecrets typed).takenFor = some (.getSecrets project)

/-- The server takes the names that were typed for these. -/
def TakenSecret (typed typedKey project key : String) : Prop :=
  ∀ value, (ClientCall.setSecret typed typedKey value).takenFor =
    some (.setSecret project key value)

end SecretsManager
