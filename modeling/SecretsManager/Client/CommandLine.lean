import SecretsManager.Client.Cache
import SecretsManager.Client.Commands
import SecretsManager.Client.Configuration
import SecretsManager.Client.ReadBack

/-!
# The command line of the client

Every command from its arguments to what it prints. A command loads the configuration,
opens the cache unless it was told not to, and makes one request at most.
-/

namespace SecretsManager

inductive TokenCmd where
  | create (name : String) (project : Option String) (ttlDays : UInt32) (noExpiry : Bool)
  | revoke (name : String)
  | list
  deriving DecidableEq

/-- What a command makes of the secrets of a project. -/
inductive ReadCmd where
  | run (command : List String)
  | get (key : String)
  | list
  | exportDotenv (format : String)
  deriving DecidableEq

inductive Command where
  | read (project : String) (noCache : Bool) (cmd : ReadCmd)
  | set (project key : String)
  | token (cmd : TokenCmd)
  deriving DecidableEq

def Command.noCache : Command → Bool
  | read _ noCache _ => noCache
  | set .. | token _ => false

/-- How a command ends; `println!` panics where standard output is closed. -/
inductive Ended where
  | returned (r : Except CliError Printed)
  | panicked
  deriving DecidableEq

/-- The body of a request for a token. -/
structure CreateTokenRequest where
  name : String
  project : Option String
  ttlDays : Option UInt32
  noExpiry : Bool
  deriving DecidableEq

structure CreatedToken where
  name : String
  scope : Option String
  expiresAt : Option String
  token : String
  deriving DecidableEq

/-- The crates of the client with the bodies of the token calls. -/
structure CommandCrates (Key : Type) extends ClientCrates Key where
  encodeCreateToken : CreateTokenRequest → Bytes
  decodeCreated : Bytes → Option CreatedToken
  decodeTokens : Bytes → Option (List Api.TokenInfo)

/-- What a command finds around it: its streams, the programs it can start, what opening the
cache gives, what it draws for the cache, and whether a file can be removed. -/
structure Io (Key : Type) where
  stdin : Stdin
  stdout : Except String Unit
  status : ChildCommand → Except String (Option Int32)
  opened : Except ClientError Key
  draws : StoreDraws
  removed : Bool

/-- The cache directory, and what the server holds. -/
structure Site (σ : Type) where
  files : CacheFiles
  server : σ

/-- A call of the agent, and what it makes of the server. -/
abbrev Net (σ : Type) : Type :=
  Method → String → Payload → σ → Except UreqError HttpResponse × σ

variable {Key σ : Type} (c : CommandCrates Key)

/-! ## Requests -/

namespace Api

/-- The cache, if it is wanted and can be opened. -/
def withCache (cfg : Config) (enabled : Bool) (opened : Except ClientError Key) :
    Option (CacheStore Key) :=
  match enabled, opened with
  | true, .ok key => some ⟨key, cfg.serverUrl, hashToken c.toCryptoCrates cfg.token⟩
  | _, _ => none

def getSecrets (net : Net σ) (cache : Option (CacheStore Key)) (draws : StoreDraws)
    (project : String) (site : Site σ) : Except ClientError SecretMap × Site σ :=
  let called := net .get (secretsPath project) ⟨false, some []⟩ site.server
  let got := CachedApi.getSecrets c.toClientCrates cache called.1 draws project site.files
  (got.1, ⟨got.2, called.2⟩)

def putSecret (net : Net σ) (cache : Option (CacheStore Key)) (removed : Bool)
    (project key value : String) (site : Site σ) : Except ClientError Unit × Site σ :=
  let called := net .put (secretPath project key) ⟨true, some (c.encodeSetBody value)⟩ site.server
  let put := CachedApi.setSecret c.toClientCrates cache called.1 removed project site.files
  (put.1, ⟨put.2, called.2⟩)

/-- A call that goes past the cache. -/
def direct (net : Net σ) (method : Method) (path : String) (payload : Payload)
    (read : HttpResponse → Except ClientError α) (site : Site σ) :
    Except ClientError α × Site σ :=
  let called := net method path payload site.server
  ((called.1.mapError mapError).bind read, ⟨site.files, called.2⟩)

def tokensPath : String := "/v1/tokens"

def createToken (net : Net σ) (request : CreateTokenRequest) :
    Site σ → Except ClientError CreatedToken × Site σ :=
  direct net .post tokensPath ⟨true, some (c.encodeCreateToken request)⟩ (readJson c.decodeCreated)

def fetchTokens (net : Net σ) : Site σ → Except ClientError (List TokenInfo) × Site σ :=
  direct net .get tokensPath ⟨false, some []⟩ (readJson c.decodeTokens)

def revokeTokens (net : Net σ) (name : String) : Site σ → Except ClientError Nat × Site σ :=
  direct net .delete (tokenPath name) ⟨false, some []⟩ (readJson c.decodeRevoked)

end Api

/-! ## What is printed -/

def printLines (stdout : Except String Unit) (lines : List String) : Ended :=
  match lines, stdout with
  | [], _ => .returned (.ok ⟨[], 0⟩)
  | _, .ok _ => .returned (.ok ⟨lines.flatMap fun line => utf8 line ++ [10], 0⟩)
  | _, .error _ => .panicked

def printResult (stdout : Except String Unit) (lines : α → List String)
    (r : Except ClientError α) : Ended :=
  match r with
  | .ok a => printLines stdout (lines a)
  | .error e => .returned (.error (.api e))

def scopeLine : Option String → String
  | some scope => "Scope: project '" ++ scope ++ "'"
  | none => "Scope: all projects"

def expiresLine : Option String → String
  | some expiresAt => "Expires: " ++ expiresAt
  | none => "Expires: never (revoke manually when no longer needed)"

def CreatedToken.lines (t : CreatedToken) : List String :=
  ["Token created (name: " ++ t.name ++ ").", scopeLine t.scope, expiresLine t.expiresAt,
    "Store it now - it is shown only once:", t.token]

/-- Blanks up to a width. -/
def pad (width : Nat) (s : String) : String :=
  s ++ String.ofList (List.replicate (width - s.length) ' ')

def columns (name scope created expires revoked : String) : String :=
  pad 20 name ++ " " ++ pad 16 scope ++ " " ++ pad 26 created ++ " " ++ pad 26 expires ++ " " ++
    revoked

def tokenLine (t : Api.TokenInfo) : String :=
  columns t.name (t.scope.getD "(all)") t.createdAt (t.expiresAt.getD "(never)")
    (if t.revoked then "yes" else "no")

def tokenLines : List Api.TokenInfo → List String
  | [] => ["(no tokens)"]
  | tokens => columns "NAME" "SCOPE" "CREATED" "EXPIRES" "REVOKED" :: tokens.map tokenLine

def revokedLine (name : String) (count : Nat) : String :=
  "Revoked " ++ toString count ++ " token(s) named '" ++ name ++ "'."

/-! ## Commands -/

namespace ReadCmd

/-- Without a program, or with another format, it stops before it asks the server. -/
def asks : ReadCmd → Bool
  | run command => command ≠ []
  | exportDotenv format => format = "dotenv"
  | get _ | list => true

def shows (io : Io Key) (fetched : Except ClientError SecretMap) : ReadCmd → Ended
  | run command =>
    .returned ((ClientCommands.run fetched io.status command).map fun code => ⟨[], code⟩)
  | get key => .returned (ClientCommands.get fetched io.stdout key)
  | list => printResult io.stdout (fun secrets => secrets.toList.map Prod.fst) fetched
  | exportDotenv format => .returned (ClientCommands.exportDotenv fetched io.stdout format)

end ReadCmd

/-- A command with the configuration that was loaded. -/
def dispatch (net : Net σ) (cfg : Config) (io : Io Key) (line : Command) (site : Site σ) :
    Ended × Site σ :=
  let cache := Api.withCache c cfg (!line.noCache) io.opened
  match line with
  | .read project _ cmd =>
    if cmd.asks then
      let fetched := Api.getSecrets c net cache io.draws project site
      (cmd.shows io fetched.1, fetched.2)
    else (cmd.shows io (.error .notFound), site)
  | .set project key =>
    match ClientCommands.readSecretValue io.stdin with
    | .error e => (.returned (.error e), site)
    | .ok value =>
      let put := Api.putSecret c net cache io.removed project key value site
      (.returned ((put.1.mapError .api).map fun _ => ⟨[], 0⟩), put.2)
  | .token (.create name project ttlDays noExpiry) =>
    let created := Api.createToken c net
      ⟨name, project, if noExpiry then none else some ttlDays, noExpiry⟩ site
    (printResult io.stdout CreatedToken.lines created.1, created.2)
  | .token .list =>
    let listed := Api.fetchTokens c net site
    (printResult io.stdout tokenLines listed.1, listed.2)
  | .token (.revoke name) =>
    let revoked := Api.revokeTokens c net name site
    (printResult io.stdout (fun count => [revokedLine name count]) revoked.1, revoked.2)

/-- From the command line to the end of the process. -/
def runCommand (crates : ConfigCrates) (sources : ConfigSources) (net : Config → Net σ)
    (io : Io Key) (line : Command) (site : Site σ) : Ended × Site σ :=
  match Config.load crates sources with
  | .error e => (.returned (.error (.config e)), site)
  | .ok cfg => dispatch c (net cfg) cfg io line site

end SecretsManager
