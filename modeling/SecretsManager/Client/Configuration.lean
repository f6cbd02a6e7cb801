import SecretsManager.Client.Wire
import Mathlib.Data.List.DropRight

/-!
# The configuration of the client

Server and token come from the environment, else from the file. The URL of the server
is checked before anything is sent: `https`, or `http` to the loopback interface, and
nothing in it but an address and a path.
-/

namespace SecretsManager

inductive UrlHost where
  | ipv4 (a b c d : UInt8)
  | ipv6 (address : BitVec 128)
  | domain (name : String)
  deriving DecidableEq

/-- What the `url` crate makes of a text. -/
structure ParsedUrl where
  scheme : String
  username : String
  password : Option String
  host : Option UrlHost
  query : Option String
  fragment : Option String

structure FileConfig where
  serverUrl : Option String
  token : Option String

structure ConfigCrates where
  parseUrl : String → Except String ParsedUrl
  parseToml : String → Except String FileConfig

/-- In a URL a `?` begins a query and a `#` a fragment, unless one has begun already. -/
def ConfigCrates.Marks (c : ConfigCrates) : Prop :=
  ∀ raw u, c.parseUrl raw = .ok u → u.query = none → u.fragment = none →
    ∀ ch ∈ raw.toList, ch ≠ '#' ∧ ch ≠ '?'

/-- The variables of the environment, the home directory, and the files that exist. -/
structure ConfigSources where
  configVar : Option String
  serverUrlVar : Option String
  tokenVar : Option String
  home : Option String
  files : String → Option (Except String String)

def ParsedUrl.isLoopbackHost (u : ParsedUrl) : Bool :=
  match u.host with
  | some (.ipv4 a _ _ _) => a = 127
  | some (.ipv6 address) => address = 1
  | some (.domain name) => name = "localhost"
  | none => false

namespace Config

def refuse (bad : Bool) (msg : String) : Except String Unit := if bad then .error msg else .ok ()

def checkScheme (u : ParsedUrl) : Except String Unit :=
  if u.scheme = "https" then .ok ()
  else if u.scheme = "http" then
    refuse (!u.isLoopbackHost) ("server_url must use https (plain http is allowed only for " ++
      "loopback addresses such as http://127.0.0.1)")
  else .error ("server_url has unsupported scheme `" ++ u.scheme ++ "` (expected https)")

def validateServerUrl (c : ConfigCrates) (raw : String) : Except String Unit := do
  let parsed ← (c.parseUrl raw).mapError fun e => "invalid server_url: " ++ e
  checkScheme parsed
  refuse (parsed.username ≠ "" || parsed.password.isSome) "server_url must not contain userinfo"
  refuse (parsed.query.isSome || parsed.fragment.isSome)
    "server_url must not contain a query or fragment"

def configPath (s : ConfigSources) : Except String String :=
  match s.configVar, s.home with
  | some path, _ => .ok path
  | none, some home => .ok (home ++ "/.config/secrets/config.toml")
  | none, none => .error "cannot determine home directory"

def readConfig (c : ConfigCrates) (s : ConfigSources) (path : String) : Except String FileConfig :=
  match s.files path with
  | none => .ok ⟨none, none⟩
  | some read => do
    let text ← read.mapError fun e => "failed to read config at " ++ path ++ ": " ++ e
    (c.parseToml text).mapError fun e => "failed to parse config at " ++ path ++ ": " ++ e

/-- A variable that is set and not empty comes before the file. -/
def choose (var file : Option String) (missing : String) : Except String String :=
  match (var.filter fun s => s ≠ "").or file with
  | some value => .ok value
  | none => .error missing

def trimEndSlashes (s : String) : String := String.ofList (s.toList.rdropWhile (· = '/'))

def load (c : ConfigCrates) (s : ConfigSources) : Except String Config := do
  let path ← configPath s
  let file ← readConfig c s path
  let serverUrl ← choose s.serverUrlVar file.serverUrl
    "no server_url configured (set it in the config file or SECRETS_SERVER_URL)"
  validateServerUrl c serverUrl
  let token ← choose s.tokenVar file.token
    "no token configured (set SECRETS_TOKEN or the config file)"
  pure ⟨trimEndSlashes serverUrl, token⟩

end Config

variable {c : ConfigCrates} {s : ConfigSources} {cfg : Config}

lemma refuse_ok {bad : Bool} {msg : String} {u : Unit} :
    Config.refuse bad msg = .ok u ↔ bad = false := by
  cases bad <;> simp [Config.refuse]

/-- The token goes over TLS or does not leave the machine. -/
def ParsedUrl.Trusted (u : ParsedUrl) : Prop :=
  u.scheme = "https" ∨ u.scheme = "http" ∧ u.isLoopbackHost = true

lemma validateServerUrl_ok {raw : String} {u : Unit} :
    Config.validateServerUrl c raw = .ok u ↔ ∃ parsed, c.parseUrl raw = .ok parsed ∧
      parsed.Trusted ∧ parsed.username = "" ∧ parsed.password = none ∧ parsed.query = none ∧
      parsed.fragment = none := by
  have scheme : ∀ (parsed : ParsedUrl) (v : Unit),
      Config.checkScheme parsed = .ok v ↔ parsed.Trusted := by
    intro parsed v
    unfold Config.checkScheme ParsedUrl.Trusted
    by_cases tls : parsed.scheme = "https"
    · simp [tls]
    · by_cases plain : parsed.scheme = "http"
      · simp [plain, refuse_ok]
      · simp [tls, plain]
  simp only [Config.validateServerUrl, except_bind_ok, mapError_ok_iff, scheme, refuse_ok,
    Bool.or_eq_false_iff, decide_eq_false_iff_not, not_not, Option.isSome_eq_false_iff,
    Option.isNone_iff_eq_none]
  constructor
  · rintro ⟨parsed, read, _, trusted, _, ⟨user, password⟩, query, fragment⟩
    exact ⟨parsed, read, trusted, user, password, query, fragment⟩
  · rintro ⟨parsed, read, trusted, user, password, query, fragment⟩
    exact ⟨parsed, read, (), trusted, (), ⟨user, password⟩, query, fragment⟩

/-- What loads has passed the checks, but for its last slashes. -/
lemma load_checked (loaded : Config.load c s = .ok cfg) :
    ∃ raw, Config.validateServerUrl c raw = .ok () ∧ cfg.serverUrl = Config.trimEndSlashes raw := by
  simp only [Config.load, except_bind_ok] at loaded
  obtain ⟨_, _, _, _, raw, _, _, checked, _, _, same⟩ := loaded
  cases same
  exact ⟨raw, checked, rfl⟩

/-- No query and no fragment is in a URL that loads. -/
theorem load_validated (marks : c.Marks) (loaded : Config.load c s = .ok cfg) : cfg.Validated := by
  obtain ⟨raw, checked, same⟩ := load_checked loaded
  obtain ⟨parsed, read, _, _, _, query, fragment⟩ := validateServerUrl_ok.mp checked
  intro ch hch
  apply marks raw parsed read query fragment ch
  rw [same, Config.trimEndSlashes, String.toList_ofList] at hch
  exact (List.rdropWhile_prefix _ _).subset hch

end SecretsManager
