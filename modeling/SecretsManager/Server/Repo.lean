import SecretsManager.Server.Db
import SecretsManager.Lib.FaultySession

/-!
# The data-access layer

Each function is one or two SQL statements against the tables, any of which may
fail. Instants count nanoseconds. The text of a clock reading comes with it,
since a reading that cannot be printed is ruled out by the source.
-/

namespace SecretsManager

open KeyedTable FaultySession

/-- `rusqlite::Error`, as far as a caller can tell its causes apart. -/
inductive SqliteError where
  | failed
  | constraint
  | noRows
  deriving DecidableEq

/-- RFC 3339 by the `time` crate. -/
structure TimeCrate where
  format : Int → Option String
  parse : String → Option Int

/-- What `now_utc` gave, with its text. -/
structure Reading (time : TimeCrate) where
  instant : Int
  rfc3339 : String
  formats : time.format instant = some rfc3339

/-! ## meta -/

def Repo.getMeta (key : String) : Prog Db SqliteError (Option Bytes) :=
  query .failed fun db => db.metaValue key

def Repo.setMeta (key : String) (value : Bytes) : Prog Db SqliteError Unit :=
  update .failed fun db => db.setMetaRow key value

/-! ## projects -/

structure Project where
  name : String
  createdAt : String
  deriving DecidableEq

def Repo.createProject (name now : String) : Prog Db SqliteError Unit :=
  statement .failed fun db =>
    if (db.project name).isSome then .error .constraint
    else .ok ((), db.addProject name now)

/-- `ORDER BY` compares the bytes of the names, which is the order of code points. -/
def Repo.listProjects : Prog Db SqliteError (List Project) :=
  query .failed fun db =>
    (orderBy ProjectRow.name db.projects).map fun r => ⟨r.name, r.createdAt⟩

def Repo.projectId (name : String) : Prog Db SqliteError (Option Nat) :=
  query .failed fun db => (db.project name).map ProjectRow.id

/-! ## secrets -/

/-- `SecretRow` of this layer: the columns that are read back. -/
structure StoredSecret where
  key : String
  nonce : Bytes
  ciphertext : Bytes
  deriving DecidableEq

def SecretRow.stored (r : SecretRow) : StoredSecret := ⟨r.key, r.nonce, r.ciphertext⟩

def Repo.upsertSecret (projectId : Nat) (key : String) (nonce ciphertext : Bytes) (now : String) :
    Prog Db SqliteError Nat := do
  statement .failed fun db =>
    if db.projects.any fun p => p.id = projectId then
      .ok ((), db.putSecretRow projectId key nonce ciphertext now)
    else .error .constraint
  statement .failed fun db =>
    match db.secret projectId key with
    | some r => .ok (r.version, db)
    | none => .error .noRows

def Db.secretsOf (db : Db) (projectId : Nat) : List SecretRow :=
  orderBy SecretRow.key (db.secrets.filter fun r => r.projectId = projectId)

def Repo.listSecretRows (projectId : Nat) : Prog Db SqliteError (List StoredSecret) :=
  query .failed fun db => (db.secretsOf projectId).map SecretRow.stored

/-- True if a row was removed. -/
def Repo.deleteSecret (projectId : Nat) (key : String) : Prog Db SqliteError Bool :=
  statement .failed fun db =>
    .ok ((db.secret projectId key).isSome, db.removeSecretRow projectId key)

/-! ## tokens -/

structure TokenInfo where
  name : String
  scope : Option String
  createdAt : String
  revoked : Bool
  expiresAt : Option String
  deriving DecidableEq

def TokenRow.info (r : TokenRow) : TokenInfo :=
  ⟨r.name, r.projectScope, r.createdAt, r.revoked, r.expiresAt⟩

/-- The identity a bearer token resolves to. -/
structure AuthedToken where
  name : String
  scope : Option String
  deriving DecidableEq

def Repo.insertToken (name : String) (tokenHash : Bytes) (scope expiresAt : Option String)
    (now : String) : Prog Db SqliteError Unit :=
  update .failed fun db => db.addToken name tokenHash scope now expiresAt

def Repo.listTokens : Prog Db SqliteError (List TokenInfo) :=
  query .failed fun db => (orderBy TokenRow.createdAt db.tokens).map TokenRow.info

def Repo.revokeToken (name : String) : Prog Db SqliteError Nat :=
  statement .failed fun db => .ok (db.tokens.countP (TokenRow.activeAs name), db.revokeTokens name)

section Authenticate

variable (time : TimeCrate)

/-- An expiry that cannot be parsed counts as past. -/
def notExpired (now : Int) : Option String → Bool
  | none => true
  | some text => match time.parse text with
    | some t => now < t
    | none => false

/-- The row answers for a bearer of this hash. -/
def TokenRow.accepts (now : Int) (presented : Bytes) (r : TokenRow) : Bool :=
  r.revoked = false ∧ notExpired time now r.expiresAt ∧ r.tokenHash = presented

/-- The loop never stops at a match, so the last one is found. -/
def authenticateRows (now : Int) (presented : Bytes) (rows : List TokenRow) :
    Option AuthedToken :=
  rows.foldl (fun found r =>
    if notExpired time now r.expiresAt then
      if ctEq r.tokenHash presented then some ⟨r.name, r.projectScope⟩ else found
    else found) none

def Repo.authenticate (presented : Bytes) (now : Int) : Prog Db SqliteError (Option AuthedToken) :=
  query .failed fun db =>
    authenticateRows time now presented (db.tokens.filter fun r => r.revoked = false)

variable {time} {now : Int} {presented : Bytes} {tokens : List TokenRow}

/-- `authenticate` answers with the last row that accepts the bearer. -/
theorem authenticateRows_eq : authenticateRows time now presented
      (tokens.filter fun r => r.revoked = false) =
    ((tokens.filter (TokenRow.accepts time now presented)).getLast?).map
      fun r => ⟨r.name, r.projectScope⟩ := by
  induction tokens using List.reverseRecOn with
  | nil => rfl
  | append_singleton rows r ih =>
    unfold authenticateRows at ih ⊢
    by_cases active : r.revoked = false
    · by_cases fresh : notExpired time now r.expiresAt
      · by_cases same : r.tokenHash = presented
        · simp [List.filter_append, TokenRow.accepts, active, fresh, same]
        · simpa [List.filter_append, TokenRow.accepts, active, fresh, same] using ih
      · simpa [List.filter_append, TokenRow.accepts, active, fresh] using ih
    · simpa [List.filter_append, TokenRow.accepts, active] using ih

theorem authenticateRows_some {t : AuthedToken}
    (h : authenticateRows time now presented
      (tokens.filter fun r => r.revoked = false) = some t) :
    ∃ r ∈ tokens, r.accepts time now presented ∧ t = ⟨r.name, r.projectScope⟩ := by
  rw [authenticateRows_eq, Option.map_eq_some_iff] at h
  obtain ⟨r, last, rfl⟩ := h
  obtain ⟨hr, accepted⟩ := List.mem_filter.mp (List.mem_of_getLast? last)
  exact ⟨r, hr, accepted, rfl⟩

theorem authenticateRows_none :
    authenticateRows time now presented (tokens.filter fun r => r.revoked = false) = none ↔
      ∀ r ∈ tokens, ¬ r.accepts time now presented := by
  rw [authenticateRows_eq]
  simp

end Authenticate

end SecretsManager
