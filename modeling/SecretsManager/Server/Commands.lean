import SecretsManager.Server.Outcomes

/-!
# The token commands

`token create` and `token revoke` of the command line work on the same table as the
handlers, with checks and an expiry of their own.
-/

namespace SecretsManager

open FaultySession

/-- How a command ends early: its own error, one of the database, or a panic. -/
inductive CommandError where
  | bail (msg : String)
  | database (e : SqliteError)
  | panic
  deriving DecidableEq

/-- What `token create` draws from the clock and the random generator. -/
structure CommandDraws (time : TimeCrate) where
  expiresFrom : Reading time
  writtenAt : Reading time
  token : String

namespace Commands

variable {Key : Type} (c : ServerCrates Key)

def bailUnless (ok : Bool) (msg : String) : Prog Db CommandError Unit :=
  if ok then pure () else fail (.bail msg)

/-- `valid_name`, for tokens and for scopes. -/
def validName (name : String) : Bool := SecretsManager.validName 64 [45, 95] name

def tokenExpiry (ttlDays : Option UInt32) (now : Int) : Except CommandError (Option String) :=
  match ttlDays with
  | none => .ok none
  | some days =>
    match addDays now days with
    | none => .error .panic
    | some expiry =>
      match c.time.format expiry with
      | none => .error (.bail "failed to format expiry timestamp")
      | some text => .ok (some text)

def tokenCreate (name : String) (project : Option String) (ttlDays : Option UInt32)
    (d : CommandDraws c.time) : Prog Db CommandError Unit := do
  bailUnless (validName name) "invalid token name (allowed: alphanumeric, '-', '_')"
  bailUnless (project.all validName) "invalid project scope name"
  bailUnless (ttlDays ≠ some 0) "--ttl-days must be at least 1 (or use --no-expiry)"
  let expiresAt ← lift (tokenExpiry c ttlDays d.expiresFrom.instant)
  FaultySession.mapError .database (Repo.insertToken name (hashToken c.toCryptoCrates d.token)
    project expiresAt d.writtenAt.rfc3339)

/-- The name is not checked. -/
def tokenRevoke (name : String) : Prog Db CommandError Nat :=
  FaultySession.mapError .database (Repo.revokeToken name)

end Commands

/-! ## One rule for each command -/

variable {Key : Type} {c : ServerCrates Key} {db : Db}

theorem tokenCreate_triple {name : String} {project : Option String} {ttlDays : Option UInt32}
    {d : CommandDraws c.time} :
    Triple (fun s => s = db) (Commands.tokenCreate c name project ttlDays d)
      (fun _ s => ∃ expiresAt, Commands.tokenExpiry c ttlDays d.expiresFrom.instant =
          .ok expiresAt ∧
        s = db.addToken name (hashToken c.toCryptoCrates d.token) project d.writtenAt.rfc3339
          expiresAt)
      (fun s => s = db) := by
  have checked : ∀ ok msg, Reads db (Commands.bailUnless ok msg) fun _ => True := by
    intro ok msg
    unfold Commands.bailUnless
    cases ok with
    | true => exact Reads.pure trivial
    | false => exact Reads.fail
  unfold Commands.tokenCreate
  refine Reads.then (checked _ _) rfl fun _ _ => ?_
  refine Reads.then (checked _ _) rfl fun _ _ => ?_
  refine Reads.then (checked _ _) rfl fun _ _ => ?_
  refine Reads.then (Reads.lift fun _ h => h) rfl fun expiresAt expiry => ?_
  apply Triple.mapError
  apply Triple.update (fun _ h => h)
  rintro s rfl
  exact ⟨expiresAt, expiry, rfl⟩

theorem tokenRevoke_triple {name : String} :
    Triple (fun s => s = db) (Commands.tokenRevoke name)
      (fun count s => count = db.tokens.countP (TokenRow.activeAs name) ∧ s = db.revokeTokens name)
      (fun s => s = db) := by
  apply Triple.mapError
  apply Triple.statement (fun _ h => h)
  rintro s count s' rfl ran
  cases ran
  exact ⟨rfl, rfl⟩

/-! ## A server with a token and a project -/

def rootDraws : CommandDraws framedServer.time := ⟨epoch, epoch, "tok"⟩

/-- The first token. -/
def rootDb : Db := (Commands.tokenCreate framedServer "root" none none rootDraws ⟨.empty, []⟩).2.store

/-- A token and a project. -/
def projectDb : Db :=
  (answer framedServer [7] (bearerRequest .post "/v1/projects" "tok" "\x7b\"name\":\"app\"\x7d")
    (epochDraws "") ⟨rootDb, []⟩).2.store

end SecretsManager
