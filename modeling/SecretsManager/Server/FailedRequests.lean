import SecretsManager.Server.Commands
import Mathlib.Logic.Relation

/-!
# What a failed request leaves behind

A handler issues its statements one by one and each commits on its own. Only a put
writes before its last statement: when the version cannot be read back, the value
has been stored and the answer is a failure.
-/

namespace SecretsManager

open FaultySession KeyedTable Relation

variable {Key : Type} (c : ServerCrates Key)

/-- The answer has a status of success. -/
def Succeeded (response : Option Response) : Prop :=
  ∃ r, response = some r ∧ 200 ≤ r.status ∧ r.status < 300

/-- The tables that hold what clients have stored. -/
def SameTables (db db' : Db) : Prop :=
  db'.projects = db.projects ∧ db'.secrets = db.secrets ∧ db'.tokens = db.tokens

/-- A request that is not answered with a success has left the tables alone. -/
def FailureLeavesTables (key : Key) (r : Request) (d : Draws c.time) (db : Db)
    (faults : List Bool) : Prop :=
  ¬ Succeeded (answer c key r d ⟨db, faults⟩).1 →
    SameTables db (answer c key r d ⟨db, faults⟩).2.store

/-- A put that passes every check is authenticated, finds its project and writes its row, and the
statement after these three is the first to fail. -/
def VersionUnread (key : Key) (r : Request) (d : Draws c.time) (db : Db) (faults : List Bool) :
    Prop :=
  faults.take 4 = [false, false, false, true] ∧
  ∃ token name secretKey body p n ct,
    r.routed c = .guarded (.ok (.store (.putSecret name secretKey (.ok body)))) ∧
    (extractToken c r.authorization d.authenticatedAt.instant ⟨db, []⟩).1 = .ok token ∧
    PutChecked c key token d db name secretKey body.value p n ct

/-- A request or a token command, whatever statements fail. -/
inductive ServedStep (key : Key) : Db → Db → Prop where
  | request (db : Db) (r : Request) (d : Draws c.time) (faults : List Bool) :
      ServedStep key db (answer c key r d ⟨db, faults⟩).2.store
  | tokenCreate (db : Db) (name : String) (project : Option String) (ttlDays : Option UInt32)
      (d : CommandDraws c.time) (faults : List Bool) :
      ServedStep key db (Commands.tokenCreate c name project ttlDays d ⟨db, faults⟩).2.store
  | tokenRevoke (db : Db) (name : String) (faults : List Bool) :
      ServedStep key db (Commands.tokenRevoke name ⟨db, faults⟩).2.store

/-- A database that a server and its commands can reach. -/
def Served (key : Key) (db : Db) : Prop := ReflTransGen (ServedStep c key) .empty db

variable {c} {key : Key} {r : Request} {d : Draws c.time} {db : Db} {token : AuthedToken}

/-! ## Which statement fails -/

lemma database_query_faults {e : SqliteError} {f : Db → α} (faults : List Bool) :
    database (query e f) ⟨db, faults⟩ =
      if faults.head? = some true then (.error (.app (.internal "database")), ⟨db, faults.tail⟩)
      else (.ok (f db), ⟨db, faults.tail⟩) := by
  rcases faults with _ | ⟨_ | _, faults⟩ <;> rfl

/-- The extractor issues one statement, which did not fail if it returned. -/
lemma extractToken_ok {authorization : Option Bytes} {now : Int} {faults : List Bool}
    {s : Session Db} : extractToken c authorization now ⟨db, faults⟩ = (.ok token, s) ↔
      faults.head? ≠ some true ∧ s = ⟨db, faults.tail⟩ ∧
        (extractToken c authorization now ⟨db, []⟩).1 = .ok token := by
  unfold extractToken
  cases extractBearer authorization with
  | none => simp [reject]
  | some bearer =>
    simp only [Repo.authenticate, bind_apply, database_query_faults]
    by_cases fails : faults.head? = some true
    · simp [fails]
    · cases authenticateRows c.time now (hashToken c.toCryptoCrates bearer)
        (db.tokens.filter fun r => r.revoked = false) with
      | none => simp [fails, reject]
      | some found => simp [fails, eq_comm, and_comm]

section Put

variable {name secretKey : String} {body : SetSecretBody} {p : ProjectRow} {n ct : Bytes}

/-- A put that passed its checks looks its project up and upserts its row. -/
lemma putSecret_checked (checked : PutChecked c key token d db name secretKey body.value p n ct)
    (faults : List Bool) : Handlers.putSecret c key token name secretKey (.ok body) d ⟨db, faults⟩ =
      if faults.head? = some true then
        (.error (.app (.internal "database")), ⟨db, faults.tail⟩)
      else match Repo.upsertSecret p.id secretKey n ct d.writtenAt.rfc3339 ⟨db, faults.tail⟩ with
        | (.ok version, s) => (.ok ⟨200, .version secretKey version⟩, s)
        | (.error _, s) => (.error (.app (.internal "database")), s) := by
  obtain ⟨valid, inScope, validKey, found, encrypted⟩ := checked
  simp only [Handlers.putSecret, orReject, Except.mapError, ensure, valid, inScope, validKey,
    Repo.projectId, bind_apply, lift_ok, pure_apply, if_true, database_query_faults, found,
    Option.map_some, encrypted]
  by_cases fails : faults.head? = some true
  · rw [if_pos fails, if_pos fails]
  · rw [if_neg fails, if_neg fails]
    simp only [bind_apply, pure_apply, database, mapError_apply]
    rcases Repo.upsertSecret p.id secretKey n ct d.writtenAt.rfc3339 ⟨db, faults.tail⟩ with
      ⟨_ | _, _⟩ <;> rfl

/-- An upsert writes the row unless its first statement fails, and returns unless either does. -/
lemma upsertSecret_faults {id : Nat} {now : String}
    (owner : (db.projects.any fun p => p.id = id) = true) (faults : List Bool) :
    Repo.upsertSecret id secretKey n ct now ⟨db, faults⟩ =
      if faults.head? = some true then (.error .failed, ⟨db, faults.tail⟩)
      else if faults.tail.head? = some true then
        (.error .failed, ⟨db.putSecretRow id secretKey n ct now, faults.tail.tail⟩)
      else (.ok (((db.secret id secretKey).map fun r => r.version + 1).getD 1),
        ⟨db.putSecretRow id secretKey n ct now, faults.tail.tail⟩) := by
  unfold Repo.upsertSecret
  rcases faults with _ | ⟨_ | _, _ | ⟨_ | _, faults⟩⟩
  all_goals
    simp only [bind_apply, statement, owner, if_true, secret_putSecretRow]
    cases db.secret id secretKey <;> rfl

/-- A put that passed its checks writes its row and is not answered with a success exactly when
the third of its statements is the first to fail. -/
lemma putSecret_unread (checked : PutChecked c key token d db name secretKey body.value p n ct)
    (faults : List Bool) :
    ((Handlers.putSecret c key token name secretKey (.ok body) d ⟨db, faults⟩).2.store = db ∨
      ∃ version, (Handlers.putSecret c key token name secretKey (.ok body) d ⟨db, faults⟩).1 =
        .ok ⟨200, .version secretKey version⟩) ∧ faults.take 3 ≠ [false, false, true] ∨
    (Handlers.putSecret c key token name secretKey (.ok body) d ⟨db, faults⟩ =
      (.error (.app (.internal "database")),
        ⟨db.putSecretRow p.id secretKey n ct d.writtenAt.rfc3339, faults.drop 3⟩)) ∧
      faults.take 3 = [false, false, true] := by
  have owner := project_owns (project_mem checked.found).1
  rw [putSecret_checked checked, upsertSecret_faults owner]
  rcases faults with _ | ⟨_ | _, _ | ⟨_ | _, _ | ⟨_ | _, faults⟩⟩⟩
  all_goals simp

end Put

/-- A put always changes the table of secrets. -/
lemma putSecretRow_ne {id : Nat} {secretKey now : String} {n ct : Bytes} :
    (db.putSecretRow id secretKey n ct now).secrets ≠ db.secrets := by
  intro same
  have stored : (db.putSecretRow id secretKey n ct now).secret id secretKey =
      db.secret id secretKey := by
    unfold Db.secret
    rw [same]
  rw [secret_putSecretRow, if_pos rfl] at stored
  cases found : db.secret id secretKey with
  | none => simp [found] at stored
  | some row =>
    have versions := congrArg (Option.map SecretRow.version) stored
    simp [found, SecretRow.overwrite] at versions

/-! ## Whole requests -/

lemma reply_succeeded {m : Method} {response : Response} (succeeded : response.Succeeded) :
    Succeeded (reply m (.ok response)) := by
  obtain ⟨low, high⟩ := succeeded
  unfold reply
  by_cases head : m = .head
  · exact ⟨_, rfl, by simp [head, low, high]⟩
  · exact ⟨_, rfl, by simp [head, low, high]⟩

lemma reply_failed (m : Method) (e : AppError) : ¬ Succeeded (reply m (.error (.app e))) := by
  rintro ⟨response, replied, _, high⟩
  have failed := (intoResponse_failed e).1
  simp only [reply, Option.some.injEq] at replied
  subst replied
  split at high
  · simp only at high
    omega
  · omega

lemma SameTables.refl : SameTables db db := ⟨rfl, rfl, rfl⟩

/-- The put of such a request is written, and answered with a failure. -/
lemma versionUnread_writes {faults : List Bool} (unread : VersionUnread c key r d db faults) :
    ¬ FailureLeavesTables c key r d db faults := by
  obtain ⟨pattern, token, name, secretKey, body, p, n, ct, routed, extracted, checked⟩ := unread
  obtain ⟨rest, rfl⟩ : ∃ rest, faults = false :: false :: false :: true :: rest :=
    ⟨faults.drop 4, by rw [← List.take_append_drop 4 faults, pattern]; rfl⟩
  have started : extractToken c r.authorization d.authenticatedAt.instant
      ⟨db, false :: false :: false :: true :: rest⟩ = (.ok token, ⟨db, _⟩) :=
    extractToken_ok.mpr ⟨by simp, rfl, extracted⟩
  have put : Handlers.putSecret c key token name secretKey (.ok body) d
      ⟨db, false :: false :: true :: rest⟩ =
      (.error (.app (.internal "database")),
        ⟨db.putSecretRow p.id secretKey n ct d.writtenAt.rfc3339, rest⟩) := by
    rcases putSecret_unread checked (false :: false :: true :: rest) with
      ⟨_, other⟩ | ⟨ran, _⟩
    · exact absurd rfl other
    · exact ran
  have ran : handle c key r d ⟨db, false :: false :: false :: true :: rest⟩ =
      Handlers.putSecret c key token name secretKey (.ok body) d
        ⟨db, false :: false :: true :: rest⟩ := by
    unfold handle
    simp only [routed, bind_apply, started]
    rfl
  intro leaves
  have same := leaves (by
    unfold answer
    rw [ran, put]
    exact reply_failed _ _)
  unfold answer at same
  rw [ran, put] at same
  exact putSecretRow_ne same.2.1

/-- A request that is not answered with a success leaves the tables alone, unless it is a put
whose version cannot be read back. -/
theorem failureLeavesTables_iff (r : Request) (d : Draws c.time) (db : Db) (faults : List Bool) :
    FailureLeavesTables c key r d db faults ↔ ¬ VersionUnread c key r d db faults := by
  constructor
  · intro leaves unread
    exact versionUnread_writes unread leaves
  · intro readable failed
    unfold answer at failed ⊢
    cases routed : r.routed c with
    | answered response =>
      unfold handle
      rw [routed]
      exact .refl
    | guarded called =>
      cases called with
      | error _ =>
        have reads : Reads db (handle c key r d) fun _ => True := by
          unfold handle
          rw [routed]
          exact Reads.bind extractToken_reads fun _ _ => Reads.pure trivial
        rcases reads.elim (s := ⟨db, faults⟩) rfl with ⟨_, _, same, _⟩ | ⟨_, _, same⟩
        · rw [same]
          exact .refl
        · rw [same]
          exact .refl
      | ok call =>
        rcases handle_guarded key d routed ⟨db, faults⟩ with
          ⟨token, s, extracted, _, ran⟩ | ⟨_, same⟩
        · obtain ⟨first, rfl, alone⟩ := extractToken_ok.mp extracted
          rw [ran] at failed ⊢
          rcases perform_ends key call token d ⟨db, faults.tail⟩ with
            ⟨response, ok, outcome⟩ | ⟨e, error, same | written⟩
          · rw [ok] at failed
            exact absurd (reply_succeeded outcome.succeeded) failed
          · rw [same]
            exact .refl
          · obtain ⟨name, secretKey, body, p, n, ct, rfl, checked, _⟩ := written
            have put : (Call.store (.putSecret name secretKey (.ok body))).perform c key token d =
              Handlers.putSecret c key token name secretKey (.ok body) d := rfl
            rw [put] at error ⊢
            rcases putSecret_unread checked faults.tail with ⟨same | ⟨_, ok⟩, _⟩ | ⟨_, unread⟩
            · rw [same]
              exact .refl
            · exact absurd (ok.symm.trans error) (by simp)
            · exfalso
              refine readable ⟨?_, token, name, secretKey, body, p, n, ct, routed, alone, checked⟩
              rcases faults with _ | ⟨_ | _, faults⟩
              · simp at unread
              · simpa using unread
              · exact absurd rfl first
        · rw [same]
          exact .refl

/-! ## A value stored by a put that was answered with a failure -/

lemma projectDb_served : Served framedServer [7] projectDb := by
  have issued : ServedStep framedServer [7] .empty rootDb :=
    .tokenCreate .empty "root" none none rootDraws []
  have created : ServedStep framedServer [7] rootDb projectDb :=
    .request rootDb (bearerRequest .post "/v1/projects" "tok" "\x7b\"name\":\"app\"\x7d")
      (epochDraws "") []
  exact (ReflTransGen.single issued).tail created

/-- The put of `KEY` is answered 500 and its row is there. -/
theorem unreadVersion_changes_tables : ¬ ∀ db, Served framedServer [7] db →
    ∀ r (d : Draws framedServer.time) faults,
      FailureLeavesTables framedServer [7] r d db faults := by
  intro all
  have leaves := all projectDb projectDb_served
    (bearerRequest .put "/v1/projects/app/secrets/KEY" "tok" "\x7b\"value\":\"v\"\x7d")
    (epochDraws "") [false, false, false, true]
  have failed : ((answer framedServer [7] (bearerRequest .put "/v1/projects/app/secrets/KEY" "tok"
      "\x7b\"value\":\"v\"\x7d") (epochDraws "")
      ⟨projectDb, [false, false, false, true]⟩).1.map Response.status) = some 500 := by decide
  have written : (answer framedServer [7] (bearerRequest .put "/v1/projects/app/secrets/KEY" "tok"
      "\x7b\"value\":\"v\"\x7d") (epochDraws "")
      ⟨projectDb, [false, false, false, true]⟩).2.store.secrets.length = 1 := by decide
  have same := leaves (by
    rintro ⟨response, answered, _, high⟩
    rw [answered] at failed
    obtain status : response.status = 500 := Option.some.inj failed
    omega)
  rw [same.2.1] at written
  exact absurd written (by decide)

end SecretsManager
