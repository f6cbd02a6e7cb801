import SecretsManager.Server.App

/-!
# What a request can do

One rule for each handler says when it succeeds, with which response and on which
database it leaves. A handler that fails has left the database alone, except that
a put may fail to read its version back. No statement is assumed to succeed.
-/

namespace SecretsManager

open FaultySession KeyedTable

variable {Key : Type} (c : ServerCrates Key)

/-- The checks of `put_secret` passed and its value was encrypted for a project. -/
structure PutChecked (key : Key) (token : AuthedToken) (d : Draws c.time) (db : Db)
    (name secretKey value : String) (p : ProjectRow) (n ct : Bytes) : Prop where
  validName : validProject name = true
  inScope : ensureScope token name = .ok ()
  validKey : validKey secretKey = true
  found : db.project name = some p
  encrypted : encrypt c.toCryptoCrates key d.nonce (utf8 value) (aadBytes name secretKey) =
    .ok (n, ct)

/-- A call that succeeded on `db`, what it answered and what it left. -/
inductive Outcome (key : Key) (token : AuthedToken) (d : Draws c.time) (db : Db) :
    Call → Response → Db → Prop where
  | createProject (body : CreateProjectBody) (valid : validProject body.name = true)
      (inScope : ensureScope token body.name = .ok ()) (fresh : db.project body.name = none) :
      Outcome key token d db (.store (.createProject (.ok body))) ⟨201, .project body.name⟩
        (db.addProject body.name d.writtenAt.rfc3339)
  | listProjects :
      Outcome key token d db (.store .listProjects)
        ⟨200, .projects (((orderBy ProjectRow.name db.projects).map fun r =>
          (⟨r.name, r.createdAt⟩ : Project)).filter fun p =>
            match token.scope with
            | some s => s = p.name
            | none => true)⟩ db
  | getSecrets (name : String) (p : ProjectRow) (out : Std.ExtTreeMap String String)
      (valid : validProject name = true) (inScope : ensureScope token name = .ok ())
      (found : db.project name = some p)
      (opened : Handlers.openRows c key name ∅ ((db.secretsOf p.id).map SecretRow.stored) =
        .ok out) :
      Outcome key token d db (.store (.getSecrets name)) ⟨200, .secrets out⟩ db
  | putSecret (name secretKey : String) (body : SetSecretBody) (p : ProjectRow) (n ct : Bytes)
      (row : SecretRow) (checked : PutChecked c key token d db name secretKey body.value p n ct)
      (stored : (db.putSecretRow p.id secretKey n ct d.writtenAt.rfc3339).secret p.id secretKey =
        some row) :
      Outcome key token d db (.store (.putSecret name secretKey (.ok body)))
        ⟨200, .version secretKey row.version⟩
        (db.putSecretRow p.id secretKey n ct d.writtenAt.rfc3339)
  | deleteSecret (name secretKey : String) (p : ProjectRow) (validName : validProject name = true)
      (validKey : validKey secretKey = true) (inScope : ensureScope token name = .ok ())
      (found : db.project name = some p) (present : (db.secret p.id secretKey).isSome) :
      Outcome key token d db (.store (.deleteSecret name secretKey)) ⟨204, .empty⟩
        (db.removeSecretRow p.id secretKey)
  | createToken (body : CreateTokenBody) (expiresAt : Option String)
      (admin : ensureAdmin token = .ok ()) (valid : validProject body.name = true)
      (validScope : body.project.all validProject = true)
      (expiry : Handlers.tokenExpiry c body d = .ok expiresAt) :
      Outcome key token d db (.createToken (.ok body))
        ⟨201, .token body.name body.project expiresAt d.token⟩
        (db.addToken body.name (hashToken c.toCryptoCrates d.token) body.project
          d.writtenAt.rfc3339 expiresAt)
  | listTokens (admin : ensureAdmin token = .ok ()) :
      Outcome key token d db .listTokens
        ⟨200, .tokens ((orderBy TokenRow.createdAt db.tokens).map TokenRow.info)⟩ db
  | revokeToken (name : String) (admin : ensureAdmin token = .ok ())
      (valid : validProject name = true) :
      Outcome key token d db (.revokeToken name)
        ⟨200, .revoked (db.tokens.countP (TokenRow.activeAs name))⟩ (db.revokeTokens name)

variable {c} in
lemma Outcome.succeeded {key : Key} {token : AuthedToken} {d : Draws c.time} {db db' : Db}
    {call : Call} {response : Response} (h : Outcome c key token d db call response db') :
    response.Succeeded := by
  cases h <;> simp [Response.Succeeded]

/-- What a call that failed has left. -/
def Leftover (key : Key) (token : AuthedToken) (d : Draws c.time) (db : Db) (call : Call)
    (db' : Db) : Prop :=
  db' = db ∨ ∃ name secretKey body p n ct,
    call = .store (.putSecret name secretKey (.ok body)) ∧
    PutChecked c key token d db name secretKey body.value p n ct ∧
    db' = db.putSecretRow p.id secretKey n ct d.writtenAt.rfc3339

variable {c} {key : Key} {token : AuthedToken} {d : Draws c.time} {db : Db}

lemma removeSecretRow_absent {id : Nat} {secretKey : String} (absent : db.secret id secretKey = none) :
    db.removeSecretRow id secretKey = db := by
  have kept : erase SecretRow.at (id, secretKey) db.secrets = db.secrets := by
    unfold erase
    rw [List.filter_eq_self]
    intro r hr
    simpa using get_eq_none_iff.mp absent r hr
  unfold Db.removeSecretRow
  rw [kept]

lemma upsertSecret_nil {id : Nat} {secretKey now : String} {n ct : Bytes}
    (owner : (db.projects.any fun p => p.id = id) = true) :
    Repo.upsertSecret id secretKey n ct now ⟨db, []⟩ =
      (.ok (((db.secret id secretKey).map fun r => r.version + 1).getD 1),
        ⟨db.putSecretRow id secretKey n ct now, []⟩) := by
  unfold Repo.upsertSecret
  simp only [bind_apply, statement_nil, owner, if_true, secret_putSecretRow]
  cases db.secret id secretKey <;> rfl

/-- A put that passed its checks is answered when no statement fails. -/
lemma putSecret_nil {name secretKey : String} {body : SetSecretBody} {p : ProjectRow} {n ct : Bytes}
    (checked : PutChecked c key token d db name secretKey body.value p n ct) :
    Handlers.putSecret c key token name secretKey (.ok body) d ⟨db, []⟩ =
      (.ok ⟨200, .version secretKey (((db.secret p.id secretKey).map fun r => r.version + 1).getD 1)⟩,
        ⟨db.putSecretRow p.id secretKey n ct d.writtenAt.rfc3339, []⟩) := by
  obtain ⟨valid, inScope, validKey, found, encrypted⟩ := checked
  have owner := project_owns (project_mem found).1
  simp [Handlers.putSecret, orReject, Except.mapError, ensure, valid, inScope, validKey, database,
    Repo.projectId, bind_apply, mapError_apply, found, encrypted, upsertSecret_nil owner]

/-! ## Steps that leave the database alone -/

lemma ensure_reads {ok : Bool} {e : AppError} : Reads db (ensure ok e) fun _ => ok = true := by
  unfold ensure
  cases ok
  · exact Reads.fail
  · exact Reads.pure rfl

lemma orReject_reads {r : Except AppError α} : Reads db (orReject r) fun a => r = .ok a :=
  Reads.lift fun _ h => mapError_ok h

lemma database_query {e : SqliteError} {f : Db → α} :
    Reads db (database (query e f)) fun a => a = f db :=
  Reads.mapError (Reads.query rfl)

/-! ## One rule for each handler -/

lemma createProject_triple (body : Except AppError CreateProjectBody) :
    Triple (fun s => s = db) (Handlers.createProject c token body d)
      (Outcome c key token d db (.store (.createProject body))) (fun s => s = db) := by
  unfold Handlers.createProject
  refine Reads.then orReject_reads rfl fun body decoded => ?_
  subst decoded
  refine Reads.then ensure_reads rfl fun _ valid => ?_
  refine Reads.then orReject_reads rfl fun _ inScope => ?_
  refine Reads.then database_query rfl fun existing hexisting => ?_
  refine Reads.then ensure_reads rfl fun _ fresh => ?_
  have absent : db.project body.name = none := by simpa [hexisting] using fresh
  refine Triple.bind (R := fun _ s => s = db.addProject body.name d.writtenAt.rfc3339)
    (Triple.mapError (Triple.statement (fun _ h => h) ?_)) fun _ => Triple.pure ?_
  · rintro s _ s' rfl ran
    simp only [absent, Option.isSome_none, Bool.false_eq_true, if_false, Except.ok.injEq,
      Prod.mk.injEq] at ran
    exact ran.2.symm
  · rintro s rfl
    exact .createProject body valid inScope absent

lemma listProjects_triple :
    Triple (fun s => s = db) (Handlers.listProjects token)
      (Outcome c key token d db (.store .listProjects)) (fun s => s = db) := by
  unfold Handlers.listProjects
  refine Reads.then database_query rfl fun projects hprojects => Triple.pure ?_
  rintro s rfl
  rw [hprojects]
  exact .listProjects

/-- A project that must exist. -/
lemma projectId_then {name : String} {f : Nat → Handler Response} {Q : Response → Db → Prop}
    {E : Db → Prop} (stays : E db)
    (found : ∀ p, db.project name = some p → Triple (fun s => s = db) (f p.id) Q E) :
    Triple (fun s => s = db) (do
      let some pid ← database (Repo.projectId name) | reject .notFound
      f pid) Q E := by
  refine Reads.then database_query stays fun pid hpid => ?_
  cases hp : db.project name with
  | none =>
    rw [hp] at hpid
    subst hpid
    refine Triple.fail ?_
    rintro s rfl
    exact stays
  | some p =>
    rw [hp] at hpid
    subst hpid
    exact found p hp

lemma getSecrets_triple (name : String) :
    Triple (fun s => s = db) (Handlers.getSecrets c key token name)
      (Outcome c key token d db (.store (.getSecrets name))) (fun s => s = db) := by
  unfold Handlers.getSecrets
  refine Reads.then ensure_reads rfl fun _ valid => ?_
  refine Reads.then orReject_reads rfl fun _ inScope => ?_
  refine projectId_then rfl fun p found => ?_
  refine Reads.then database_query rfl fun rows hrows => ?_
  subst hrows
  refine Reads.then orReject_reads rfl fun out opened => Triple.pure ?_
  rintro s rfl
  exact .getSecrets name p out valid inScope found opened

lemma putSecret_triple (name secretKey : String) (body : Except AppError SetSecretBody) :
    Triple (fun s => s = db) (Handlers.putSecret c key token name secretKey body d)
      (Outcome c key token d db (.store (.putSecret name secretKey body)))
      (Leftover c key token d db (.store (.putSecret name secretKey body))) := by
  have stays : Leftover c key token d db (.store (.putSecret name secretKey body)) db := Or.inl rfl
  unfold Handlers.putSecret
  refine Reads.then orReject_reads stays fun body decoded => ?_
  subst decoded
  refine Reads.then ensure_reads stays fun _ valid => ?_
  refine Reads.then orReject_reads stays fun _ inScope => ?_
  refine Reads.then ensure_reads stays fun _ validKey => ?_
  refine projectId_then stays fun p found => ?_
  refine Reads.then orReject_reads stays fun (n, ct) encrypted => ?_
  have checked : PutChecked c key token d db name secretKey body.value p n ct :=
    ⟨valid, inScope, validKey, found, mapError_ok encrypted⟩
  have written : Leftover c key token d db (.store (.putSecret name secretKey (.ok body)))
      (db.putSecretRow p.id secretKey n ct d.writtenAt.rfc3339) :=
    Or.inr ⟨name, secretKey, body, p, n, ct, rfl, checked, rfl⟩
  refine Triple.bind (R := fun version s => s = db.putSecretRow p.id secretKey n ct
    d.writtenAt.rfc3339 ∧ ∃ row, s.secret p.id secretKey = some row ∧ version = row.version)
    (Triple.mapError ?_) fun version => Triple.pure ?_
  · refine Triple.bind (R := fun _ s => s = db.putSecretRow p.id secretKey n ct
      d.writtenAt.rfc3339) (Triple.statement ?_ ?_) fun _ => Triple.statement ?_ ?_
    · rintro s rfl
      exact stays
    · rintro s _ s' rfl ran
      split at ran
      · cases ran
        rfl
      · cases ran
    · rintro s rfl
      exact written
    · rintro s version s' rfl ran
      split at ran
      · rename_i row hrow
        cases ran
        exact ⟨rfl, row, hrow, rfl⟩
      · cases ran
  · rintro s ⟨rfl, row, hrow, rfl⟩
    exact .putSecret name secretKey body p n ct row checked hrow

lemma deleteSecret_triple (name secretKey : String) :
    Triple (fun s => s = db) (Handlers.deleteSecret token name secretKey)
      (Outcome c key token d db (.store (.deleteSecret name secretKey))) (fun s => s = db) := by
  unfold Handlers.deleteSecret
  refine Reads.then ensure_reads rfl fun _ valid => ?_
  refine Reads.then ensure_reads rfl fun _ validKey => ?_
  refine Reads.then orReject_reads rfl fun _ inScope => ?_
  refine projectId_then rfl fun p found => ?_
  refine Triple.bind (R := fun removed s => removed = (db.secret p.id secretKey).isSome ∧
    s = db.removeSecretRow p.id secretKey)
    (Triple.mapError (Triple.statement (fun _ h => h) ?_)) fun removed => ?_
  · rintro s removed s' rfl ran
    cases ran
    exact ⟨rfl, rfl⟩
  cases removed with
  | true =>
    refine Triple.pure ?_
    rintro s ⟨present, rfl⟩
    exact .deleteSecret name secretKey p valid validKey inScope found present.symm
  | false =>
    refine Triple.fail ?_
    rintro s ⟨absent, rfl⟩
    exact removeSecretRow_absent (by simpa using absent.symm)

/-- A token is issued past all the checks, and nothing changes short of that. -/
lemma createToken_issues (body : Except AppError CreateTokenBody) :
    Triple (fun s => s = db) (Handlers.createToken c token body d)
      (fun response s => ∃ b expiresAt, body = .ok b ∧ ensureAdmin token = .ok () ∧
        validProject b.name = true ∧ b.project.all validProject = true ∧
        Handlers.tokenExpiry c b d = .ok expiresAt ∧
        response = ⟨201, .token b.name b.project expiresAt d.token⟩ ∧
        s = db.addToken b.name (hashToken c.toCryptoCrates d.token) b.project d.writtenAt.rfc3339
          expiresAt)
      (fun s => s = db) := by
  unfold Handlers.createToken
  refine Reads.then orReject_reads rfl fun _ admin => ?_
  refine Reads.then orReject_reads rfl fun body decoded => ?_
  refine Reads.then ensure_reads rfl fun _ valid => ?_
  refine Reads.then ensure_reads rfl fun _ validScope => ?_
  refine Reads.then ensure_reads rfl fun _ _ => ?_
  refine Reads.then (Reads.lift fun _ h => h) rfl fun expiresAt expiry => ?_
  refine Triple.bind (R := fun _ s => s = db.addToken body.name
    (hashToken c.toCryptoCrates d.token) body.project d.writtenAt.rfc3339 expiresAt)
    (Triple.mapError (Triple.update (fun _ h => h) ?_)) fun _ => Triple.pure ?_
  · rintro s rfl
    rfl
  · rintro s rfl
    exact ⟨body, expiresAt, decoded, admin, valid, validScope, expiry, rfl, rfl⟩

lemma createToken_triple (body : Except AppError CreateTokenBody) :
    Triple (fun s => s = db) (Handlers.createToken c token body d)
      (Outcome c key token d db (.createToken body)) (fun s => s = db) := by
  apply (createToken_issues body).conseq (fun _ h => h)
  · rintro _ _ ⟨b, expiresAt, rfl, admin, valid, validScope, expiry, rfl, rfl⟩
    exact .createToken b expiresAt admin valid validScope expiry
  · exact fun _ h => h

lemma listTokens_triple :
    Triple (fun s => s = db) (Handlers.listTokens token)
      (Outcome c key token d db .listTokens) (fun s => s = db) := by
  unfold Handlers.listTokens
  refine Reads.then orReject_reads rfl fun _ admin => ?_
  refine Reads.then database_query rfl fun tokens htokens => Triple.pure ?_
  rintro s rfl
  subst htokens
  exact .listTokens admin

lemma revokeToken_triple (name : String) :
    Triple (fun s => s = db) (Handlers.revokeToken token name)
      (Outcome c key token d db (.revokeToken name)) (fun s => s = db) := by
  unfold Handlers.revokeToken
  refine Reads.then orReject_reads rfl fun _ admin => ?_
  refine Reads.then ensure_reads rfl fun _ valid => ?_
  refine Triple.bind (R := fun count s => count = db.tokens.countP (TokenRow.activeAs name) ∧
    s = db.revokeTokens name)
    (Triple.mapError (Triple.statement (fun _ h => h) ?_)) fun count => Triple.pure ?_
  · rintro s count s' rfl ran
    cases ran
    exact ⟨rfl, rfl⟩
  · rintro s ⟨rfl, rfl⟩
    exact .revokeToken name admin valid

/-- Whatever statements fail, a call ends as its rule says or leaves what it may. -/
theorem perform_triple (call : Call) :
    Triple (fun s => s = db) (call.perform c key token d) (Outcome c key token d db call)
      (Leftover c key token d db call) := by
  have unchanged : ∀ s, s = db → Leftover c key token d db call s := fun s h => Or.inl h
  cases call with
  | store call =>
    cases call with
    | createProject body =>
      exact (createProject_triple body).conseq (fun _ h => h) (fun _ _ h => h) unchanged
    | listProjects => exact listProjects_triple.conseq (fun _ h => h) (fun _ _ h => h) unchanged
    | getSecrets name =>
      exact (getSecrets_triple name).conseq (fun _ h => h) (fun _ _ h => h) unchanged
    | putSecret name secretKey body => exact putSecret_triple name secretKey body
    | deleteSecret name secretKey =>
      exact (deleteSecret_triple name secretKey).conseq (fun _ h => h) (fun _ _ h => h) unchanged
  | createToken body =>
    exact (createToken_triple body).conseq (fun _ h => h) (fun _ _ h => h) unchanged
  | listTokens => exact listTokens_triple.conseq (fun _ h => h) (fun _ _ h => h) unchanged
  | revokeToken name =>
    exact (revokeToken_triple name).conseq (fun _ h => h) (fun _ _ h => h) unchanged

/-- The rule of a call at one run of it. -/
lemma perform_ends (key : Key) (call : Call) (token : AuthedToken) (d : Draws c.time)
    (s : Session Db) :
    (∃ response, (call.perform c key token d s).1 = .ok response ∧
      Outcome c key token d s.store call response (call.perform c key token d s).2.store) ∨
    (∃ e, (call.perform c key token d s).1 = .error e ∧
      Leftover c key token d s.store call (call.perform c key token d s).2.store) :=
  (perform_triple call).elim rfl

/-! ## A whole request -/

variable (c) in
/-- The header carries a bearer that the tokens table answers for at this instant. -/
def Authenticates (db : Db) (authorization : Option Bytes) (now : Int) (token : AuthedToken) :
    Prop :=
  ∃ bearer, extractBearer authorization = some bearer ∧
    ∃ r ∈ db.tokens, r.accepts c.time now (hashToken c.toCryptoCrates bearer) ∧
      token = ⟨r.name, r.projectScope⟩

lemma extractToken_reads {authorization : Option Bytes} {now : Int} :
    Reads db (extractToken c authorization now) fun token =>
      Authenticates c db authorization now token := by
  unfold extractToken
  cases bearer : extractBearer authorization with
  | none => exact Reads.fail
  | some bearer' =>
    refine Reads.bind database_query fun found hfound => ?_
    cases found with
    | none => exact Reads.fail
    | some token => exact Reads.pure ⟨bearer', bearer, authenticateRows_some hfound.symm⟩

/-- With no fault, a header that no row answers for is turned away. -/
lemma extractToken_nil {authorization : Option Bytes} {now : Int}
    (nobody : ∀ bearer, extractBearer authorization = some bearer → ∀ r ∈ db.tokens,
      ¬ r.accepts c.time now (hashToken c.toCryptoCrates bearer)) :
    extractToken c authorization now ⟨db, []⟩ = (.error (.app .unauthorized), ⟨db, []⟩) := by
  unfold extractToken
  cases bearer : extractBearer authorization with
  | none => rfl
  | some bearer' =>
    have none : authenticateRows c.time now (hashToken c.toCryptoCrates bearer')
        (db.tokens.filter fun r => r.revoked = false) = none :=
      authenticateRows_none.mpr (nobody bearer' bearer)
    simp only [database, Repo.authenticate, bind_apply, mapError_apply, query_nil, none, reject,
      fail_apply]

lemma extractToken_stays {authorization : Option Bytes} {now : Int} :
    (extractToken c authorization now ⟨db, []⟩).2 = ⟨db, []⟩ := by
  unfold extractToken
  cases extractBearer authorization with
  | none => rfl
  | some bearer =>
    simp only [database, Repo.authenticate, bind_apply, mapError_apply, query_nil]
    cases authenticateRows c.time now (hashToken c.toCryptoCrates bearer)
      (db.tokens.filter fun r => r.revoked = false) <;> rfl

variable (c) in
/-- How a request ends that the server answered without an error. -/
inductive Handled (key : Key) (r : Request) (d : Draws c.time) (db : Db) :
    Response → Db → Prop where
  | answered {response : Response} (routed : r.routed c = .answered response) :
      Handled key r d db response db
  | invalidPath (token : AuthedToken) (routed : r.routed c = .guarded (.error ()))
      (authenticated : Authenticates c db r.authorization d.authenticatedAt.instant token) :
      Handled key r d db ⟨400, .invalidPath⟩ db
  | called (token : AuthedToken) (call : Call) {response : Response} {db' : Db}
      (routed : r.routed c = .guarded (.ok call))
      (authenticated : Authenticates c db r.authorization d.authenticatedAt.instant token)
      (outcome : Outcome c key token d db call response db') : Handled key r d db response db'

variable (c) in
/-- What a request that ended in an error has left. -/
def Failed (key : Key) (r : Request) (d : Draws c.time) (db db' : Db) : Prop :=
  db' = db ∨ ∃ token call, r.routed c = .guarded (.ok call) ∧
    Authenticates c db r.authorization d.authenticatedAt.instant token ∧
    Leftover c key token d db call db'

theorem handle_triple (r : Request) :
    Triple (fun s => s = db) (handle c key r d) (Handled c key r d db) (Failed c key r d db) := by
  have stays : Failed c key r d db db := Or.inl rfl
  unfold handle
  cases routed : r.routed c with
  | answered response =>
    refine Triple.pure ?_
    rintro s rfl
    exact .answered routed
  | guarded call =>
    refine Reads.then extractToken_reads stays fun token authenticated => ?_
    cases call with
    | error _ =>
      refine Triple.pure ?_
      rintro s rfl
      exact .invalidPath token routed authenticated
    | ok call =>
      refine (perform_triple call).conseq (fun _ h => h) ?_ ?_
      · exact fun _ _ outcome => .called token call routed authenticated outcome
      · exact fun _ leftover => Or.inr ⟨token, call, routed, authenticated, leftover⟩

/-- A guarded call runs its handler after the extractor, or the extractor has stopped it. -/
lemma handle_guarded (key : Key) (d : Draws c.time) {r : Request} {call : Call}
    (routed : r.routed c = .guarded (.ok call)) (s : Session Db) :
    (∃ token s', extractToken c r.authorization d.authenticatedAt.instant s = (.ok token, s') ∧
      s'.store = s.store ∧ handle c key r d s = call.perform c key token d s') ∨
    (∃ e, (handle c key r d s).1 = .error e) ∧ (handle c key r d s).2.store = s.store := by
  have reads : Reads s.store (extractToken c r.authorization d.authenticatedAt.instant) _ :=
    extractToken_reads
  have ends := reads.elim (s := s) rfl
  unfold handle
  simp only [routed, bind_apply]
  rcases hr : extractToken c r.authorization d.authenticatedAt.instant s with ⟨e | token, s'⟩ <;>
    rw [hr] at ends
  · rcases ends with ⟨_, ok, _⟩ | ⟨_, _, same⟩
    · cases ok
    · exact Or.inr ⟨⟨e, rfl⟩, same⟩
  · rcases ends with ⟨_, _, same, _⟩ | ⟨_, error, _⟩
    · exact Or.inl ⟨token, s', rfl, same, rfl⟩
    · cases error

/-! ## Responses -/

/-- A response leaves with its body, or with none to a `HEAD`. -/
lemma reply_ok {m : Method} {response out : Response} (h : reply m (.ok response) = some out) :
    out.status = response.status ∧ (out.body = response.body ∨ out.body = .empty) := by
  simp only [reply, Option.some.injEq] at h
  subst h
  split
  · exact ⟨rfl, Or.inr rfl⟩
  · exact ⟨rfl, Or.inl rfl⟩

lemma reply_error {m : Method} {e : Failure} {out : Response}
    (h : reply m (.error e) = some out) :
    out.body = .empty ∨ ∃ msg, out.body = .error msg := by
  cases e with
  | panic => cases h
  | app e =>
    simp only [reply, Option.some.injEq] at h
    subst h
    split
    · exact Or.inl rfl
    · cases e <;> exact Or.inr ⟨_, rfl⟩

lemma routed_answered {r : Request} {response : Response} (h : r.routed c = .answered response) :
    response.body = .empty ∨ response.body = .health := by
  unfold Request.routed at h
  split at h
  · cases h
    exact Or.inl rfl
  · split at h <;> cases h
    · exact Or.inr rfl
    · exact Or.inr rfl
    · exact Or.inl rfl
  · split at h <;> cases h
    exact Or.inl rfl

/-! ## Requests without faults -/

/-- A call that fails though no statement does has left the database alone. -/
lemma perform_failed_nil {call : Call} {e : Failure}
    (failed : (call.perform c key token d ⟨db, []⟩).1 = .error e) :
    (call.perform c key token d ⟨db, []⟩).2.store = db := by
  rcases perform_ends key call token d ⟨db, []⟩ with ⟨_, ok, _⟩ | ⟨_, _, same | written⟩
  · exact absurd (ok.symm.trans failed) (by simp)
  · exact same
  · obtain ⟨name, secretKey, body, p, n, ct, rfl, checked, _⟩ := written
    have ran := congrArg Prod.fst (putSecret_nil checked)
    exact absurd (ran.symm.trans failed) (by simp)

/-- Without faults a request is answered as its rule says, or has left the database alone. -/
theorem serve_cases (r : Request) :
    (∃ response, (serve c key r d db).1 = reply r.method (.ok response) ∧
      Handled c key r d db response (serve c key r d db).2) ∨
    ∃ e, (serve c key r d db).1 = reply r.method (.error e) ∧ (serve c key r d db).2 = db := by
  have whole : Triple (fun s => s = db) (handle c key r d) _ _ := handle_triple r
  unfold serve run
  rcases whole.elim (s := ⟨db, []⟩) rfl with ⟨response, ok, handled⟩ | ⟨e, error, _⟩
  · exact Or.inl ⟨response, by rw [ok], handled⟩
  · refine Or.inr ⟨e, by rw [error], ?_⟩
    cases routed : r.routed c with
    | answered response => simp [handle, routed] at error
    | guarded call =>
      have stays : (extractToken c r.authorization d.authenticatedAt.instant ⟨db, []⟩).2 =
          ⟨db, []⟩ := extractToken_stays
      unfold handle at error ⊢
      simp only [routed, bind_apply] at error ⊢
      rcases extracted : extractToken c r.authorization d.authenticatedAt.instant ⟨db, []⟩ with
        ⟨e' | token, s'⟩
      · rw [extracted] at stays
        exact congrArg Session.store stays
      · rw [extracted] at stays error
        obtain rfl : s' = ⟨db, []⟩ := stays
        cases call with
        | error _ => cases error
        | ok call => exact perform_failed_nil error

/-! ## The schema through a request -/

lemma PutChecked.owner {name secretKey value : String} {p : ProjectRow} {n ct : Bytes}
    (checked : PutChecked c key token d db name secretKey value p n ct) :
    ∃ q ∈ db.projects, q.id = p.id := ⟨p, (project_mem checked.found).1, rfl⟩

lemma Outcome.conforms {call : Call} {response : Response} {db' : Db}
    (h : Outcome c key token d db call response db') (conforms : db.Conforms) : db'.Conforms := by
  cases h with
  | createProject body valid inScope fresh => exact addProject_conforms conforms fresh
  | listProjects => exact conforms
  | getSecrets => exact conforms
  | putSecret name secretKey body p n ct row checked stored =>
    exact putSecretRow_conforms conforms checked.owner
  | deleteSecret => exact removeSecretRow_conforms conforms
  | createToken => exact addToken_conforms conforms
  | listTokens => exact conforms
  | revokeToken => exact revokeTokens_conforms conforms

lemma Leftover.conforms {call : Call} {db' : Db} (h : Leftover c key token d db call db')
    (conforms : db.Conforms) : db'.Conforms := by
  rcases h with rfl | ⟨_, _, _, _, _, _, _, checked, rfl⟩
  · exact conforms
  · exact putSecretRow_conforms conforms checked.owner

/-- Every request keeps the schema, whatever statements fail. -/
theorem handle_conforms (r : Request) (s : Session Db) (conforms : s.store.Conforms) :
    (handle c key r d s).2.store.Conforms := by
  have whole : Triple (fun s' => s' = s.store) (handle c key r d) _ _ := handle_triple r
  have ends := whole.elim (s := s) rfl
  generalize (handle c key r d s).2.store = db' at ends
  rcases ends with ⟨response, _, handled⟩ | ⟨e, _, failed⟩
  · cases handled with
    | answered => exact conforms
    | invalidPath => exact conforms
    | called token call _ _ outcome => exact outcome.conforms conforms
  · rcases failed with rfl | ⟨token, call, _, _, leftover⟩
    · exact conforms
    · exact leftover.conforms conforms

end SecretsManager
