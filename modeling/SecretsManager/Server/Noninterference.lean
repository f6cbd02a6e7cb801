import SecretsManager.Server.View
import SecretsManager.Lib.PairedRuns

/-!
# What a scoped token cannot see

Two databases are alike for a scope when they hold the same tokens and show the
same project of that name. Requests under tokens of the scope are answered alike
from them and leave them alike, and requests on other projects leave them alike
too. So whatever happens to other projects in two runs, the scope sees one run.
-/

namespace SecretsManager

open FaultySession KeyedTable

variable {Key : Type} (c : ServerCrates Key)

/-- The databases hold these tokens and show the same of the project `scope`. -/
structure LowEq (key : Key) (scope : String) (tokens : List TokenRow) (db db' : Db) : Prop where
  conforms : db.Conforms
  conforms' : db'.Conforms
  holds : db.tokens = tokens
  holds' : db'.tokens = tokens
  view : db.view c key scope = db'.view c key scope

/-- The clock gave the same, the random generator need not have. -/
structure SameClock (d d' : Draws c.time) : Prop where
  authenticatedAt : d.authenticatedAt = d'.authenticatedAt
  writtenAt : d.writtenAt = d'.writtenAt

/-- Every token the request can authenticate with is scoped so. -/
def ScopedRequest (scope : String) (tokens : List TokenRow) (r : Request) (now : Int) : Prop :=
  ∀ bearer, extractBearer r.authorization = some bearer → ∀ row ∈ tokens,
    row.accepts c.time now (hashToken c.toCryptoCrates bearer) → row.projectScope = some scope

/-- The call writes nothing of the project. -/
def StoreCall.LeavesAlone (scope : String) : StoreCall → Prop
  | .createProject (.ok body) => body.name ≠ scope
  | .putSecret name _ _ => name ≠ scope
  | .deleteSecret name _ => name ≠ scope
  | _ => True

/-- A request that the scope observes, or one on other projects. -/
inductive Event where
  | observed (r : Request) (d : Draws c.time)
  | elsewhere (r : Request) (d : Draws c.time)

/-- The responses to the scoped requests of a run. -/
def observe (key : Key) (db : Db) : List (Event c) → List (Option Response)
  | [] => []
  | .observed r d :: es => (serve c key r d db).1 :: observe key (serve c key r d db).2 es
  | .elsewhere r d :: es => observe key (serve c key r d db).2 es

/-- Two runs with the same scoped requests, each with its own requests on other projects. -/
inductive Interleaved (scope : String) (tokens : List TokenRow) :
    List (Event c) → List (Event c) → Prop where
  | done : Interleaved scope tokens [] []
  | both {es es' : List (Event c)} (r : Request) (d d' : Draws c.time)
      (underScope : ScopedRequest c scope tokens r d.authenticatedAt.instant)
      (clock : SameClock c d d') (rest : Interleaved scope tokens es es') :
      Interleaved scope tokens (.observed r d :: es) (.observed r d' :: es')
  | left {es es' : List (Event c)} (r : Request) (d : Draws c.time) (call : StoreCall)
      (routed : r.routed c = .guarded (.ok (.store call))) (apart : call.LeavesAlone scope)
      (rest : Interleaved scope tokens es es') : Interleaved scope tokens (.elsewhere r d :: es) es'
  | right {es es' : List (Event c)} (r : Request) (d : Draws c.time) (call : StoreCall)
      (routed : r.routed c = .guarded (.ok (.store call))) (apart : call.LeavesAlone scope)
      (rest : Interleaved scope tokens es es') : Interleaved scope tokens es (.elsewhere r d :: es')

variable {c} {key : Key} {scope : String} {tokens : List TokenRow} {db db' : Db}

/-- Databases with equal rows of the project are alike for its scope. -/
lemma lowEq_of_rows (conforms : db.Conforms) (conforms' : db'.Conforms)
    (tokens : db.tokens = db'.tokens) (project : db.project scope = db'.project scope)
    (secrets : ∀ p, db.project scope = some p → ∀ k, db.secret p.id k = db'.secret p.id k) :
    LowEq c key scope db.tokens db db' := by
  refine ⟨conforms, conforms', rfl, tokens.symm, ?_⟩
  unfold Db.view
  rw [← project]
  cases found : db.project scope with
  | none => rfl
  | some p =>
    have entries := funext (secrets p found)
    simp [Db.viewOf, entries]

lemma LowEq.projects (low : LowEq c key scope tokens db db') :
    (db.project scope = none ∧ db'.project scope = none) ∨
      ∃ p p', db.project scope = some p ∧ db'.project scope = some p' ∧
        db.viewOf c key p = db'.viewOf c key p' := by
  cases found : db.project scope with
  | none => exact Or.inl ⟨rfl, view_none.mp (low.view ▸ view_none.mpr found)⟩
  | some p =>
    obtain ⟨p', found', _, view⟩ := view_some (low.view.symm.trans (view_eq found))
    exact Or.inr ⟨p, p', rfl, found', view⟩

/-! ## Scoped requests -/

section Scoped

variable {token : AuthedToken} {d d' : Draws c.time}

/-- Both runs answer the same and leave the databases alike. -/
def Indistinct (c : ServerCrates Key) (key : Key) (scope : String) (tokens : List TokenRow)
    (db db' : Db) (m m' : Handler Response) : Prop :=
  Paired db db' m m' (fun r r' s s' => r = r' ∧ LowEq c key scope tokens s s')
    (LowEq c key scope tokens)

lemma indistinct_orReject (low : LowEq c key scope tokens db db') {r : Except AppError α}
    {f f' : α → Handler Response}
    (next : ∀ a, r = .ok a → Indistinct c key scope tokens db db' (f a) (f' a)) :
    Indistinct c key scope tokens db db' (orReject r >>= f) (orReject r >>= f') :=
  Paired.lift_then low fun a h => next a (mapError_ok h)

lemma indistinct_ensure (low : LowEq c key scope tokens db db') {ok : Bool} {e : AppError}
    {f f' : Unit → Handler Response}
    (next : ok = true → Indistinct c key scope tokens db db' (f ()) (f' ())) :
    Indistinct c key scope tokens db db' (ensure ok e >>= f) (ensure ok e >>= f') := by
  cases ok with
  | true => exact next rfl
  | false => exact Paired.fail low

/-- A scoped token gets past the check of the scope for its own project only. -/
lemma indistinct_scope (low : LowEq c key scope tokens db db') (inScope : token.scope = some scope)
    {name : String} {f f' : Unit → Handler Response}
    (next : name = scope → Indistinct c key scope tokens db db' (f ()) (f' ())) :
    Indistinct c key scope tokens db db' (orReject (ensureScope token name) >>= f)
      (orReject (ensureScope token name) >>= f') := by
  refine indistinct_orReject low fun _ allowed => next ?_
  by_contra other
  simp [ensureScope, inScope, Ne.symm other] at allowed

lemma indistinct_project (low : LowEq c key scope tokens db db') {f f' : Nat → Handler Response}
    (next : ∀ p p', db.project scope = some p → db'.project scope = some p' →
      db.viewOf c key p = db'.viewOf c key p' →
      Indistinct c key scope tokens db db' (f p.id) (f' p'.id)) :
    Indistinct c key scope tokens db db'
      (do
        let some pid ← database (Repo.projectId scope) | reject .notFound
        f pid)
      (do
        let some pid ← database (Repo.projectId scope) | reject .notFound
        f' pid) := by
  refine Paired.query_then ?_
  rcases low.projects with ⟨found, found'⟩ | ⟨p, p', found, found', view⟩ <;> rw [found, found']
  · exact Paired.fail low
  · exact next p p' found found' view

lemma createProject_indistinct (low : LowEq c key scope tokens db db')
    (inScope : token.scope = some scope) (clock : SameClock c d d')
    (body : Except AppError CreateProjectBody) :
    Indistinct c key scope tokens db db' (Handlers.createProject c token body d)
      (Handlers.createProject c token body d') := by
  refine indistinct_orReject low fun body _ => ?_
  refine indistinct_ensure low fun _ => ?_
  refine indistinct_scope low inScope fun own => ?_
  subst own
  refine Paired.query_then ?_
  rcases low.projects with ⟨found, found'⟩ | ⟨p, p', found, found', _⟩
  · simp only [found, found', clock.writtenAt]
    have after : LowEq c key body.name tokens (db.addProject body.name d'.writtenAt.rfc3339)
        (db'.addProject body.name d'.writtenAt.rfc3339) := by
      refine ⟨addProject_conforms low.conforms found, addProject_conforms low.conforms' found',
        low.holds, low.holds', ?_⟩
      rw [view_addProject low.conforms found, view_addProject low.conforms' found']
      simp
    refine indistinct_ensure low fun _ => ?_
    refine Paired.bind (R := fun _ _ => LowEq c key body.name tokens)
      (Paired.mapError (Paired.statement (by simp [found]; rfl) (by simp [found']; rfl) after)) ?_
    exact fun _ _ _ _ after => Paired.pure ⟨rfl, after⟩
  · simp only [found, found']
    exact Paired.fail low

/-- The list of a scoped token is told by the view of its project. -/
lemma mem_listed (c : ServerCrates Key) (key : Key) (conforms : db.Conforms) (x : String × String) :
    x ∈ ((orderBy ProjectRow.name db.projects).map fun r => (r.name, r.createdAt)).filter
        (fun x => scope = x.1) ↔
      x.1 = scope ∧ (db.view c key scope).map ProjectView.createdAt = some x.2 := by
  simp only [List.mem_filter, List.mem_map, mem_orderBy, decide_eq_true_eq, Db.view,
    Option.map_map, Option.map_eq_some_iff]
  constructor
  · rintro ⟨⟨p, hp, rfl⟩, rfl⟩
    exact ⟨rfl, p, (project_iff conforms).mpr ⟨hp, rfl⟩, rfl⟩
  · rintro ⟨rfl, p, found, same⟩
    obtain ⟨hp, named⟩ := project_mem found
    exact ⟨⟨p, hp, Prod.ext named same⟩, rfl⟩

lemma listed_strict (scope : String) (conforms : db.Conforms) :
    (((orderBy ProjectRow.name db.projects).map fun r => (r.name, r.createdAt)).filter
      fun x => scope = x.1).Pairwise fun x y => x.1 < y.1 :=
  by
  have strict : ((orderBy ProjectRow.name db.projects).map
      fun r => (r.name, r.createdAt)).Pairwise fun x y => x.1 < y.1 :=
    List.pairwise_map.mpr (orderBy_strict conforms.projectNames)
  exact strict.filter _

lemma listProjects_indistinct (low : LowEq c key scope tokens db db')
    (inScope : token.scope = some scope) :
    Indistinct c key scope tokens db db' (Handlers.listProjects token)
      (Handlers.listProjects token) := by
  have pairs := eq_of_strict (listed_strict scope low.conforms) (listed_strict scope low.conforms')
    fun x => by rw [mem_listed c key low.conforms, mem_listed c key low.conforms', low.view]
  have listed := congrArg (List.map fun x : String × String => (⟨x.1, x.2⟩ : Project)) pairs
  simp only [List.filter_map, List.map_map, Function.comp_def] at listed
  refine Paired.query_then (Paired.pure ⟨?_, low⟩)
  simpa only [inScope, List.filter_map, Function.comp_def, Response.mk.injEq,
    ResponseBody.projects.injEq, true_and] using listed

/-- Projects that show the same list the same readings. -/
lemma readings_eq (conforms : db.Conforms) (conforms' : db'.Conforms) {p p' : ProjectRow}
    (view : db.viewOf c key p = db'.viewOf c key p') :
    (db.secretsOf p.id).map (fun r => (r.key, r.reading c key p.name)) =
      (db'.secretsOf p'.id).map fun r => (r.key, r.reading c key p'.name) := by
  refine eq_of_strict (secretsOf_strict conforms p) (secretsOf_strict conforms' p') fun x => ?_
  rw [secretsOf_entries conforms, secretsOf_entries conforms', view]

lemma getSecrets_indistinct (low : LowEq c key scope tokens db db')
    (inScope : token.scope = some scope) (name : String) :
    Indistinct c key scope tokens db db' (Handlers.getSecrets c key token name)
      (Handlers.getSecrets c key token name) := by
  refine indistinct_ensure low fun _ => ?_
  refine indistinct_scope low inScope fun own => ?_
  subst own
  refine indistinct_project low fun p p' found found' view => ?_
  refine Paired.query_then ?_
  have named : p.name = name := (project_mem found).2
  have named' : p'.name = name := (project_mem found').2
  have readings := readings_eq low.conforms low.conforms' view
  rw [named, named'] at readings
  rw [openRows_collect, openRows_collect, readings]
  exact indistinct_orReject low fun _ _ => Paired.pure ⟨rfl, low⟩

lemma viewOf_version (c : ServerCrates Key) (key : Key) {p : ProjectRow} (k : String) :
    (db.secret p.id k).map SecretRow.version = ((db.viewOf c key p).entries k).map Prod.snd := by
  simp [Db.viewOf, Function.comp_def]

lemma viewOf_present (c : ServerCrates Key) (key : Key) {p : ProjectRow} (k : String) :
    (db.secret p.id k).isSome = ((db.viewOf c key p).entries k).isSome := by
  simp [Db.viewOf]

lemma putSecret_indistinct (ideal : IdealAead.Ideal c.aead) (total : IdealAead.Total c.aead)
    (low : LowEq c key scope tokens db db') (inScope : token.scope = some scope)
    (name secretKey : String) (body : Except AppError SetSecretBody) :
    Indistinct c key scope tokens db db' (Handlers.putSecret c key token name secretKey body d)
      (Handlers.putSecret c key token name secretKey body d') := by
  refine indistinct_orReject low fun body _ => ?_
  refine indistinct_ensure low fun _ => ?_
  refine indistinct_scope low inScope fun own => ?_
  subst own
  refine indistinct_ensure low fun _ => ?_
  refine indistinct_project low fun p p' found found' view => ?_
  have sealing := encrypt_total total key d.nonce (utf8 body.value) (aadBytes name secretKey)
  have sealing' := encrypt_total total key d'.nonce (utf8 body.value) (aadBytes name secretKey)
  obtain ⟨ct, encrypted⟩ := sealing
  obtain ⟨ct', encrypted'⟩ := sealing'
  have owner := project_owns (project_mem found).1
  have owner' := project_owns (project_mem found').1
  have versions : (db.secret p.id secretKey).map SecretRow.version =
      (db'.secret p'.id secretKey).map SecretRow.version := by
    rw [viewOf_version c key, viewOf_version c key, view]
  have version := congrArg (fun o : Option Nat => (o.map (· + 1)).getD 1) versions
  simp only [Option.map_map, Function.comp_def] at version
  simp only [encrypted, encrypted', Except.mapError, orReject, lift_ok, pure_bind']
  refine Paired.bind (R := fun v v' s s' => v = v' ∧ LowEq c key name tokens s s')
    (Paired.mapError (Paired.of_ok (upsertSecret_nil owner) (upsertSecret_nil owner')
      ⟨version, ?_⟩)) ?_
  · refine ⟨putSecretRow_conforms low.conforms ⟨p, (project_mem found).1, rfl⟩,
      putSecretRow_conforms low.conforms' ⟨p', (project_mem found').1, rfl⟩, low.holds,
      low.holds', ?_⟩
    rw [view_putSecretRow ideal low.conforms found encrypted,
      view_putSecretRow ideal low.conforms' found' encrypted', view]
    simp
  · rintro v v' s s' ⟨rfl, after⟩
    exact Paired.pure ⟨rfl, after⟩

lemma deleteSecret_indistinct (low : LowEq c key scope tokens db db')
    (inScope : token.scope = some scope) (name secretKey : String) :
    Indistinct c key scope tokens db db' (Handlers.deleteSecret token name secretKey)
      (Handlers.deleteSecret token name secretKey) := by
  refine indistinct_ensure low fun _ => ?_
  refine indistinct_ensure low fun _ => ?_
  refine indistinct_scope low inScope fun own => ?_
  subst own
  refine indistinct_project low fun p p' found found' view => ?_
  have present : (db.secret p.id secretKey).isSome = (db'.secret p'.id secretKey).isSome := by
    rw [viewOf_present c key, viewOf_present c key, view]
  have after : LowEq c key name tokens (db.removeSecretRow p.id secretKey)
      (db'.removeSecretRow p'.id secretKey) := by
    refine ⟨removeSecretRow_conforms low.conforms, removeSecretRow_conforms low.conforms',
      low.holds, low.holds', ?_⟩
    rw [view_removeSecretRow low.conforms found, view_removeSecretRow low.conforms' found', view]
    simp
  refine Paired.bind (R := fun removed removed' s s' => removed = removed' ∧
    LowEq c key name tokens s s') (Paired.mapError (Paired.statement rfl rfl ⟨present, after⟩)) ?_
  rintro removed _ s s' ⟨rfl, after⟩
  cases removed with
  | true => exact Paired.pure ⟨rfl, after⟩
  | false => exact Paired.fail after

/-- A scoped token is no admin. -/
lemma admin_indistinct (low : LowEq c key scope tokens db db') (inScope : token.scope = some scope)
    {f f' : Unit → Handler Response} :
    Indistinct c key scope tokens db db' (orReject (ensureAdmin token) >>= f)
      (orReject (ensureAdmin token) >>= f') := by
  refine indistinct_orReject low fun _ admin => ?_
  simp [ensureAdmin, inScope] at admin

theorem perform_indistinct (ideal : IdealAead.Ideal c.aead) (total : IdealAead.Total c.aead)
    (low : LowEq c key scope tokens db db') (inScope : token.scope = some scope)
    (clock : SameClock c d d') (call : Call) :
    Indistinct c key scope tokens db db' (call.perform c key token d)
      (call.perform c key token d') := by
  cases call with
  | store call =>
    cases call with
    | createProject body => exact createProject_indistinct low inScope clock body
    | listProjects => exact listProjects_indistinct low inScope
    | getSecrets name => exact getSecrets_indistinct low inScope name
    | putSecret name secretKey body =>
      exact putSecret_indistinct ideal total low inScope name secretKey body
    | deleteSecret name secretKey => exact deleteSecret_indistinct low inScope name secretKey
  | createToken body => exact admin_indistinct low inScope
  | listTokens => exact admin_indistinct low inScope
  | revokeToken name => exact admin_indistinct low inScope

end Scoped

/-- A scoped request, from the router on. -/
lemma handle_indistinct (ideal : IdealAead.Ideal c.aead) (total : IdealAead.Total c.aead)
    (low : LowEq c key scope tokens db db') {r : Request} {d d' : Draws c.time}
    (underScope : ScopedRequest c scope tokens r d.authenticatedAt.instant)
    (clock : SameClock c d d') :
    Indistinct c key scope tokens db db' (handle c key r d) (handle c key r d') := by
  unfold handle
  rw [← clock.authenticatedAt]
  cases r.routed c with
  | answered response => exact Paired.pure ⟨rfl, low⟩
  | guarded call =>
    refine Paired.bind (R := fun token token' s s' => token = token' ∧
      token.scope = some scope ∧ LowEq c key scope tokens s s') ?_ ?_
    · unfold extractToken
      cases bearer : extractBearer r.authorization with
      | none => exact Paired.fail low
      | some bearer' =>
        refine Paired.query_then ?_
        rw [low.holds, low.holds']
        cases found : authenticateRows c.time d.authenticatedAt.instant
          (hashToken c.toCryptoCrates bearer') (tokens.filter fun row => row.revoked = false) with
        | none => exact Paired.fail low
        | some token =>
          obtain ⟨row, hrow, accepted, rfl⟩ := authenticateRows_some found
          exact Paired.pure ⟨rfl, underScope bearer' bearer row hrow accepted, low⟩
    · rintro token _ s s' ⟨rfl, inScope, low⟩
      cases call with
      | error _ => exact Paired.pure ⟨rfl, low⟩
      | ok call => exact perform_indistinct ideal total low inScope clock call

/-- A scoped request is answered alike and leaves the databases alike. -/
theorem serve_observed (ideal : IdealAead.Ideal c.aead) (total : IdealAead.Total c.aead)
    (low : LowEq c key scope tokens db db') {r : Request} {d d' : Draws c.time}
    (underScope : ScopedRequest c scope tokens r d.authenticatedAt.instant)
    (clock : SameClock c d d') :
    (serve c key r d db).1 = (serve c key r d' db').1 ∧
      LowEq c key scope tokens (serve c key r d db).2 (serve c key r d' db').2 := by
  obtain ⟨same, after⟩ := (handle_indistinct ideal total low underScope clock).run_eq
  exact ⟨congrArg (reply r.method) same, after⟩

/-! ## Requests on other projects -/

/-- What the scope sees of one database. -/
structure SameSight (c : ServerCrates Key) (key : Key) (scope : String) (db db' : Db) : Prop where
  conforms : db'.Conforms
  tokens : db'.tokens = db.tokens
  view : db'.view c key scope = db.view c key scope

lemma view_put_elsewhere (ideal : IdealAead.Ideal c.aead) (conforms : db.Conforms)
    {token : AuthedToken} {d : Draws c.time} {name secretKey value : String} {p : ProjectRow}
    {n ct : Bytes} (apart : name ≠ scope)
    (checked : PutChecked c key token d db name secretKey value p n ct) :
    SameSight c key scope db (db.putSecretRow p.id secretKey n ct d.writtenAt.rfc3339) := by
  refine ⟨putSecretRow_conforms conforms checked.owner, rfl, ?_⟩
  rw [view_putSecretRow ideal conforms checked.found checked.encrypted,
    Function.update_of_ne (Ne.symm apart)]

lemma Outcome.sameSight (ideal : IdealAead.Ideal c.aead) (conforms : db.Conforms)
    {token : AuthedToken} {d : Draws c.time} {call : StoreCall} {response : Response}
    (h : Outcome c key token d db (.store call) response db')
    (apart : call.LeavesAlone scope) : SameSight c key scope db db' := by
  cases h with
  | createProject body valid inScope fresh =>
    refine ⟨addProject_conforms conforms fresh, rfl, ?_⟩
    rw [view_addProject conforms fresh, Function.update_of_ne (Ne.symm apart)]
  | listProjects => exact ⟨conforms, rfl, rfl⟩
  | getSecrets => exact ⟨conforms, rfl, rfl⟩
  | putSecret name secretKey body p n ct row checked stored =>
    exact view_put_elsewhere ideal conforms apart checked
  | deleteSecret name secretKey p validName validKey inScope found present =>
    refine ⟨removeSecretRow_conforms conforms, rfl, ?_⟩
    rw [view_removeSecretRow conforms found, Function.update_of_ne (Ne.symm apart)]

/-- The scope sees no request on other projects, whoever sends it. -/
theorem serve_elsewhere (ideal : IdealAead.Ideal c.aead) (conforms : db.Conforms) {r : Request}
    {d : Draws c.time} {call : StoreCall} (routed : r.routed c = .guarded (.ok (.store call)))
    (apart : call.LeavesAlone scope) : SameSight c key scope db (serve c key r d db).2 := by
  have whole : Triple (fun s => s = db) (handle c key r d) _ _ := handle_triple r
  have ends := whole.elim (s := ⟨db, []⟩) rfl
  unfold serve run
  generalize (handle c key r d ⟨db, []⟩).2.store = db' at ends
  rcases ends with ⟨response, _, handled⟩ | ⟨e, _, rfl | ⟨token, call', routed', _, leftover⟩⟩
  · cases handled with
    | answered routed' => exact ⟨conforms, rfl, rfl⟩
    | invalidPath => exact ⟨conforms, rfl, rfl⟩
    | called token call' routed' _ outcome =>
      obtain rfl : call' = .store call := by
        rw [routed] at routed'
        cases routed'
        rfl
      exact outcome.sameSight ideal conforms apart
  · exact ⟨conforms, rfl, rfl⟩
  · rcases leftover with rfl | ⟨name, secretKey, body, p, n, ct, rfl, checked, rfl⟩
    · exact ⟨conforms, rfl, rfl⟩
    · obtain rfl : call = .putSecret name secretKey (.ok body) := by
        rw [routed] at routed'
        cases routed'
        rfl
      exact view_put_elsewhere ideal conforms apart checked

lemma LowEq.left (low : LowEq c key scope tokens db db') {db₁ : Db}
    (unseen : SameSight c key scope db db₁) : LowEq c key scope tokens db₁ db' :=
  ⟨unseen.conforms, low.conforms', unseen.tokens.trans low.holds, low.holds',
    unseen.view.trans low.view⟩

lemma LowEq.right (low : LowEq c key scope tokens db db') {db₁ : Db}
    (unseen : SameSight c key scope db' db₁) : LowEq c key scope tokens db db₁ :=
  ⟨low.conforms, unseen.conforms, low.holds, unseen.tokens.trans low.holds',
    low.view.trans unseen.view.symm⟩

/-! ## Runs -/

/-- From databases that agree on the tokens and on one project, two runs with the same scoped
requests answer them alike, whatever happens to other projects in each. -/
theorem scoped_noninterference (ideal : IdealAead.Ideal c.aead) (total : IdealAead.Total c.aead)
    {es es' : List (Event c)} (runs : Interleaved c scope tokens es es')
    (low : LowEq c key scope tokens db db') : observe c key db es = observe c key db' es' := by
  induction runs generalizing db db' with
  | done => rfl
  | both r d d' underScope clock rest ih =>
    obtain ⟨same, after⟩ := serve_observed ideal total low underScope clock
    unfold observe
    rw [same, ih after]
  | left r d call routed apart rest ih =>
    exact ih (low.left (serve_elsewhere ideal low.conforms routed apart))
  | right r d call routed apart rest ih =>
    exact ih (low.right (serve_elsewhere ideal low.conforms' routed apart))

/-! ## A run beside an empty one -/

/-- One token scoped to `app` and one for all, and projects. -/
def scopedDb (projects : List ProjectRow) : Db where
  metaTable := []
  projects := projects
  secrets := []
  tokens := [⟨1, "ci", utf8 "tok", some "app", "t", false, none⟩,
    ⟨2, "root", utf8 "all", none, "t", false, none⟩]

def twoProjects : Db := scopedDb [⟨1, "other", "t"⟩, ⟨2, "app", "t"⟩]

def oneProject : Db := scopedDb [⟨2, "app", "t"⟩]

def listRequest : Request := bearerRequest .get "/v1/projects" "tok" ""

def putOther : Request :=
  bearerRequest .put "/v1/projects/other/secrets/KEY" "all" "\x7b\"value\":\"v\"\x7d"

/-- Another project that is written to, or that does not exist, is the same to the scope. -/
theorem scoped_noninterference_otherProject :
    observe framedServer [7] twoProjects
        [.elsewhere putOther (epochDraws ""), .observed listRequest (epochDraws "")] =
      observe framedServer [7] oneProject [.observed listRequest (epochDraws "")] := by
  have runs : Interleaved framedServer "app" oneProject.tokens
      [.elsewhere putOther (epochDraws ""), .observed listRequest (epochDraws "")]
      [.observed listRequest (epochDraws "")] := by
    refine .left putOther (epochDraws "") (.putSecret "other" "KEY" (.ok ⟨"v"⟩)) rfl
      (show "other" ≠ "app" by decide) (.both listRequest _ _ ?_ ⟨rfl, rfl⟩ .done)
    intro bearer sent row hrow accepted
    obtain rfl : "tok" = bearer := Option.some.inj ((by decide :
      extractBearer listRequest.authorization = some "tok").symm.trans sent)
    revert row
    decide
  have conforms : twoProjects.Conforms := by decide
  have conforms' : oneProject.Conforms := by decide
  exact scoped_noninterference Framing.framedAead_ideal Framing.framedAead_total runs
    (lowEq_of_rows conforms conforms' rfl (by decide) fun _ _ _ => rfl)

end SecretsManager
