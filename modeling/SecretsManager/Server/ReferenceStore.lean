import SecretsManager.Server.View

/-!
# The store as a plain map

The purpose of the store: a map from projects to maps from keys to a value and a
version. The handlers over encrypted rows answer every sequence of calls with the
statuses and bodies of this map.
-/

namespace SecretsManager

open KeyedTable FaultySession Collect

structure RefProject where
  createdAt : String
  secrets : Std.ExtTreeMap String (String × Nat)

abbrev RefStore : Type := Std.ExtTreeMap String RefProject

namespace RefStore

def check (ok : Bool) (e : AppError) : Except AppError Unit := if ok then .ok () else .error e

def project (st : RefStore) (name : String) : Except AppError RefProject :=
  match st[name]? with
  | some p => .ok p
  | none => .error .notFound

/-- A call on the map: its response and the map after it, or the error it stops with. -/
def call (token : AuthedToken) (now : String) (st : RefStore) :
    StoreCall → Except AppError (Response × RefStore)
  | .createProject body => do
    let body ← body
    check (validProject body.name) (.badRequest "invalid project name")
    ensureScope token body.name
    check st[body.name]?.isNone (.conflict "project already exists")
    pure (⟨201, .project body.name⟩, st.insert body.name ⟨now, ∅⟩)
  | .listProjects =>
    let seen := (st.toList.map fun (name, p) => (⟨name, p.createdAt⟩ : Project)).filter fun p =>
      match token.scope with
      | some s => s = p.name
      | none => true
    pure (⟨200, .projects seen⟩, st)
  | .getSecrets name => do
    check (validProject name) (.badRequest "invalid project name")
    ensureScope token name
    let p ← st.project name
    pure (⟨200, .secrets (p.secrets.map fun _ entry => entry.1)⟩, st)
  | .putSecret name key body => do
    let body ← body
    check (validProject name) (.badRequest "invalid project name")
    ensureScope token name
    check (validKey key) (.badRequest "invalid key name")
    let p ← st.project name
    let version := (p.secrets[key]?.map fun entry => entry.2 + 1).getD 1
    pure (⟨200, .version key version⟩,
      st.insert name { p with secrets := p.secrets.insert key (body.value, version) })
  | .deleteSecret name key => do
    check (validProject name) (.badRequest "invalid project name")
    check (validKey key) (.badRequest "invalid key name")
    ensureScope token name
    let p ← st.project name
    check p.secrets[key]?.isSome .notFound
    pure (⟨204, .empty⟩, st.insert name { p with secrets := p.secrets.erase key })

def step (token : AuthedToken) (now : String) (call : StoreCall) (st : RefStore) :
    Response × RefStore :=
  match st.call token now call with
  | .ok out => out
  | .error e => (e.intoResponse, st)

end RefStore

variable {Key : Type} (c : ServerCrates Key)

/-- What is stored under a project and a key. -/
def RefStore.entry (st : RefStore) (name key : String) : Option (String × Nat) :=
  st[name]?.bind fun p => p.secrets[key]?

/-- A call with its token and what it draws. -/
structure StoreOp where
  token : AuthedToken
  call : StoreCall
  draws : Draws c.time

def StoreOp.serve (key : Key) (op : StoreOp c) (db : Db) : Option Response × Db :=
  let out := run (op.call.perform c key op.token op.draws) db
  (reply .get out.1, out.2)

/-- The responses of a server to a sequence of calls, and the database they leave. -/
def serverRun (key : Key) (db : Db) : List (StoreOp c) → List (Option Response) × Db
  | [] => ([], db)
  | op :: ops =>
    let out := op.serve c key db
    (out.1 :: (serverRun key out.2 ops).1, (serverRun key out.2 ops).2)

def refRun (st : RefStore) : List (StoreOp c) → List Response × RefStore
  | [] => ([], st)
  | op :: ops =>
    let out := st.step op.token op.draws.writtenAt.rfc3339 op.call
    (out.1 :: (refRun out.2 ops).1, (refRun out.2 ops).2)

/-- What an answered call says is stored under a project and a key now: a put that was
answered 200 stores its value at the version answered, a delete answered 204 removes it. -/
def told (name key : String) (entry : Option (String × Nat)) :
    StoreOp c × Option Response → Option (String × Nat)
  | (⟨_, .putSecret n k (.ok body), _⟩, some ⟨200, .version _ version⟩) =>
    if n = name ∧ k = key then some (body.value, version) else entry
  | (⟨_, .deleteSecret n k, _⟩, some ⟨204, _⟩) => if n = name ∧ k = key then none else entry
  | _ => entry

/-! ## The database stands for the map -/

/-- A project of the map as the view of a database would show it. -/
def RefProject.view (p : RefProject) : ProjectView where
  createdAt := p.createdAt
  entries k := p.secrets[k]?.map fun entry => (.ok entry.1, entry.2)

structure Refines (key : Key) (db : Db) (st : RefStore) : Prop where
  conforms : db.Conforms
  views : ∀ name, db.view c key name = st[name]?.map RefProject.view

variable {c} {key : Key} {db : Db} {st : RefStore}

/-- With no fault the handler ends as the function on the map does. -/
def Follows {α β : Type} (m : Handler α) (db : Db) (r : Except AppError β)
    (V : α → β → Db → Prop) : Prop :=
  match r with
  | .ok b => ∃ a s, m ⟨db, []⟩ = (.ok a, s) ∧ V a b s.store
  | .error e => ∃ s, m ⟨db, []⟩ = (.error (.app e), s) ∧ s.store = db

section Follows

variable {α β γ δ : Type} {V : γ → δ → Db → Prop}

lemma follows_orReject {r : Except AppError α} {f : α → Handler γ} {g : α → Except AppError δ}
    (next : ∀ a, r = .ok a → Follows (f a) db (g a) V) :
    Follows (orReject r >>= f) db (r >>= g) V := by
  cases r with
  | ok a => exact next a rfl
  | error e => exact ⟨_, rfl, rfl⟩

lemma follows_ensure {ok : Bool} {e : AppError} {f : Unit → Handler γ}
    {g : Unit → Except AppError δ} (next : ok = true → Follows (f ()) db (g ()) V) :
    Follows (ensure ok e >>= f) db (RefStore.check ok e >>= g) V := by
  cases ok with
  | true => exact next rfl
  | false => exact ⟨_, rfl, rfl⟩

lemma follows_query {e : SqliteError} {q : Db → α} {f : α → Handler γ} {r : Except AppError δ}
    (next : Follows (f (q db)) db r V) : Follows (database (query e q) >>= f) db r V := next

lemma Refines.found (h : Refines c key db st) {p : ProjectRow} {name : String}
    (hp : db.project name = some p) :
    ∃ rp, st[name]? = some rp ∧ db.viewOf c key p = rp.view := by
  have views := h.views name
  rw [view_eq hp] at views
  obtain ⟨rp, hrp, view⟩ := Option.map_eq_some_iff.mp views.symm
  exact ⟨rp, hrp, view.symm⟩

lemma Refines.absent (h : Refines c key db st) {name : String}
    (hp : db.project name = none) : st[name]? = none := by
  have views := h.views name
  rw [view_none.mpr hp] at views
  exact Option.map_eq_none_iff.mp views.symm

lemma follows_project (h : Refines c key db st) {name : String} {f : Nat → Handler γ}
    {g : RefProject → Except AppError δ}
    (next : ∀ p rp, db.project name = some p → st[name]? = some rp →
      db.viewOf c key p = rp.view → Follows (f p.id) db (g rp) V) :
    Follows (do
      let some pid ← database (Repo.projectId name) | reject .notFound
      f pid) db (st.project name >>= g) V := by
  refine follows_query ?_
  cases hp : db.project name with
  | none =>
    simp only [RefStore.project, h.absent hp]
    exact ⟨_, rfl, rfl⟩
  | some p =>
    obtain ⟨rp, hrp, view⟩ := h.found hp
    simp only [RefStore.project, hrp]
    exact next p rp hp hrp view

end Follows

/-! ## Each handler follows the map -/

/-- The response is the map's and the database stands for the map after it. -/
def Agrees (c : ServerCrates Key) (key : Key) (response : Response) (out : Response × RefStore)
    (db : Db) : Prop := response = out.1 ∧ Refines c key db out.2

lemma refines_insert (h : Refines c key db st) {db' : Db} {name : String} {rp : RefProject}
    (conforms : db'.Conforms)
    (views : db'.view c key = Function.update (db.view c key) name (some rp.view)) :
    Refines c key db' (st.insert name rp) := by
  refine ⟨conforms, fun name' => ?_⟩
  rw [views, Std.ExtTreeMap.getElem?_insert]
  by_cases same : name' = name
  · subst same
    simp
  · have ne : compare name name' ≠ .eq := by simpa using Ne.symm same
    rw [Function.update_of_ne same, if_neg ne]
    exact h.views name'

variable {token : AuthedToken} {d : Draws c.time}

lemma createProject_follows (h : Refines c key db st) (body : Except AppError CreateProjectBody) :
    Follows (Handlers.createProject c token body d) db
      (st.call token d.writtenAt.rfc3339 (.createProject body)) (Agrees c key) := by
  refine follows_orReject fun body _ => ?_
  refine follows_ensure fun _ => ?_
  refine follows_orReject fun _ _ => ?_
  refine follows_query ?_
  cases hp : db.project body.name with
  | some p =>
    obtain ⟨rp, hrp, _⟩ := h.found hp
    simp only [hrp]
    exact ⟨_, rfl, rfl⟩
  | none =>
    simp only [h.absent hp]
    refine ⟨_, ⟨db.addProject body.name d.writtenAt.rfc3339, []⟩, ?_, rfl, ?_⟩
    · simp [ensure, database, Repo.createProject, bind_apply, mapError_apply, statement_nil, hp]
    · refine refines_insert h (addProject_conforms h.conforms hp) ?_
      rw [view_addProject h.conforms hp]
      simp [RefProject.view]

lemma listProjects_pairs (h : Refines c key db st) :
    (orderBy ProjectRow.name db.projects).map (fun r => (r.name, r.createdAt)) =
      st.toList.map fun x => (x.1, x.2.createdAt) := by
  refine eq_of_strict ?_ ?_ ?_
  · exact List.pairwise_map.mpr (orderBy_strict h.conforms.projectNames)
  · refine List.pairwise_map.mpr ((Std.ExtTreeMap.ordered_keys_toList).imp ?_)
    intro x y less
    exact compare_lt_iff_lt.mp less
  · rintro ⟨name, text⟩
    simp only [List.mem_map, mem_orderBy, Prod.mk.injEq, Prod.exists,
      Std.ExtTreeMap.mem_toList_iff_getElem?_eq_some]
    constructor
    · rintro ⟨p, hp, rfl, rfl⟩
      obtain ⟨rp, hrp, view⟩ := h.found ((project_iff h.conforms).mpr ⟨hp, rfl⟩)
      exact ⟨p.name, rp, hrp, rfl, (congrArg ProjectView.createdAt view).symm⟩
    · rintro ⟨name', rp, hrp, rfl, rfl⟩
      have views := h.views name'
      rw [hrp] at views
      obtain ⟨p, hp, rfl, view⟩ := view_some views
      exact ⟨p, (project_mem hp).1, rfl, (congrArg ProjectView.createdAt view).symm⟩

lemma listProjects_follows (h : Refines c key db st) :
    Follows (Handlers.listProjects token) db (st.call token d.writtenAt.rfc3339 .listProjects)
      (Agrees c key) := by
  refine ⟨_, ⟨db, []⟩, rfl, ?_, h⟩
  have pairs := congrArg (List.map fun x : String × String => (⟨x.1, x.2⟩ : Project))
    (listProjects_pairs h)
  simp only [List.map_map, Function.comp_def] at pairs
  exact congrArg (fun ps : List Project => (⟨200, .projects (ps.filter _)⟩ : Response)) pairs

lemma getSecrets_values (h : Refines c key db st) {p : ProjectRow} {rp : RefProject}
    (view : db.viewOf c key p = rp.view) :
    Handlers.openRows c key p.name ∅ ((db.secretsOf p.id).map SecretRow.stored) =
      .ok (rp.secrets.map fun _ entry => entry.1) := by
  have entries : ∀ k, (db.viewOf c key p).entries k =
      rp.secrets[k]?.map fun entry => (.ok entry.1, entry.2) := by
    intro k
    rw [view]
    rfl
  have texts : ∀ x ∈ (db.secretsOf p.id).map (fun r => (r.key, r.reading c key p.name)),
      ∃ v, x.2 = .ok v := by
    intro x hx
    have read := (secretsOf_entries h.conforms x).mp hx
    rw [entries, Option.map_map, Option.map_eq_some_iff] at read
    obtain ⟨entry, _, same⟩ := read
    exact ⟨entry.1, same.symm⟩
  obtain ⟨out, collected, spec⟩ := collect_ok texts
    ((secretsOf_strict h.conforms p).imp fun less => ne_of_lt less) ∅
  rw [openRows_collect, collected]
  congr 1
  apply Std.ExtTreeMap.ext_getElem?
  intro k
  apply Option.ext
  intro v
  rw [spec, secretsOf_entries h.conforms, entries, Std.ExtTreeMap.getElem?_map]
  simp

lemma getSecrets_follows (h : Refines c key db st) (name : String) :
    Follows (Handlers.getSecrets c key token name) db
      (st.call token d.writtenAt.rfc3339 (.getSecrets name)) (Agrees c key) := by
  refine follows_ensure fun _ => ?_
  refine follows_orReject fun _ _ => ?_
  refine follows_project h fun p rp hp hrp view => ?_
  refine follows_query ?_
  obtain ⟨_, rfl⟩ := project_mem hp
  rw [getSecrets_values h view]
  exact ⟨_, ⟨db, []⟩, rfl, rfl, h⟩

lemma putSecret_follows (ideal : IdealAead.Ideal c.aead) (total : IdealAead.Total c.aead)
    (h : Refines c key db st) (name secretKey : String) (body : Except AppError SetSecretBody) :
    Follows (Handlers.putSecret c key token name secretKey body d) db
      (st.call token d.writtenAt.rfc3339 (.putSecret name secretKey body)) (Agrees c key) := by
  refine follows_orReject fun body _ => ?_
  refine follows_ensure fun _ => ?_
  refine follows_orReject fun _ _ => ?_
  refine follows_ensure fun _ => ?_
  refine follows_project h fun p rp hp hrp view => ?_
  obtain ⟨ct, encrypted⟩ := encrypt_total total key d.nonce (utf8 body.value)
    (aadBytes name secretKey)
  have versions : (db.secret p.id secretKey).map SecretRow.version =
      rp.secrets[secretKey]?.map Prod.snd := by
    have same := congrFun (congrArg ProjectView.entries view) secretKey
    have second := congrArg (Option.map Prod.snd) same
    simpa [Db.viewOf, RefProject.view, Function.comp_def] using second
  have version : ((db.secret p.id secretKey).map fun r => r.version + 1).getD 1 =
      (rp.secrets[secretKey]?.map fun entry => entry.2 + 1).getD 1 := by
    have next := congrArg (fun o : Option Nat => (o.map (· + 1)).getD 1) versions
    simpa only [Option.map_map, Function.comp_def] using next
  refine ⟨⟨200, .version secretKey (((db.secret p.id secretKey).map fun r => r.version + 1).getD 1)⟩,
    ⟨db.putSecretRow p.id secretKey d.nonce.bytes ct d.writtenAt.rfc3339, []⟩, ?_, ?_⟩
  · simp only [encrypted, Except.mapError, orReject, lift_ok, pure_bind', database, bind_apply,
      mapError_apply, upsertSecret_nil (project_owns (project_mem hp).1)]
    rfl
  · refine ⟨by rw [version], refines_insert h (putSecretRow_conforms h.conforms
      ⟨p, (project_mem hp).1, rfl⟩) ?_⟩
    rw [view_putSecretRow ideal h.conforms hp encrypted, view]
    congr 2
    simp only [ProjectView.put, RefProject.view, ProjectView.mk.injEq, true_and]
    funext k
    rw [Std.ExtTreeMap.getElem?_insert]
    by_cases here : k = secretKey
    · subst here
      cases rp.secrets[k]? <;> simp [putEntry]
    · have ne : compare secretKey k ≠ .eq := by simpa using Ne.symm here
      simp [here, ne]

lemma deleteSecret_follows (h : Refines c key db st) (name secretKey : String) :
    Follows (Handlers.deleteSecret token name secretKey) db
      (st.call token d.writtenAt.rfc3339 (.deleteSecret name secretKey)) (Agrees c key) := by
  refine follows_ensure fun _ => ?_
  refine follows_ensure fun _ => ?_
  refine follows_orReject fun _ _ => ?_
  refine follows_project h fun p rp hp hrp view => ?_
  have present : (db.secret p.id secretKey).isSome = rp.secrets[secretKey]?.isSome := by
    have same := congrFun (congrArg ProjectView.entries view) secretKey
    have some := congrArg Option.isSome same
    simpa [Db.viewOf, RefProject.view] using some
  cases found : db.secret p.id secretKey with
  | none =>
    rw [found] at present
    simp only [← present]
    refine ⟨⟨db.removeSecretRow p.id secretKey, []⟩, ?_, removeSecretRow_absent found⟩
    simp [database, Repo.deleteSecret, bind_apply, mapError_apply, statement_nil, found, reject]
  | some r =>
    rw [found] at present
    simp only [← present]
    refine ⟨_, ⟨db.removeSecretRow p.id secretKey, []⟩, ?_, rfl, ?_⟩
    · simp [database, Repo.deleteSecret, bind_apply, mapError_apply, statement_nil, found]
    · refine refines_insert h (removeSecretRow_conforms h.conforms) ?_
      rw [view_removeSecretRow h.conforms hp, view]
      congr 2
      simp only [ProjectView.delete, RefProject.view, ProjectView.mk.injEq, true_and]
      funext k
      rw [Std.ExtTreeMap.getElem?_erase]
      by_cases here : k = secretKey
      · simp [here]
      · have ne : compare secretKey k ≠ .eq := by simpa using Ne.symm here
        simp [here, ne]

/-! ## Runs -/

theorem perform_follows (ideal : IdealAead.Ideal c.aead) (total : IdealAead.Total c.aead)
    (h : Refines c key db st) (call : StoreCall) :
    Follows (call.perform c key token d) db (st.call token d.writtenAt.rfc3339 call)
      (Agrees c key) := by
  cases call with
  | createProject body => exact createProject_follows h body
  | listProjects => exact listProjects_follows h
  | getSecrets name => exact getSecrets_follows h name
  | putSecret name secretKey body => exact putSecret_follows ideal total h name secretKey body
  | deleteSecret name secretKey => exact deleteSecret_follows h name secretKey

/-- One call has the response of the map and leaves a database for the map after it. -/
lemma serve_refines (ideal : IdealAead.Ideal c.aead) (total : IdealAead.Total c.aead)
    (h : Refines c key db st) (op : StoreOp c) :
    (op.serve c key db).1 = some (st.step op.token op.draws.writtenAt.rfc3339 op.call).1 ∧
    Refines c key (op.serve c key db).2
      (st.step op.token op.draws.writtenAt.rfc3339 op.call).2 := by
  have follows : Follows (op.call.perform c key op.token op.draws) db _ _ :=
    perform_follows ideal total h op.call
  unfold StoreOp.serve RefStore.step run
  cases hr : st.call op.token op.draws.writtenAt.rfc3339 op.call with
  | ok out =>
    rw [hr] at follows
    obtain ⟨response, s, ran, rfl, refines⟩ := follows
    rw [ran]
    exact ⟨rfl, refines⟩
  | error e =>
    rw [hr] at follows
    obtain ⟨s, ran, same⟩ := follows
    rw [ran]
    exact ⟨rfl, same ▸ h⟩

lemma project_ok {name : String} {p : RefProject} (h : st.project name = .ok p) :
    st[name]? = some p := by
  unfold RefStore.project at h
  split at h <;> cases h
  assumption

lemma entry_insert {name name' k : String} {p : RefProject} :
    RefStore.entry (st.insert name p) name' k =
      if name = name' then p.secrets[k]? else st.entry name' k := by
  unfold RefStore.entry
  rw [Std.ExtTreeMap.getElem?_insert]
  by_cases same : name = name'
  · simp [same]
  · have ne : compare name name' ≠ .eq := by simpa using same
    simp [same, ne]

/-- The map changes as its responses tell. -/
lemma step_told (op : StoreOp c) (name k : String) :
    (st.step op.token op.draws.writtenAt.rfc3339 op.call).2.entry name k =
      told c name k (st.entry name k)
        (op, some (st.step op.token op.draws.writtenAt.rfc3339 op.call).1) := by
  obtain ⟨token, call, d⟩ := op
  unfold RefStore.step
  cases hr : st.call token d.writtenAt.rfc3339 call with
  | error e =>
    simp only
    cases call with
    | putSecret n k body => cases body <;> cases e <;> rfl
    | deleteSecret n k => cases e <;> rfl
    | createProject body => rfl
    | listProjects => rfl
    | getSecrets n => rfl
  | ok out =>
    cases call with
    | listProjects =>
      cases hr
      rfl
    | getSecrets n =>
      obtain ⟨_, _, hr⟩ := except_bind_ok.mp hr
      obtain ⟨_, _, hr⟩ := except_bind_ok.mp hr
      obtain ⟨_, _, hr⟩ := except_bind_ok.mp hr
      cases hr
      rfl
    | createProject body =>
      obtain ⟨body, _, hr⟩ := except_bind_ok.mp hr
      obtain ⟨_, _, hr⟩ := except_bind_ok.mp hr
      obtain ⟨_, _, hr⟩ := except_bind_ok.mp hr
      obtain ⟨_, fresh, hr⟩ := except_bind_ok.mp hr
      cases hr
      have absent : st[body.name]? = none := by
        cases hst : st[body.name]? with
        | none => rfl
        | some p => simp [RefStore.check, hst] at fresh
      simp only [entry_insert, told]
      by_cases same : body.name = name
      · subst same
        simp [RefStore.entry, absent]
      · rw [if_neg same]
    | putSecret n k' body =>
      obtain ⟨request, sent, hr⟩ := except_bind_ok.mp hr
      obtain ⟨_, _, hr⟩ := except_bind_ok.mp hr
      obtain ⟨_, _, hr⟩ := except_bind_ok.mp hr
      obtain ⟨_, _, hr⟩ := except_bind_ok.mp hr
      obtain ⟨p, hp, hr⟩ := except_bind_ok.mp hr
      cases hr
      subst sent
      simp only [entry_insert, told, Std.ExtTreeMap.getElem?_insert]
      by_cases same : n = name
      · subst same
        by_cases here : k' = k
        · simp [here]
        · have ne : compare k' k ≠ .eq := by simpa using here
          simp [here, ne, RefStore.entry, project_ok hp]
      · simp [same]
    | deleteSecret n k' =>
      obtain ⟨_, _, hr⟩ := except_bind_ok.mp hr
      obtain ⟨_, _, hr⟩ := except_bind_ok.mp hr
      obtain ⟨_, _, hr⟩ := except_bind_ok.mp hr
      obtain ⟨p, hp, hr⟩ := except_bind_ok.mp hr
      obtain ⟨_, _, hr⟩ := except_bind_ok.mp hr
      cases hr
      simp only [entry_insert, told, Std.ExtTreeMap.getElem?_erase]
      by_cases same : n = name
      · subst same
        by_cases here : k' = k
        · simp [here]
        · have ne : compare k' k ≠ .eq := by simpa using here
          simp [here, ne, RefStore.entry, project_ok hp]
      · simp [same]

lemma run_told (ops : List (StoreOp c)) (st : RefStore) (name k : String) :
    (refRun c st ops).2.entry name k =
      (ops.zip ((refRun c st ops).1.map some)).foldl (told c name k) (st.entry name k) := by
  induction ops generalizing st with
  | nil => rfl
  | cons op ops ih =>
    simp only [refRun, List.map_cons, List.zip_cons_cons, List.foldl_cons]
    rw [ih, step_told]

lemma run_refines (ideal : IdealAead.Ideal c.aead) (total : IdealAead.Total c.aead)
    (ops : List (StoreOp c)) (db : Db) (st : RefStore) (h : Refines c key db st) :
    (serverRun c key db ops).1 = (refRun c st ops).1.map some ∧
      Refines c key (serverRun c key db ops).2 (refRun c st ops).2 := by
  induction ops generalizing db st with
  | nil => exact ⟨rfl, h⟩
  | cons op ops ih =>
    obtain ⟨response, after⟩ := serve_refines ideal total h op
    obtain ⟨responses, final⟩ := ih _ _ after
    simp only [serverRun, refRun, List.map_cons, response, responses, true_and]
    exact final

/-- The responses to every sequence of calls are those of the map, and the map holds what
the responses tell. -/
theorem http_store_refines_map (ideal : IdealAead.Ideal c.aead) (total : IdealAead.Total c.aead)
    (start : Db) (st : RefStore) (h : Refines c key start st) (ops : List (StoreOp c)) :
    (serverRun c key start ops).1 = (refRun c st ops).1.map some ∧
    Refines c key (serverRun c key start ops).2 (refRun c st ops).2 ∧
    ∀ name k, (refRun c st ops).2.entry name k =
      (ops.zip (serverRun c key start ops).1).foldl (told c name k) (st.entry name k) := by
  obtain ⟨responses, final⟩ := run_refines ideal total ops start st h
  refine ⟨responses, final, fun name k => ?_⟩
  rw [responses]
  exact run_told ops st name k

lemma refines_empty (conforms : db.Conforms) (projects : db.projects = []) :
    Refines c key db ∅ := by
  refine ⟨conforms, fun name => ?_⟩
  have absent : db.project name = none := by
    unfold Db.project
    rw [projects]
    rfl
  rw [view_none.mpr absent]
  simp

/-- A project is created, and a secret is put and read. -/
def putAndGet : List (StoreOp framedServer) :=
  let token : AuthedToken := ⟨"root", none⟩
  [⟨token, .createProject (.ok ⟨"app"⟩), epochDraws ""⟩,
    ⟨token, .putSecret "app" "KEY" (.ok ⟨"v"⟩), epochDraws ""⟩,
    ⟨token, .getSecrets "app", epochDraws ""⟩]

theorem http_store_refines_map_putAndGet :
    (serverRun framedServer [7] .empty putAndGet).1 =
      (refRun framedServer ∅ putAndGet).1.map some ∧
    Refines framedServer [7] (serverRun framedServer [7] .empty putAndGet).2
      (refRun framedServer ∅ putAndGet).2 ∧
    ∀ name k, (refRun framedServer ∅ putAndGet).2.entry name k =
      (putAndGet.zip (serverRun framedServer [7] .empty putAndGet).1).foldl
        (told framedServer name k) (RefStore.entry ∅ name k) :=
  http_store_refines_map Framing.framedAead_ideal Framing.framedAead_total .empty ∅
    (refines_empty Db.empty_conforms rfl) putAndGet

end SecretsManager
