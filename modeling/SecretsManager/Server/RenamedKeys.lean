import SecretsManager.Server.Audit
import SecretsManager.Server.View
import SecretsManager.Lib.PairedRuns

/-!
# Values and names of keys, exchanged

Two requests that differ in the value of a put and in a renaming of the keys, on tables
that are alike row by row: other ciphertexts, which open, under renamed keys. Every
handler answers both with the same status and leaves the tables alike.
-/

namespace SecretsManager

open FaultySession KeyedTable

variable {Key : Type} (c : ServerCrates Key)

/-! ## Requests that differ in secrets -/

/-- The valid key a path names, on the route of one secret. -/
def Request.secretKey (r : Request) : Option String :=
  match matchRoute (pathSegments r.path) with
  | some (.secret _ raw) => (percentDecode raw).filter validKey
  | _ => none

/-- The same path, but for the key, which is renamed if it is a valid one. -/
def SamePath (ρ : String → String) (r r' : Request) : Prop :=
  match r.secretKey with
  | none => r'.path = r.path
  | some k => ∃ name raw raw', matchRoute (pathSegments r.path) = some (.secret name raw) ∧
      matchRoute (pathSegments r'.path) = some (.secret name raw') ∧
      percentDecode raw' = some (ρ k)

/-- The same payload, or two values in the body of a put that both pass. -/
def SamePayload (r r' : Request) : Prop :=
  r'.payload = r.payload ∨ r.method = .put ∧ ∃ name raw body body',
    matchRoute (pathSegments r.path) = some (.secret name raw) ∧
      jsonBody c.parseSetSecret r.payload = .ok body ∧
      jsonBody c.parseSetSecret r'.payload = .ok body'

structure ArrivalAlike (ρ : String → String) (r r' : Arrival) : Prop where
  method : r'.method = r.method
  extension : r'.extension = r.extension
  authorization : r'.authorization = r.authorization
  path : SamePath ρ r.toRequest r'.toRequest
  payload : SamePayload c r.toRequest r'.toRequest

/-- The clock and the tokens drawn are the same, the nonce need not be. -/
structure DrawsAlike (d d' : AuditDraws c.time) : Prop where
  resolvedAt : d'.resolvedAt = d.resolvedAt
  authenticatedAt : d'.authenticatedAt = d.authenticatedAt
  expiresFrom : d'.expiresFrom = d.expiresFrom
  writtenAt : d'.writtenAt = d.writtenAt
  token : d'.token = d.token
  recordedAt : d'.recordedAt = d.recordedAt

/-- The body is the same, but for what a listing returns and for the key, renamed, in the answer
to a put that succeeded. -/
def BodyAlike (ρ : String → String) (r : Request) (out out' : Response) : Prop :=
  match r.routed c with
  | .guarded (.ok (.store (.getSecrets _))) => True
  | .guarded (.ok (.store (.putSecret _ k _))) =>
    if out.status = 200 then
      ∃ version, out.body = .version k version ∧ out'.body = .version (ρ k) version
    else out'.body = out.body
  | _ => out'.body = out.body

/-- What the two runs answer to a request. -/
def AnswerAlike (ρ : String → String) (r : Request) : Option Response → Option Response → Prop
  | none, none => True
  | some out, some out' => out'.status = out.status ∧ BodyAlike c ρ r out out'
  | _, _ => False

variable {c} {key : Key} {ρ : String → String}

/-! ## The calls of the two runs -/

/-- Renamed if valid. -/
def KeyAlike (ρ : String → String) (k k' : String) : Prop := if validKey k then k' = ρ k else k' = k

inductive CallAlike (ρ : String → String) : Call → Call → Prop where
  | same (call : Call) (noPut : ∀ name k body, call ≠ .store (.putSecret name k body))
      (noDelete : ∀ name k, call ≠ .store (.deleteSecret name k)) : CallAlike ρ call call
  | put (name k k' : String) (body body' : Except AppError SetSecretBody)
      (keys : KeyAlike ρ k k') (bodies : body' = body ∨ ∃ b b', body = .ok b ∧ body' = .ok b') :
      CallAlike ρ (.store (.putSecret name k body)) (.store (.putSecret name k' body'))
  | delete (name k k' : String) (keys : KeyAlike ρ k k') :
      CallAlike ρ (.store (.deleteSecret name k)) (.store (.deleteSecret name k'))

/-- Two requests end at the same place, or at the same handler with a renamed key. -/
inductive RoutedAlike (ρ : String → String) : Routed → Routed → Prop where
  | answered (response : Response) : RoutedAlike ρ (.answered response) (.answered response)
  | invalidPath : RoutedAlike ρ (.guarded (.error ())) (.guarded (.error ()))
  | called (call call' : Call) (alike : CallAlike ρ call call') :
      RoutedAlike ρ (.guarded (.ok call)) (.guarded (.ok call'))

/-- The same path off the route of one secret, or that route twice. -/
lemma SamePath.routes {r r' : Request} (h : SamePath ρ r r') :
    (r'.path = r.path ∧ ∀ name raw, matchRoute (pathSegments r.path) ≠ some (.secret name raw)) ∨
    ∃ name raw raw', matchRoute (pathSegments r.path) = some (.secret name raw) ∧
      matchRoute (pathSegments r'.path) = some (.secret name raw') ∧
      (percentDecode raw = none ∧ percentDecode raw' = none ∨
        ∃ k k', percentDecode raw = some k ∧ percentDecode raw' = some k' ∧ KeyAlike ρ k k') := by
  by_cases onSecret : ∃ name raw, matchRoute (pathSegments r.path) = some (.secret name raw)
  · obtain ⟨name, raw, found⟩ := onSecret
    right
    unfold SamePath Request.secretKey at h
    simp only [found] at h
    cases decoded : percentDecode raw with
    | none =>
      simp only [decoded, Option.filter_none] at h
      exact ⟨name, raw, raw, found, by rw [h, found], Or.inl ⟨decoded, decoded⟩⟩
    | some k =>
      by_cases valid : validKey k = true
      · simp only [decoded, Option.filter_some, valid, if_true] at h
        obtain ⟨_, _, raw', same, found', decoded'⟩ := h
        cases same
        refine ⟨_, _, raw', found, found', Or.inr ⟨k, ρ k, decoded, decoded', ?_⟩⟩
        rw [KeyAlike, if_pos valid]
      · simp only [decoded, Option.filter_some, valid] at h
        refine ⟨name, raw, raw, found, by rw [h, found], Or.inr ⟨k, k, decoded, decoded, ?_⟩⟩
        rw [KeyAlike, if_neg valid]
  · refine Or.inl ⟨?_, fun name raw found => onSecret ⟨name, raw, found⟩⟩
    unfold SamePath Request.secretKey at h
    split at h
    · exact h
    · rename_i k named
      split at named
      · rename_i name raw found
        exact absurd ⟨name, raw, found⟩ onSecret
      · cases named

lemma routed_secret {r : Request} {name raw : String}
    (found : matchRoute (pathSegments r.path) = some (.secret name raw)) :
    r.routed c = match (Route.secret name raw).call c r.payload r.method with
      | none => .answered ⟨405, .empty⟩
      | some call => .guarded call := by
  unfold Request.routed
  cases called : (Route.secret name raw).call c r.payload r.method <;> simp only [found, called]

lemma RoutedAlike.off {r : Request} (off : ∀ name raw,
    matchRoute (pathSegments r.path) ≠ some (.secret name raw)) :
    RoutedAlike ρ (r.routed c) (r.routed c) := by
  cases routed : r.routed c with
  | answered response => exact .answered response
  | guarded called =>
    cases called with
    | error _ => exact .invalidPath
    | ok call =>
      obtain ⟨route, found, called⟩ := routed_guarded routed
      refine .called call call (.same call ?_ ?_)
      · rintro name k body rfl
        obtain ⟨_, _, rfl | ⟨raw, rfl⟩⟩ := Route.call_works called rfl
        · cases method : r.method <;> simp only [Route.call, method, reduceCtorEq] at called
          all_goals split at called <;> cases called
        · exact off _ raw found
      · rintro name k rfl
        obtain ⟨_, _, rfl | ⟨raw, rfl⟩⟩ := Route.call_works called rfl
        · cases method : r.method <;> simp only [Route.call, method, reduceCtorEq] at called
          all_goals split at called <;> cases called
        · exact off _ raw found

/-- The two requests of a pair are routed alike. -/
theorem ArrivalAlike.routed {r r' : Arrival} (h : ArrivalAlike c ρ r r') :
    RoutedAlike ρ (r.routed c) (r'.routed c) := by
  rcases h.path.routes with ⟨path, off⟩ | ⟨name, raw, raw', found, found', keys⟩
  · have payload : r'.payload = r.payload := by
      rcases h.payload with same | ⟨_, name, raw, _, _, found, _⟩
      · exact same
      · exact absurd found (off name raw)
    have same : r'.routed c = r.routed c := by
      unfold Request.routed
      rw [path, payload, h.method]
    rw [same]
    exact .off off
  · have bodies : r.method = .put → jsonBody c.parseSetSecret r'.payload =
        jsonBody c.parseSetSecret r.payload ∨ ∃ b b', jsonBody c.parseSetSecret r.payload = .ok b ∧
          jsonBody c.parseSetSecret r'.payload = .ok b' := by
      intro _
      rcases h.payload with same | ⟨_, _, _, b, b', _, read, read'⟩
      · rw [same]
        exact Or.inl rfl
      · exact Or.inr ⟨b, b', read, read'⟩
    rw [routed_secret found, routed_secret found', h.method]
    cases method : r.method with
    | put =>
      rcases keys with ⟨none, none'⟩ | ⟨k, k', decoded, decoded', keys⟩
      · simp only [Route.call, none, none']
        cases percentDecode name <;> exact .invalidPath
      · simp only [Route.call, decoded, decoded']
        cases percentDecode name with
        | none => exact .invalidPath
        | some name => exact .called _ _ (.put name k k' _ _ keys (bodies method))
    | delete =>
      rcases keys with ⟨none, none'⟩ | ⟨k, k', decoded, decoded', keys⟩
      · simp only [Route.call, none, none']
        cases percentDecode name <;> exact .invalidPath
      · simp only [Route.call, decoded, decoded']
        cases percentDecode name with
        | none => exact .invalidPath
        | some name => exact .called _ _ (.delete name k k' keys)
    | get => exact .answered _
    | head => exact .answered _
    | post => exact .answered _
    | other => exact .answered _

/-- Both requests are logged under the same route and project. -/
lemma SamePath.logged {r r' : Request} (h : SamePath ρ r r') :
    r'.matchedPath = r.matchedPath ∧ r'.auditProject = r.auditProject := by
  rcases h.routes with ⟨path, _⟩ | ⟨name, raw, raw', found, found', _⟩
  · unfold Request.auditProject Request.matchedPath
    rw [path]
    exact ⟨rfl, rfl⟩
  · have third := (matchRoute_named found (Or.inr ⟨raw, rfl⟩)).1
    have third' := (matchRoute_named found' (Or.inr ⟨raw', rfl⟩)).1
    have matched : r'.matchedPath = r.matchedPath := by
      unfold Request.matchedPath
      rw [found, found']
      rfl
    refine ⟨matched, ?_⟩
    unfold Request.auditProject
    rw [matched, third, third']

/-! ## Tables that are alike -/

variable (c) (key) (ρ) in
/-- The row of a valid key, renamed, with a value of its own that opens in its project. -/
structure RowAlike (projects : List ProjectRow) (r r' : SecretRow) : Prop where
  id : r'.id = r.id
  projectId : r'.projectId = r.projectId
  valid : validKey r.key = true
  renamed : r'.key = ρ r.key
  version : r'.version = r.version
  opens : ∀ p ∈ projects, p.id = r.projectId → ∃ value, r.reading c key p.name = .ok value
  opens' : ∀ p ∈ projects, p.id = r.projectId → ∃ value, r'.reading c key p.name = .ok value

variable (c) (key) (ρ) in
structure DbAlike (db db' : Db) : Prop where
  conforms : db.Conforms
  conforms' : db'.Conforms
  projects : db'.projects = db.projects
  tokens : db'.tokens = db.tokens
  secrets : List.Forall₂ (RowAlike c key ρ db.projects) db.secrets db'.secrets

/-- Keys are renamed to valid keys, no two to the same. -/
structure Renaming (ρ : String → String) : Prop where
  valid : ∀ k, validKey k = true → validKey (ρ k) = true
  injective : ∀ k k', validKey k = true → validKey k' = true → ρ k = ρ k' → k = k'

variable {db db' : Db}

lemma DbAlike.project (alike : DbAlike c key ρ db db') (name : String) :
    db'.project name = db.project name := by
  unfold Db.project
  rw [alike.projects]

lemma RowAlike.at_iff (renames : Renaming ρ) {projects : List ProjectRow} {r r' : SecretRow}
    (row : RowAlike c key ρ projects r r') {id : Nat} {k : String} (valid : validKey k = true) :
    r.at = (id, k) ↔ r'.at = (id, ρ k) := by
  simp only [SecretRow.at, Prod.mk.injEq, row.projectId, row.renamed]
  constructor
  · rintro ⟨rfl, rfl⟩
    exact ⟨rfl, rfl⟩
  · rintro ⟨rfl, same⟩
    exact ⟨rfl, renames.injective _ _ row.valid valid same⟩

/-- A valid key is there in one as its new name is in the other. -/
lemma DbAlike.secret (renames : Renaming ρ) (alike : DbAlike c key ρ db db') (id : Nat)
    {k : String} (valid : validKey k = true) :
    (db.secret id k = none ∧ db'.secret id (ρ k) = none) ∨ ∃ r r', db.secret id k = some r ∧
      db'.secret id (ρ k) = some r' ∧ RowAlike c key ρ db.projects r r' :=
  get_related alike.secrets fun _ _ row => row.at_iff renames valid

lemma dbAlike_empty : DbAlike c key ρ .empty .empty :=
  ⟨Db.empty_conforms, Db.empty_conforms, rfl, rfl, .nil⟩

/-- A new project owns none of the rows there are. -/
lemma dbAlike_addProject (alike : DbAlike c key ρ db db') {name : String}
    (fresh : db.project name = none) (text : String) :
    DbAlike c key ρ (db.addProject name text) (db'.addProject name text) := by
  have fresh' : db'.project name = none := (alike.project name).trans fresh
  refine ⟨addProject_conforms alike.conforms fresh, addProject_conforms alike.conforms' fresh',
    ?_, alike.tokens, ?_⟩
  · unfold Db.addProject
    rw [alike.projects]
  · have rows : ∀ rows rows', List.Forall₂ (RowAlike c key ρ db.projects) rows rows' →
        (∀ r ∈ rows, ∃ p ∈ db.projects, p.id = r.projectId) →
        List.Forall₂ (RowAlike c key ρ (db.addProject name text).projects) rows rows' := by
      intro rows rows' related owned
      induction related with
      | nil => exact .nil
      | @cons r r' rows rows' head rest ih =>
        refine .cons ?_ (ih fun r hr => owned r (List.mem_cons_of_mem _ hr))
        obtain ⟨owner, howner, owns⟩ := owned r List.mem_cons_self
        have old : ∀ p ∈ (db.addProject name text).projects, p.id = r.projectId →
            p ∈ db.projects := by
          intro p hp same
          rcases List.mem_append.mp hp with hp | hp
          · exact hp
          · rw [List.mem_singleton.mp hp] at same
            exact absurd (owns.trans same.symm) (nextId_fresh ProjectRow.id howner)
        exact ⟨head.id, head.projectId, head.valid, head.renamed, head.version,
          fun p hp same => head.opens p (old p hp same) same,
          fun p hp same => head.opens' p (old p hp same) same⟩
    exact rows _ _ alike.secrets alike.conforms.owned

lemma opens_put (ideal : IdealAead.Ideal c.aead) {name k value : String} {nonce : Nonce}
    {n ct : Bytes} (encrypted : encrypt c.toCryptoCrates key nonce (utf8 value)
      (aadBytes name k) = .ok (n, ct)) {r : SecretRow} (hk : r.key = k) (hn : r.nonce = n)
    (hct : r.ciphertext = ct) : r.reading c key name = .ok value := by
  unfold SecretRow.reading
  rw [hk, hn, hct, decrypt_encrypt ideal encrypted]
  simp only [fromUtf8_utf8]

/-- Two puts of a key and of its new name, each with a value of its own. -/
lemma dbAlike_put (ideal : IdealAead.Ideal c.aead) (renames : Renaming ρ)
    (alike : DbAlike c key ρ db db') {p : ProjectRow} {name k value value' : String}
    (found : db.project name = some p) (valid : validKey k = true) {nonce nonce' : Nonce}
    {n n' ct ct' : Bytes}
    (encrypted : encrypt c.toCryptoCrates key nonce (utf8 value) (aadBytes name k) = .ok (n, ct))
    (encrypted' : encrypt c.toCryptoCrates key nonce' (utf8 value') (aadBytes name (ρ k)) =
      .ok (n', ct')) (text : String) :
    DbAlike c key ρ (db.putSecretRow p.id k n ct text) (db'.putSecretRow p.id (ρ k) n' ct' text) := by
  obtain ⟨hp, named⟩ := project_mem found
  have hp' : p ∈ db'.projects := alike.projects ▸ hp
  refine ⟨putSecretRow_conforms alike.conforms ⟨p, hp, rfl⟩,
    putSecretRow_conforms alike.conforms' ⟨p, hp', rfl⟩, alike.projects, alike.tokens, ?_⟩
  -- the project of a row is the one the put found
  have owner : ∀ q ∈ db.projects, q.id = p.id → q.name = name := by
    intro q hq same
    rw [alike.conforms.projectIds.eq_of_key hq hp same, named]
  have agree : ∀ r r', RowAlike c key ρ db.projects r r' →
      (r.at = (p.id, k) ↔ r'.at = (p.id, ρ k)) := fun r r' row => row.at_iff renames valid
  have changed : ∀ r r', RowAlike c key ρ db.projects r r' → r.at = (p.id, k) →
      RowAlike c key ρ db.projects (r.overwrite n ct text) (r'.overwrite n' ct' text) := by
    intro r r' row here
    have here' := (agree r r' row).mp here
    refine ⟨row.id, row.projectId, row.valid, row.renamed, congrArg (· + 1) row.version, ?_, ?_⟩
    · intro q hq same
      have id : r.projectId = p.id := congrArg Prod.fst here
      rw [owner q hq (same.trans id)]
      exact ⟨value, opens_put ideal encrypted (congrArg Prod.snd here) rfl rfl⟩
    · intro q hq same
      have id : r.projectId = p.id := congrArg Prod.fst here
      rw [owner q hq (same.trans id)]
      exact ⟨value', opens_put ideal encrypted' (congrArg Prod.snd here') rfl rfl⟩
  unfold Db.putSecretRow
  rcases alike.secret renames p.id valid with ⟨none, none'⟩ | ⟨r, r', found, found', _⟩
  · simp only [none, none', Option.isSome_none, Bool.false_eq_true, if_false]
    refine List.rel_append alike.secrets (.cons ?_ .nil)
    have ids : nextId SecretRow.id db'.secrets = nextId SecretRow.id db.secrets :=
      nextId_related alike.secrets fun _ _ row => row.id
    refine ⟨ids, rfl, valid, rfl, rfl, ?_, ?_⟩
    · intro q hq same
      rw [owner q hq same]
      exact ⟨value, opens_put ideal encrypted rfl rfl rfl⟩
    · intro q hq same
      rw [owner q hq same]
      exact ⟨value', opens_put ideal encrypted' rfl rfl rfl⟩
  · simp only [found, found', Option.isSome_some, if_true]
    exact modify_related alike.secrets agree changed

lemma dbAlike_remove (renames : Renaming ρ) (alike : DbAlike c key ρ db db') (id : Nat)
    {k : String} (valid : validKey k = true) :
    DbAlike c key ρ (db.removeSecretRow id k) (db'.removeSecretRow id (ρ k)) where
  conforms := removeSecretRow_conforms alike.conforms
  conforms' := removeSecretRow_conforms alike.conforms'
  projects := alike.projects
  tokens := alike.tokens
  secrets := erase_related alike.secrets fun _ _ row => row.at_iff renames valid

lemma dbAlike_addToken (alike : DbAlike c key ρ db db') {name text : String} {hash : Bytes}
    {o o' : Option String} :
    DbAlike c key ρ (db.addToken name hash o text o') (db'.addToken name hash o text o') where
  conforms := addToken_conforms alike.conforms
  conforms' := addToken_conforms alike.conforms'
  projects := alike.projects
  tokens := by
    unfold Db.addToken
    rw [alike.tokens]
  secrets := alike.secrets

lemma dbAlike_revokeTokens (alike : DbAlike c key ρ db db') (name : String) :
    DbAlike c key ρ (db.revokeTokens name) (db'.revokeTokens name) where
  conforms := revokeTokens_conforms alike.conforms
  conforms' := revokeTokens_conforms alike.conforms'
  projects := alike.projects
  tokens := by
    unfold Db.revokeTokens
    rw [alike.tokens]
  secrets := alike.secrets

/-! ## Handlers side by side -/

variable (c) (key) (ρ) in
/-- Both runs answer so or stop with the same error, and leave the tables alike. -/
def Blind (Q : Response → Response → Prop) (db db' : Db) (m m' : Handler Response) : Prop :=
  Lockstep db db' m m' (fun r r' s s' => Q r r' ∧ DbAlike c key ρ s s') (DbAlike c key ρ)

section Handlers

variable {Q : Response → Response → Prop} {token : AuthedToken} {d d' : AuditDraws c.time}

lemma blind_orReject (alike : DbAlike c key ρ db db') {r : Except AppError α}
    {f f' : α → Handler Response}
    (next : ∀ a, r = .ok a → Blind c key ρ Q db db' (f a) (f' a)) :
    Blind c key ρ Q db db' (orReject r >>= f) (orReject r >>= f') :=
  Lockstep.lift_then alike fun a h => next a (mapError_ok h)

lemma blind_ensure (alike : DbAlike c key ρ db db') {ok : Bool} {e : AppError}
    {f f' : Unit → Handler Response}
    (next : ok = true → Blind c key ρ Q db db' (f ()) (f' ())) :
    Blind c key ρ Q db db' (ensure ok e >>= f) (ensure ok e >>= f') := by
  cases ok with
  | true => exact next rfl
  | false => exact Lockstep.fail alike

/-- A statement that goes through in both runs, with what it leaves. -/
lemma blind_database {s s' : Db} {m : Prog Db SqliteError α}
    {m' : Prog Db SqliteError α'} {a : α} {a' : α'} {f : α → Handler Response}
    {f' : α' → Handler Response}
    (both : Lockstep db db' m m' (fun b b' t t' => b = a ∧ b' = a' ∧ t = s ∧ t' = s')
      (DbAlike c key ρ))
    (next : Blind c key ρ Q s s' (f a) (f' a')) :
    Blind c key ρ Q db db' (database m >>= f) (database m' >>= f') := by
  refine Lockstep.bind (Lockstep.mapError both) ?_
  rintro _ _ _ _ ⟨rfl, rfl, rfl, rfl⟩
  exact next

lemma blind_query (alike : DbAlike c key ρ db db') {e : SqliteError} {q : Db → α} {q' : Db → α'}
    {f : α → Handler Response} {f' : α' → Handler Response}
    (next : Blind c key ρ Q db db' (f (q db)) (f' (q' db'))) :
    Blind c key ρ Q db db' (database (query e q) >>= f) (database (query e q') >>= f') :=
  blind_database (Lockstep.query alike ⟨rfl, rfl, rfl, rfl⟩) next

lemma blind_project (alike : DbAlike c key ρ db db') {name : String} {f f' : Nat → Handler Response}
    (next : ∀ p, db.project name = some p → Blind c key ρ Q db db' (f p.id) (f' p.id)) :
    Blind c key ρ Q db db'
      (do
        let some pid ← database (Repo.projectId name) | reject .notFound
        f pid)
      (do
        let some pid ← database (Repo.projectId name) | reject .notFound
        f' pid) := by
  refine blind_query alike ?_
  rw [alike.project name]
  cases found : db.project name with
  | none => exact Lockstep.fail alike
  | some p => exact next p found

lemma createProject_blind (alike : DbAlike c key ρ db db') (clock : d'.writtenAt = d.writtenAt)
    (body : Except AppError CreateProjectBody) :
    Blind c key ρ (fun r r' => r' = r) db db' (Handlers.createProject c token body d.toDraws)
      (Handlers.createProject c token body d'.toDraws) := by
  refine blind_orReject alike fun body _ => ?_
  refine blind_ensure alike fun _ => ?_
  refine blind_orReject alike fun _ _ => ?_
  refine blind_query alike ?_
  rw [alike.project body.name, clock]
  refine blind_ensure alike fun fresh => ?_
  have fresh : db.project body.name = none := by simpa using fresh
  have fresh' : db'.project body.name = none := (alike.project body.name).trans fresh
  have after := dbAlike_addProject alike fresh d.writtenAt.rfc3339
  have stored : Lockstep db db' (Repo.createProject body.name d.writtenAt.rfc3339)
      (Repo.createProject body.name d.writtenAt.rfc3339)
      (fun b b' t t' => b = () ∧ b' = () ∧ t = db.addProject body.name d.writtenAt.rfc3339 ∧
        t' = db'.addProject body.name d.writtenAt.rfc3339) (DbAlike c key ρ) := by
    apply Lockstep.statement alike
    · rw [fresh]
      rfl
    · rw [fresh']
      rfl
    · exact ⟨rfl, rfl, rfl, rfl⟩
  exact blind_database stored (Lockstep.pure ⟨rfl, after⟩)

lemma listProjects_blind (alike : DbAlike c key ρ db db') :
    Blind c key ρ (fun r r' => r' = r) db db' (Handlers.listProjects token)
      (Handlers.listProjects token) := by
  refine blind_query alike ?_
  rw [alike.projects]
  exact Lockstep.pure ⟨rfl, alike⟩

/-- Rows that open give an answer, whatever their order. -/
lemma openRows_answers (conforms : db.Conforms) {p : ProjectRow}
    (opens : ∀ r ∈ db.secrets, r.projectId = p.id → ∃ v, r.reading c key p.name = .ok v) :
    ∃ out, Handlers.openRows c key p.name ∅ ((db.secretsOf p.id).map SecretRow.stored) =
      .ok out := by
  have values : ∀ x ∈ (db.secretsOf p.id).map fun r => (r.key, r.reading c key p.name),
      ∃ v, x.2 = .ok v := by
    intro x hx
    obtain ⟨r, hr, rfl⟩ := List.mem_map.mp hx
    obtain ⟨hr, own⟩ := List.mem_filter.mp (mem_orderBy.mp hr)
    exact opens r hr (by simpa using own)
  have distinct : ((db.secretsOf p.id).map fun r => (r.key, r.reading c key p.name)).Pairwise
      fun x y => x.1 ≠ y.1 := (secretsOf_strict conforms p).imp fun h => ne_of_lt h
  obtain ⟨out, collected, _⟩ := Collect.collect_ok values distinct ∅
  rw [openRows_collect]
  exact ⟨out, collected⟩

lemma getSecrets_blind (alike : DbAlike c key ρ db db') (name : String) :
    Blind c key ρ (fun r r' => r'.status = r.status) db db' (Handlers.getSecrets c key token name)
      (Handlers.getSecrets c key token name) := by
  refine blind_ensure alike fun _ => ?_
  refine blind_orReject alike fun _ _ => ?_
  refine blind_project alike fun p found => ?_
  refine blind_query alike ?_
  obtain ⟨hp, named⟩ := project_mem found
  have answers : ∃ out, Handlers.openRows c key name ∅ ((db.secretsOf p.id).map SecretRow.stored) =
      .ok out := by
    rw [← named]
    apply openRows_answers alike.conforms
    intro r hr own
    obtain ⟨r', _, row⟩ := forall₂_mem_left alike.secrets hr
    exact row.opens p hp own.symm
  have answers' : ∃ out, Handlers.openRows c key name ∅
      ((db'.secretsOf p.id).map SecretRow.stored) = .ok out := by
    rw [← named]
    apply openRows_answers alike.conforms'
    intro r' hr' own
    obtain ⟨r, _, row⟩ := forall₂_mem_left alike.secrets.flip hr'
    exact row.opens' p hp (own.symm.trans row.projectId)
  obtain ⟨out, opened⟩ := answers
  obtain ⟨out', opened'⟩ := answers'
  rw [opened, opened']
  exact Lockstep.pure ⟨rfl, alike⟩

/-- The two statements of an upsert, in both runs. -/
lemma upsertSecret_lockstep (renames : Renaming ρ) (alike : DbAlike c key ρ db db')
    {p : ProjectRow} (hp : p ∈ db.projects) {k text : String} (valid : validKey k = true)
    {n n' ct ct' : Bytes} (after : DbAlike c key ρ (db.putSecretRow p.id k n ct text)
      (db'.putSecretRow p.id (ρ k) n' ct' text)) :
    Lockstep db db' (Repo.upsertSecret p.id k n ct text) (Repo.upsertSecret p.id (ρ k) n' ct' text)
      (fun v v' s s' => v' = v ∧ DbAlike c key ρ s s') (DbAlike c key ρ) := by
  have owner := project_owns hp
  have owner' : (db'.projects.any fun q => q.id = p.id) = true := by
    rw [alike.projects]
    exact owner
  refine Lockstep.bind (R := fun _ _ s s' => s = db.putSecretRow p.id k n ct text ∧
    s' = db'.putSecretRow p.id (ρ k) n' ct' text) ?_ ?_
  · apply Lockstep.statement alike
    · rw [if_pos owner]
    · rw [if_pos owner']
    · exact ⟨rfl, rfl⟩
  · rintro _ _ _ _ ⟨rfl, rfl⟩
    rcases after.secret renames p.id valid with ⟨none, _⟩ | ⟨r, r', found, found', row⟩
    · rw [secret_putSecretRow, if_pos rfl] at none
      cases h : db.secret p.id k <;> simp [h] at none
    · apply Lockstep.statement after
      · rw [found]
      · rw [found']
      · exact ⟨row.version, after⟩

/-- A value is answered with its version, whatever it is. -/
lemma putSecret_blind (ideal : IdealAead.Ideal c.aead) (total : IdealAead.Total c.aead)
    (renames : Renaming ρ) (alike : DbAlike c key ρ db db') (clock : d'.writtenAt = d.writtenAt)
    {name k k' : String} {body body' : Except AppError SetSecretBody} (keys : KeyAlike ρ k k')
    (bodies : body' = body ∨ ∃ b b', body = .ok b ∧ body' = .ok b') :
    Blind c key ρ (fun r r' => ∃ version, r = ⟨200, .version k version⟩ ∧
        r' = ⟨200, .version (ρ k) version⟩) db db'
      (Handlers.putSecret c key token name k body d.toDraws)
      (Handlers.putSecret c key token name k' body' d'.toDraws) := by
  have checked : ∀ b b', Blind c key ρ (fun r r' => ∃ version, r = ⟨200, .version k version⟩ ∧
        r' = ⟨200, .version (ρ k) version⟩) db db'
      (Handlers.putSecret c key token name k (.ok b) d.toDraws)
      (Handlers.putSecret c key token name k' (.ok b') d'.toDraws) := by
    intro b b'
    refine blind_ensure alike fun _ => ?_
    refine blind_orReject alike fun _ _ => ?_
    by_cases valid : validKey k = true
    · rw [KeyAlike, if_pos valid] at keys
      subst keys
      have valid' := renames.valid k valid
      simp only [valid, valid']
      refine blind_ensure alike fun _ => ?_
      refine blind_project alike fun p found => ?_
      obtain ⟨ct, encrypted⟩ := encrypt_total total key d.nonce (utf8 b.value) (aadBytes name k)
      obtain ⟨ct', encrypted'⟩ :=
        encrypt_total total key d'.nonce (utf8 b'.value) (aadBytes name (ρ k))
      have after := dbAlike_put ideal renames alike found valid encrypted encrypted'
        d.writtenAt.rfc3339
      simp only [encrypted, encrypted', Except.mapError, orReject, lift_ok, pure_bind', clock]
      refine Lockstep.bind (Lockstep.mapError (upsertSecret_lockstep renames alike
        (project_mem found).1 valid after)) ?_
      rintro _ version s s' ⟨rfl, after⟩
      exact Lockstep.pure ⟨⟨version, rfl, rfl⟩, after⟩
    · rw [KeyAlike, if_neg valid] at keys
      subst keys
      exact blind_ensure alike fun passes => absurd passes valid
  rcases bodies with rfl | ⟨b, b', rfl, rfl⟩
  · cases body' with
    | error e => exact Lockstep.fail alike
    | ok b => exact checked b b
  · exact checked b b'

lemma deleteSecret_blind (renames : Renaming ρ) (alike : DbAlike c key ρ db db')
    {name k k' : String} (keys : KeyAlike ρ k k') :
    Blind c key ρ (fun r r' => r' = r) db db' (Handlers.deleteSecret token name k)
      (Handlers.deleteSecret token name k') := by
  refine blind_ensure alike fun _ => ?_
  by_cases valid : validKey k = true
  · rw [KeyAlike, if_pos valid] at keys
    subst keys
    have valid' := renames.valid k valid
    simp only [valid, valid']
    refine blind_ensure alike fun _ => ?_
    refine blind_orReject alike fun _ _ => ?_
    refine blind_project alike fun p found => ?_
    have after := dbAlike_remove renames alike p.id valid
    have present : (db'.secret p.id (ρ k)).isSome = (db.secret p.id k).isSome := by
      rcases alike.secret renames p.id valid with ⟨none, none'⟩ | ⟨_, _, found, found', _⟩
      · rw [none, none']
      · rw [found, found']
        rfl
    refine blind_database (Lockstep.statement alike rfl rfl ⟨rfl, rfl, rfl, rfl⟩) ?_
    rw [present]
    cases (db.secret p.id k).isSome with
    | true => exact Lockstep.pure ⟨rfl, after⟩
    | false => exact Lockstep.fail after
  · rw [KeyAlike, if_neg valid] at keys
    subst keys
    exact blind_ensure alike fun passes => absurd passes valid

lemma createToken_blind (alike : DbAlike c key ρ db db') (draws : DrawsAlike c d d')
    (body : Except AppError CreateTokenBody) :
    Blind c key ρ (fun r r' => r' = r) db db' (Handlers.createToken c token body d.toDraws)
      (Handlers.createToken c token body d'.toDraws) := by
  have expiry : ∀ b, Handlers.tokenExpiry c b d'.toDraws = Handlers.tokenExpiry c b d.toDraws := by
    intro b
    unfold Handlers.tokenExpiry
    rw [draws.expiresFrom]
  refine blind_orReject alike fun _ _ => ?_
  refine blind_orReject alike fun body _ => ?_
  refine blind_ensure alike fun _ => ?_
  refine blind_ensure alike fun _ => ?_
  refine blind_ensure alike fun _ => ?_
  rw [expiry, draws.token, draws.writtenAt]
  refine Lockstep.lift_then alike fun expiresAt _ => ?_
  exact blind_database (Lockstep.update alike ⟨rfl, rfl, rfl, rfl⟩)
    (Lockstep.pure ⟨rfl, dbAlike_addToken alike⟩)

lemma listTokens_blind (alike : DbAlike c key ρ db db') :
    Blind c key ρ (fun r r' => r' = r) db db' (Handlers.listTokens token)
      (Handlers.listTokens token) := by
  refine blind_orReject alike fun _ _ => ?_
  refine blind_query alike ?_
  rw [alike.tokens]
  exact Lockstep.pure ⟨rfl, alike⟩

lemma revokeToken_blind (alike : DbAlike c key ρ db db') (name : String) :
    Blind c key ρ (fun r r' => r' = r) db db' (Handlers.revokeToken token name)
      (Handlers.revokeToken token name) := by
  refine blind_orReject alike fun _ _ => ?_
  refine blind_ensure alike fun _ => ?_
  refine blind_database (Lockstep.statement alike rfl rfl ⟨rfl, rfl, rfl, rfl⟩) ?_
  rw [alike.tokens]
  exact Lockstep.pure ⟨rfl, dbAlike_revokeTokens alike name⟩

/-- What two handlers of a pair of calls answer. -/
def CallAnswers (ρ : String → String) : Call → Response → Response → Prop
  | .store (.getSecrets _), r, r' => r'.status = r.status
  | .store (.putSecret _ k _), r, r' => ∃ version, r = ⟨200, .version k version⟩ ∧
      r' = ⟨200, .version (ρ k) version⟩
  | _, r, r' => r' = r

theorem perform_blind (ideal : IdealAead.Ideal c.aead) (total : IdealAead.Total c.aead)
    (renames : Renaming ρ) (alike : DbAlike c key ρ db db') (draws : DrawsAlike c d d')
    {call call' : Call} (calls : CallAlike ρ call call') :
    Blind c key ρ (CallAnswers ρ call) db db' (call.perform c key token d.toDraws)
      (call'.perform c key token d'.toDraws) := by
  cases calls with
  | put name k k' body body' keys bodies =>
    exact putSecret_blind ideal total renames alike draws.writtenAt keys bodies
  | delete name k k' keys => exact deleteSecret_blind renames alike keys
  | same call noPut noDelete =>
    cases call with
    | store call =>
      cases call with
      | createProject body => exact createProject_blind alike draws.writtenAt body
      | listProjects => exact listProjects_blind alike
      | getSecrets name => exact getSecrets_blind alike name
      | putSecret name k body => exact absurd rfl (noPut name k body)
      | deleteSecret name k => exact absurd rfl (noDelete name k)
    | createToken body => exact createToken_blind alike draws body
    | listTokens => exact listTokens_blind alike
    | revokeToken name => exact revokeToken_blind alike name

end Handlers

end SecretsManager
