import SecretsManager.Client.Exactness
import SecretsManager.Server.Commands
import SecretsManager.Server.Revocation
import SecretsManager.Server.ReferenceStore
import SecretsManager.Lib.JsonText
import SecretsManager.Lib.Transitions

/-!
# Reading back what was accepted

The server limits each body that it accepts, the client the whole of each answer
that it reads. A project holds as many values as were put and the token list all
tokens ever issued, so there are states whose answers the client turns down: those
whose text is longer than what it reads. All others it decodes as they are.
-/

namespace SecretsManager

open FaultySession KeyedTable Relation

namespace Api

/-- `TokenInfo` of the client. -/
structure TokenInfo where
  name : String
  scope : Option String
  createdAt : String
  expiresAt : Option String
  revoked : Bool
  deriving DecidableEq

def listTokens (decode : Bytes → Option (List TokenInfo)) (resp : Except UreqError HttpResponse) :
    Except ClientError (List TokenInfo) :=
  match resp with
  | .ok r => readJson decode r
  | .error e => .error (mapError e)

end Api

/-- A wire on which the list of tokens is read as well. -/
structure ListingWire {Key : Type} (c : ServerCrates Key) extends Wire c where
  decodeTokens : Bytes → Option (List Api.TokenInfo)

/-- The fields of a row of the list. -/
def TokenInfo.listed (t : TokenInfo) : Api.TokenInfo :=
  ⟨t.name, t.scope, t.createdAt, t.expiresAt, t.revoked⟩

/-- The length is one that the client reads. A body of exactly the limit may go either way. -/
def WithinCap (atLimit : Bool) (length limit : Nat) : Prop :=
  length < limit ∨ (atLimit = true ∧ length = limit)

instance (atLimit : Bool) (length limit : Nat) : Decidable (WithinCap atLimit length limit) :=
  inferInstanceAs (Decidable (_ ∨ _))

variable {Key : Type} {c : ServerCrates Key}

structure ListingWire.Laws (w : ListingWire c) (atLimit : Bool) : Prop where
  reads : ∀ body limit, w.agent.readToVec body limit =
    if WithinCap atLimit body.length limit then some body else none
  secrets : ∀ values, w.decodeSecrets (w.encodeBody (.secrets values)) = some values
  tokens : ∀ l, w.decodeTokens (w.encodeBody (.tokens l)) = some (l.map TokenInfo.listed)

/-- A response as the client's agent hands it over. -/
def ListingWire.received (w : ListingWire c) (r : Response) : Except UreqError HttpResponse :=
  callResult r.status (w.agent.readToVec (w.encodeBody r.body)) (w.agent.elsewhere r.status)

/-! ## Reachable states -/

/-- The database, and the map that its projects stand for. -/
structure Vault where
  db : Db
  map : RefStore

/-- The values of a project without their versions. -/
def RefProject.values (p : RefProject) : SecretMap := p.secrets.map fun _ entry => entry.1

/-- The rows of the token list, by time of creation. -/
def Db.tokenList (db : Db) : List TokenInfo :=
  (orderBy TokenRow.createdAt db.tokens).map TokenRow.info

variable (c)

/-- What a call makes of the map. -/
def mapAfter (token : AuthedToken) (d : Draws c.time) (map : RefStore) : Call → RefStore
  | .store call => (map.step token d.writtenAt.rfc3339 call).2
  | _ => map

inductive VaultStep (key : Key) : Vault → Vault → Prop where
  /-- A request that reaches its handler: its bearer authenticates and its body is in the limit. -/
  | request (st : Vault) (r : Request) (call : Call) (token : AuthedToken) (d : Draws c.time)
      (routed : r.routed c = .guarded (.ok call))
      (extracted : (extractToken c r.authorization d.authenticatedAt.instant ⟨st.db, []⟩).1 =
        .ok token) :
      VaultStep key st ⟨(serve c key r d st.db).2, mapAfter c token d st.map call⟩
  | tokenCreate (st : Vault) (name : String) (project : Option String) (ttlDays : Option UInt32)
      (d : CommandDraws c.time) :
      VaultStep key st { st with db := (run (Commands.tokenCreate c name project ttlDays d) st.db).2 }
  | tokenRevoke (st : Vault) (name : String) :
      VaultStep key st { st with db := (run (Commands.tokenRevoke name) st.db).2 }

def VaultRun (key : Key) (st : Vault) : Prop := ReflTransGen (VaultStep c key) ⟨.empty, ∅⟩ st

/-- Whatever the server answers to a read of a project or of the tokens, the client returns the
project's map or the token list. -/
def ReadsBack (w : ListingWire c) (key : Key) (st : Vault) : Prop :=
  (∀ (name : String) token response,
    (run (Handlers.getSecrets c key token name) st.db).1 = .ok response →
    ∃ p : RefProject, st.map[name]? = some p ∧
      Api.fetchSecrets w.toClientJson (w.received response) = .ok p.values) ∧
  ∀ token response, (run (Handlers.listTokens token) st.db).1 = .ok response →
    Api.listTokens w.decodeTokens (w.received response) = .ok (st.db.tokenList.map TokenInfo.listed)

/-- The text of every project and of the token list is one that the client reads. -/
def FitsCap (w : ListingWire c) (atLimit : Bool) (st : Vault) : Prop :=
  (∀ (name : String) (p : RefProject), st.map[name]? = some p →
    WithinCap atLimit (w.encodeBody (.secrets p.values)).length MAX_RESPONSE_BYTES) ∧
  WithinCap atLimit (w.encodeBody (.tokens st.db.tokenList)).length MAX_RESPONSE_BYTES

variable {c} {key : Key}

/-! ## What a step keeps -/

/-- The names in the map have passed the checks of the server. -/
def ValidNames (map : RefStore) : Prop :=
  ∀ (name : String) (p : RefProject), map[name]? = some p → validProject name = true ∧
    ∀ (k : String) entry, p.secrets[k]? = some entry → validKey k = true

structure VaultInv (c : ServerCrates Key) (key : Key) (st : Vault) : Prop where
  refines : Refines c key st.db st.map
  names : ValidNames st.map

section Steps

variable {map : RefStore} {token : AuthedToken} {now : String}

lemma check_ok {ok : Bool} {e : AppError} {u : Unit} (h : RefStore.check ok e = .ok u) :
    ok = true := by
  cases ok with
  | true => rfl
  | false => cases h

lemma validNames_insert (h : ValidNames map) {name : String} {p : RefProject}
    (valid : validProject name = true)
    (keys : ∀ (k : String) entry, p.secrets[k]? = some entry → validKey k = true) :
    ValidNames (map.insert name p) := by
  intro name' p' found
  rw [Std.ExtTreeMap.getElem?_insert] at found
  split at found
  · rename_i same
    obtain rfl : name = name' := by simpa using same
    obtain rfl := Option.some.inj found
    exact ⟨valid, keys⟩
  · exact h name' p' found

lemma step_validNames (h : ValidNames map) (call : StoreCall) :
    ValidNames (map.step token now call).2 := by
  unfold RefStore.step
  cases ran : map.call token now call with
  | error e => exact h
  | ok out =>
    cases call with
    | createProject body =>
      obtain ⟨body, _, ran⟩ := except_bind_ok.mp ran
      obtain ⟨_, valid, ran⟩ := except_bind_ok.mp ran
      obtain ⟨_, _, ran⟩ := except_bind_ok.mp ran
      obtain ⟨_, _, ran⟩ := except_bind_ok.mp ran
      cases ran
      apply validNames_insert h (check_ok valid)
      simp
    | listProjects =>
      cases ran
      exact h
    | getSecrets name =>
      obtain ⟨_, _, ran⟩ := except_bind_ok.mp ran
      obtain ⟨_, _, ran⟩ := except_bind_ok.mp ran
      obtain ⟨p, _, ran⟩ := except_bind_ok.mp ran
      cases ran
      exact h
    | putSecret name secretKey body =>
      obtain ⟨body, _, ran⟩ := except_bind_ok.mp ran
      obtain ⟨_, valid, ran⟩ := except_bind_ok.mp ran
      obtain ⟨_, _, ran⟩ := except_bind_ok.mp ran
      obtain ⟨_, validKey, ran⟩ := except_bind_ok.mp ran
      obtain ⟨p, found, ran⟩ := except_bind_ok.mp ran
      cases ran
      apply validNames_insert h (check_ok valid)
      intro k entry stored
      rw [Std.ExtTreeMap.getElem?_insert] at stored
      split at stored
      · rename_i same
        obtain rfl : secretKey = k := by simpa using same
        exact check_ok validKey
      · exact (h name p (project_ok found)).2 k entry stored
    | deleteSecret name secretKey =>
      obtain ⟨_, valid, ran⟩ := except_bind_ok.mp ran
      obtain ⟨_, _, ran⟩ := except_bind_ok.mp ran
      obtain ⟨_, _, ran⟩ := except_bind_ok.mp ran
      obtain ⟨p, found, ran⟩ := except_bind_ok.mp ran
      obtain ⟨_, _, ran⟩ := except_bind_ok.mp ran
      cases ran
      apply validNames_insert h (check_ok valid)
      intro k entry stored
      rw [Std.ExtTreeMap.getElem?_erase] at stored
      split at stored
      · cases stored
      · exact (h name p (project_ok found)).2 k entry stored

/-- What changes neither projects nor secrets keeps the map. -/
lemma refines_congr {db db' : Db} (h : Refines c key db map) (conforms : db'.Conforms)
    (projects : db'.projects = db.projects) (secrets : db'.secrets = db.secrets) :
    Refines c key db' map := by
  refine ⟨conforms, fun name => ?_⟩
  rw [view_congr projects secrets]
  exact h.views name

/-- A request behind a token runs its call. -/
lemma serve_call {r : Request} {call : Call} {d : Draws c.time} {db : Db}
    (routed : r.routed c = .guarded (.ok call))
    (extracted : (extractToken c r.authorization d.authenticatedAt.instant ⟨db, []⟩).1 =
      .ok token) :
    (serve c key r d db).2 = (run (call.perform c key token d) db).2 := by
  have stays : extractToken c r.authorization d.authenticatedAt.instant ⟨db, []⟩ =
      (.ok token, ⟨db, []⟩) := Prod.ext extracted extractToken_stays
  unfold serve run handle
  simp only [routed, bind_apply, stays]

/-- A call about tokens leaves projects and secrets alone. -/
lemma perform_tokens {call : Call} {d : Draws c.time} {db : Db} (other : ∀ s, call ≠ .store s) :
    (run (call.perform c key token d) db).2.projects = db.projects ∧
      (run (call.perform c key token d) db).2.secrets = db.secrets := by
  have ends := perform_ends key call token d ⟨db, []⟩
  unfold run
  generalize (call.perform c key token d ⟨db, []⟩).2.store = db' at ends ⊢
  rcases ends with ⟨response, _, outcome⟩ | ⟨e, _, rfl | ⟨_, _, _, _, _, _, same, _⟩⟩
  · cases outcome with
    | createToken => exact ⟨rfl, rfl⟩
    | listTokens => exact ⟨rfl, rfl⟩
    | revokeToken => exact ⟨rfl, rfl⟩
    | createProject => exact absurd rfl (other _)
    | listProjects => exact absurd rfl (other _)
    | getSecrets => exact absurd rfl (other _)
    | putSecret => exact absurd rfl (other _)
    | deleteSecret => exact absurd rfl (other _)
  · exact ⟨rfl, rfl⟩
  · exact absurd same (other _)

lemma refines_tokens {call : Call} {d : Draws c.time} {db : Db} (h : Refines c key db map)
    (other : ∀ s, call ≠ .store s) :
    Refines c key (run (call.perform c key token d) db).2 map := by
  have tables : (run (call.perform c key token d) db).2.projects = _ ∧ _ := perform_tokens other
  exact refines_congr h (perform_conforms call token d ⟨db, []⟩ h.conforms) tables.1 tables.2

theorem vaultStep_inv (ideal : IdealAead.Ideal c.aead) (total : IdealAead.Total c.aead)
    {st st' : Vault} (inv : VaultInv c key st) (step : VaultStep c key st st') :
    VaultInv c key st' := by
  obtain ⟨refines, names⟩ := inv
  cases step with
  | request r call token d routed extracted =>
    rw [serve_call routed extracted]
    cases call with
    | store call =>
      have followed := (serve_refines ideal total refines ⟨token, call, d⟩).2
      exact ⟨followed, step_validNames names call⟩
    | createToken body => exact ⟨refines_tokens refines (by simp), names⟩
    | listTokens => exact ⟨refines_tokens refines (by simp), names⟩
    | revokeToken name => exact ⟨refines_tokens refines (by simp), names⟩
  | tokenCreate name project ttlDays d =>
    have whole : Triple (fun s => s = st.db) (Commands.tokenCreate c name project ttlDays d) _ _ :=
      tokenCreate_triple
    unfold run
    rcases whole.elim (s := ⟨st.db, []⟩) rfl with ⟨_, _, _, _, same⟩ | ⟨_, _, same⟩ <;> rw [same]
    · exact ⟨refines_congr refines (addToken_conforms refines.conforms) rfl rfl, names⟩
    · exact ⟨refines, names⟩
  | tokenRevoke name =>
    have whole : Triple (fun s => s = st.db) (Commands.tokenRevoke name) _ _ := tokenRevoke_triple
    unfold run
    rcases whole.elim (s := ⟨st.db, []⟩) rfl with ⟨_, _, _, same⟩ | ⟨_, _, same⟩ <;> rw [same]
    · exact ⟨refines_congr refines (revokeTokens_conforms refines.conforms) rfl rfl, names⟩
    · exact ⟨refines, names⟩

theorem vaultRun_inv (ideal : IdealAead.Ideal c.aead) (total : IdealAead.Total c.aead)
    {st : Vault} (run : VaultRun c key st) : VaultInv c key st := by
  apply Transitions.preserved (P := VaultInv c key) _ run
  · exact ⟨refines_empty Db.empty_conforms rfl, by simp [ValidNames]⟩
  · intro st st' inv step
    exact vaultStep_inv ideal total inv step

end Steps

/-! ## What the client makes of the answers -/

section Answers

variable {st : Vault} {w : ListingWire c} {atLimit : Bool} {token : AuthedToken} {name : String}

lemma getSecrets_found (inv : VaultInv c key st) {p : RefProject} (found : st.map[name]? = some p)
    (inScope : ensureScope token name = .ok ()) :
    (run (Handlers.getSecrets c key token name) st.db).1 = .ok ⟨200, .secrets p.values⟩ := by
  have views := inv.refines.views name
  rw [found] at views
  obtain ⟨row, hrow, rfl, view⟩ := view_some views
  have values := getSecrets_values inv.refines view.symm
  have valid := (inv.names _ p found).1
  simp [run, Handlers.getSecrets, ensure, valid, orReject, inScope, Except.mapError, database,
    Repo.projectId, Repo.listSecretRows, bind_apply, mapError_apply, query_nil, hrow, values,
    RefProject.values]

lemma getSecrets_answered (inv : VaultInv c key st) {response : Response}
    (answered : (run (Handlers.getSecrets c key token name) st.db).1 = .ok response) :
    ∃ p : RefProject, st.map[name]? = some p ∧ response = ⟨200, .secrets p.values⟩ := by
  have inScope : ensureScope token name = .ok () := by
    cases limited : ensureScope token name with
    | ok u => rfl
    | error e =>
      exfalso
      revert answered
      cases valid : validProject name <;>
        simp [run, Handlers.getSecrets, ensure, valid, orReject, limited, Except.mapError, reject,
          bind_apply]
  cases found : st.map[name]? with
  | some p => exact ⟨p, rfl, Except.ok.inj (answered.symm.trans (getSecrets_found inv found inScope))⟩
  | none =>
    exfalso
    have absent : st.db.project name = none := by
      have views := inv.refines.views name
      rw [found] at views
      exact view_none.mp views
    revert answered
    cases valid : validProject name <;>
      simp [run, Handlers.getSecrets, ensure, valid, orReject, inScope, Except.mapError, reject,
        bind_apply, database, Repo.projectId, mapError_apply, query_nil, absent]

lemma received_succeeded {r : Response} (succeeded : r.Succeeded) :
    w.received r = .ok ⟨r.status, w.agent.readToVec (w.encodeBody r.body)⟩ := by
  have success : 200 ≤ r.status ∧ r.status < 300 := succeeded
  simp only [ListingWire.received, callResult, if_pos success]

lemma fetched_iff (laws : w.Laws atLimit) {values : SecretMap}
    (keys : ∀ k ∈ values, validSecretKey k = true) :
    Api.fetchSecrets w.toClientJson (w.received ⟨200, .secrets values⟩) = .ok values ↔
      WithinCap atLimit (w.encodeBody (.secrets values)).length MAX_RESPONSE_BYTES := by
  have whole : secretMapFromPlain values = .ok values := secretMapFromPlain_ok.mpr ⟨rfl, keys⟩
  simp only [received_succeeded (show Response.Succeeded ⟨200, _⟩ by simp [Response.Succeeded]),
    Api.fetchSecrets, readJson, laws.reads]
  by_cases fits : WithinCap atLimit (w.encodeBody (.secrets values)).length MAX_RESPONSE_BYTES
  · simp [fits, laws.secrets, whole]
  · simp [fits]

lemma listed_iff (laws : w.Laws atLimit) {l : List TokenInfo} :
    Api.listTokens w.decodeTokens (w.received ⟨200, .tokens l⟩) =
        .ok (l.map TokenInfo.listed) ↔
      WithinCap atLimit (w.encodeBody (.tokens l)).length MAX_RESPONSE_BYTES := by
  simp only [received_succeeded (show Response.Succeeded ⟨200, _⟩ by simp [Response.Succeeded]),
    Api.listTokens, readJson, laws.reads]
  by_cases fits : WithinCap atLimit (w.encodeBody (.tokens l)).length MAX_RESPONSE_BYTES
  · simp [fits, laws.tokens]
  · simp [fits]

lemma listTokens_answered {response : Response} {db : Db}
    (answered : (run (Handlers.listTokens token) db).1 = .ok response) :
    response = ⟨200, .tokens db.tokenList⟩ := by
  cases admin : ensureAdmin token with
  | ok u =>
    simp [run, Handlers.listTokens, orReject, admin, Except.mapError, bind_apply, database,
      Repo.listTokens, mapError_apply, query_nil] at answered
    exact answered.symm
  | error e =>
    simp [run, Handlers.listTokens, orReject, admin, Except.mapError, bind_apply] at answered

lemma values_valid (inv : VaultInv c key st) {p : RefProject} (found : st.map[name]? = some p) :
    ∀ k ∈ p.values, validSecretKey k = true := by
  intro k hk
  rw [RefProject.values, Std.ExtTreeMap.mem_map] at hk
  obtain ⟨entry, stored⟩ := Option.isSome_iff_exists.mp
    (Std.ExtTreeMap.mem_iff_isSome_getElem?.mp hk)
  exact (inv.names name p found).2 k entry stored

/-- Where everything is read back, every text fits. -/
lemma fits_of_readsBack (laws : w.Laws atLimit) (inv : VaultInv c key st)
    (reads : ReadsBack c w key st) : FitsCap c w atLimit st := by
  constructor
  · intro name p found
    have answered : (run (Handlers.getSecrets c key ⟨"", none⟩ name) st.db).1 = _ :=
      getSecrets_found inv found rfl
    obtain ⟨p', found', fetched⟩ := reads.1 name _ _ answered
    obtain rfl := Option.some.inj (found.symm.trans found')
    exact (fetched_iff laws (values_valid inv found)).mp fetched
  · have answered : (run (Handlers.listTokens ⟨"", none⟩) st.db).1 =
        .ok ⟨200, .tokens st.db.tokenList⟩ := rfl
    exact (listed_iff laws).mp (reads.2 _ _ answered)

/-- In every reachable state, all that the server answers is read back if and only if no text is
longer than what the client reads. -/
theorem readsBack_iff (laws : w.Laws atLimit) (ideal : IdealAead.Ideal c.aead)
    (total : IdealAead.Total c.aead) (reached : VaultRun c key st) :
    ReadsBack c w key st ↔ FitsCap c w atLimit st := by
  have inv := vaultRun_inv ideal total reached
  constructor
  · exact fits_of_readsBack laws inv
  · intro fits
    constructor
    · intro name token response answered
      obtain ⟨p, found, rfl⟩ := getSecrets_answered inv answered
      exact ⟨p, found, (fetched_iff laws (values_valid inv found)).mpr (fits.1 name p found)⟩
    · intro token response answered
      rw [listTokens_answered answered]
      exact (listed_iff laws).mpr fits.2

end Answers

/-! ## A wire of JSON -/

section Json

open JsonText Collect

def jsonText (l : List Lexeme) : Bytes := utf8 (String.ofList (write l))

def readJsonText (b : Bytes) : Option (List Lexeme) := (fromUtf8 b).bind fun s => lex s.toList

lemma readJsonText_jsonText {l : List Lexeme} (plain : ∀ x ∈ l, x.Plain) :
    readJsonText (jsonText l) = some l := by
  simp [readJsonText, jsonText, fromUtf8_utf8, lex_write plain]

def secretPairs (m : SecretMap) : List Pair := m.toList.map fun x => (x.1.toList, x.2.toList)

def readSecrets (b : Bytes) : Option SecretMap := do
  let pairs ← readObject (← readJsonText b)
  (collect ∅ (pairs.map fun x => (String.ofList x.1,
    (.ok (String.ofList x.2) : Except Unit String)))).toOption

lemma readSecrets_object (m : SecretMap) :
    readSecrets (jsonText (object (secretPairs m))) = some m := by
  have parsed := readObject_object (secretPairs m)
  have back : ((secretPairs m).map fun x => (String.ofList x.1,
      (.ok (String.ofList x.2) : Except Unit String))) = m.toList.map fun x => (x.1, .ok x.2) := by
    simp [secretPairs]
  simp only [readSecrets, readJsonText, jsonText, fromUtf8_utf8, Option.bind_some,
    String.toList_ofList, Option.bind_eq_bind]
  rw [← Option.bind_assoc, parsed, Option.bind_some, back, collect_toList]
  rfl

/-- A row of the list; the names are in the order of the alphabet. -/
def tokenText (t : TokenInfo) : List Lexeme :=
  label '\x7b' "created_at" ++ (Lexeme.text t.createdAt.toList :: (label ',' "expires_at" ++
    (nullable t.expiresAt ++ (label ',' "name" ++ (Lexeme.text t.name.toList ::
      (label ',' "revoked" ++ (flag t.revoked ++ (label ',' "scope" ++ (nullable t.scope ++
        [.sym '\x7d'])))))))))

def readToken (input : List Lexeme) : Option (Api.TokenInfo × List Lexeme) := do
  let (createdAt, rest) ← readText (← (label '\x7b' "created_at").isPrefixOf? input)
  let (expiresAt, rest) ← readNullable (← (label ',' "expires_at").isPrefixOf? rest)
  let (name, rest) ← readText (← (label ',' "name").isPrefixOf? rest)
  let (revoked, rest) ← readFlag (← (label ',' "revoked").isPrefixOf? rest)
  let (scope, rest) ← readNullable (← (label ',' "scope").isPrefixOf? rest)
  let rest ← [Lexeme.sym '\x7d'].isPrefixOf? rest
  some (⟨name, scope, createdAt, expiresAt, revoked⟩, rest)

lemma readToken_tokenText (t : TokenInfo) (rest : List Lexeme) :
    readToken (tokenText t ++ rest) = some (t.listed, rest) := by
  have texts : ∀ (s : String) tail, readText (.text s.toList :: tail) = some (s, tail) := by
    intro s tail
    simp only [readText, String.ofList_toList]
  have brace : [.sym '\x7d'].isPrefixOf? (Lexeme.sym '\x7d' :: rest) = some rest :=
    prefix_append [.sym '\x7d'] rest
  simp only [readToken, tokenText, List.append_assoc, List.cons_append, List.nil_append,
    prefix_append, Option.bind_eq_bind, Option.bind_some, texts, readNullable_nullable,
    readFlag_flag, brace, TokenInfo.listed]

def tokenTexts : List TokenInfo → List Lexeme
  | [] => word "]\x7d"
  | [t] => tokenText t ++ word "]\x7d"
  | t :: rest => tokenText t ++ Lexeme.sym ',' :: tokenTexts rest

/-- As many rows as the fuel allows. -/
def readTokens : Nat → List Lexeme → Option (List Api.TokenInfo)
  | 0, _ => none
  | fuel + 1, input =>
    if input = word "]\x7d" then some []
    else do
      let (t, rest) ← readToken input
      match rest with
      | .sym ',' :: rest => (readTokens fuel rest).map (t :: ·)
      | _ => some [t]

lemma tokenText_ne (t : TokenInfo) (rest : List Lexeme) : tokenText t ++ rest ≠ word "]\x7d" := by
  intro same
  have first := congrArg List.head? same
  simp [tokenText, label, word] at first

lemma readTokens_tokenTexts (l : List TokenInfo) {fuel : Nat} (enough : l.length < fuel) :
    readTokens fuel (tokenTexts l) = some (l.map TokenInfo.listed) := by
  induction l generalizing fuel with
  | nil =>
    obtain ⟨fuel, rfl⟩ := Nat.exists_eq_add_of_lt enough
    rfl
  | cons t l ih =>
    obtain ⟨fuel, rfl⟩ : ∃ more, fuel = more + 1 := ⟨fuel - 1, by omega⟩
    have more : l.length < fuel := by simpa using enough
    cases l with
    | nil =>
      simp only [tokenTexts, readTokens, tokenText_ne, if_false, readToken_tokenText]
      rfl
    | cons u l =>
      have cut : tokenTexts (t :: u :: l) = tokenText t ++ Lexeme.sym ',' :: tokenTexts (u :: l) :=
        rfl
      rw [cut]
      simp only [readTokens, tokenText_ne, if_false, readToken_tokenText]
      simp [ih more]

lemma tokenText_plain (t : TokenInfo) : ∀ x ∈ tokenText t, x.Plain := by
  have labels : ∀ before name, before ≠ '"' → ∀ x ∈ label before name, x.Plain := by
    intro before name quote x hx
    simp only [label, List.mem_cons, List.not_mem_nil, or_false] at hx
    rcases hx with rfl | rfl | rfl
    · exact quote
    · trivial
    · decide
  intro x hx
  simp only [tokenText, List.mem_append, List.mem_cons, List.not_mem_nil, or_false] at hx
  rcases hx with h | rfl | h | h | h | rfl | h | h | h | h | rfl
  · exact labels _ _ (by decide) x h
  · trivial
  · exact labels _ _ (by decide) x h
  · exact nullable_plain _ x h
  · exact labels _ _ (by decide) x h
  · trivial
  · exact labels _ _ (by decide) x h
  · exact flag_plain _ x h
  · exact labels _ _ (by decide) x h
  · exact nullable_plain _ x h
  · decide

lemma tokenTexts_plain (l : List TokenInfo) : ∀ x ∈ tokenTexts l, x.Plain := by
  have ending : ∀ x ∈ word "]\x7d", x.Plain := by decide
  induction l with
  | nil => exact ending
  | cons t l ih =>
    intro x hx
    cases l with
    | nil =>
      rcases List.mem_append.mp hx with h | h
      · exact tokenText_plain t x h
      · exact ending x h
    | cons u l =>
      rcases List.mem_append.mp hx with h | h
      · exact tokenText_plain t x h
      · rcases List.mem_cons.mp h with rfl | h
        · decide
        · exact ih x h

lemma tokenTexts_length (l : List TokenInfo) : l.length < (tokenTexts l).length := by
  induction l with
  | nil => decide
  | cons t l ih =>
    cases l with
    | nil => simp [tokenTexts, word]
    | cons u l =>
      have cut : tokenTexts (t :: u :: l) = tokenText t ++ Lexeme.sym ',' :: tokenTexts (u :: l) :=
        rfl
      rw [cut, List.length_append, List.length_cons]
      simp only [List.length_cons] at ih ⊢
      omega

def tokensHead : List Lexeme := label '\x7b' "tokens" ++ [Lexeme.sym '[']

def readListing (b : Bytes) : Option (List Api.TokenInfo) := do
  let rest ← tokensHead.isPrefixOf? (← readJsonText b)
  readTokens rest.length rest

lemma readListing_tokenTexts (l : List TokenInfo) :
    readListing (jsonText (tokensHead ++ tokenTexts l)) = some (l.map TokenInfo.listed) := by
  have plain : ∀ x ∈ tokensHead ++ tokenTexts l, x.Plain := by
    intro x hx
    rcases List.mem_append.mp hx with h | h
    · exact (by decide : ∀ x ∈ tokensHead, x.Plain) x h
    · exact tokenTexts_plain l x h
  simp only [readListing, readJsonText_jsonText plain, Option.bind_eq_bind, Option.bind_some,
    prefix_append, readTokens_tokenTexts l (tokenTexts_length l)]

/-- The wire of quotes with the bodies of the two reads in JSON. -/
def jsonWire : ListingWire quotedServer where
  toWire := { quotedWire with
    decodeSecrets := readSecrets
    encodeBody := fun body =>
      match body with
      | .secrets values => jsonText (object (secretPairs values))
      | .tokens l => jsonText (tokensHead ++ tokenTexts l)
      | other => quotedWire.encodeBody other }
  decodeTokens := readListing

lemma jsonWire_laws : jsonWire.Laws false where
  reads body limit := by simp [jsonWire, quotedWire, plainAgent, WithinCap]
  secrets values := readSecrets_object values
  tokens l := readListing_tokenTexts l

/-! ## A value of almost the whole limit -/

lemma le_flatMap_escape (s : List Char) : s.length ≤ (s.flatMap escape).length := by
  induction s with
  | nil => simp
  | cons ch s ih =>
    have some : 0 < (escape ch).length := by
      unfold escape
      split
      · simp
      · split <;> simp
    rw [List.flatMap_cons, List.length_append, List.length_cons]
    omega

lemma members_length {pairs : List Pair} {k v : List Char} (listed : (k, v) ∈ pairs) :
    k.length + v.length + 6 ≤ (write (members pairs)).length := by
  have keyText := le_flatMap_escape k
  have valueText := le_flatMap_escape v
  induction pairs with
  | nil => cases listed
  | cons p pairs ih =>
    obtain ⟨k', v'⟩ := p
    rcases List.mem_cons.mp listed with same | later
    · obtain ⟨rfl, rfl⟩ := Prod.mk.inj same
      cases pairs with
      | nil =>
        simp only [members, write, List.flatMap_cons, List.flatMap_nil, Lexeme.write,
          List.length_append, List.length_cons, List.length_nil, List.append_nil]
        omega
      | cons q pairs =>
        rw [members_cons]
        simp only [write, List.flatMap_cons, Lexeme.write, List.length_append, List.length_cons,
          List.length_nil]
        omega
    · cases pairs with
      | nil => cases later
      | cons q pairs =>
        have rest := ih later
        rw [members_cons]
        simp only [write, List.flatMap_cons, List.length_append] at rest ⊢
        omega

lemma toList_length_le (s : String) : s.toList.length ≤ (utf8 s).length := by
  rw [utf8_eq_flatMap]
  induction s.toList with
  | nil => simp
  | cons ch l ih =>
    have some := ch.utf8Size_pos
    rw [List.flatMap_cons, List.length_append, List.length_cons, String.length_utf8EncodeChar]
    omega

/-- The text of a map holds its keys and values with their quotes. -/
lemma secrets_length {m : SecretMap} {k v : String} (found : m[k]? = some v) :
    k.length + v.length + 7 ≤ (jsonWire.encodeBody (.secrets m)).length := by
  have listed : (k.toList, v.toList) ∈ secretPairs m :=
    List.mem_map.mpr ⟨(k, v), Std.ExtTreeMap.mem_toList_iff_getElem?_eq_some.mpr found, rfl⟩
  have inner := members_length listed
  have bytes := toList_length_le (String.ofList (write (object (secretPairs m))))
  have whole : (write (object (secretPairs m))).length =
      (write (members (secretPairs m))).length + 1 := rfl
  have body : (jsonWire.encodeBody (.secrets m)).length =
      (utf8 (String.ofList (write (object (secretPairs m))))).length := rfl
  rw [String.toList_ofList] at bytes
  rw [String.length_toList, String.length_toList] at inner
  omega

def letters (n : Nat) : String := String.ofList (List.replicate n 'a')

lemma letters_bytes (n : Nat) : (utf8 (letters n)).length = n := by
  rw [utf8_eq_flatMap, letters, String.toList_ofList, List.length_flatMap]
  have one : 'a'.utf8Size = 1 := by decide
  simp [String.length_utf8EncodeChar, one]

def rootToken : AuthedToken := ⟨"root", none⟩

def quotedDraws : Draws quotedServer.time := epochDraws ""

/-- The first token is issued. -/
def withToken : Vault :=
  ⟨(run (Commands.tokenCreate quotedServer "root" none none ⟨epoch, epoch, "tok"⟩) .empty).2, ∅⟩

def newProject : Request := bearerRequest .post "/v1/projects" "tok" "\x7b\"name\":\"app\"\x7d"

def withProject : Vault :=
  ⟨(serve quotedServer [7] newProject quotedDraws withToken.db).2,
    mapAfter quotedServer rootToken quotedDraws ∅ (.store (.createProject (.ok ⟨"app"⟩)))⟩

def databaseUrl (value : String) : Request :=
  bearerRequest .put "/v1/projects/app/secrets/DATABASE_URL" "tok" (setBodyText value)

def putUrl (value : String) : StoreCall := .putSecret "app" "DATABASE_URL" (.ok ⟨value⟩)

/-- And a secret of this value is put. -/
def withSecret (value : String) : Vault :=
  ⟨(serve quotedServer [7] (databaseUrl value) quotedDraws withProject.db).2,
    mapAfter quotedServer rootToken quotedDraws withProject.map (.store (putUrl value))⟩

section Put

variable {value : String} (fits : (utf8 (setBodyText value)).length ≤ bodyLimit)

include fits

lemma databaseUrl_routed :
    (databaseUrl value).routed quotedServer = .guarded (.ok (.store (putUrl value))) := by
  have body : jsonBody quotedServer.parseSetSecret (databaseUrl value).payload = .ok ⟨value⟩ := by
    have read : quotedServer.parseSetSecret (utf8 (setBodyText value)) = some ⟨value⟩ :=
      quotedWire_laws.setBody value
    simp [jsonBody, extractJson, databaseUrl, bearerRequest, Nat.not_lt.mpr fits, read,
      Except.mapError]
  have found : matchRoute (pathSegments (databaseUrl value).path) =
      some (.secret "app" "DATABASE_URL") := by
    have path : (databaseUrl value).path = "/v1/projects/app/secrets/DATABASE_URL" := rfl
    rw [path]
    decide
  have name : percentDecode "app" = some "app" := by decide
  have secretKey : percentDecode "DATABASE_URL" = some "DATABASE_URL" := by decide
  apply routed_of_call found (by simp)
  have method : (databaseUrl value).method = .put := rfl
  simp [Route.call, method, name, secretKey, body, putUrl]

lemma withSecret_run : VaultRun quotedServer [7] (withSecret value) := by
  have first : VaultRun quotedServer [7] withToken := .single (.tokenCreate _ "root" none none _)
  have project : VaultStep quotedServer [7] withToken withProject :=
    .request withToken newProject _ rootToken quotedDraws rfl (by decide)
  have bearer : (extractToken quotedServer (some (utf8 "Bearer tok")) 0 ⟨withProject.db, []⟩).1 =
      .ok rootToken := by decide
  have put : VaultStep quotedServer [7] withProject (withSecret value) :=
    .request withProject (databaseUrl value) _ rootToken quotedDraws (databaseUrl_routed fits)
      bearer
  exact (first.tail project).tail put

end Put

lemma withSecret_stored (value : String) : ∃ p : RefProject,
    (withSecret value).map["app"]? = some p ∧ p.values["DATABASE_URL"]? = some value := by
  have valid : validProject "app" = true := by decide
  have validUrl : validKey "DATABASE_URL" = true := by decide
  simp [withSecret, mapAfter, putUrl, withProject, RefStore.step, RefStore.call, RefStore.check,
    RefStore.project, valid, validUrl, rootToken, ensureScope, RefProject.values, bind, Except.bind,
    pure, Except.pure]

/-- A put of the key `DATABASE_URL` whose body has exactly the limit makes its project unreadable. -/
theorem largeValue_not_readBack :
    ¬ ∀ st, VaultRun quotedServer [7] st → ReadsBack quotedServer jsonWire [7] st := by
  intro all
  obtain ⟨n, size⟩ : ∃ n, n + 12 = 2 ^ 20 := ⟨2 ^ 20 - 12, by norm_num⟩
  have body : (utf8 (setBodyText (letters n))).length ≤ bodyLimit := by
    have front : (utf8 "\x7b\"value\":\"").length = 10 := by decide
    have behind : (utf8 "\"\x7d").length = 2 := by decide
    have limit : bodyLimit = 2 ^ 20 := rfl
    simp only [setBodyText, utf8_append, List.length_append, letters_bytes, front, behind]
    omega
  have run := withSecret_run body
  have inv := vaultRun_inv Framing.framedAead_ideal Framing.framedAead_total run
  have fits := fits_of_readsBack jsonWire_laws inv (all _ run)
  obtain ⟨p, found, stored⟩ := withSecret_stored (letters n)
  have short := fits.1 "app" p found
  have long := secrets_length stored
  have key : "DATABASE_URL".length = 12 := by decide
  have value : (letters n).length = n := by simp [letters]
  have cap : MAX_RESPONSE_BYTES = 2 ^ 20 := rfl
  simp only [WithinCap, Bool.false_eq_true, false_and, or_false] at short
  omega

theorem readsBack_iff_withSecret : ReadsBack quotedServer jsonWire [7] (withSecret "v") ↔
    FitsCap quotedServer jsonWire false (withSecret "v") :=
  readsBack_iff jsonWire_laws Framing.framedAead_ideal Framing.framedAead_total
    (withSecret_run (by decide))

end Json

end SecretsManager
