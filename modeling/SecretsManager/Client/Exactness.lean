import SecretsManager.Client.Routing
import Std.Data.String.ToNat

/-!
# When a call acts on what it names

Whatever the server holds, a call that returns has acted on the call it is taken
for. That is the call itself when no name has a reserved character, and another
one when a name has.
-/

namespace SecretsManager

open KeyedTable FaultySession

variable {Key : Type} {c : ServerCrates Key}

/-! ## Requests that a handler answers -/

lemma routed_turnedDown {r : Request} {response : Response} (h : r.routed c = .answered response)
    (other : matchRoute (pathSegments r.path) ≠ some .health) : response.Failed := by
  unfold Request.routed at h
  split at h
  · cases h
    simp [Response.Failed]
  · rename_i found
    exact absurd found other
  · split at h <;> cases h
    simp [Response.Failed]

/-! ## What a call that returned has done -/

section Exchange

variable {w : Wire c} {cfg : Config} {key : Key} {d : Draws c.time} {db : Db}

/-- The request that reaches the server. -/
def sentRequest (cfg : Config) (method : Method) (path : String) (payload : Payload) : Request :=
  ⟨method, sentPath path, some (utf8 ("Bearer " ++ cfg.token)), payload⟩

lemma exchange_eq (validated : cfg.Validated) (method : Method) (path : String)
    (payload : Payload) : exchange w cfg key d method path payload db =
      if w.agent.accepts (cfg.serverUrl ++ path) && headerAccepted ("Bearer " ++ cfg.token) then
        w.receive (serve c key (sentRequest cfg method path payload) d db)
      else (.error (.other "invalid request"), db) := by
  simp only [exchange, sentRequest, sentPath_append validated, stripPrefix_append]

lemma receive_failed {response : Response} (failed : response.Failed) :
    w.receive (some response, db) = (.error (.statusCode response.status), db) := by
  have noSuccess : ¬ (200 ≤ response.status ∧ response.status < 300) := by
    have := failed.1
    omega
  have failure : 400 ≤ response.status ∧ response.status < 600 := failed
  simp only [Wire.receive, callResult, if_neg noSuccess, if_pos failure]

lemma receive_succeeded {response : Response} (succeeded : response.Succeeded) :
    w.receive (some response, db) =
      (.ok ⟨response.status, w.agent.readToVec (w.encodeBody response.body)⟩, db) := by
  have success : 200 ≤ response.status ∧ response.status < 300 := succeeded
  simp only [Wire.receive, callResult, if_pos success]

variable (w key d db) in
/-- An exchange fails and leaves the server alone, or a handler answered it. -/
lemma exchange_cases (validated : cfg.Validated) {method : Method} {path : String}
    {payload : Payload} (notHead : method ≠ .head)
    (notHealth : matchRoute (pathSegments (sentPath path)) ≠ some .health) :
    (∃ e, exchange w cfg key d method path payload db = (.error e, db)) ∨
    ∃ token call response db',
      exchange w cfg key d method path payload db =
        (.ok ⟨response.status, w.agent.readToVec (w.encodeBody response.body)⟩, db') ∧
      w.agent.accepts (cfg.serverUrl ++ path) = true ∧
      (sentRequest cfg method path payload).routed c = .guarded (.ok call) ∧
      Outcome c key token d db call response db' := by
  rw [exchange_eq validated]
  by_cases sent : (w.agent.accepts (cfg.serverUrl ++ path) &&
    headerAccepted ("Bearer " ++ cfg.token)) = true
  · rw [if_pos sent]
    have replied : ∀ r, reply (sentRequest cfg method path payload).method (.ok r) = some r := by
      intro r
      simp [reply, sentRequest, notHead]
    have ends := (serve_cases (sentRequest cfg method path payload) :
      _ ∨ ∃ e, (serve c key (sentRequest cfg method path payload) d db).1 = _ ∧ _)
    generalize serve c key (sentRequest cfg method path payload) d db = out at ends ⊢
    obtain ⟨answer, db'⟩ := out
    rcases ends with ⟨response, rfl, handled⟩ | ⟨e, rfl, rfl⟩
    · rw [replied]
      cases handled with
      | answered routed => exact Or.inl ⟨_, receive_failed (routed_turnedDown routed notHealth)⟩
      | invalidPath => exact Or.inl ⟨_, receive_failed (by simp [Response.Failed])⟩
      | called token call routed authenticated outcome =>
        refine Or.inr ⟨token, call, response, db', ?_, ?_, routed, outcome⟩
        · exact receive_succeeded outcome.succeeded
        · exact (Bool.and_eq_true _ _ ▸ sent).1
    · cases e with
      | panic => exact Or.inl ⟨_, rfl⟩
      | app e =>
        have answered : reply (sentRequest cfg method path payload).method (.error (.app e)) =
            some e.intoResponse := by simp [reply, sentRequest, notHead]
        rw [answered]
        exact Or.inl ⟨_, receive_failed (intoResponse_failed e)⟩
  · rw [if_neg sent]
    exact Or.inl ⟨_, rfl⟩

end Exchange

/-! ## What a call is taken for -/

section TakenFor

variable {w : Wire c} {cfg : Config} {key : Key} {d : Draws c.time} {db : Db}

lemma ClientCall.notHealth (call : ClientCall) :
    matchRoute (pathSegments (sentPath call.path)) ≠ some .health := by
  intro h
  have reached := call.reaches h
  cases call <;> simp [Reaches] at reached

/-- The body of a put is read as its value or is too large. -/
lemma jsonBody_set (laws : w.Laws) {value : String} {body : SetSecretBody}
    (h : jsonBody c.parseSetSecret ⟨true, some (w.encodeSetBody value)⟩ = .ok body) :
    (w.encodeSetBody value).length ≤ bodyLimit ∧ body = ⟨value⟩ := by
  unfold jsonBody extractJson at h
  by_cases large : bodyLimit < (w.encodeSetBody value).length
  · simp [large, Except.mapError] at h
  · simp only [large, if_true, if_false, laws.setBody, Except.mapError, Except.ok.injEq] at h
    exact ⟨Nat.not_lt.mp large, h.symm⟩

/-- The values that a fetch returns are those of the answer. -/
lemma fetchSecrets_read (laws : w.Laws) {status : Nat} {out values : SecretMap}
    (fetched : Api.fetchSecrets w.toClientJson
      (.ok ⟨status, w.agent.readToVec (w.encodeBody (.secrets out))⟩) = .ok values) :
    values = out := by
  unfold Api.fetchSecrets readJson at fetched
  cases read : w.agent.readToVec (w.encodeBody (.secrets out)) MAX_RESPONSE_BYTES with
  | none => simp [read] at fetched
  | some body =>
    obtain rfl := laws.agent.whole _ _ _ read
    simp only [read, laws.secrets] at fetched
    exact (secretMapFromPlain_ok.mp fetched).1

/-- What a call returns and leaves when it is taken for another one. -/
def TakenFor (w : Wire c) (cfg : Config) (key : Key) (d : Draws c.time) (db : Db)
    (call : ClientCall) (out : Returned) (db' : Db) : Prop :=
  ∃ call', call.takenFor = some call' ∧ call.bodyFits w = true ∧
    w.agent.accepts (cfg.serverUrl ++ call.path) = true ∧ ActedOn c key d db call' out db'

lemma setSecret_takenFor (laws : w.Laws) {project secretKey value : String} {call : Call}
    {response : Response} {token : AuthedToken} {db' : Db}
    (accepted : w.agent.accepts (cfg.serverUrl ++ Api.secretPath project secretKey) = true)
    (routed : (sentRequest cfg .put (Api.secretPath project secretKey)
      ⟨true, some (w.encodeSetBody value)⟩).routed c = .guarded (.ok call))
    (outcome : Outcome c key token d db call response db') :
    TakenFor w cfg key d db (.setSecret project secretKey value) .done db' := by
  obtain ⟨route, found, called⟩ := routed_guarded routed
  have found : matchRoute (pathSegments (sentPath (ClientCall.setSecret project secretKey
    value).path)) = some route := found
  rcases ClientCall.reaches found with ⟨a, rfl⟩ | ⟨a, b, rfl⟩
  · cases called
  simp only [sentRequest, Route.call, Option.some.injEq] at called
  cases name : percentDecode a with
  | none => simp [name] at called
  | some name' =>
    cases keyName : percentDecode b with
    | none => simp [name, keyName] at called
    | some key' =>
      simp only [name, keyName, Except.ok.injEq] at called
      generalize decoded : jsonBody c.parseSetSecret _ = body at called
      subst called
      cases outcome with
      | putSecret _ _ body p n ct row checked stored =>
        obtain ⟨fits, rfl⟩ := jsonBody_set laws decoded
        refine ⟨.setSecret name' key' value, ?_, ?_, accepted, ?_⟩
        · rw [ClientCall.takenFor, found]
          simp [ClientCall.takenAs, name, keyName, checked.validName, checked.validKey]
        · simpa [ClientCall.bodyFits] using fits
        · exact ⟨p, n, ct, checked.found, checked.encrypted, rfl⟩

lemma getSecrets_takenFor (laws : w.Laws) {project : String} {call : Call}
    {response : Response} {token : AuthedToken} {db' : Db}
    (accepted : w.agent.accepts (cfg.serverUrl ++ Api.secretsPath project) = true)
    (routed : (sentRequest cfg .get (Api.secretsPath project) ⟨false, some []⟩).routed c =
      .guarded (.ok call))
    (outcome : Outcome c key token d db call response db') :
    db' = db ∧ ∀ values, Api.fetchSecrets w.toClientJson (.ok ⟨response.status,
        w.agent.readToVec (w.encodeBody response.body)⟩) = .ok values →
      TakenFor w cfg key d db (.getSecrets project) (.secrets values) db := by
  obtain ⟨route, found, called⟩ := routed_guarded routed
  have found : matchRoute (pathSegments (sentPath (ClientCall.getSecrets project).path)) =
    some route := found
  rcases ClientCall.reaches found with ⟨a, rfl⟩ | ⟨a, b, rfl⟩
  · simp only [sentRequest, Route.call, Option.some.injEq] at called
    cases name : percentDecode a with
    | none => simp [name] at called
    | some name' =>
      simp only [name, Except.ok.injEq] at called
      subst called
      cases outcome with
      | getSecrets _ p out valid inScope present opened =>
        refine ⟨rfl, fun values fetched => ?_⟩
        have same : values = out := fetchSecrets_read laws fetched
        subst same
        refine ⟨.getSecrets name', ?_, rfl, accepted, p, present, opened, rfl⟩
        rw [ClientCall.takenFor, found]
        simp [ClientCall.takenAs, name, valid]
  · cases called

lemma revokeToken_takenFor {name : String} {call : Call}
    {response : Response} {token : AuthedToken} {db' : Db}
    (accepted : w.agent.accepts (cfg.serverUrl ++ Api.tokenPath name) = true)
    (routed : (sentRequest cfg .delete (Api.tokenPath name) ⟨false, some []⟩).routed c =
      .guarded (.ok call))
    (outcome : Outcome c key token d db call response db') :
    ∃ n, response.body = .revoked n ∧ n ≤ db.tokens.length ∧
      TakenFor w cfg key d db (.revokeToken name) (.revoked n) db' := by
  obtain ⟨route, found, called⟩ := routed_guarded routed
  have found : matchRoute (pathSegments (sentPath (ClientCall.revokeToken name).path)) =
    some route := found
  obtain ⟨a, rfl⟩ := ClientCall.reaches found
  simp only [sentRequest, Route.call, Option.some.injEq] at called
  cases decoded : percentDecode a with
  | none => simp [decoded] at called
  | some name' =>
    simp only [decoded, Except.ok.injEq] at called
    subst called
    cases outcome with
    | revokeToken _ admin valid =>
      refine ⟨_, rfl, List.countP_le_length, .revokeToken name', ?_, rfl, accepted, rfl, rfl⟩
      rw [ClientCall.takenFor, found]
      simp [ClientCall.takenAs, decoded, valid]

variable (key d) in
/-- A call fails and leaves the server alone, or acts on the call it is taken for. -/
theorem perform_cases (laws : w.Laws) (validated : cfg.Validated)
    (sized : db.tokens.length < 2 ^ 64) (call : ClientCall) :
    (∃ e, call.perform w cfg key d db = (.error e, db)) ∨
    ∃ out db', call.perform w cfg key d db = (.ok out, db') ∧
      TakenFor w cfg key d db call out db' := by
  have notHead : call.method ≠ .head := by cases call <;> simp [ClientCall.method]
  unfold ClientCall.perform
  rcases exchange_cases w key d db validated notHead call.notHealth
    with ⟨e, failed⟩ | ⟨token, server, response, db', ended, accepted, routed, outcome⟩
  · rw [failed]
    left
    cases call <;> exact ⟨_, rfl⟩
  rw [ended]
  cases call with
  | setSecret project secretKey value =>
    exact Or.inr ⟨_, _, rfl, setSecret_takenFor laws accepted routed outcome⟩
  | getSecrets project =>
    obtain ⟨rfl, taken⟩ := getSecrets_takenFor laws accepted routed outcome
    simp only [ClientCall.returned]
    cases fetched : Api.fetchSecrets w.toClientJson (.ok ⟨response.status,
      w.agent.readToVec (w.encodeBody response.body)⟩) with
    | error e => exact Or.inl ⟨e, rfl⟩
    | ok values => exact Or.inr ⟨_, _, rfl, taken values fetched⟩
  | revokeToken name =>
    obtain ⟨n, body, counted, taken⟩ := revokeToken_takenFor accepted routed outcome
    have read := laws.agent.short _ _ (laws.count n (by omega))
    refine Or.inr ⟨_, _, ?_, taken⟩
    simp [ClientCall.returned, Api.revokeToken, readJson, body, read, laws.revoked, Except.map]

end TakenFor

/-! ## A server where the taken call succeeds -/

namespace ClientCall

/-- The project or the token that the call names. -/
def name : ClientCall → String
  | setSecret project .. => project
  | getSecrets project => project
  | revokeToken name => name

/-- The call of the handler. -/
def asked : ClientCall → Call
  | setSecret project secretKey value => .store (.putSecret project secretKey (.ok ⟨value⟩))
  | getSecrets project => .store (.getSecrets project)
  | revokeToken name => .revokeToken name

/-- The names are valid for the server. -/
def Valid : ClientCall → Prop
  | setSecret project secretKey _ => validProject project = true ∧ validKey secretKey = true
  | getSecrets project => validProject project = true
  | revokeToken name => validProject name = true

/-- The body it is answered with where one token and no secret has its name. -/
def AnsweredWith : ClientCall → ResponseBody → Prop
  | setSecret .., _ => True
  | getSecrets _, body => body = .secrets ∅
  | revokeToken _, body => body = .revoked 1

end ClientCall

variable (c) in
/-- One project and one token of this name, which the bearer `t` presents. -/
def namedDb (name : String) : Db where
  metaTable := []
  projects := [⟨1, name, ""⟩]
  secrets := []
  tokens := [⟨1, name, hashToken c.toCryptoCrates "t", none, "", false, none⟩]

section Named

variable {w : Wire c} {cfg : Config} {key : Key} {d : Draws c.time} {name other : String}

lemma extractToken_named : extractToken c (some (utf8 ("Bearer " ++ "t"))) d.authenticatedAt.instant
    ⟨namedDb c name, []⟩ = (.ok ⟨name, none⟩, ⟨namedDb c name, []⟩) := by
  have bearer : extractBearer (some (utf8 ("Bearer " ++ "t"))) = some "t" := by decide
  have found : authenticateRows c.time d.authenticatedAt.instant (hashToken c.toCryptoCrates "t")
      ((namedDb c name).tokens.filter fun r => r.revoked = false) = some ⟨name, none⟩ := by
    simp [namedDb, authenticateRows, notExpired]
  unfold extractToken
  simp only [bearer, database, Repo.authenticate, bind_apply, mapError_apply, query_nil, found]
  rfl

lemma namedDb_project : (namedDb c name).project other =
    if other = name then some ⟨1, name, ""⟩ else none := by
  by_cases same : other = name
  · simp [namedDb, Db.project, KeyedTable.get, same]
  · simp [namedDb, Db.project, KeyedTable.get, same, Ne.symm same]

/-- The handler of the taken call is reached. -/
lemma routed_takenFor (laws : w.Laws) {call call' : ClientCall} (taken : call.takenFor = some call')
    (fits : call.bodyFits w = true) :
    (sentRequest cfg call.method call.path (call.payload w)).routed c =
      .guarded (.ok call'.asked) ∧ call'.Valid := by
  obtain ⟨route, found, taken⟩ := Option.bind_eq_some_iff.mp taken
  cases call with
  | setSecret project secretKey value =>
    obtain ⟨a, b, name, k, rfl, decodedName, decodedKey, validName, validKey, rfl⟩ :=
      setSecret_takenAs taken
    have fits : (w.encodeSetBody value).length ≤ bodyLimit := by
      simpa [ClientCall.bodyFits] using fits
    have body : jsonBody c.parseSetSecret ⟨true, some (w.encodeSetBody value)⟩ = .ok ⟨value⟩ := by
      simp [jsonBody, extractJson, Nat.not_lt.mpr fits, laws.setBody, Except.mapError]
    refine ⟨routed_of_call found (by simp) ?_, validName, validKey⟩
    simp [sentRequest, Route.call, ClientCall.method, ClientCall.payload, ClientCall.asked,
      decodedName, decodedKey, body]
  | getSecrets project =>
    obtain ⟨a, name, rfl, decoded, valid, rfl⟩ := getSecrets_takenAs taken
    refine ⟨routed_of_call found (by simp) ?_, valid⟩
    simp [sentRequest, Route.call, ClientCall.method, ClientCall.asked, decoded]
  | revokeToken name =>
    obtain ⟨a, name', rfl, decoded, valid, rfl⟩ := revokeToken_takenAs taken
    refine ⟨routed_of_call found (by simp) ?_, valid⟩
    simp [sentRequest, Route.call, ClientCall.method, ClientCall.asked, decoded]

/-- There the call succeeds, with a body that the client reads. -/
lemma asked_named (total : IdealAead.Total c.aead) {call : ClientCall} (valid : call.Valid) :
    ∃ response db', call.asked.perform c key ⟨call.name, none⟩ d ⟨namedDb c call.name, []⟩ =
        (.ok response, ⟨db', []⟩) ∧ response.Succeeded ∧ call.AnsweredWith response.body := by
  cases call with
  | setSecret project secretKey value =>
    obtain ⟨ct, encrypted⟩ := encrypt_total total key d.nonce (utf8 value)
      (aadBytes project secretKey)
    have checked : PutChecked c key ⟨project, none⟩ d (namedDb c project) project secretKey value
        ⟨1, project, ""⟩ d.nonce.bytes ct :=
      ⟨valid.1, rfl, valid.2, by simp [namedDb_project], encrypted⟩
    have ran : Handlers.putSecret c key _ project secretKey (.ok ⟨value⟩) d _ = _ :=
      putSecret_nil checked
    exact ⟨_, _, ran, by simp [Response.Succeeded], trivial⟩
  | getSecrets project =>
    refine ⟨⟨200, .secrets ∅⟩, namedDb c project, ?_, by simp [Response.Succeeded], rfl⟩
    have valid : validProject project = true := valid
    simp [ClientCall.asked, ClientCall.name, Call.perform, StoreCall.perform, Handlers.getSecrets,
      ensure, valid, orReject, ensureScope, Except.mapError, database, Repo.projectId,
      Repo.listSecretRows, bind_apply, mapError_apply, query_nil, namedDb_project,
      show (namedDb c project).secretsOf 1 = [] from rfl, Handlers.openRows]
  | revokeToken name =>
    refine ⟨⟨200, .revoked 1⟩, (namedDb c name).revokeTokens name, ?_, by simp [Response.Succeeded], rfl⟩
    have valid : validProject name = true := valid
    simp [ClientCall.asked, ClientCall.name, Call.perform, Handlers.revokeToken,
      ensure, valid, orReject, ensureAdmin, Except.mapError, database, Repo.revokeToken,
      bind_apply, mapError_apply, statement_nil, namedDb, TokenRow.activeAs]

lemma serve_named (laws : w.Laws) (total : IdealAead.Total c.aead) {call call' : ClientCall}
    (taken : call.takenFor = some call') (fits : call.bodyFits w = true) {serverUrl : String} :
    ∃ response db', serve c key (sentRequest ⟨serverUrl, "t"⟩ call.method call.path
        (call.payload w)) d (namedDb c call'.name) = (some response, db') ∧
      response.Succeeded ∧ call'.AnsweredWith response.body := by
  obtain ⟨routed, valid⟩ := routed_takenFor laws taken fits
  obtain ⟨response, db', performed, status, body⟩ := asked_named (c := c) (d := d) total valid
  have notHead : call.method ≠ .head := by cases call <;> simp [ClientCall.method]
  have handled : handle c key (sentRequest ⟨serverUrl, "t"⟩ call.method call.path
      (call.payload w)) d ⟨namedDb c call'.name, []⟩ = (.ok response, ⟨db', []⟩) := by
    have routed : (sentRequest ⟨serverUrl, "t"⟩ call.method call.path (call.payload w)).routed c =
      .guarded (.ok call'.asked) := routed
    unfold handle
    rw [routed]
    simp only [bind_apply]
    have extracted : extractToken c (sentRequest ⟨serverUrl, "t"⟩ call.method call.path
        (call.payload w)).authorization d.authenticatedAt.instant ⟨namedDb c call'.name, []⟩ =
      (.ok ⟨call'.name, none⟩, ⟨namedDb c call'.name, []⟩) := extractToken_named
    rw [extracted]
    exact performed
  refine ⟨response, db', ?_, status, body⟩
  unfold serve run
  rw [handled]
  simp [reply, sentRequest, notHead]

variable (key d) in
/-- The client's call returns there. -/
lemma perform_named (laws : w.Laws) (total : IdealAead.Total c.aead) {call call' : ClientCall}
    (taken : call.takenFor = some call') (fits : call.bodyFits w = true) {serverUrl : String}
    (validated : Config.Validated ⟨serverUrl, "t"⟩)
    (accepted : w.agent.accepts (serverUrl ++ call.path) = true) :
    ∃ out db', call.perform w ⟨serverUrl, "t"⟩ key d (namedDb c call'.name) = (.ok out, db') := by
  obtain ⟨response, db', served, status, body⟩ :=
    (serve_named laws total taken fits : ∃ _ _, serve c key (sentRequest ⟨serverUrl, "t"⟩ call.method
      call.path (call.payload w)) d (namedDb c call'.name) = _ ∧ _)
  have ended : exchange w ⟨serverUrl, "t"⟩ key d call.method call.path (call.payload w)
      (namedDb c call'.name) = (.ok ⟨response.status,
        w.agent.readToVec (w.encodeBody response.body)⟩, db') := by
    have header : headerAccepted "Bearer t" = true := by decide
    rw [exchange_eq validated, served, receive_succeeded status]
    simp [accepted, header]
  unfold ClientCall.perform
  rw [ended]
  obtain ⟨route, _, same⟩ := Option.bind_eq_some_iff.mp taken
  cases call with
  | setSecret project secretKey value => exact ⟨_, _, rfl⟩
  | getSecrets project =>
    obtain ⟨_, name, _, _, _, rfl⟩ := getSecrets_takenAs same
    have read := laws.agent.short _ _ laws.noSecrets
    have none : secretMapFromPlain ∅ = .ok ∅ := secretMapFromPlain_ok.mpr ⟨rfl, by simp⟩
    refine ⟨.secrets ∅, db', ?_⟩
    have body : response.body = .secrets ∅ := body
    simp [ClientCall.returned, Api.fetchSecrets, readJson, body, read, laws.secrets, none,
      Except.map]
  | revokeToken name =>
    obtain ⟨_, name', _, _, _, rfl⟩ := revokeToken_takenAs same
    have read := laws.agent.short _ _ (laws.count 1 (by norm_num))
    refine ⟨.revoked 1, db', ?_⟩
    have body : response.body = .revoked 1 := body
    simp [ClientCall.returned, Api.revokeToken, readJson, body, read, laws.revoked, Except.map]

/-- There only the taken call has been acted on. -/
lemma actedOn_named {call call' : ClientCall} (taken : call.takenFor = some call')
    {out : Returned} {db' : Db} (actual : ActedOn c key d (namedDb c call'.name) call' out db')
    (claimed : ActedOn c key d (namedDb c call'.name) call out db') : call' = call := by
  obtain ⟨route, _, same⟩ := Option.bind_eq_some_iff.mp taken
  cases call with
  | setSecret project secretKey value =>
    obtain ⟨_, _, name, k, _, _, _, _, _, rfl⟩ := setSecret_takenAs same
    cases out with
    | done =>
      obtain ⟨p', n', ct', found', _, rfl⟩ := actual
      obtain ⟨p, n, ct, found, _, written⟩ := claimed
      simp only [ClientCall.name, namedDb_project, Option.ite_none_right_eq_some] at found found'
      obtain ⟨rfl, same⟩ := found
      cases same
      cases found'.2
      have stored := congrArg (fun db => (db.secret 1 k).isSome) written
      simp only [secret_putSecretRow] at stored
      by_cases sameKey : k = secretKey
      · rw [sameKey]
      · have absent : (namedDb c project).secret 1 k = none := rfl
        simp [sameKey, ClientCall.name, absent] at stored
    | _ => cases actual
  | getSecrets project =>
    obtain ⟨_, name, _, _, _, rfl⟩ := getSecrets_takenAs same
    cases out with
    | secrets values =>
      obtain ⟨p, found, _⟩ := claimed
      simp only [ClientCall.name, namedDb_project, Option.ite_none_right_eq_some] at found
      rw [found.1]
    | _ => cases actual
  | revokeToken name =>
    obtain ⟨_, name', _, _, _, rfl⟩ := revokeToken_takenAs same
    cases out with
    | revoked n =>
      obtain ⟨one, _⟩ := actual
      obtain ⟨count, _⟩ := claimed
      by_contra different
      have different : name' ≠ name := fun h => different (by rw [h])
      simp [namedDb, ClientCall.name, TokenRow.activeAs, different] at one count
      omega
    | _ => cases actual

end Named

/-! ## A wire of quotes and frames -/

def setBodyText (value : String) : String := "\x7b\"value\":\"" ++ value ++ "\"\x7d"

def revokedText (count : Nat) : String := "\x7b\"revoked\":" ++ Nat.repr count ++ "\x7d"

/-- What stands between so many characters in front and behind. -/
def between (front behind : Nat) (s : String) : String :=
  String.ofList ((s.toList.drop front).take (s.toList.length - front - behind))

/-- A guess that is written as the text is what the text says. -/
def readAs [DecidableEq α] (write : α → String) (guess : String → Option α) (b : Bytes) :
    Option α := do
  let text ← fromUtf8 b
  let value ← guess text
  if write value = text then some value else none

lemma readAs_write [DecidableEq α] (write : α → String) (guess : String → Option α) {value : α}
    (guessed : guess (write value) = some value) :
    readAs write guess (utf8 (write value)) = some value := by
  simp [readAs, fromUtf8_utf8, guessed]

lemma between_append (front s behind : String) :
    between front.toList.length behind.toList.length (front ++ s ++ behind) = s := by
  apply String.toList_inj.mp
  simp [between]

/-- A server that reads what `setBodyText` writes. -/
def quotedServer : ServerCrates Bytes :=
  { framedServer with
    parseSetSecret := readAs (fun body => setBodyText body.value) fun text =>
      some ⟨between 10 2 text⟩ }

/-- Every visible character may stand in a URL, and a body is read below the limit. -/
def plainAgent : HttpAgent where
  accepts url := (utf8 url).all fun b => 32 < b && b < 127
  readToVec body limit := if body.length < limit then some body else none
  elsewhere _ := .error (.other "protocol: missing a location header")

def quotedWire : Wire quotedServer where
  encodeSetBody value := utf8 (setBodyText value)
  decodeSecrets := secretMapRead
  decodeRevoked := readAs revokedText fun text => (between 11 1 text).toNat?
  agent := plainAgent
  encodeBody body :=
    match body with
    | .secrets values => secretMapFrames values
    | .revoked n => utf8 (revokedText n)
    | _ => []

lemma plainAgent_laws : plainAgent.Laws where
  whole body limit read h := by
    simp only [plainAgent, Option.ite_none_right_eq_some, Option.some.injEq] at h
    exact h.2.symm
  short body limit h := by simp [plainAgent, h]

lemma utf8_length_le (s : String) : (utf8 s).length ≤ 4 * s.toList.length := by
  rw [utf8_eq_flatMap, List.length_flatMap]
  have each : ∀ n ∈ s.toList.map fun ch => (String.utf8EncodeChar ch).length, n ≤ 4 := by
    intro n hn
    obtain ⟨ch, _, rfl⟩ := List.mem_map.mp hn
    rw [String.length_utf8EncodeChar]
    exact ch.utf8Size_le_four
  simpa [mul_comm] using List.sum_le_card_nsmul _ 4 each

theorem quotedWire_laws : quotedWire.Laws where
  agent := plainAgent_laws
  setBody value := by
    have guess : between 10 2 (setBodyText value) = value :=
      between_append "\x7b\"value\":\"" value "\"\x7d"
    exact readAs_write (fun body : SetSecretBody => setBodyText body.value)
      (fun text => some ⟨between 10 2 text⟩) (by rw [guess])
  secrets values := secretMapRead_frames values
  revoked n := by
    have guess : between 11 1 (revokedText n) = Nat.repr n :=
      between_append "\x7b\"revoked\":" (Nat.repr n) "\x7d"
    exact readAs_write revokedText (fun text => (between 11 1 text).toNat?)
      (by rw [guess, Nat.toNat?_repr])
  noSecrets := by decide
  count n small := by
    have digits : (Nat.repr n).length ≤ 20 := Nat.repr_length n 20 (by decide) (by omega)
    have bytes : (utf8 (Nat.repr n)).length ≤ 80 := by
      have := utf8_length_le (Nat.repr n)
      rw [String.length_toList] at this
      omega
    have whole : (utf8 (revokedText n)).length = (utf8 (Nat.repr n)).length + 12 := by
      simp only [revokedText, utf8_append, List.length_append]
      rw [show (utf8 "\x7b\"revoked\":").length = 11 by decide,
        show (utf8 "\x7d").length = 1 by decide]
      omega
    have : (quotedWire.encodeBody (.revoked n)).length = (utf8 (revokedText n)).length := rfl
    have : MAX_RESPONSE_BYTES = 1048576 := rfl
    omega

/-! ## Exactly when -/

/-- A call acts on exactly what it names, whatever the server holds, if and only if no name that
the URL cannot carry is taken for another one. -/
theorem actsExactly_iff {w : Wire c} (laws : w.Laws) (total : IdealAead.Total c.aead)
    {serverUrl : String} (validated : ∀ ch ∈ serverUrl.toList, ch ≠ '#' ∧ ch ≠ '?')
    (key : Key) [Nonempty (Draws c.time)] (call : ClientCall) :
    ActsExactly w serverUrl key call ↔
      ¬ (call.needsEscaping = true ∧ call.takenFor.isSome = true ∧ call.bodyFits w = true ∧
        w.agent.accepts (serverUrl ++ call.path) = true) := by
  constructor
  · rintro exact ⟨escaping, someCall, fits, accepted⟩
    obtain ⟨call', taken⟩ := Option.isSome_iff_exists.mp someCall
    obtain ⟨d⟩ := (inferInstance : Nonempty (Draws c.time))
    have sized : (namedDb c call'.name).tokens.length < 2 ^ 64 := by
      simp [namedDb]
    have checked : Config.Validated ⟨serverUrl, "t"⟩ := validated
    have acted := exact "t" d (namedDb c call'.name) sized
    obtain ⟨out, db', performed⟩ :=
      perform_named key d laws total taken fits validated accepted
    rw [performed] at acted
    rcases perform_cases key d laws checked sized call
      with ⟨e, failed⟩ | ⟨out', db'', ended, call'', taken', _, _, actual⟩
    · rw [performed] at failed
      cases failed
    · rw [performed] at ended
      cases ended
      rw [taken] at taken'
      cases taken'
      have same := actedOn_named taken actual acted
      have plain := takenFor_escaping taken
      rw [same, escaping] at plain
      cases plain
  · intro safe token d db sized
    have checked : Config.Validated ⟨serverUrl, token⟩ := validated
    rcases perform_cases key d laws checked sized call
      with ⟨e, failed⟩ | ⟨out, db', ended, call', taken, fits, accepted, acted⟩
    · rw [failed]
    · rw [ended]
      have plain : call.needsEscaping = false := by
        by_contra escaping
        exact safe ⟨by simpa using escaping, by simp [taken], fits, accepted⟩
      rw [← takenFor_plain plain taken]
      exact acted

/-- A put that names the key `KEY#old` of `app`. -/
def fragmentCall : ClientCall := .setSecret "app" "KEY#old" "v"

theorem actsExactly_iff_fragment : ActsExactly quotedWire "https://vault" [7] fragmentCall ↔
    ¬ (fragmentCall.needsEscaping = true ∧ fragmentCall.takenFor.isSome = true ∧
      fragmentCall.bodyFits quotedWire = true ∧
      quotedWire.agent.accepts ("https://vault" ++ fragmentCall.path) = true) :=
  haveI : Nonempty (Draws quotedServer.time) := ⟨epochDraws "t"⟩
  actsExactly_iff quotedWire_laws Framing.framedAead_total (clean_of_all (by decide)) [7]
    fragmentCall

/-- It returns and has written the key `KEY`. -/
theorem fragmentCall_not_exact : ¬ ActsExactly quotedWire "https://vault" [7] fragmentCall := by
  intro exact
  have acted := exact "t" (epochDraws "t") (namedDb quotedServer "app") (by simp [namedDb])
  have returned : (fragmentCall.perform quotedWire ⟨"https://vault", "t"⟩ [7] (epochDraws "t")
      (namedDb quotedServer "app")).1 = .ok .done := by rfl
  have written : ((fragmentCall.perform quotedWire ⟨"https://vault", "t"⟩ [7] (epochDraws "t")
      (namedDb quotedServer "app")).2.secret 1 "KEY#old") = none := by decide
  generalize fragmentCall.perform quotedWire ⟨"https://vault", "t"⟩ [7] (epochDraws "t")
      (namedDb quotedServer "app") = out at acted returned written
  obtain ⟨answer, db'⟩ := out
  obtain rfl : answer = .ok .done := returned
  obtain ⟨p, n, ct, found, _, rfl⟩ := acted
  cases found
  rw [secret_putSecretRow, if_pos rfl] at written
  cases written

end SecretsManager
