import SecretsManager.Client.CommandLine

/-!
# Requests on their way

A request may be lost before the server has it, the answer may be lost after, and in
between a statement may fail. So a call that failed may have been acted on, but one that
was answered has been.
-/

namespace SecretsManager

open FaultySession

inductive Delivery where
  | delivered
  | requestLost (text : String)
  | responseLost (text : String)

variable {Key : Type} {c : ServerCrates Key}

/-- The way to the server that the configured URL names. -/
def Wire.net (w : Wire c) (key : Key) (d : Draws c.time) (faults : List Bool)
    (delivery : Delivery) (cfg : Config) : Net Db := fun method path payload db =>
  let url := cfg.serverUrl ++ path
  let bearer := "Bearer " ++ cfg.token
  if w.agent.accepts url && headerAccepted bearer then
    match stripPrefix cfg.serverUrl (sentPath url) with
    | none => (.error (.other "unreachable"), db)
    | some path =>
      let out := answer c key ⟨method, path, some (utf8 bearer), payload⟩ d ⟨db, faults⟩
      match delivery with
      | .delivered => w.receive (out.1, out.2.store)
      | .requestLost text => (.error (.other text), db)
      | .responseLost text => (.error (.other text), out.2.store)
  else (.error (.other "invalid request"), db)

/-- The handler of a call succeeded and left this database. -/
structure Request.Acted (c : ServerCrates Key) (r : Request) (key : Key) (token : AuthedToken)
    (d : Draws c.time) (db : Db) (call : Call) (response : Response) (db' : Db) : Prop where
  routed : r.routed c = .guarded (.ok call)
  outcome : Outcome c key token d db call response db'

section Cases

variable {w : Wire c} {cfg : Config} {key : Key} {token : AuthedToken} {d : Draws c.time} {db : Db}

/-- A call that failed has left nothing, or what it leaves when it succeeds. -/
lemma Leftover.outcome {call : Call} {db' : Db} (h : Leftover c key token d db call db') :
    db' = db ∨ ∃ response, Outcome c key token d db call response db' := by
  rcases h with same | ⟨name, secretKey, body, p, n, ct, rfl, checked, rfl⟩
  · exact .inl same
  · obtain ⟨row, stored⟩ : ∃ row, (db.putSecretRow p.id secretKey n ct d.writtenAt.rfc3339).secret
        p.id secretKey = some row := by
      rw [secret_putSecretRow, if_pos rfl]
      exact ⟨_, rfl⟩
    exact .inr ⟨_, .putSecret name secretKey body p n ct row checked stored⟩

/-- A request is answered with a success, or it fails; then it may have been acted on. -/
lemma answer_cases (key : Key) (d : Draws c.time) (db : Db) (r : Request) (faults : List Bool)
    (notHead : r.method ≠ .head) (notHealth : matchRoute (pathSegments r.path) ≠ some .health) :
    (∃ token call response, (answer c key r d ⟨db, faults⟩).1 = some response ∧
      r.Acted c key token d db call response (answer c key r d ⟨db, faults⟩).2.store) ∨
    (∀ response, (answer c key r d ⟨db, faults⟩).1 = some response → response.Failed) ∧
      ((answer c key r d ⟨db, faults⟩).2.store = db ∨ ∃ token call response,
        r.Acted c key token d db call response (answer c key r d ⟨db, faults⟩).2.store) := by
  have whole : Triple (fun s => s = db) (handle c key r d) _ _ := handle_triple r
  have ends := whole.elim (s := ⟨db, faults⟩) rfl
  have replied : ∀ response, reply r.method (.ok response) = some response := by
    intro response
    simp [reply, notHead]
  unfold answer
  rcases ends with ⟨response, ok, handled⟩ | ⟨e, error, failed⟩
  · rw [ok, replied]
    generalize (handle c key r d ⟨db, faults⟩).2.store = db' at handled ⊢
    cases handled with
    | answered routed =>
      refine .inr ⟨?_, .inl rfl⟩
      rintro _ ⟨⟩
      exact routed_turnedDown routed notHealth
    | invalidPath =>
      refine .inr ⟨?_, .inl rfl⟩
      rintro _ ⟨⟩
      simp [Response.Failed]
    | called token call routed authenticated outcome =>
      exact .inl ⟨token, call, response, rfl, routed, outcome⟩
  · rw [error]
    refine .inr ⟨?_, ?_⟩
    · intro response answered
      cases e with
      | panic => cases answered
      | app e =>
        simp only [reply, notHead, if_false, Option.some.injEq] at answered
        rw [← answered]
        exact intoResponse_failed e
    · rcases failed with same | ⟨token, call, routed, _, left⟩
      · exact .inl same
      · rcases left.outcome with same | ⟨response, outcome⟩
        · exact .inl same
        · exact .inr ⟨token, call, response, routed, outcome⟩

/-- What the agent has of a request: the answer of a handler that succeeded, or a failure. -/
theorem net_cases (w : Wire c) (key : Key) (d : Draws c.time) (faults : List Bool)
    (delivery : Delivery) (db : Db) (method : Method) (path : String) (payload : Payload)
    (validated : cfg.Validated) (notHead : method ≠ .head)
    (notHealth : matchRoute (pathSegments (sentPath path)) ≠ some .health) :
    (∃ token call response db',
      w.net key d faults delivery cfg method path payload db =
        (.ok ⟨response.status, w.agent.readToVec (w.encodeBody response.body)⟩, db') ∧
      w.agent.accepts (cfg.serverUrl ++ path) = true ∧
      (sentRequest cfg method path payload).Acted c key token d db call response db') ∨
    ∃ e db', w.net key d faults delivery cfg method path payload db = (.error e, db') ∧
      (db' = db ∨ w.agent.accepts (cfg.serverUrl ++ path) = true ∧ ∃ token call response,
        (sentRequest cfg method path payload).Acted c key token d db call response db') := by
  simp only [Wire.net, sentPath_append validated, stripPrefix_append]
  by_cases sent : (w.agent.accepts (cfg.serverUrl ++ path) &&
    headerAccepted ("Bearer " ++ cfg.token)) = true
  · have accepted := (Bool.and_eq_true _ _ ▸ sent).1
    rw [if_pos sent]
    have request : (⟨method, sentPath path, some (utf8 ("Bearer " ++ cfg.token)), payload⟩ :
      Request) = sentRequest cfg method path payload := rfl
    rw [request]
    have ends := answer_cases key d db (sentRequest cfg method path payload) faults notHead
      notHealth
    generalize answer c key (sentRequest cfg method path payload) d ⟨db, faults⟩ = out at ends ⊢
    obtain ⟨reply, s⟩ := out
    have left : s.store = db ∨ ∃ token call response,
        (sentRequest cfg method path payload).Acted c key token d db call response s.store := by
      rcases ends with ⟨token, call, response, _, acted⟩ | ⟨_, left⟩
      · exact .inr ⟨token, call, response, acted⟩
      · exact left
    have acted := left.imp_right fun acted => And.intro accepted acted
    cases delivery with
    | requestLost text => exact .inr ⟨_, _, rfl, .inl rfl⟩
    | responseLost text => exact .inr ⟨_, _, rfl, acted⟩
    | delivered =>
      rcases ends with ⟨token, call, response, rfl, done⟩ | ⟨turnedDown, _⟩
      · exact .inl ⟨token, call, response, s.store, receive_succeeded done.outcome.succeeded,
          accepted, done⟩
      · cases reply with
        | none => exact .inr ⟨_, _, rfl, acted⟩
        | some response =>
          exact .inr ⟨_, _, receive_failed (turnedDown response rfl), acted⟩
  · rw [if_neg sent]
    exact .inr ⟨_, _, rfl, .inl rfl⟩

end Cases

/-! ## What is acted on -/

section Taken

variable {w : Wire c} {cfg : Config} {key : Key} {token : AuthedToken} {d : Draws c.time}
  {db db' : Db} {call : Call} {response : Response} {project secretKey value : String}

/-- The handler that is reached is the one of the call that this one is taken for. -/
lemma routed_asked (laws : w.Laws) {sent sent' : ClientCall} (taken : sent.takenFor = some sent')
    (fits : sent.bodyFits w = true) (routed : (sentRequest cfg sent.method sent.path
      (sent.payload w)).routed c = .guarded (.ok call)) : call = sent'.asked := by
  have same := (routed_takenFor laws taken fits).1.symm.trans routed
  cases same
  rfl

/-- A put that was acted on is the put under the names that the typed ones are taken for. -/
lemma setSecret_acted (laws : w.Laws)
    (accepted : w.agent.accepts (cfg.serverUrl ++ Api.secretPath project secretKey) = true)
    (acted : (sentRequest cfg .put (Api.secretPath project secretKey)
      ⟨true, some (w.encodeSetBody value)⟩).Acted c key token d db call response db') :
    ∃ name k, TakenSecret project secretKey name k ∧
      call = .store (.putSecret name k (.ok ⟨value⟩)) := by
  obtain ⟨sent', taken, fits, _⟩ :=
    setSecret_takenFor laws accepted acted.routed acted.outcome
  obtain ⟨name, k, rfl, same⟩ := takenSecret_of_takenFor taken
  exact ⟨name, k, same, routed_asked laws taken fits acted.routed⟩

/-- A read that was acted on changes nothing, and its answer is that to the read of the project
that the typed one is taken for. -/
lemma getSecrets_acted (laws : w.Laws)
    (accepted : w.agent.accepts (cfg.serverUrl ++ Api.secretsPath project) = true)
    (acted : (sentRequest cfg .get (Api.secretsPath project) ⟨false, some []⟩).Acted c key token d
      db call response db') :
    db' = db ∧ ∀ values, Api.fetchSecrets w.toClientJson (.ok ⟨response.status,
        w.agent.readToVec (w.encodeBody response.body)⟩) = .ok values →
      ∃ name, TakenProject project name ∧ call = .store (.getSecrets name) ∧
        response = ⟨200, .secrets values⟩ := by
  obtain ⟨same, taken⟩ := getSecrets_takenFor laws accepted acted.routed acted.outcome
  refine ⟨same, fun values fetched => ?_⟩
  obtain ⟨sent', taken, fits, _⟩ := taken values fetched
  obtain ⟨route, found, takenAs⟩ := Option.bind_eq_some_iff.mp taken
  obtain ⟨_, name, _, _, _, rfl⟩ := getSecrets_takenAs takenAs
  obtain rfl : call = (ClientCall.getSecrets name).asked :=
    routed_asked laws taken fits acted.routed
  refine ⟨name, taken, rfl, ?_⟩
  obtain ⟨_, outcome⟩ := acted
  cases outcome with
  | getSecrets _ p out valid inScope found opened =>
    rw [fetchSecrets_read laws fetched]

end Taken

end SecretsManager
