import SecretsManager.Client.Delivery
import SecretsManager.Client.SharedSecrets
import SecretsManager.Server.FaultyCalls

/-!
# From the command line to the database and back

The client, its cache, the wire and the server together. Whatever requests are lost and
whatever statements fail, a run of commands among the calls of others is one of the
secrets that everybody shares.
-/

namespace SecretsManager

open FaultySession Simulation SharedSecrets

/-- The two programs, with one form of JSON between them. -/
structure Deployment (Key CacheKey : Type) where
  config : ConfigCrates
  client : CommandCrates CacheKey
  server : ServerCrates Key
  wire : Wire server
  json : wire.toClientJson = client.toClientJson

variable {Key CacheKey : Type}

structure Deployment.Laws (dep : Deployment Key CacheKey) : Prop where
  marks : dep.config.Marks
  client : dep.client.toClientCrates.Laws
  ideal : IdealAead.Ideal dep.server.aead
  total : IdealAead.Total dep.server.aead
  wire : dep.wire.Laws

def Config.identity (cfg : Config) : Identity := ⟨cfg.serverUrl, cfg.token⟩

namespace Command

def project : Command → Option String
  | read project _ _ | set project _ => some project
  | token _ => none

/-- The call of a read ended without a status: nothing was sent, or nothing came back. -/
def unanswered (net : Net σ) (server : σ) : Command → Bool
  | read project _ cmd =>
    cmd.asks && noStatus (net .get (Api.secretsPath project) ⟨false, some []⟩ server).1
  | set .. | token _ => false

end Command

section Model

variable (dep : Deployment Key CacheKey) (key : Key) (cacheKey : CacheKey)
  (used : Set (Identity × String))

/-- Commands one after another on one machine, and calls of others on the server in between. -/
inductive SiteStep (site : Site Db) : List (Act CacheKey) → Site Db → Prop where
  | command (sources : ConfigSources) (cfg : Config) (io : Io CacheKey) (line : Command)
      (d : Draws dep.server.time) (faults : List Bool) (delivery : Delivery)
      (loaded : Config.load dep.config sources = .ok cfg)
      (shared : ∀ k, io.opened = .ok k → k = cacheKey)
      (named : ∀ project, line.project = some project → (cfg.identity, project) ∈ used) :
      SiteStep site
        [.ran cfg.identity io line
          (line.unanswered (dep.wire.net key d faults delivery cfg) site.server)
          (runCommand dep.client dep.config sources (dep.wire.net key d faults delivery) io line
            site).1]
        (runCommand dep.client dep.config sources (dep.wire.net key d faults delivery) io line
          site).2
  /-- Without a configuration a command only reports an error. -/
  | unconfigured (sources : ConfigSources) (io : Io CacheKey) (line : Command)
      (d : Draws dep.server.time) (faults : List Bool) (delivery : Delivery) (e : String)
      (refused : Config.load dep.config sources = .error e) :
      SiteStep site []
        (runCommand dep.client dep.config sources (dep.wire.net key d faults delivery) io line
          site).2
  | request (token : AuthedToken) (call : StoreCall) (d : Draws dep.server.time)
      (faults : List Bool) :
      SiteStep site
        [.asked token d.writtenAt.rfc3339 call
          (metFault (call.perform dep.server key token d) ⟨site.server, faults⟩)]
        ⟨site.files, (call.perform dep.server key token d ⟨site.server, faults⟩).2.store⟩
  | tokenRequest (token : AuthedToken) (call : Call) (other : ∀ s, call ≠ .store s)
      (d : Draws dep.server.time) (faults : List Bool) :
      SiteStep site []
        ⟨site.files, (call.perform dep.server key token d ⟨site.server, faults⟩).2.store⟩
  | hostCommand (db : Db) (ran : CommandStep dep.server site.server db) :
      SiteStep site [] ⟨site.files, db⟩

/-- A run, with what it shows and what the database was before. -/
abbrev SiteRun (start : Site Db) : List (Db × Act CacheKey) → Site Db → Prop :=
  Shown (fun s t => ∃ acts, SiteStep dep key cacheKey used s acts t)
    (fun s t trace => ∃ acts, SiteStep dep key cacheKey used s acts t ∧
      trace = acts.map fun a => (s.server, a)) start

/-- An act of the shared secrets that this database holds. -/
def DoesOver (s : SharedSecrets) (e : Db × Act CacheKey) (s' : SharedSecrets) : Prop :=
  Refines dep.server key e.1 s.store ∧ Does s e.2 s'

/-- The database holds the store, and the files what was seen. -/
structure Site.Holds (site : Site Db) (s : SharedSecrets) : Prop where
  refines : Refines dep.server key site.server s.store
  names : ValidNames s.store
  cache : ∀ x ∈ used, SecretsManager.Holds dep.client.toClientCrates cacheKey x site.files (s.seen x)

end Model

/-! ## Calls of the store that succeeded -/

section Served

variable {c : ServerCrates Key} {key : Key} {token : AuthedToken} {d : Draws c.time} {db db' : Db}
  {ref : RefStore}

lemma getSecrets_nil {name : String} {p : ProjectRow} {values : SecretMap}
    (valid : validProject name = true) (inScope : ensureScope token name = .ok ())
    (found : db.project name = some p)
    (opened : Handlers.openRows c key name ∅ ((db.secretsOf p.id).map SecretRow.stored) =
      .ok values) :
    Handlers.getSecrets c key token name ⟨db, []⟩ = (.ok ⟨200, .secrets values⟩, ⟨db, []⟩) := by
  simp [Handlers.getSecrets, ensure, valid, orReject, inScope, Except.mapError, database,
    Repo.projectId, Repo.listSecretRows, bind_apply, mapError_apply, query_nil, found, opened]

/-- A call that succeeds without faults is answered by the store. -/
lemma served_nil (ideal : IdealAead.Ideal c.aead) (total : IdealAead.Total c.aead)
    (h : Refines c key db ref) {call : StoreCall} {response : Response}
    (ran : call.perform c key token d ⟨db, []⟩ = (.ok response, ⟨db', []⟩)) :
    (ref.step token d.writtenAt.rfc3339 call).1 = response ∧
      Refines c key db' (ref.step token d.writtenAt.rfc3339 call).2 := by
  have served : reply .get (call.perform c key token d ⟨db, []⟩).1 = _ ∧ _ :=
    perform_nil_served ideal total h call .get
  rw [ran] at served
  simp only [reply, reduceCtorEq, if_false, Option.some.injEq] at served
  exact ⟨served.1.symm, served.2⟩

lemma reads_of_outcome (ideal : IdealAead.Ideal c.aead) (total : IdealAead.Total c.aead)
    (h : Refines c key db ref) {name : String} {values : SecretMap}
    (outcome : Outcome c key token d db (.store (.getSecrets name)) ⟨200, .secrets values⟩ db') :
    ReadsAs ref name values := by
  cases outcome with
  | getSecrets _ p _ valid inScope found opened =>
    have ran : (StoreCall.getSecrets name).perform c key token d ⟨db, []⟩ = _ :=
      getSecrets_nil valid inScope found opened
    exact ⟨token, d.writtenAt.rfc3339, (served_nil ideal total h ran).1⟩

lemma puts_of_outcome (ideal : IdealAead.Ideal c.aead) (total : IdealAead.Total c.aead)
    (h : Refines c key db ref) {name secretKey value : String} {response : Response}
    (outcome : Outcome c key token d db (.store (.putSecret name secretKey (.ok ⟨value⟩))) response
      db') :
    ∃ ref', Puts ref name secretKey value ref' ∧ Refines c key db' ref' := by
  cases outcome with
  | putSecret _ _ _ p n ct row checked stored =>
    have ran : (StoreCall.putSecret name secretKey (.ok ⟨value⟩)).perform c key token d ⟨db, []⟩ =
      _ := putSecret_nil checked
    obtain ⟨answered, refines⟩ := served_nil ideal total h ran
    exact ⟨_, ⟨token, d.writtenAt.rfc3339, _, answered, rfl⟩, refines⟩

end Served

/-! ## One call over the wire -/

section Calls

variable {dep : Deployment Key CacheKey} {cfg : Config} {db : Db} {ref : RefStore}
  (key : Key) (d : Draws dep.server.time) (faults : List Bool) (delivery : Delivery)

lemma answered_result {response : Response} {readToVec : Nat → Option Bytes}
    (succeeded : response.Succeeded) : .ok ⟨response.status, readToVec⟩ =
      (CallOutcome.answered response.status readToVec (.error (.other ""))).result := by
  have handed : (CallOutcome.answered response.status readToVec (.error (.other ""))).HandsOver
    ⟨response.status, readToVec⟩ := Or.inl ⟨succeeded.1, succeeded.2, rfl⟩
  exact (result_ok.mpr handed).symm

/-- A read changes nothing, and what is fetched is what is stored. -/
lemma fetch_cases (project : String) (laws : dep.Laws) (validated : cfg.Validated)
    (h : Refines dep.server key db ref)
    {called : Except UreqError HttpResponse × Db}
    (ran : dep.wire.net key d faults delivery cfg .get (Api.secretsPath project) ⟨false, some []⟩
      db = called) :
    called.2 = db ∧ ((∃ outcome : CallOutcome, ∃ values, called.1 = outcome.result ∧
        Api.fetchSecrets dep.client.toClientJson called.1 = .ok values ∧
        ReadsTyped ref project values) ∨
      ∃ e, Api.fetchSecrets dep.client.toClientJson called.1 = .error e) := by
  have ends := net_cases dep.wire key d faults delivery db .get (Api.secretsPath project)
    ⟨false, some []⟩ validated (by simp) (ClientCall.getSecrets project).notHealth
  rw [ran, ← dep.json] at *
  rcases ends with ⟨token, call, response, db', same, accepted, acted⟩ |
    ⟨e, db', same, left⟩
  · subst same
    obtain ⟨rfl, answered⟩ := getSecrets_acted laws.wire accepted acted
    refine ⟨rfl, ?_⟩
    cases fetched : Api.fetchSecrets dep.wire.toClientJson (.ok ⟨response.status,
        dep.wire.agent.readToVec (dep.wire.encodeBody response.body)⟩) with
    | error e => exact .inr ⟨e, rfl⟩
    | ok values =>
      obtain ⟨name, taken, rfl, rfl⟩ := answered values fetched
      exact .inl ⟨_, values, answered_result acted.outcome.succeeded, rfl,
        name, taken, reads_of_outcome laws.ideal laws.total h acted.outcome⟩
  · subst same
    refine ⟨?_, .inr ⟨_, rfl⟩⟩
    rcases left with same | ⟨accepted, token, call, response, acted⟩
    · exact same
    · exact (getSecrets_acted laws.wire accepted acted).1

/-- A put that was answered is stored, and one that failed may be. -/
lemma put_cases (project secretKey value : String) (laws : dep.Laws) (validated : cfg.Validated)
    (h : Refines dep.server key db ref) {called : Except UreqError HttpResponse × Db}
    (ran : dep.wire.net key d faults delivery cfg .put (Api.secretPath project secretKey)
      ⟨true, some (dep.client.encodeSetBody value)⟩ db = called) :
    (∃ outcome : CallOutcome, called.1 = outcome.result ∧ Api.setSecret called.1 = .ok () ∧
      ∃ ref', PutsTyped ref project secretKey value ref' ∧
        Refines dep.server key called.2 ref') ∨
    (∃ e, called.1 = .error e) ∧ (called.2 = db ∨
      ∃ ref', PutsTyped ref project secretKey value ref' ∧
        Refines dep.server key called.2 ref') := by
  have body : dep.client.encodeSetBody value = dep.wire.encodeSetBody value := by rw [dep.json]
  rw [body] at ran
  have ends := net_cases dep.wire key d faults delivery db .put (Api.secretPath project secretKey)
    ⟨true, some (dep.wire.encodeSetBody value)⟩ validated (by simp)
    (ClientCall.setSecret project secretKey value).notHealth
  rw [ran] at ends
  have stored : ∀ {token call response db'},
      dep.wire.agent.accepts (cfg.serverUrl ++ Api.secretPath project secretKey) = true →
      (sentRequest cfg .put (Api.secretPath project secretKey)
        ⟨true, some (dep.wire.encodeSetBody value)⟩).Acted dep.server key token d db call response
        db' → ∃ ref', PutsTyped ref project secretKey value ref' ∧
          Refines dep.server key db' ref' := by
    intro token call response db' accepted acted
    obtain ⟨name, k, taken, rfl⟩ := setSecret_acted laws.wire accepted acted
    obtain ⟨ref', puts, refines⟩ := puts_of_outcome laws.ideal laws.total h acted.outcome
    exact ⟨ref', ⟨name, k, taken, puts⟩, refines⟩
  rcases ends with ⟨token, call, response, db', same, accepted, acted⟩ |
    ⟨e, db', same, left⟩
  · subst same
    exact .inl ⟨_, answered_result acted.outcome.succeeded, rfl, stored accepted acted⟩
  · subst same
    refine .inr ⟨⟨e, rfl⟩, left.imp_right ?_⟩
    rintro ⟨accepted, token, call, response, acted⟩
    exact stored accepted acted

/-- A call about tokens is nothing to the store. -/
lemma tokenCall_cases (validated : cfg.Validated) (h : Refines dep.server key db ref)
    {method : Method} {path : String} {payload : Payload} (notHead : method ≠ .head)
    (route : ∀ route call, matchRoute (pathSegments (sentPath path)) = some route →
      route.call dep.server payload method = some (.ok call) → ∀ s, call ≠ .store s)
    (notHealth : matchRoute (pathSegments (sentPath path)) ≠ some .health) :
    Refines dep.server key
      (dep.wire.net key d faults delivery cfg method path payload db).2 ref := by
  have kept : ∀ {token call response db'},
      (sentRequest cfg method path payload).Acted dep.server key token d db call response db' →
      Refines dep.server key db' ref := by
    intro token call response db' acted
    obtain ⟨found, matched, called⟩ := routed_guarded acted.routed
    have other := route found call matched called
    have conforms := acted.outcome.conforms h.conforms
    obtain ⟨_, outcome⟩ := acted
    cases outcome with
    | createToken => exact h.tokensOnly conforms rfl rfl
    | listTokens => exact h
    | revokeToken => exact h.tokensOnly conforms rfl rfl
    | createProject => exact absurd rfl (other _)
    | listProjects => exact absurd rfl (other _)
    | getSecrets => exact absurd rfl (other _)
    | putSecret => exact absurd rfl (other _)
    | deleteSecret => exact absurd rfl (other _)
  have ends := net_cases dep.wire key d faults delivery db method path payload validated notHead
    notHealth
  rcases ends with ⟨token, call, response, db', same, _, acted⟩ |
    ⟨e, db', same, rfl | ⟨_, token, call, response, acted⟩⟩ <;> rw [same]
  · exact kept acted
  · exact h
  · exact kept acted

end Calls

/-! ## What a command does to the cache -/

section Seen

variable {c : ClientCrates CacheKey} {cacheKey : CacheKey} {id : Identity} {project : String}
  {outcome : CallOutcome} {draws : StoreDraws}
  {seen : Identity × String → Option (SecretMap × UnixTime)}

variable (c cacheKey) in
/-- What the readers have seen after an operation. -/
def CacheOp.remember (op : CacheOp) (seen : Identity × String → Option (SecretMap × UnixTime)) :
    Identity × String → Option (SecretMap × UnixTime) :=
  fun x => (op.effect c cacheKey x).apply (seen x)

/-- A read that was answered is remembered at the time it was read, or not at all. -/
lemma seen_read {values : SecretMap}
    (fetched : Api.fetchSecrets c.toClientJson outcome.result = .ok values) :
    (CacheOp.getSecrets id project outcome draws).remember c cacheKey seen = seen ∨
    ∃ now, draws.now = .ok now ∧
      (CacheOp.getSecrets id project outcome draws).remember c cacheKey seen =
        Function.update seen (id, project) (some (values, now)) := by
  have stored : (CacheOp.getSecrets id project outcome draws).stored c cacheKey = none ∨
      ∃ now, draws.now = .ok now ∧
        (CacheOp.getSecrets id project outcome draws).stored c cacheKey = some (values, now) := by
    simp only [CacheOp.stored, fetched]
    cases clock : draws.now with
    | error e => exact .inl rfl
    | ok now =>
      dsimp only
      split
      · exact .inr ⟨now, rfl, rfl⟩
      · exact .inl rfl
  rcases stored with none | ⟨now, clock, some⟩
  · left
    funext x
    simp [CacheOp.remember, CacheOp.effect, none, LastWrite.Effect.apply]
  · right
    refine ⟨now, clock, funext fun x => ?_⟩
    by_cases own : (id, project) = x
    · subst own
      simp [CacheOp.remember, CacheOp.effect, CacheOp.target, some, LastWrite.Effect.apply]
    · have other : x ≠ (id, project) := fun same => own same.symm
      simp [CacheOp.remember, CacheOp.effect, CacheOp.target, own, other, LastWrite.Effect.apply]

/-- A put that was answered makes its reader forget. -/
lemma seen_set (answered : Api.setSecret outcome.result = .ok ()) :
    (CacheOp.setSecret id project outcome).remember c cacheKey seen =
      Function.update seen (id, project) none := by
  funext x
  by_cases own : (id, project) = x
  · subst own
    simp [CacheOp.remember, CacheOp.effect, CacheOp.target, answered, Except.isOk, Except.toBool,
      LastWrite.Effect.apply]
  · have other : x ≠ (id, project) := fun same => own same.symm
    simp [CacheOp.remember, CacheOp.effect, CacheOp.target, own, other, LastWrite.Effect.apply]

end Seen

/-- Where the server was not read, the cache is all that there is. -/
lemma getSecrets_failed {c : ClientCrates CacheKey} {cache : CacheStore CacheKey}
    {resp : Except UreqError HttpResponse} {e : ClientError} (draws : StoreDraws) (project : String)
    (files : CacheFiles) (failed : Api.fetchSecrets c.toClientJson resp = .error e) :
    ∃ r, CachedApi.getSecrets c (some cache) resp draws project files = (r, files) ∧
      ∀ m, r = .ok m → (∃ text, resp = .error (.other text)) ∧
        cache.load c draws.now project files = .ok m := by
  refine ⟨_, Prod.ext rfl (getSecrets_error failed), fun m ok => ?_⟩
  rcases getSecrets_returns.mp ok with fetched | unread
  · cases failed.symm.trans fetched
  · exact unread

/-- A command that could not read fails, whatever it would have shown. -/
lemma shows_error (io : Io CacheKey) (cmd : ReadCmd) (e : ClientError) :
    ∃ e', cmd.shows io (.error e) = .returned (.error e') := by
  cases cmd with
  | run command => cases command <;> exact ⟨_, rfl⟩
  | get key => exact ⟨_, rfl⟩
  | list => exact ⟨_, rfl⟩
  | exportDotenv format =>
    by_cases known : format = "dotenv"
    · subst known
      exact ⟨_, rfl⟩
    · refine ⟨.bail ("unsupported export format: " ++ format ++ " (only 'dotenv' is supported)"), ?_⟩
      simp only [ReadCmd.shows, ClientCommands.exportDotenv, ne_eq, known, not_false_eq_true,
        if_true]

/-! ## Every step is one of the shared secrets -/

section Steps

variable {dep : Deployment Key CacheKey} {key : Key} {cacheKey : CacheKey}
  {used : Set (Identity × String)} {site site' : Site Db} {s : SharedSecrets} {cfg : Config}
  {d : Draws dep.server.time} {faults : List Bool} {delivery : Delivery} {project : String}

/-- The cache is off, or it is that of the configuration. -/
lemma withCache_cases {enabled : Bool} {opened : Except ClientError CacheKey}
    (shared : ∀ k, opened = .ok k → k = cacheKey) :
    (Api.withCache dep.client cfg enabled opened = none ∧ (enabled = false ∨ opened.isOk = false)) ∨
    enabled = true ∧ opened.isOk = true ∧ Api.withCache dep.client cfg enabled opened =
      some (cfg.identity.cache dep.client.toClientCrates cacheKey) := by
  cases enabled with
  | false => exact .inl ⟨rfl, .inl rfl⟩
  | true =>
    cases opened with
    | error e => exact .inl ⟨rfl, .inr rfl⟩
    | ok k =>
      obtain rfl := shared k rfl
      exact .inr ⟨rfl, rfl, rfl⟩

/-- A read that fetched a map shows what is stored, and may keep it. -/
lemma Site.Holds.readNow (laws : dep.Laws)
    (distinct : NoCollisions dep.client.toClientCrates cacheKey used)
    (h : site.Holds dep key cacheKey used s) (named : (cfg.identity, project) ∈ used)
    (io : Io CacheKey) (noCache : Bool) (cmd : ReadCmd) {cache : Option (CacheStore CacheKey)}
    (opened : cache = none ∨
      noCache = false ∧ cache = some (cfg.identity.cache dep.client.toClientCrates cacheKey))
    {outcome : CallOutcome} {values : SecretMap}
    (fetched : Api.fetchSecrets dep.client.toClientJson outcome.result = .ok values)
    (stored : ReadsTyped s.store project values)
    {got : Except ClientError SecretMap × CacheFiles}
    (ran : CachedApi.getSecrets dep.client.toClientCrates cache outcome.result io.draws project
      site.files = got) :
    ∃ s', Does s (.ran cfg.identity io (.read project noCache cmd) false (cmd.shows io got.1)) s' ∧
      Site.Holds dep key cacheKey used ⟨got.2, site.server⟩ s' := by
  subst ran
  rcases opened with rfl | ⟨rfl, rfl⟩
  · simp only [CachedApi.getSecrets, fetched]
    exact ⟨s, .readNow s _ io project noCache cmd values s.seen stored (.inl rfl), h⟩
  · have files : (CacheOp.getSecrets cfg.identity project outcome io.draws).files
        dep.client.toClientCrates cacheKey site.files = (CachedApi.getSecrets
          dep.client.toClientCrates (some (cfg.identity.cache dep.client.toClientCrates cacheKey))
          outcome.result io.draws project site.files).2 := rfl
    have target : (CacheOp.getSecrets cfg.identity project outcome io.draws).target ∈ used := named
    rw [← files, getSecrets_ok fetched]
    have kept : (CacheOp.getSecrets cfg.identity project outcome io.draws).remember
        dep.client.toClientCrates cacheKey s.seen = s.seen ∨ _ := seen_read fetched
    exact ⟨⟨s.store, _⟩, .readNow s _ io project false cmd values _ stored
      (kept.imp_right fun remembered => ⟨rfl, remembered⟩), h.refines, h.names,
      fun x hx => holds_step laws.client distinct target hx (h.cache x hx)⟩

/-- A read that could not fetch one fails, or shows what its reader saw. -/
lemma Site.Holds.readOffline (laws : dep.Laws) (h : site.Holds dep key cacheKey used s)
    (named : (cfg.identity, project) ∈ used) (io : Io CacheKey) (noCache : Bool) (cmd : ReadCmd)
    {cache : Option (CacheStore CacheKey)}
    (opened : cache = none ∨
      noCache = false ∧ cache = some (cfg.identity.cache dep.client.toClientCrates cacheKey))
    {resp : Except UreqError HttpResponse} {e : ClientError}
    (failed : Api.fetchSecrets dep.client.toClientJson resp = .error e)
    {got : Except ClientError SecretMap × CacheFiles}
    (ran : CachedApi.getSecrets dep.client.toClientCrates cache resp io.draws project
      site.files = got) :
    ∃ s', Does s (.ran cfg.identity io (.read project noCache cmd) (noStatus resp)
        (cmd.shows io got.1)) s' ∧ Site.Holds dep key cacheKey used ⟨got.2, site.server⟩ s' := by
  subst ran
  have unchanged : ∀ e, ∃ s', Does s (.ran cfg.identity io (.read project noCache cmd)
      (noStatus resp) (cmd.shows io (.error e))) s' ∧ site.Holds dep key cacheKey used s' := by
    intro e
    obtain ⟨e', shown⟩ := shows_error io cmd e
    rw [shown]
    exact ⟨s, .failed s _ io _ _ e', h⟩
  rcases opened with rfl | ⟨rfl, rfl⟩
  · have direct : CachedApi.getSecrets dep.client.toClientCrates none resp io.draws project
        site.files = (.error e, site.files) := by
      simp only [CachedApi.getSecrets, failed]
      split <;> rfl
    rw [direct]
    exact unchanged e
  · obtain ⟨result, got, loads⟩ := getSecrets_failed io.draws project site.files failed
    rw [got]
    cases result with
    | error e => exact unchanged e
    | ok m =>
      obtain ⟨⟨text, rfl⟩, loaded⟩ := loads m rfl
      obtain ⟨seenAt, now, held, clock, fresh⟩ :=
        (load_slot laws.client (h.cache _ named)).mp loaded
      exact ⟨s, .readOffline s _ io project cmd m seenAt now held clock fresh, h⟩

lemma Site.Holds.read (laws : dep.Laws)
    (distinct : NoCollisions dep.client.toClientCrates cacheKey used)
    (h : site.Holds dep key cacheKey used s) (validated : cfg.Validated)
    (named : (cfg.identity, project) ∈ used) (io : Io CacheKey) (noCache : Bool) {cmd : ReadCmd}
    (asks : cmd.asks = true) {cache : Option (CacheStore CacheKey)}
    (opened : cache = none ∨
      noCache = false ∧ cache = some (cfg.identity.cache dep.client.toClientCrates cacheKey))
    {fetched : Except ClientError SecretMap × Site Db}
    (ran : Api.getSecrets dep.client (dep.wire.net key d faults delivery cfg) cache io.draws project
      site = fetched) :
    ∃ s', Does s (.ran cfg.identity io (.read project noCache cmd)
        ((Command.read project noCache cmd).unanswered (dep.wire.net key d faults delivery cfg)
          site.server) (cmd.shows io fetched.1)) s' ∧
      fetched.2.Holds dep key cacheKey used s' := by
  have ends := fetch_cases key d faults delivery project laws validated h.refines rfl
  simp only [Api.getSecrets] at ran
  simp only [Command.unanswered, asks, Bool.true_and]
  generalize dep.wire.net key d faults delivery cfg .get (Api.secretsPath project) ⟨false, some []⟩
    site.server = called at ends ran
  obtain ⟨resp, db'⟩ := called
  obtain ⟨rfl, ends⟩ := ends
  subst ran
  rcases ends with ⟨outcome, values, rfl, got, stored⟩ | ⟨e, failed⟩
  · rw [fetchSecrets_answered got]
    exact h.readNow laws distinct named io noCache cmd opened got stored rfl
  · exact h.readOffline laws named io noCache cmd opened failed rfl

/-- The store after a put has valid names too. -/
lemma ValidNames.puts {store store' : RefStore} {key value : String} (h : ValidNames store)
    (puts : PutsTyped store project key value store') : ValidNames store' := by
  obtain ⟨_, _, _, token, now, version, _, rfl⟩ := puts
  exact step_validNames h _

/-- A put that was answered, with the cache if it can be opened. -/
lemma cached_set (laws : dep.Laws) (distinct : NoCollisions dep.client.toClientCrates cacheKey used)
    {files : CacheFiles} {seen : Identity × String → Option (SecretMap × UnixTime)}
    (h : ∀ x ∈ used, Holds dep.client.toClientCrates cacheKey x files (seen x))
    (named : (cfg.identity, project) ∈ used) {io : Io CacheKey}
    (shared : ∀ k, io.opened = .ok k → k = cacheKey) {outcome : CallOutcome}
    (answered : Api.setSecret outcome.result = .ok ()) :
    ∃ files', CachedApi.setSecret dep.client.toClientCrates
        (Api.withCache dep.client cfg true io.opened) outcome.result io.removed project files =
          (.ok (), files') ∧
      ∀ x ∈ used, Holds dep.client.toClientCrates cacheKey x files'
        ((if forgets io then Function.update seen (cfg.identity, project) none else seen) x) := by
  have cache : (Api.withCache dep.client cfg true io.opened = none ∧ _) ∨ _ :=
    withCache_cases shared
  rcases cache with ⟨off, closed⟩ | ⟨_, isOpen, on⟩
  · have closed : io.opened.isOk = false := by simpa using closed
    rw [off]
    exact ⟨files, by simp only [CachedApi.setSecret, answered], by simpa [forgets, closed] using h⟩
  · rw [on]
    cases removed : io.removed with
    | false =>
      refine ⟨files, by simp [CachedApi.setSecret, answered, CacheStore.remove], ?_⟩
      simpa [forgets, removed] using h
    | true =>
      have target : (CacheOp.setSecret cfg.identity project outcome).target ∈ used := named
      refine ⟨(CacheOp.setSecret cfg.identity project outcome).files dep.client.toClientCrates
        cacheKey files, by simp [CachedApi.setSecret, CacheOp.files, answered], fun x hx => ?_⟩
      have step := holds_step laws.client distinct target hx (h x hx)
      rw [if_pos (by simp [forgets, isOpen, removed]), ← seen_set answered]
      exact step

lemma Site.Holds.set (laws : dep.Laws)
    (distinct : NoCollisions dep.client.toClientCrates cacheKey used)
    (h : site.Holds dep key cacheKey used s) (validated : cfg.Validated) {secretKey value : String}
    (named : (cfg.identity, project) ∈ used) {io : Io CacheKey}
    (shared : ∀ k, io.opened = .ok k → k = cacheKey)
    (entered : ClientCommands.readSecretValue io.stdin = .ok value)
    {put : Except ClientError Unit × Site Db}
    (ran : Api.putSecret dep.client (dep.wire.net key d faults delivery cfg)
      (Api.withCache dep.client cfg true io.opened) io.removed project secretKey value site = put) :
    ∃ s', Does s (.ran cfg.identity io (.set project secretKey) false
        (.returned ((put.1.mapError .api).map fun _ => ⟨[], 0⟩))) s' ∧
      put.2.Holds dep key cacheKey used s' := by
  have ends := put_cases key d faults delivery project secretKey value laws validated h.refines rfl
  simp only [Api.putSecret] at ran
  generalize dep.wire.net key d faults delivery cfg .put (Api.secretPath project secretKey)
    ⟨true, some (dep.client.encodeSetBody value)⟩ site.server = called at ends ran
  obtain ⟨resp, db'⟩ := called
  subst ran
  rcases ends with ⟨outcome, rfl, answered, ref', puts, refines⟩ | ⟨⟨e, rfl⟩, left⟩
  · have names := h.names.puts puts
    have answered : Api.setSecret outcome.result = .ok () := answered
    obtain ⟨files', done, cached⟩ := cached_set laws distinct h.cache named shared answered
    rw [done]
    exact ⟨_, .set s cfg.identity io project secretKey value ref' entered puts, refines, names, cached⟩
  · have kept : CachedApi.setSecret dep.client.toClientCrates
        (Api.withCache dep.client cfg true io.opened) (.error e) io.removed project site.files =
          (.error (mapError e), site.files) := rfl
    rw [kept]
    rcases left with rfl | ⟨ref', puts, refines⟩
    · exact ⟨s, .failed s cfg.identity io _ _ _, h⟩
    · exact ⟨_, .setUnnoticed s cfg.identity io project secretKey value ref' _ entered puts,
        refines, h.names.puts puts, h.cache⟩

/-- The routes that a token command can reach. -/
lemma tokenCommand_route {path : String} {method : Method} {payload : Payload}
    (reaches : ∀ route, matchRoute (pathSegments (sentPath path)) = some route →
      route = .tokens ∨ ∃ a, route = .token a)
    (route : Route) (call : Call) (found : matchRoute (pathSegments (sentPath path)) = some route)
    (called : route.call dep.server payload method = some (.ok call)) : ∀ s, call ≠ .store s := by
  rintro s rfl
  rcases reaches route found with rfl | ⟨a, rfl⟩
  · cases method <;> cases called
  · cases method with
    | delete =>
      simp only [Route.call] at called
      cases decoded : percentDecode a <;> simp [decoded] at called
    | _ => cases called

/-- A command about tokens leaves the store and the cache as they are. -/
lemma Site.Holds.token (h : site.Holds dep key cacheKey used s) (validated : cfg.Validated)
    (io : Io CacheKey) (cmd : TokenCmd) :
    (dispatch dep.client (dep.wire.net key d faults delivery cfg) cfg io (.token cmd) site).2.Holds
      dep key cacheKey used s := by
  have listing : ∀ route, matchRoute (pathSegments (sentPath Api.tokensPath)) = some route →
      route = .tokens ∨ ∃ a, route = .token a := by
    intro route found
    have tokens : matchRoute (pathSegments (sentPath Api.tokensPath)) = some .tokens := by decide
    exact .inl (Option.some.inj (found.symm.trans tokens))
  have notHealth : matchRoute (pathSegments (sentPath Api.tokensPath)) ≠ some .health := by decide
  cases cmd with
  | create name scope ttlDays noExpiry =>
    exact ⟨tokenCall_cases key d faults delivery validated h.refines (by simp)
      (tokenCommand_route listing) notHealth, h.names, h.cache⟩
  | list =>
    exact ⟨tokenCall_cases key d faults delivery validated h.refines (by simp)
      (tokenCommand_route listing) notHealth, h.names, h.cache⟩
  | revoke name =>
    have revoking : ∀ route, matchRoute (pathSegments (sentPath (Api.tokenPath name))) =
        some route → route = .tokens ∨ ∃ a, route = .token a := by
      intro route found
      have found : matchRoute (pathSegments (sentPath (ClientCall.revokeToken name).path)) =
        some route := found
      exact .inr (ClientCall.reaches found)
    exact ⟨tokenCall_cases key d faults delivery validated h.refines (by simp)
      (tokenCommand_route revoking) (ClientCall.revokeToken name).notHealth, h.names, h.cache⟩

/-- A command does what its act says. -/
lemma Site.Holds.command (laws : dep.Laws)
    (distinct : NoCollisions dep.client.toClientCrates cacheKey used)
    (h : site.Holds dep key cacheKey used s) (validated : cfg.Validated) {io : Io CacheKey}
    {line : Command} (shared : ∀ k, io.opened = .ok k → k = cacheKey)
    (named : ∀ project, line.project = some project → (cfg.identity, project) ∈ used)
    {out : Ended × Site Db}
    (ran : dispatch dep.client (dep.wire.net key d faults delivery cfg) cfg io line site = out) :
    ∃ s', Does s (.ran cfg.identity io line
        (line.unanswered (dep.wire.net key d faults delivery cfg) site.server) out.1) s' ∧
      out.2.Holds dep key cacheKey used s' := by
  cases line with
  | read project noCache cmd =>
    have opened : Api.withCache dep.client cfg (!noCache) io.opened = none ∨ noCache = false ∧
        Api.withCache dep.client cfg (!noCache) io.opened =
          some (cfg.identity.cache dep.client.toClientCrates cacheKey) := by
      have cache : (Api.withCache dep.client cfg (!noCache) io.opened = none ∧ _) ∨ _ :=
        withCache_cases shared
      rcases cache with ⟨off, _⟩ | ⟨wanted, _, on⟩
      · exact .inl off
      · exact .inr ⟨by simpa using wanted, on⟩
    subst ran
    by_cases asks : cmd.asks = true
    · simp only [dispatch, asks, if_true]
      exact h.read laws distinct validated (named project rfl) io noCache asks opened rfl
    · obtain ⟨e, shown⟩ := shows_error io cmd .notFound
      simp only [dispatch, asks, if_false, Bool.false_eq_true]
      rw [shown]
      exact ⟨s, .failed s _ io _ _ e, h⟩
  | set project secretKey =>
    subst ran
    cases entered : ClientCommands.readSecretValue io.stdin with
    | error e =>
      simp only [dispatch, entered]
      exact ⟨s, .failed s _ io _ _ e, h⟩
    | ok value =>
      simp only [dispatch, entered]
      exact h.set laws distinct validated (named project rfl) shared entered rfl
  | token cmd =>
    subst ran
    exact ⟨s, .token s _ io cmd _, h.token validated io cmd⟩

/-- A step shows nothing and changes nothing that is shared, or does the one act that it shows. -/
theorem Site.Holds.step (laws : dep.Laws)
    (distinct : NoCollisions dep.client.toClientCrates cacheKey used)
    (h : site.Holds dep key cacheKey used s) {acts : List (Act CacheKey)}
    (step : SiteStep dep key cacheKey used site acts site') :
    (acts = [] ∧ site'.Holds dep key cacheKey used s) ∨
      ∃ a s', acts = [a] ∧ Does s a s' ∧ site'.Holds dep key cacheKey used s' := by
  cases step with
  | command sources cfg io line d faults delivery loaded shared named =>
    have ran : runCommand dep.client dep.config sources (dep.wire.net key d faults delivery) io line
        site = dispatch dep.client (dep.wire.net key d faults delivery cfg) cfg io line site := by
      simp only [runCommand, loaded]
    rw [ran]
    obtain ⟨s', does, holds⟩ :=
      h.command laws distinct (load_validated laws.marks loaded) shared named rfl
    exact .inr ⟨_, s', rfl, does, holds⟩
  | unconfigured sources io line d faults delivery e refused =>
    have ran : runCommand dep.client dep.config sources (dep.wire.net key d faults delivery) io line
        site = (.returned (.error (.config e)), site) := by
      simp only [runCommand, refused]
    rw [ran]
    exact .inl ⟨rfl, h⟩
  | request token call d faults =>
    right
    rcases @perform_faulty _ dep.server key token d _ _ laws.ideal laws.total h.refines call faults
        .get with
      ⟨unmet, _, refines⟩ | ⟨met, _, kept | ⟨⟨name, secretKey, body, rfl⟩, refines⟩⟩
    · rw [unmet]
      exact ⟨_, _, rfl, .asked s token d.writtenAt.rfc3339 call, refines,
        step_validNames h.names call, h.cache⟩
    · rw [met]
      exact ⟨_, s, rfl, .broken s token d.writtenAt.rfc3339 call, kept, h.names, h.cache⟩
    · rw [met]
      exact ⟨_, _, rfl, .unreported s token d.writtenAt.rfc3339 name secretKey body, refines,
        step_validNames h.names _, h.cache⟩
  | tokenRequest token call other d faults =>
    exact .inl ⟨rfl, perform_tokensOnly h.refines other faults, h.names, h.cache⟩
  | hostCommand db ran =>
    exact .inl ⟨rfl, commandStep_refines h.refines ran, h.names, h.cache⟩

end Steps

section Runs

variable {dep : Deployment Key CacheKey} {key : Key} {cacheKey : CacheKey}
  {used : Set (Identity × String)} {start site : Site Db} {trace : List (Db × Act CacheKey)}

def SharedSecrets.empty : SharedSecrets := ⟨∅, fun _ => none⟩

/-- No project and no file. -/
structure Site.Fresh (site : Site Db) : Prop where
  conforms : site.server.Conforms
  projects : site.server.projects = []
  files : site.files = fun _ => none

lemma Site.Fresh.holds (fresh : start.Fresh) :
    start.Holds dep key cacheKey used SharedSecrets.empty := by
  refine ⟨refines_empty fresh.conforms fresh.projects, by simp [ValidNames, SharedSecrets.empty],
    fun x _ => ?_⟩
  rw [fresh.files]
  rfl

lemma holds_of_run (laws : dep.Laws) (distinct : NoCollisions dep.client.toClientCrates cacheKey used)
    (fresh : start.Fresh) (run : SiteRun dep key cacheKey used start trace site) :
    ∃ s, Runs (DoesOver dep key) .empty trace s ∧ site.Holds dep key cacheKey used s := by
  refine run.simulated (fun site _ s _ before _ seen => ?_) fresh.holds
  obtain ⟨acts, step, rfl⟩ := seen
  rcases before.step laws distinct step with ⟨rfl, holds⟩ | ⟨a, s', rfl, does, holds⟩
  · exact ⟨s, .refl, holds⟩
  · exact ⟨s', .single ⟨before.refines, does⟩, holds⟩

end Runs

/-! ## A value is set, read, and read again without the server -/

/-- A URL crate that knows one URL. -/
def vaultUrl : ConfigCrates where
  parseUrl raw :=
    if raw = "https://vault" then .ok ⟨"https", "", none, some (.domain "vault"), none, none⟩
    else .error "relative URL without a base"
  parseToml _ := .ok ⟨none, none⟩

def quotedClient : CommandCrates Bytes :=
  { framedClient with
    toClientJson := quotedWire.toClientJson
    encodeCreateToken := fun request => utf8 request.name
    decodeCreated := fun _ => none
    decodeTokens := fun _ => none }

def quotedDeployment : Deployment Bytes Bytes where
  config := vaultUrl
  client := quotedClient
  server := quotedServer
  wire := quotedWire
  json := rfl

lemma quotedDeployment_laws : quotedDeployment.Laws where
  marks := by
    intro raw u parsed _ _
    have url : raw = "https://vault" := by
      by_contra other
      simp [quotedDeployment, vaultUrl, other] at parsed
    subst url
    exact clean_of_all (by decide)
  client := ⟨framedClient_laws.map, framedClient_laws.envelope, framedClient_laws.base64,
    framedClient_laws.opens, framedClient_laws.hashLength⟩
  ideal := Framing.framedAead_ideal
  total := Framing.framedAead_total
  wire := quotedWire_laws

def vaultUser : Identity := ⟨"https://vault", "tok"⟩

lemma noCollisions_vaultUser :
    NoCollisions quotedClient.toClientCrates [7] {(vaultUser, "app")} where
  noNul := by
    rintro x rfl
    decide
  tokens := by
    rintro x rfl y rfl _
    rfl
  paths := by
    rintro x rfl y rfl _
    rfl

def vaultSources : ConfigSources :=
  ⟨none, some "https://vault", some "tok", some "/home", fun _ => none⟩

def ioAt (input : String) (secs : UInt64) (inRange : secs.toNat < 2 ^ 63) : Io Bytes where
  stdin := .piped (.ok (utf8 input))
  stdout := .ok ()
  status := fun _ => .error "not found"
  opened := .ok [7]
  draws := drawsAt secs inRange
  removed := true

/-- A new server with one token. -/
def newSite : Site Db := ⟨fun _ => none, withToken.db⟩

def newApp : StoreCall := .createProject (.ok ⟨"app"⟩)

def appSite : Site Db where
  files := newSite.files
  server := (newApp.perform quotedServer [7] rootToken quotedDraws ⟨newSite.server, []⟩).2.store

def vaultConfig : Config := ⟨"https://vault", "tok"⟩

lemma vault_loads : Config.load vaultUrl vaultSources = .ok vaultConfig := rfl

def ranOn (site : Site Db) (delivery : Delivery) (io : Io Bytes) (line : Command) :
    Ended × Site Db :=
  dispatch quotedClient (quotedWire.net [7] quotedDraws [] delivery vaultConfig) vaultConfig io line
    site

def setKey : Command := .set "app" "KEY"
def getKey : Command := .read "app" false (.get "KEY")

def setIo : Io Bytes := ioAt "v\n" 1000 (by decide)
def getIo : Io Bytes := ioAt "" 1500 (by decide)
def lostIo : Io Bytes := ioAt "" 1800 (by decide)

/-- The value is set, read, and read again while the server is away. -/
def setSite : Site Db := (ranOn appSite .delivered setIo setKey).2
def readSite : Site Db := (ranOn setSite .delivered getIo getKey).2
def lostSite : Site Db := (ranOn readSite (.requestLost "timeout") lostIo getKey).2

def printed (s : String) : Ended := .returned (.ok ⟨utf8 s, 0⟩)

lemma newSite_fresh : newSite.Fresh where
  conforms := by
    have run : VaultRun quotedServer [7] withToken := .single (.tokenCreate _ "root" none none _)
    exact (vaultRun_inv Framing.framedAead_ideal Framing.framedAead_total run).refines.conforms
  projects := rfl
  files := rfl

abbrev VaultSteps : Site Db → List (Act Bytes) → Site Db → Prop :=
  SiteStep quotedDeployment [7] [7] {(vaultUser, "app")}

/-- A run of commands of the one user. -/
abbrev VaultSiteRun : List (Db × Act Bytes) → Site Db → Prop :=
  SiteRun quotedDeployment [7] [7] {(vaultUser, "app")} newSite

lemma ranOn_step {site : Site Db} (delivery : Delivery) {io : Io Bytes} {line : Command}
    {unanswered : Bool} {out : Ended} (opened : io.opened = .ok [7])
    (named : line.project = some "app")
    (answer : line.unanswered (quotedWire.net [7] quotedDraws [] delivery vaultConfig)
      site.server = unanswered) (ends : (ranOn site delivery io line).1 = out) :
    VaultSteps site [.ran vaultUser io line unanswered out] (ranOn site delivery io line).2 := by
  have ran : runCommand quotedClient vaultUrl vaultSources (quotedWire.net [7] quotedDraws []
      delivery) io line site = ranOn site delivery io line := by
    simp only [runCommand, vault_loads, ranOn]
  rw [← ends, ← ran, ← answer]
  refine @SiteStep.command _ _ quotedDeployment _ _ _ _ vaultSources _ io line quotedDraws []
    delivery vault_loads ?_ ?_
  · rintro k same
    exact (Except.ok.inj (opened.symm.trans same)).symm
  · intro project same
    rw [named] at same
    cases same
    rfl

def vaultCache : CacheStore Bytes := vaultUser.cache quotedClient.toClientCrates [7]

lemma ranOn_getKey {site : Site Db} {delivery : Delivery} {io : Io Bytes}
    (opened : io.opened = .ok [7]) {called : Except UreqError HttpResponse × Db}
    (calls : quotedWire.net [7] quotedDraws [] delivery vaultConfig .get (Api.secretsPath "app")
      ⟨false, some []⟩ site.server = called) :
    ranOn site delivery io getKey =
      let got := CachedApi.getSecrets quotedClient.toClientCrates (some vaultCache) called.1 io.draws
        "app" site.files
      ((ReadCmd.get "KEY").shows io got.1, ⟨got.2, called.2⟩) := by
  subst calls
  simp only [ranOn, getKey, dispatch, ReadCmd.asks, if_true, Api.getSecrets, Api.withCache, opened]
  rfl

def firstActs : List (Db × Act Bytes) :=
  [(newSite.server, .asked rootToken quotedDraws.writtenAt.rfc3339 newApp false),
    (appSite.server, .ran vaultUser setIo setKey false (printed ""))]

lemma setSite_run : VaultSiteRun firstActs setSite := by
  have project : VaultSteps newSite _ appSite :=
    @SiteStep.request _ _ quotedDeployment _ _ _ _ rootToken newApp quotedDraws []
  rw [metFault_nil] at project
  have set : VaultSteps appSite [.ran vaultUser setIo setKey false (printed "")] setSite :=
    ranOn_step .delivered rfl rfl rfl rfl
  have first : VaultSiteRun
      [(newSite.server, .asked rootToken quotedDraws.writtenAt.rfc3339 newApp false)] appSite :=
    Shown.tail .refl ⟨_, project⟩ ⟨_, project, rfl⟩
  exact first.tail ⟨_, set⟩ ⟨_, set, rfl⟩

def appSecrets : SecretMap := .ofList [("KEY", "v")]

lemma readSite_loads : vaultCache.load quotedClient.toClientCrates lostIo.draws.now "app"
    readSite.files = .ok appSecrets := by
  have fetched : Api.fetchSecrets quotedClient.toClientJson (quotedWire.net [7] quotedDraws []
      .delivered vaultConfig .get (Api.secretsPath "app") ⟨false, some []⟩ setSite.server).1 =
        .ok appSecrets := by rfl
  have files : readSite.files = (vaultCache.store quotedClient.toClientCrates getIo.draws "app"
      appSecrets setSite.files).2 := by
    rw [readSite, ranOn_getKey rfl rfl]
    dsimp only
    rw [getSecrets_ok fetched]
  obtain ⟨data, written⟩ : ∃ data, vaultCache.entry quotedClient.toClientCrates getIo.draws "app"
      appSecrets = .ok data := ⟨_, entry_ok.mpr ⟨_, _, _, rfl, rfl, rfl, rfl⟩⟩
  have kept : readSite.files (vaultCache.cachePath quotedClient.toClientCrates "app") =
      some data := by
    simp only [files, CacheStore.store, written]
    simp [writePrivateFile, getIo, ioAt, drawsAt]
  have valid : ∀ k ∈ appSecrets, validSecretKey k = true := by
    intro k hk
    simp only [appSecrets, Std.ExtTreeMap.mem_ofList] at hk
    obtain rfl : k = "KEY" := by simpa [eq_comm] using hk
    decide
  exact (load_entry quotedDeployment_laws.client written valid kept).mpr
    ⟨rfl, _, _, rfl, rfl, by decide⟩

lemma lostSite_shows : (ranOn readSite (.requestLost "timeout") lostIo getKey).1 =
    printed "v\n" := by
  have answered : (CachedApi.getSecrets quotedClient.toClientCrates (some vaultCache)
      (.error (.other "timeout")) lostIo.draws "app" readSite.files).1 = .ok appSecrets :=
    getSecrets_returns.mpr (.inr ⟨⟨_, rfl⟩, readSite_loads⟩)
  have lost : quotedWire.net [7] quotedDraws [] (.requestLost "timeout") vaultConfig .get
      (Api.secretsPath "app") ⟨false, some []⟩ readSite.server =
        (.error (.other "timeout"), readSite.server) := rfl
  rw [ranOn_getKey rfl lost]
  dsimp only
  rw [answered]
  decide

def laterActs : List (Db × Act Bytes) :=
  firstActs ++ [(setSite.server, .ran vaultUser getIo getKey false (printed "v\n"))]

/-- What is shown while the server is away. -/
def lostAct : Db × Act Bytes := (readSite.server, .ran vaultUser lostIo getKey true (printed "v\n"))

lemma lostSite_run : VaultSiteRun (laterActs ++ [lostAct]) lostSite := by
  have read : VaultSteps setSite [.ran vaultUser getIo getKey false (printed "v\n")] readSite :=
    ranOn_step .delivered rfl rfl (by decide) (by decide)
  have lost : VaultSteps readSite [.ran vaultUser lostIo getKey true (printed "v\n")] lostSite :=
    ranOn_step (.requestLost "timeout") rfl rfl rfl lostSite_shows
  exact (setSite_run.tail ⟨_, read⟩ ⟨_, read, rfl⟩).tail ⟨_, lost⟩ ⟨_, lost, rfl⟩

end SecretsManager
