import SecretsManager.Client.EndToEnd

/-!
# Where a shown value comes from

A value that a command prints was in the database at some moment of the run: when it was
printed or, where the server was not reached, when its reader last saw it. And a value
that was set is shown to everybody from then on, until somebody writes it again.
-/

namespace SecretsManager

open FaultySession Simulation SharedSecrets

variable {Key CacheKey : Type}

namespace SharedSecrets

/-- The reader has set something, and forgotten what it saw of the project. -/
def Act.Forgets (id : Identity) (project : String) : Act CacheKey → Prop
  | ran id' io (.set project' _) _ (.returned (.ok _)) =>
    id' = id ∧ project' = project ∧ forgets io = true
  | _ => False

end SharedSecrets

section Model

variable (dep : Deployment Key CacheKey) (key : Key)

/-- The database holds these values for the project that was typed. -/
def StoredIn (db : Db) (project : String) (values : SecretMap) : Prop :=
  ∃ store, Refines dep.server key db store ∧ ReadsTyped store project values

/-- The reader was shown these values at this time, out of the database as it was then, and has
not forgotten them since. -/
def LastSeen (trace : List (Db × Act CacheKey)) (id : Identity) (project : String)
    (values : SecretMap) (seenAt : UnixTime) : Prop :=
  ∃ before db io cmd since,
    trace = before ++ (db, .ran id io (.read project false cmd) false
      (cmd.shows io (.ok values))) :: since ∧
    StoredIn dep key db project values ∧ io.draws.now = .ok seenAt ∧
    ∀ e ∈ since, ¬ e.2.Forgets id project

/-- What a read after this trace may show: what the database holds or, where no answer came, what
its reader saw last. -/
def MayShow (trace : List (Db × Act CacheKey)) (db : Db) (id : Identity) (io : Io CacheKey)
    (project : String) (noCache unanswered : Bool) (values : SecretMap) : Prop :=
  unanswered = false ∧ StoredIn dep key db project values ∨
    unanswered = true ∧ noCache = false ∧ ∃ seenAt now,
      LastSeen dep key trace id project values seenAt ∧ io.draws.now = .ok now ∧
      Fresh seenAt.secs now

/-- Every read that was shown something was shown what it may show. -/
def AllExplained (trace : List (Db × Act CacheKey)) : Prop :=
  ∀ before db id io project noCache cmd unanswered p after,
    trace = before ++ (db, .ran id io (.read project noCache cmd) unanswered
      (.returned (.ok p))) :: after →
    ∃ values, cmd.shows io (.ok values) = .returned (.ok p) ∧
      MayShow dep key before db id io project noCache unanswered values

/-- The invariant of a run: where what was seen comes from, and what was shown. -/
structure Explains (trace : List (Db × Act CacheKey)) (s : SharedSecrets) : Prop where
  seen : ∀ id project values seenAt, s.seen (id, project) = some (values, seenAt) →
    LastSeen dep key trace id project values seenAt
  explained : AllExplained dep key trace

end Model

section History

variable {dep : Deployment Key CacheKey} {key : Key} {cacheKey : CacheKey}
  {used : Set (Identity × String)} {start site : Site Db} {trace : List (Db × Act CacheKey)}
  {s s' : SharedSecrets} {e : Db × Act CacheKey}

lemma LastSeen.snoc {id : Identity} {project : String} {values : SecretMap} {seenAt : UnixTime}
    (h : LastSeen dep key trace id project values seenAt) (kept : ¬ e.2.Forgets id project) :
    LastSeen dep key (trace ++ [e]) id project values seenAt := by
  obtain ⟨before, db, io, cmd, since, rfl, stored, clock, quiet⟩ := h
  refine ⟨before, db, io, cmd, since ++ [e], by simp, stored, clock, fun e' he' => ?_⟩
  rcases List.mem_append.mp he' with he' | he'
  · exact quiet e' he'
  · rw [List.mem_singleton.mp he']
    exact kept

/-- A list with one more element, split at an element: there, or before. -/
lemma split_snoc {α : Type} {l before after : List α} {a b : α}
    (split : l ++ [a] = before ++ b :: after) :
    (before = l ∧ b = a) ∨ ∃ after', l = before ++ b :: after' := by
  rcases List.eq_nil_or_concat after with rfl | ⟨after', last, rfl⟩
  · obtain ⟨rfl, same⟩ := List.append_inj' split rfl
    exact .inl ⟨rfl, (List.head_eq_of_cons_eq same).symm⟩
  · have split : l ++ [a] = (before ++ b :: after') ++ [last] := by simpa using split
    exact .inr ⟨after', (List.append_inj' split rfl).1⟩

lemma AllExplained.snoc (h : AllExplained dep key trace)
    (last : ∀ id io project noCache cmd unanswered p,
      e.2 = .ran id io (.read project noCache cmd) unanswered (.returned (.ok p)) →
      ∃ values, cmd.shows io (.ok values) = .returned (.ok p) ∧
        MayShow dep key trace e.1 id io project noCache unanswered values) :
    AllExplained dep key (trace ++ [e]) := by
  intro before db id io project noCache cmd unanswered p after split
  rcases split_snoc split with ⟨rfl, same⟩ | ⟨after', earlier⟩
  · subst same
    exact last id io project noCache cmd unanswered p rfl
  · exact h before db id io project noCache cmd unanswered p after' earlier

/-- One act: what it has seen, and that what it shows is explained. -/
lemma Explains.act (h : Explains dep key trace s) (does : DoesOver dep key s e s') :
    Explains dep key (trace ++ [e]) s' := by
  obtain ⟨db, a⟩ := e
  obtain ⟨refines, does⟩ : Refines dep.server key db s.store ∧ Does s a s' := does
  have stored : ∀ {project values}, ReadsTyped s.store project values →
      StoredIn dep key db project values := fun reads => ⟨s.store, refines, reads⟩
  have quiet : ∀ {id project}, ¬ a.Forgets id project → ∀ values seenAt,
      s.seen (id, project) = some (values, seenAt) →
      LastSeen dep key (trace ++ [(db, a)]) id project values seenAt :=
    fun kept values seenAt held => (h.seen _ _ values seenAt held).snoc kept
  refine ⟨?_, h.explained.snoc ?_⟩
  · intro id project values seenAt held
    cases does with
    | readNow id' io project' noCache cmd values' seen reads kept =>
      rcases kept with rfl | ⟨rfl, now, clock, rfl⟩
      · exact quiet (by simp [Act.Forgets]) values seenAt held
      · by_cases own : (id, project) = (id', project')
        · obtain ⟨rfl, rfl⟩ := Prod.mk.inj own
          simp only [Function.update_self, Option.some.injEq, Prod.mk.injEq] at held
          obtain ⟨rfl, rfl⟩ := held
          exact ⟨trace, db, io, cmd, [], rfl, stored reads, clock, by simp⟩
        · simp only [Function.update_of_ne own] at held
          exact quiet (by simp [Act.Forgets]) values seenAt held
    | set id' io project' secretKey value store entered puts =>
      by_cases forgot : forgets io = true
      · simp only [forgot, if_true] at held
        by_cases own : (id, project) = (id', project')
        · rw [own, Function.update_self] at held
          cases held
        · rw [Function.update_of_ne own] at held
          refine quiet ?_ values seenAt held
          rintro ⟨rfl, rfl, _⟩
          exact own rfl
      · simp only [forgot, if_false, Bool.false_eq_true] at held
        refine quiet ?_ values seenAt held
        rintro ⟨_, _, forgets⟩
        exact forgot forgets
    | readOffline => exact quiet (by simp [Act.Forgets]) values seenAt held
    | setUnnoticed => exact quiet (by simp [Act.Forgets]) values seenAt held
    | failed id' io line unanswered e =>
      exact quiet (by cases line <;> simp [Act.Forgets]) values seenAt held
    | token => exact quiet (by simp [Act.Forgets]) values seenAt held
    | asked => exact quiet (by simp [Act.Forgets]) values seenAt held
    | broken => exact quiet (by simp [Act.Forgets]) values seenAt held
    | unreported => exact quiet (by simp [Act.Forgets]) values seenAt held
  · rintro id io project noCache cmd unanswered p rfl
    generalize shown : Ended.returned (.ok p) = out at does
    cases does with
    | readNow _ _ _ _ _ values seen reads => exact ⟨values, rfl, .inl ⟨rfl, stored reads⟩⟩
    | readOffline _ _ _ _ values seenAt now held clock fresh =>
      exact ⟨values, rfl,
        .inr ⟨rfl, rfl, seenAt, now, h.seen _ _ values seenAt held, clock, fresh⟩⟩
    | failed => cases shown

lemma explains_of_runs (runs : Runs (DoesOver dep key) .empty trace s) :
    Explains dep key trace s := by
  induction runs with
  | refl =>
    refine ⟨by simp [SharedSecrets.empty], ?_⟩
    intro before db id io project noCache cmd unanswered p after split
    simp at split
  | tail _ last ih => exact ih.act last

/-- Whatever a command shows of a project, the database held at the time, or, where no answer came,
when its reader last saw it: at most a day ago by its clock, and with nothing set by it since. -/
theorem shown_was_stored (laws : dep.Laws)
    (distinct : NoCollisions dep.client.toClientCrates cacheKey used) (fresh : start.Fresh)
    {before after : List (Db × Act CacheKey)} {db : Db} {id : Identity} {io : Io CacheKey}
    {project : String} {noCache unanswered : Bool} {cmd : ReadCmd} {p : Printed}
    (run : SiteRun dep key cacheKey used start (before ++ (db, .ran id io
      (.read project noCache cmd) unanswered (.returned (.ok p))) :: after) site) :
    ∃ values, cmd.shows io (.ok values) = .returned (.ok p) ∧
      MayShow dep key before db id io project noCache unanswered values := by
  obtain ⟨s, runs, _⟩ := holds_of_run laws distinct fresh run
  exact (explains_of_runs runs).explained _ _ _ _ _ _ _ _ _ _ rfl

end History

theorem shown_was_stored_lost : ∃ values,
    (ReadCmd.get "KEY").shows lostIo (.ok values) = printed "v\n" ∧
    MayShow quotedDeployment [7] laterActs readSite.server vaultUser lostIo "app" false true
      values :=
  have run : VaultSiteRun (laterActs ++ lostAct :: []) lostSite := lostSite_run
  shown_was_stored quotedDeployment_laws noCollisions_vaultUser newSite_fresh run

/-! ## What was set is shown -/

section Stored

variable {store store' : RefStore} {project secretKey value : String}

/-- A server whose clock always prints this. -/
def stamped (now : String) : ServerCrates Bytes :=
  { framedServer with time := ⟨fun _ => some now, fun _ => none⟩ }

def stampedDraws (now : String) : Draws (stamped now).time :=
  let reading : Reading (stamped now).time := ⟨0, now, rfl⟩
  ⟨reading, reading, reading, .zero, ""⟩

/-- Whatever text stands for the time, the store changes as its answers tell. -/
lemma step_tells (store : RefStore) (token : AuthedToken) (now : String) (call : StoreCall)
    (project secretKey : String) :
    (store.step token now call).2.entry project secretKey =
      told (stamped now) project secretKey (store.entry project secretKey)
        (⟨token, call, stampedDraws now⟩, some (store.step token now call).1) :=
  step_told ⟨token, call, stampedDraws now⟩ project secretKey

lemma RefStore.entry_puts (puts : Puts store project secretKey value store') :
    ∃ version, store'.entry project secretKey = some (value, version) := by
  obtain ⟨token, now, version, answered, rfl⟩ := puts
  refine ⟨version, ?_⟩
  rw [step_tells, answered]
  exact if_pos ⟨rfl, rfl⟩

/-- A call that does not write the secret leaves its entry. -/
lemma entry_unwritten {token : AuthedToken} {now : String} {call : StoreCall} {failed : Bool}
    (kept : ¬ (Act.asked token now call failed : Act CacheKey).Writes project secretKey) :
    (store.step token now call).2.entry project secretKey = store.entry project secretKey := by
  rw [step_tells]
  generalize (store.step token now call).1 = response
  unfold told
  split
  · rename_i same
    cases same
    exact if_neg kept
  · rename_i same
    cases same
    exact if_neg kept
  · rfl

lemma entry_puts_other {project' secretKey' value' : String}
    (puts : PutsTyped store project' secretKey' value' store')
    (kept : ¬ TakenSecret project' secretKey' project secretKey) :
    store'.entry project secretKey = store.entry project secretKey := by
  obtain ⟨name, k, taken, token, now, version, _, rfl⟩ := puts
  have kept : ¬ (Act.asked token now (.putSecret name k (.ok ⟨value'⟩)) false :
      Act Unit).Writes project secretKey := by
    rintro ⟨rfl, rfl⟩
    exact kept taken
  exact entry_unwritten kept

lemma SharedSecrets.Does.entry {s s' : SharedSecrets} {a : Act CacheKey} (does : Does s a s')
    (kept : ¬ a.Writes project secretKey) :
    s'.store.entry project secretKey = s.store.entry project secretKey := by
  cases does with
  | set _ _ _ _ _ _ _ puts => exact entry_puts_other puts kept
  | setUnnoticed _ _ _ _ _ _ _ _ puts => exact entry_puts_other puts kept
  | asked token now call => exact entry_unwritten kept
  | unreported token now name k body => exact entry_unwritten kept
  | _ => rfl

end Stored

section Shows

variable {dep : Deployment Key CacheKey} {key : Key} {cacheKey : CacheKey}
  {used : Set (Identity × String)} {start site : Site Db} {s : SharedSecrets} {cfg : Config}
  {d : Draws dep.server.time} {project secretKey value : String}

/-- A valid name is one segment of a path. -/
lemma validProject_segment {name : String} (valid : validProject name = true) :
    pathSegments name = [name] := by
  simp only [validProject, validName, decide_eq_true_eq, List.all_eq_true] at valid
  have noSlash : '/' ∉ name.toList := by
    intro slash
    have allowed := valid.2.2 47 (mem_utf8 slash (by decide))
    exact absurd allowed (by decide)
  rw [pathSegments, List.splitOn_eq_singleton noSlash]
  simp

lemma takenFor_valid {name : String} (valid : validProject name = true) :
    (ClientCall.getSecrets name).takenFor = some (.getSecrets name) := by
  have unreserved := validProject_unreserved valid
  have plain : (ClientCall.getSecrets name).needsEscaping = false := unreserved
  have path : (ClientCall.getSecrets name).path = Api.secretsPath name := rfl
  rw [ClientCall.takenFor, sentPath_clean (path_clean plain), path, secretsPath_segments,
    validProject_segment valid]
  simp [matchRoute, ClientCall.takenAs, percentDecode_unreserved unreserved, valid]

/-- A request behind a token is answered by its handler. -/
lemma serve_answer {c : ServerCrates Key} {r : Request} {call : Call} {token : AuthedToken}
    {d : Draws c.time} {db : Db} (routed : r.routed c = .guarded (.ok call))
    (extracted : (extractToken c r.authorization d.authenticatedAt.instant ⟨db, []⟩).1 =
      .ok token) :
    (serve c key r d db).1 = reply r.method (call.perform c key token d ⟨db, []⟩).1 := by
  have stays : extractToken c r.authorization d.authenticatedAt.instant ⟨db, []⟩ =
      (.ok token, ⟨db, []⟩) := Prod.ext extracted extractToken_stays
  unfold serve run handle
  simp only [routed, bind_apply, stays]

/-- Without faults there is one answer to a request. -/
lemma answer_nil {c : ServerCrates Key} (r : Request) (d : Draws c.time) (db : Db) :
    (answer c key r d ⟨db, []⟩).1 = (serve c key r d db).1 := rfl

/-- The read of a project reaches its handler with a token that may read it, and the answer is one
that the client reads. -/
structure Admitted (dep : Deployment Key CacheKey) (key : Key) (cfg : Config)
    (d : Draws dep.server.time) (project : String) (db : Db) : Prop where
  accepted : dep.wire.agent.accepts (cfg.serverUrl ++ Api.secretsPath project) = true
  header : headerAccepted ("Bearer " ++ cfg.token) = true
  authenticated : ∃ token, (extractToken dep.server (some (utf8 ("Bearer " ++ cfg.token)))
    d.authenticatedAt.instant ⟨db, []⟩).1 = .ok token ∧ ensureScope token project = .ok ()
  fits : ∀ response, (serve dep.server key (sentRequest cfg .get (Api.secretsPath project)
    ⟨false, some []⟩) d db).1 = some response →
    (dep.wire.encodeBody response.body).length < MAX_RESPONSE_BYTES

/-- An admitted read is answered with what is stored. -/
lemma Admitted.served (laws : dep.Laws) (h : site.Holds dep key cacheKey used s)
    (admitted : Admitted dep key cfg d project site.server) {p : RefProject}
    (found : s.store[project]? = some p) :
    (serve dep.server key (sentRequest cfg .get (Api.secretsPath project) ⟨false, some []⟩) d
      site.server).1 = some ⟨200, .secrets p.values⟩ := by
  obtain ⟨token, extracted, inScope⟩ := admitted.authenticated
  have valid := (h.names project p found).1
  have routed : (sentRequest cfg .get (Api.secretsPath project) ⟨false, some []⟩).routed
      dep.server = .guarded (.ok (.store (.getSecrets project))) :=
    (routed_takenFor laws.wire (takenFor_valid valid) rfl).1
  have step : (s.store.step token d.writtenAt.rfc3339 (.getSecrets project)).1 =
      ⟨200, .secrets p.values⟩ := by
    simp [RefStore.step, RefStore.call, RefStore.check, valid, inScope, RefStore.project, found,
      bind, Except.bind, pure, Except.pure, RefProject.values]
  have answered : reply .get ((StoreCall.getSecrets project).perform dep.server key token d
      ⟨site.server, []⟩).1 = _ :=
    (perform_nil_served laws.ideal laws.total h.refines (.getSecrets project) .get).1
  rw [step] at answered
  exact (serve_answer routed extracted).trans answered

/-- And the client has it. -/
lemma Admitted.fetched (laws : dep.Laws) (h : site.Holds dep key cacheKey used s)
    (validated : cfg.Validated) (admitted : Admitted dep key cfg d project site.server)
    {p : RefProject} (found : s.store[project]? = some p) :
    Api.fetchSecrets dep.client.toClientJson (dep.wire.net key d [] .delivered cfg .get
      (Api.secretsPath project) ⟨false, some []⟩ site.server).1 = .ok p.values := by
  have served := admitted.served laws h found
  have short := admitted.fits _ served
  have keys : ∀ k ∈ p.values, validSecretKey k = true := by
    intro k hk
    rw [RefProject.values, Std.ExtTreeMap.mem_map] at hk
    obtain ⟨entry, stored⟩ := Option.isSome_iff_exists.mp
      (Std.ExtTreeMap.mem_iff_isSome_getElem?.mp hk)
    exact (h.names project p found).2 k entry stored
  have sent : (dep.wire.net key d [] .delivered cfg .get (Api.secretsPath project)
      ⟨false, some []⟩ site.server).1 =
        .ok ⟨200, dep.wire.agent.readToVec (dep.wire.encodeBody (.secrets p.values))⟩ := by
    have out := (answer_nil (sentRequest cfg .get (Api.secretsPath project) ⟨false, some []⟩) d
      site.server).trans served
    have request : (⟨.get, sentPath (Api.secretsPath project),
        some (utf8 ("Bearer " ++ cfg.token)), ⟨false, some []⟩⟩ : Request) =
      sentRequest cfg .get (Api.secretsPath project) ⟨false, some []⟩ := rfl
    simp only [Wire.net, sentPath_append validated, stripPrefix_append, admitted.accepted,
      admitted.header, Bool.and_self, if_true, request]
    generalize answer dep.server key (sentRequest cfg .get (Api.secretsPath project)
      ⟨false, some []⟩) d ⟨site.server, []⟩ = answered at out ⊢
    obtain ⟨response, db⟩ := answered
    subst out
    rw [receive_succeeded (by simp [Response.Succeeded])]
  rw [sent, ← dep.json]
  have read := laws.wire.agent.short _ _ short
  simp only [Api.fetchSecrets, readJson, read, laws.wire.secrets]
  exact secretMapFromPlain_ok.mpr ⟨rfl, keys⟩

/-- What was fetched is returned, whatever the cache makes of it. -/
lemma getSecrets_fetched {c : ClientCrates CacheKey} {cache : Option (CacheStore CacheKey)}
    {resp : Except UreqError HttpResponse} {draws : StoreDraws} {files : CacheFiles} {m : SecretMap}
    (fetched : Api.fetchSecrets c.toClientJson resp = .ok m) :
    (CachedApi.getSecrets c cache resp draws project files).1 = .ok m := by
  cases cache with
  | none => simp only [CachedApi.getSecrets, fetched]
  | some cache => rw [getSecrets_ok fetched]

/-- A value that was set is shown by every command that is admitted, until it is written again. -/
theorem set_value_is_shown (laws : dep.Laws)
    (distinct : NoCollisions dep.client.toClientCrates cacheKey used) (fresh : start.Fresh)
    {before after : List (Db × Act CacheKey)} {db : Db} {id : Identity} {io : Io CacheKey}
    {typed typedKey : String} {unanswered : Bool} {p : Printed}
    (run : SiteRun dep key cacheKey used start (before ++ (db, .ran id io
      (.set typed typedKey) unanswered (.returned (.ok p))) :: after) site) :
    ∃ project secretKey value, TakenSecret typed typedKey project secretKey ∧
      ((hasReserved typed || hasReserved typedKey) = false →
        project = typed ∧ secretKey = typedKey) ∧
      ClientCommands.readSecretValue io.stdin = .ok value ∧
      ((∀ e ∈ after, ¬ e.2.Writes project secretKey) →
        ∀ sources cfg d, Config.load dep.config sources = .ok cfg →
        Admitted dep key cfg d project site.server → ∀ (io' : Io CacheKey) (noCache : Bool),
        ∃ values : SecretMap, values[secretKey]? = some value ∧ ∀ cmd : ReadCmd, cmd.asks = true →
          (runCommand dep.client dep.config sources (dep.wire.net key d [] .delivered) io'
            (.read project noCache cmd) site).1 = cmd.shows io' (.ok values)) := by
  obtain ⟨s, runs, holds⟩ := holds_of_run laws distinct fresh run
  obtain ⟨s₁, _, rest⟩ := runs.split
  obtain ⟨s₂, ⟨_, set⟩, rest⟩ := rest.head
  obtain ⟨project, secretKey, value, version, taken, entered, entry⟩ :
      ∃ project secretKey value version, TakenSecret typed typedKey project secretKey ∧
        ClientCommands.readSecretValue io.stdin = .ok value ∧
        s₂.store.entry project secretKey = some (value, version) := by
    dsimp only at set
    generalize shown : Ended.returned (.ok p) = out at set
    cases set with
    | set _ _ _ _ value store entered puts =>
      obtain ⟨project, secretKey, taken, puts⟩ := puts
      obtain ⟨version, entry⟩ := RefStore.entry_puts puts
      exact ⟨project, secretKey, value, version, taken, entered, entry⟩
    | setUnnoticed => cases shown
    | failed => cases shown
  refine ⟨project, secretKey, value, taken, taken.plain, entered, ?_⟩
  intro kept sources cfg d loaded admitted io' noCache
  have still : s.store.entry project secretKey = some (value, version) :=
    rest.preserves (P := fun s => s.store.entry project secretKey = some (value, version))
      (fun _ e _ he does held => (does.2.entry (kept e he)).trans held) entry
  obtain ⟨p, found, stored⟩ := Option.bind_eq_some_iff.mp still
  refine ⟨p.values, ?_, fun cmd asks => ?_⟩
  · rw [RefProject.values, Std.ExtTreeMap.getElem?_map, stored]
    rfl
  · have fetched := admitted.fetched laws holds (load_validated laws.marks loaded) found
    simp only [runCommand, loaded, dispatch, asks, if_true, Api.getSecrets,
      getSecrets_fetched fetched]

end Shows

lemma admitted_setSite : Admitted quotedDeployment [7] vaultConfig quotedDraws "app"
    setSite.server where
  accepted := by decide
  header := by decide
  authenticated := ⟨rootToken, by decide, by decide⟩
  fits := by
    intro response answered
    have served : (serve quotedServer [7] (sentRequest vaultConfig .get (Api.secretsPath "app")
        ⟨false, some []⟩) quotedDraws setSite.server).1 = some ⟨200, .secrets appSecrets⟩ := by rfl
    cases served.symm.trans answered
    decide

theorem set_value_is_shown_next : ∃ values : SecretMap, values["KEY"]? = some "v" ∧
    ∀ cmd : ReadCmd, cmd.asks = true →
      (runCommand quotedClient vaultUrl vaultSources (quotedWire.net [7] quotedDraws []
        .delivered) getIo (.read "app" true cmd) setSite).1 = cmd.shows getIo (.ok values) := by
  have run : VaultSiteRun ([_] ++ (appSite.server, .ran vaultUser setIo setKey false
    (.returned (.ok ⟨utf8 "", 0⟩))) :: []) setSite := setSite_run
  obtain ⟨project, secretKey, value, _, plain, entered, shown⟩ :=
    set_value_is_shown quotedDeployment_laws noCollisions_vaultUser newSite_fresh run
  obtain ⟨rfl, rfl⟩ := plain (by decide)
  have typed : ClientCommands.readSecretValue setIo.stdin = .ok "v" := by decide
  obtain rfl := Except.ok.inj (entered.symm.trans typed)
  exact shown (by simp) vaultSources vaultConfig quotedDraws vault_loads admitted_setSite getIo true

end SecretsManager
