import SecretsManager.Server.PassphraseStore
import SecretsManager.Server.Expiry
import SecretsManager.Server.FailedRequests

/-!
# What a server answers while its statements succeed

The errors of the server's own are a failed statement, a row that its key does not open, a
value that is no text and an expiry that is not printed. On a database that servers and
rekeys have written, only a failed statement is left, and a day past the year 9999.
-/

namespace SecretsManager

open FaultySession Relation Simulation

variable {Key : Type} {c : ServerCrates Key} {key : Key} {token : AuthedToken} {d : Draws c.time}
  {db : Db} {ref : RefStore} {w : World Key}

/-- An error that the client can mend. -/
def AppError.ClientError : AppError → Prop
  | .internal _ => False
  | _ => True

lemma AppError.ClientError.status {e : AppError} (h : e.ClientError) :
    e.intoResponse.status < 500 := by
  cases e with
  | internal _ => exact h.elim
  | _ => simp [AppError.intoResponse]

/-- Whatever this stops with, the client can mend. -/
def Mendable (r : Except AppError α) : Prop := ∀ e, r = .error e → e.ClientError

/-- A body that was decoded, or turned down for a reason that the client can mend. -/
def StoreCall.Decoded : StoreCall → Prop
  | .createProject body => Mendable body
  | .putSecret _ _ body => Mendable body
  | _ => True

def Call.Decoded : Call → Prop
  | .store call => call.Decoded
  | .createToken body => Mendable body
  | _ => True

/-! ## Refusals of the map -/

section Mendable

lemma Mendable.pure {a : α} : Mendable (.ok a : Except AppError α) := fun _ h => nomatch h

lemma Mendable.bind {r : Except AppError α} {f : α → Except AppError β} (first : Mendable r)
    (next : ∀ a, Mendable (f a)) : Mendable (r >>= f) := by
  cases r with
  | ok a => exact next a
  | error e =>
    intro e' stopped
    cases stopped
    exact first e rfl

lemma Mendable.check {ok : Bool} {e : AppError} (client : e.ClientError) :
    Mendable (RefStore.check ok e) := by
  intro e' stopped
  unfold RefStore.check at stopped
  split at stopped <;> cases stopped
  exact client

lemma ensureScope_mendable (token : AuthedToken) (name : String) :
    Mendable (ensureScope token name) := by
  intro e stopped
  unfold ensureScope at stopped
  repeat' split at stopped
  all_goals cases stopped
  trivial

lemma ensureAdmin_mendable (token : AuthedToken) : Mendable (ensureAdmin token) := by
  intro e stopped
  unfold ensureAdmin at stopped
  split at stopped <;> cases stopped
  trivial

lemma project_mendable (name : String) : Mendable (ref.project name) := by
  intro e stopped
  unfold RefStore.project at stopped
  split at stopped <;> cases stopped
  trivial

lemma refCall_mendable {call : StoreCall} (decoded : call.Decoded) (now : String) :
    Mendable (ref.call token now call) := by
  have bad : ∀ msg, (AppError.badRequest msg).ClientError := fun _ => trivial
  have conflict : ∀ msg, (AppError.conflict msg).ClientError := fun _ => trivial
  cases call with
  | createProject body =>
    refine .bind decoded fun _ => .bind (.check (bad _)) fun _ => ?_
    exact .bind (ensureScope_mendable _ _) fun _ => .bind (.check (conflict _)) fun _ => .pure
  | listProjects => exact .pure
  | getSecrets name =>
    refine .bind (.check (bad _)) fun _ => .bind (ensureScope_mendable _ _) fun _ => ?_
    exact .bind (project_mendable _) fun _ => .pure
  | putSecret name secretKey body =>
    refine .bind decoded fun _ => .bind (.check (bad _)) fun _ => ?_
    refine .bind (ensureScope_mendable _ _) fun _ => .bind (.check (bad _)) fun _ => ?_
    exact .bind (project_mendable _) fun _ => .pure
  | deleteSecret name secretKey =>
    refine .bind (.check (bad _)) fun _ => .bind (.check (bad _)) fun _ => ?_
    refine .bind (ensureScope_mendable _ _) fun _ => .bind (project_mendable _) fun _ => ?_
    exact .bind (.check trivial) fun _ => .pure

end Mendable

/-! ## Bodies and routes -/

lemma jsonBody_mendable (parse : Bytes → Option α) (p : Payload) : Mendable (jsonBody parse p) := by
  intro e stopped
  unfold jsonBody at stopped
  cases rejected : extractJson parse p with
  | ok body =>
    rw [rejected] at stopped
    cases stopped
  | error rejection =>
    rw [rejected] at stopped
    cases stopped
    cases rejection <;> trivial

variable (c) in
/-- The body of the call is what its extractor reads of the payload. -/
def Call.ReadFrom (p : Payload) : Call → Prop
  | .store (.createProject body) => body = jsonBody c.parseCreateProject p
  | .store (.putSecret _ _ body) => body = jsonBody c.parseSetSecret p
  | .createToken body => body = jsonBody c.parseCreateToken p
  | _ => True

lemma routed_readFrom {r : Request} {call : Call} (routed : r.routed c = .guarded (.ok call)) :
    call.ReadFrom c r.payload := by
  obtain ⟨route, _, called⟩ := routed_guarded routed
  unfold Route.call at called
  split at called
  · cases called
    trivial
  · cases called
    trivial
  · cases called
    exact rfl
  · split at called <;> cases called
    trivial
  · split at called <;> cases called
    trivial
  · split at called <;> cases called
    exact rfl
  · split at called <;> cases called
    trivial
  · cases called
    trivial
  · cases called
    trivial
  · cases called
    exact rfl
  · split at called <;> cases called
    trivial
  · cases called

lemma routed_decoded {r : Request} {call : Call} (routed : r.routed c = .guarded (.ok call)) :
    call.Decoded := by
  have read := routed_readFrom routed
  cases call with
  | store call =>
    cases call with
    | createProject body =>
      obtain rfl : body = _ := read
      exact jsonBody_mendable _ _
    | putSecret name secretKey body =>
      obtain rfl : body = _ := read
      exact jsonBody_mendable _ _
    | _ => trivial
  | createToken body =>
    obtain rfl : body = _ := read
    exact jsonBody_mendable _ _
  | _ => trivial

lemma routed_status {r : Request} {response : Response} (routed : r.routed c = .answered response) :
    response.status < 500 := by
  unfold Request.routed at routed
  split at routed
  · cases routed
    decide
  · split at routed <;> cases routed <;> decide
  · split at routed <;> cases routed
    decide

/-! ## Handlers -/

variable (c) in
/-- A panic: an administrator asks for days past the year 9999. -/
def Overflows (token : AuthedToken) (call : Call) (d : Draws c.time) : Prop :=
  ∃ body, call = .createToken (.ok body) ∧ body.Passes token ∧
    ¬ DaysFit d.expiresFrom.instant body.days

/-- How a handler stops while no statement fails. -/
def Blameless (panics : Prop) : Failure → Prop
  | .app e => e.ClientError
  | .panic => panics

lemma orReject_stops {r : Except AppError α} {f : α → Handler β} {s : Session Db}
    {P : Failure → Prop} (refused : ∀ e, r = .error e → P (.app e))
    (next : ∀ a, r = .ok a → Stops s (f a) P) : Stops s (orReject r >>= f) P := by
  refine Stops.lift_bind ?_ fun a ran => next a (mapError_ok ran)
  intro e stopped
  cases r with
  | ok a => cases stopped
  | error e' =>
    cases stopped
    exact refused e' rfl

lemma storeCall_blameless (ideal : IdealAead.Ideal c.aead) (total : IdealAead.Total c.aead)
    (h : Refines c key db ref) {call : StoreCall} (decoded : call.Decoded) :
    Stops ⟨db, []⟩ (call.perform c key token d) (Blameless False) := by
  intro e stopped
  have follows : Follows (call.perform c key token d) db
      (ref.call token d.writtenAt.rfc3339 call) (Agrees c key) := perform_follows ideal total h call
  cases called : ref.call token d.writtenAt.rfc3339 call with
  | ok out =>
    rw [called] at follows
    obtain ⟨_, _, ran, _⟩ := follows
    rw [ran] at stopped
    cases stopped
  | error e' =>
    rw [called] at follows
    obtain ⟨_, ran, _⟩ := follows
    rw [ran] at stopped
    cases stopped
    exact refCall_mendable decoded _ e' called

lemma createToken_blameless (rfc : c.time.Rfc3339) {body : Except AppError CreateTokenBody}
    (decoded : Mendable body) :
    Stops ⟨db, []⟩ (Handlers.createToken c token body d)
      (Blameless (Overflows c token (.createToken body) d)) := by
  have bad : ∀ msg, Blameless (Overflows c token (.createToken body) d)
      (.app (.badRequest msg)) := fun _ => trivial
  refine orReject_stops (ensureAdmin_mendable token) fun _ admin => ?_
  refine orReject_stops decoded fun b found => ?_
  refine ensure_stops (bad _) fun validName => ensure_stops (bad _) fun validScope => ?_
  refine ensure_stops (bad _) fun oneExpiry => Stops.lift_bind ?_ fun expiresAt _ => ?_
  · intro e stopped
    rcases handler_expiry_cases rfc b d with ⟨_, ok, _⟩ | ⟨refused, _⟩ | ⟨panic, unfit⟩
    · exact nomatch ok.symm.trans stopped
    · cases refused.symm.trans stopped
      exact bad _
    · cases panic.symm.trans stopped
      exact ⟨b, by rw [found], ⟨admin, validName, validScope, oneExpiry⟩, unfit⟩
  · exact Stops.update_pure fun faulty => absurd rfl faulty

lemma perform_blameless (ideal : IdealAead.Ideal c.aead) (total : IdealAead.Total c.aead)
    (rfc : c.time.Rfc3339) (h : Refines c key db ref) {call : Call} (decoded : call.Decoded) :
    Stops ⟨db, []⟩ (call.perform c key token d) (Blameless (Overflows c token call d)) := by
  cases call with
  | store call =>
    intro e stopped
    have blameless := storeCall_blameless ideal total h decoded e stopped
    cases e with
    | app e => exact blameless
    | panic => exact blameless.elim
  | createToken body => exact createToken_blameless rfc decoded
  | listTokens =>
    exact orReject_stops (ensureAdmin_mendable token) fun _ _ e stopped => nomatch stopped
  | revokeToken name =>
    refine orReject_stops (ensureAdmin_mendable token) fun _ _ => ?_
    exact ensure_stops trivial fun _ e stopped => nomatch stopped

variable (c) in
/-- Without faults the extractor lets a bearer in or turns it away, and leaves the session. -/
lemma extractToken_ends (db : Db) (authorization : Option Bytes) (now : Int) :
    (∃ token, extractToken c authorization now ⟨db, []⟩ = (.ok token, ⟨db, []⟩)) ∨
      extractToken c authorization now ⟨db, []⟩ = (.error (.app .unauthorized), ⟨db, []⟩) := by
  unfold extractToken
  cases extractBearer authorization with
  | none => exact .inr rfl
  | some bearer =>
    simp only [database, Repo.authenticate, bind_apply, mapError_apply, query_nil]
    cases authenticateRows c.time now (hashToken c.toCryptoCrates bearer)
      (db.tokens.filter fun r => r.revoked = false) with
    | none => exact .inr rfl
    | some token => exact .inl ⟨token, rfl⟩

/-! ## Whole requests -/

lemma reply_status {m : Method} {response out : Response} (low : response.status < 500)
    (replied : reply m (.ok response) = some out) : out.status < 500 := by
  rw [(reply_ok replied).1]
  exact low

lemma reply_client {m : Method} {e : AppError} {out : Response} (client : e.ClientError)
    (replied : reply m (.error (.app e)) = some out) : out.status < 500 := by
  have same : reply m (.error (.app e)) = reply m (.ok e.intoResponse) := rfl
  exact reply_status client.status (same.symm.trans replied)

lemma perform_status {call : Call} {faults : List Bool} {response : Response}
    (ran : (call.perform c key token d ⟨db, faults⟩).1 = .ok response) :
    response.status < 500 := by
  rcases perform_ends key call token d ⟨db, faults⟩ with ⟨_, ok, outcome⟩ | ⟨_, error, _⟩
  · cases ok.symm.trans ran
    exact outcome.succeeded.2.trans (by decide)
  · exact nomatch error.symm.trans ran

/-- No answer leaves exactly where the days overflow. -/
lemma perform_panics (rfc : c.time.Rfc3339) {call : Call} {m : Method}
    (stops : Stops ⟨db, []⟩ (call.perform c key token d) (Blameless (Overflows c token call d))) :
    reply m (call.perform c key token d ⟨db, []⟩).1 = none ↔ Overflows c token call d := by
  constructor
  · intro silent
    rcases ran : (call.perform c key token d ⟨db, []⟩).1 with (e | _) | response
    · rw [ran] at silent
      cases silent
    · exact stops _ ran
    · rw [ran] at silent
      cases silent
  · rintro ⟨body, rfl, passes, unfit⟩
    rcases handler_expiry_cases rfc body d with ⟨_, _, _, fit⟩ | ⟨_, fit⟩ | ⟨panic, _⟩
    · exact absurd fit unfit
    · exact absurd fit unfit
    · have ran : Handlers.createToken c token (.ok body) d ⟨db, []⟩ = _ :=
        createToken_passes passes panic
      simp only [Call.perform, ran, reply]

/-- A request on a database that stands for a map. -/
lemma serve_blameless (ideal : IdealAead.Ideal c.aead) (total : IdealAead.Total c.aead)
    (rfc : c.time.Rfc3339) (h : Refines c key db ref) (r : Request) :
    (∀ response, (serve c key r d db).1 = some response → response.status < 500) ∧
    ((serve c key r d db).1 = none ↔ ∃ token call, r.routed c = .guarded (.ok call) ∧
      (extractToken c r.authorization d.authenticatedAt.instant ⟨db, []⟩).1 = .ok token ∧
      Overflows c token call d) := by
  unfold serve run handle
  cases routed : r.routed c with
  | answered response =>
    refine ⟨fun out => reply_status (routed_status routed), ?_⟩
    simp [reply, pure_apply]
  | guarded call =>
    rcases extractToken_ends c db r.authorization d.authenticatedAt.instant with
      ⟨token, extracted⟩ | extracted
    · simp only [bind_apply, extracted]
      cases call with
      | error _ =>
        refine ⟨fun out => reply_status (Nat.lt_of_sub_eq_succ rfl), ?_⟩
        simp [reply, pure_apply]
      | ok call =>
        have stops : Stops ⟨db, []⟩ (call.perform c key token d) _ :=
          perform_blameless ideal total rfc h (routed_decoded routed)
        constructor
        · intro out replied
          rcases ran : (call.perform c key token d ⟨db, []⟩).1 with (e | _) | response
          · rw [ran] at replied
            exact reply_client (stops _ ran) replied
          · rw [ran] at replied
            cases replied
          · rw [ran] at replied
            exact reply_status (perform_status ran) replied
        · rw [perform_panics rfc stops]
          simp
    · simp only [bind_apply, extracted]
      refine ⟨fun out => reply_client trivial, ?_⟩
      simp [reply]

/-- In every interleaving of servers, rekeys, commands and crashes: while its statements succeed
a server lays no request to itself, and leaves one without an answer only where an administrator
asks for a token whose last day is past the year 9999. -/
theorem healthy_server_answers (ideal : c.toCryptoCrates.Ideal) (total : IdealAead.Total c.aead)
    (rfc : c.time.Rfc3339) (run : ReflTransGen (WorldStep c) World.initial w) {pid : Nat}
    (serving : w.processes pid = .serving key) (r : Request) (d : Draws c.time) :
    (∀ response, (serve c key r d w.db).1 = some response → response.status < 500) ∧
    ((serve c key r d w.db).1 = none ↔ ∃ token call, r.routed c = .guarded (.ok call) ∧
      (extractToken c r.authorization d.authenticatedAt.instant ⟨w.db, []⟩).1 = .ok token ∧
      Overflows c token call d) := by
  obtain ⟨acts, shown⟩ := Shown.of_run (fun _ _ step => World.shows step) run
  obtain ⟨v, _, stands⟩ := stands_of_shown ideal total shown
  exact serve_blameless ideal.aead total rfc (stands.serving serving) r

/-! ## A token until the end of days -/

def endlessBody : String := "\x7b\"name\":\"fresh\",\"ttl_days\":4294967295\x7d"

/-- A server whose clients know this body. -/
def endlessServer : ServerCrates Bytes :=
  { utcServer with
    parseCreateToken b :=
      if b = utf8 endlessBody then some ⟨"fresh", none, some 4294967295, false⟩ else none }

def endlessDraws : Draws endlessServer.time := ⟨utcEpoch, utcEpoch, utcEpoch, .zero, "new"⟩

/-- The database of a server with an unscoped token. -/
def rootedDb : Db :=
  (Repo.insertToken "root" (hashToken framedCrypto "tok") none none utcEpoch.rfc3339
    ⟨openedDb, []⟩).2.store

lemma rooted_run : ReflTransGen (WorldStep endlessServer) World.initial
    (World.alone rootedDb (.serving keyUnderOld) (some "old")) := by
  have opened : ReflTransGen (WorldStep endlessServer) World.initial
      (World.alone openedDb (.serving keyUnderOld) (some "old")) :=
    (ReflTransGen.single (.acquireServe _ 0 "old" rfl rfl)).tail (alone_serves old_opens)
  have issued := WorldStep.tokenCreate (c := endlessServer)
    (World.alone openedDb (.serving keyUnderOld) (some "old")) "root" "tok" none none utcEpoch []
  exact opened.tail issued

def endlessRequest : Request := bearerRequest .post "/v1/tokens" "tok" endlessBody

def rootedListing : Request := bearerRequest .get "/v1/projects" "tok" ""

/-- A listing is answered, and a token until the end of days is not. -/
theorem healthy_server_answers_endlessToken : ∃ (w : World Bytes) (key : Bytes),
    ReflTransGen (WorldStep endlessServer) World.initial w ∧ w.processes 0 = .serving key ∧
    (∃ response, (serve endlessServer key rootedListing endlessDraws w.db).1 = some response ∧
      response.body = .projects [] ∧ response.status < 500) ∧
    (serve endlessServer key endlessRequest endlessDraws w.db).1 = none := by
  have serving : (World.alone rootedDb (.serving keyUnderOld) (some "old")).processes 0 =
      .serving keyUnderOld := rfl
  refine ⟨_, keyUnderOld, rooted_run, serving, ⟨⟨200, .projects []⟩, rfl, rfl, ?_⟩, ?_⟩
  · exact (healthy_server_answers framedCrypto_ideal Framing.framedAead_total utcTime_rfc3339
      rooted_run serving rootedListing endlessDraws).1 _ rfl
  · apply (healthy_server_answers framedCrypto_ideal Framing.framedAead_total utcTime_rfc3339
      rooted_run serving endlessRequest endlessDraws).2.mpr
    refine ⟨rootIdentity, .createToken (.ok ⟨"fresh", none, some 4294967295, false⟩), rfl, rfl, ?_⟩
    refine ⟨_, rfl, ⟨rfl, by decide, rfl, rfl⟩, ?_⟩
    intro fits
    exact absurd (fits 4294967295 rfl (by decide)) (by decide)

end SecretsManager
