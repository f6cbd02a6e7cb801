import SecretsManager.Server.Answers
import SecretsManager.Server.TokenLifecycle

/-!
# What a request may do under its token

Against the ledger of issues and revocations: a request is served for a token that stands
in it and covers what is asked, the ledger grows for unscoped tokens only, and nobody is
turned away as unauthorized or forbidden whose token stands or covers the call.
-/

namespace SecretsManager

open FaultySession KeyedTable

variable {Key : Type} {c : ServerCrates Key} {key : Key} {db : Db}

/-- What a token is good for. -/
def AuthedToken.Covers (t : AuthedToken) : Call → Prop
  | .store (.createProject body) => ∀ b, body = .ok b → ensureScope t b.name = .ok ()
  | .store .listProjects => True
  | .store (.getSecrets name) | .store (.putSecret name _ _) | .store (.deleteSecret name _) =>
    ensureScope t name = .ok ()
  | .createToken _ | .listTokens | .revokeToken _ => ensureAdmin t = .ok ()

/-- The header carries a bearer that stands in the ledger at this instant. -/
def Standing (history : List TokenEvent) (now : Int) (authorization : Option Bytes)
    (t : AuthedToken) : Prop :=
  ∃ bearer, extractBearer authorization = some bearer ∧ Valid history now bearer t

/-- An expiry as it is printed. -/
def Issue.Stated (time : TimeCrate) (i : Issue) (expiresAt : Option String) : Prop :=
  ∀ now, notExpired time now expiresAt = true ↔ i.unexpired now

/-- A line of a listing shows this entry of the ledger. -/
structure Lists (time : TimeCrate) (e : Issue × Bool) (info : TokenInfo) : Prop where
  name : info.name = e.1.name
  scope : info.scope = e.1.scope
  revoked : info.revoked = e.2
  stated : e.1.Stated time info.expiresAt

def CreateTokenBody.issue (body : CreateTokenBody) (token : String) (issuedAt : Int) : Issue where
  token := token
  name := body.name
  scope := body.project
  issuedAt := issuedAt
  ttlDays := if body.noExpiry then none else some (body.ttlDays.getD 90)

/-- An error that says nothing of the token. -/
def Failure.Neutral : Failure → Prop
  | .app .unauthorized | .app .forbidden => False
  | _ => True

section Desk

variable (time : TimeCrate) (history : List TokenEvent) (now : Int) (authorization : Option Bytes)

/-- How a routed request ends, and what it adds to the history. -/
inductive Handles : Routed → Except Failure Response → List TokenEvent → Prop where
  | answered (response : Response) : Handles (.answered response) (.ok response) []
  | invalidPath (t : AuthedToken) (standing : Standing history now authorization t) :
      Handles (.guarded (.error ())) (.ok ⟨400, .invalidPath⟩) []
  | served (t : AuthedToken) (standing : Standing history now authorization t) (call : StoreCall)
      (covers : t.Covers (.store call)) (response : Response) (succeeded : response.status < 400) :
      Handles (.guarded (.ok (.store call))) (.ok response) []
  | issued (t : AuthedToken) (standing : Standing history now authorization t)
      (admin : ensureAdmin t = .ok ()) (body : CreateTokenBody) (token : String) (issuedAt : Int)
      (expiresAt : Option String) (stated : (body.issue token issuedAt).Stated time expiresAt) :
      Handles (.guarded (.ok (.createToken (.ok body))))
        (.ok ⟨201, .token body.name body.project expiresAt token⟩)
        [.issued (body.issue token issuedAt)]
  | listed (t : AuthedToken) (standing : Standing history now authorization t)
      (admin : ensureAdmin t = .ok ()) (entries : List (Issue × Bool))
      (infos : List TokenInfo) (whole : entries.Perm (ledger history))
      (lists : List.Forall₂ (Lists time) entries infos) :
      Handles (.guarded (.ok .listTokens)) (.ok ⟨200, .tokens infos⟩) []
  | revoked (t : AuthedToken) (standing : Standing history now authorization t)
      (admin : ensureAdmin t = .ok ()) (name : String) :
      Handles (.guarded (.ok (.revokeToken name))) (.ok ⟨200, .revoked (unrevoked name history)⟩)
        [.revoked name (unrevoked name history)]
  | unauthorized (call : Except Unit Call) (nobody : ∀ t, ¬ Standing history now authorization t) :
      Handles (.guarded call) (.error (.app .unauthorized)) []
  | forbidden (t : AuthedToken) (standing : Standing history now authorization t) (call : Call)
      (beyond : ¬ t.Covers call) : Handles (.guarded (.ok call)) (.error (.app .forbidden)) []
  | failed (call : Except Unit Call) (e : Failure) (neutral : e.Neutral) :
      Handles (.guarded call) (.error e) []

end Desk

/-! ## How a call turns a token down -/

section TurnedDown

variable {token : AuthedToken} {d : Draws c.time} {s : Session Db} {call : Call}

/-- A call stops for want of a scope, or for a reason of its own. -/
def TurnsDown (token : AuthedToken) (call : Call) (e : Failure) : Prop :=
  e = .app .forbidden ∧ ¬ token.Covers call ∨ e.Neutral

lemma database_stops {m : Prog Db SqliteError α} {f : α → Handler β}
    (next : ∀ a s', Stops s' (f a) (TurnsDown token call)) :
    Stops s (database m >>= f) (TurnsDown token call) :=
  Stops.bind (Stops.mapError fun _ => .inr trivial) next

lemma project_stops {name : String} {f : Option Nat → Handler β}
    (absent : f none = reject .notFound)
    (next : ∀ pid s', Stops s' (f (some pid)) (TurnsDown token call)) :
    Stops s (database (Repo.projectId name) >>= f) (TurnsDown token call) := by
  refine database_stops fun found s' => ?_
  cases found with
  | none =>
    rw [absent]
    exact Stops.fail (.inr trivial)
  | some pid => exact next pid s'

lemma jsonBody_neutral {parse : Bytes → Option α} {p : Payload} {e : AppError}
    (stopped : jsonBody parse p = .error e) : Failure.Neutral (.app e) := by
  unfold jsonBody at stopped
  cases rejected : extractJson parse p with
  | ok body =>
    rw [rejected] at stopped
    cases stopped
  | error rejection =>
    rw [rejected] at stopped
    cases stopped
    cases rejection <;> trivial

lemma ensureScope_error {name : String} {e : AppError}
    (stopped : ensureScope token name = .error e) :
    e = .forbidden ∧ ensureScope token name ≠ .ok () := by
  refine ⟨?_, by simp [stopped]⟩
  unfold ensureScope at stopped
  repeat' split at stopped
  all_goals cases stopped
  rfl

lemma ensureAdmin_error {e : AppError} (stopped : ensureAdmin token = .error e) :
    e = .forbidden ∧ ensureAdmin token ≠ .ok () := by
  refine ⟨?_, by simp [stopped]⟩
  unfold ensureAdmin at stopped
  split at stopped <;> cases stopped
  rfl

/-- A scope that is refused is the one that the call needs. -/
lemma scope_stops {name : String} {f : Unit → Handler β}
    (needs : token.Covers call → ensureScope token name = .ok ())
    (next : Stops s (f ()) (TurnsDown token call)) :
    Stops s (orReject (ensureScope token name) >>= f) (TurnsDown token call) := by
  refine orReject_stops (fun e stopped => ?_) fun _ _ => next
  obtain ⟨rfl, refused⟩ := ensureScope_error stopped
  exact .inl ⟨rfl, fun covers => refused (needs covers)⟩

lemma admin_stops {f : Unit → Handler β} (needs : token.Covers call → ensureAdmin token = .ok ())
    (next : Stops s (f ()) (TurnsDown token call)) :
    Stops s (orReject (ensureAdmin token) >>= f) (TurnsDown token call) := by
  refine orReject_stops (fun e stopped => ?_) fun _ _ => next
  obtain ⟨rfl, refused⟩ := ensureAdmin_error stopped
  exact .inl ⟨rfl, fun covers => refused (needs covers)⟩

lemma openRows_error {name : String} {out : Std.ExtTreeMap String String}
    {rows : List StoredSecret} {e : AppError}
    (stopped : Handlers.openRows c key name out rows = .error e) : ∃ tag, e = .internal tag := by
  induction rows generalizing out with
  | nil => cases stopped
  | cons row rest ih =>
    unfold Handlers.openRows at stopped
    split at stopped
    · cases stopped
      exact ⟨_, rfl⟩
    · split at stopped
      · cases stopped
        exact ⟨_, rfl⟩
      · exact ih stopped

lemma tokenExpiry_neutral {body : CreateTokenBody} {e : Failure}
    (stopped : Handlers.tokenExpiry c body d = .error e) : e.Neutral := by
  unfold Handlers.tokenExpiry at stopped
  split at stopped
  · cases stopped
  · dsimp only at stopped
    split at stopped
    · cases stopped
      trivial
    · split at stopped
      · cases stopped
        trivial
      · split at stopped <;> cases stopped
        trivial

/-- Whatever statements fail, a call speaks of the token only when that does not cover it. -/
theorem perform_turnsDown {p : Payload} (read : call.ReadFrom c p) :
    Stops s (call.perform c key token d) (TurnsDown token call) := by
  have neutral : ∀ {e : AppError}, Failure.Neutral (.app e) → TurnsDown token call (.app e) :=
    fun h => .inr h
  cases call with
  | store call =>
    cases call with
    | createProject body =>
      obtain rfl : body = _ := read
      refine orReject_stops (fun e stopped => neutral (jsonBody_neutral stopped)) fun b found => ?_
      refine ensure_stops (neutral trivial) fun _ => ?_
      refine scope_stops (fun covers => covers b found) (database_stops fun _ s' => ?_)
      refine ensure_stops (neutral trivial) fun _ => database_stops fun _ _ => Stops.pure
    | listProjects => exact database_stops fun _ _ => Stops.pure
    | getSecrets name =>
      refine ensure_stops (neutral trivial) fun _ => scope_stops (fun covers => covers) ?_
      refine project_stops rfl fun pid s' => database_stops fun rows s'' => ?_
      refine orReject_stops (fun e stopped => ?_) fun _ _ => Stops.pure
      obtain ⟨tag, rfl⟩ := openRows_error stopped
      exact neutral trivial
    | putSecret name secretKey body =>
      obtain rfl : body = _ := read
      refine orReject_stops (fun e stopped => neutral (jsonBody_neutral stopped)) fun b found => ?_
      refine ensure_stops (neutral trivial) fun _ => scope_stops (fun covers => covers) ?_
      refine ensure_stops (neutral trivial) fun _ => project_stops rfl fun pid s' => ?_
      refine orReject_stops (fun e stopped => ?_) fun _ _ => database_stops fun _ _ => Stops.pure
      cases sealed : encrypt c.toCryptoCrates key d.nonce (utf8 b.value) (aadBytes name secretKey)
      all_goals
        rw [sealed] at stopped
        cases stopped
      exact neutral trivial
    | deleteSecret name secretKey =>
      refine ensure_stops (neutral trivial) fun _ => ensure_stops (neutral trivial) fun _ => ?_
      refine scope_stops (fun covers => covers) (project_stops rfl fun pid s' => ?_)
      refine database_stops fun removed s'' => ?_
      cases removed with
      | true => exact Stops.pure
      | false => exact Stops.fail (neutral trivial)
  | createToken body =>
    obtain rfl : body = _ := read
    refine admin_stops (fun covers => covers) ?_
    refine orReject_stops (fun e stopped => neutral (jsonBody_neutral stopped)) fun b found => ?_
    refine ensure_stops (neutral trivial) fun _ => ensure_stops (neutral trivial) fun _ => ?_
    refine ensure_stops (neutral trivial) fun _ => ?_
    refine Stops.lift_bind (fun e stopped => ?_) fun _ _ => ?_
    · exact .inr (tokenExpiry_neutral stopped)
    · exact database_stops fun _ _ => Stops.pure
  | listTokens =>
    exact admin_stops (fun covers => covers) (database_stops fun _ _ => Stops.pure)
  | revokeToken name =>
    refine admin_stops (fun covers => covers) (ensure_stops (neutral trivial) fun _ => ?_)
    exact database_stops fun _ _ => Stops.pure

end TurnedDown

/-! ## A request at the desk -/

section Request

variable {history : List TokenEvent} {authorization : Option Bytes} {now : Int} {t : AuthedToken}
  {d : Draws c.time}

/-- What is known of the tokens: the table is the ledger, and no bearer is hashed like another. -/
structure AtDesk (c : ServerCrates Key) (history : List TokenEvent) (db : Db)
    (authorization : Option Bytes) : Prop where
  recorded : List.Forall₂ (Recorded c) (ledger history) db.tokens
  free : ∀ bearer, extractBearer authorization = some bearer → CollisionFree c history bearer

lemma AtDesk.standing (h : AtDesk c history db authorization)
    (authenticates : Authenticates c db authorization now t) :
    Standing history now authorization t := by
  obtain ⟨bearer, carried, row, hrow, accepted, rfl⟩ := authenticates
  obtain ⟨⟨i, revoked⟩, listed, entry⟩ := forall₂_mem_left h.recorded.flip hrow
  obtain ⟨rfl, unexpired, hash⟩ := entry.accepts_iff.mp accepted
  have token := h.free bearer carried i.token (List.mem_map.mpr ⟨_, listed, rfl⟩) hash
  refine ⟨bearer, carried, valid_iff.mpr ⟨i, listed, token, ?_, unexpired⟩⟩
  rw [entry.name, entry.scope]

/-- Whose bearer is accepted for nobody stands for nobody. -/
lemma AtDesk.nobody (h : AtDesk c history db authorization)
    (none : ∀ bearer, extractBearer authorization = some bearer → ∀ row ∈ db.tokens,
      ¬ row.accepts c.time now (hashToken c.toCryptoCrates bearer)) :
    ∀ t, ¬ Standing history now authorization t := by
  rintro t ⟨bearer, carried, valid⟩
  obtain ⟨i, listed, rfl, _, unexpired⟩ := valid_iff.mp valid
  obtain ⟨row, hrow, entry⟩ := forall₂_mem_left h.recorded listed
  exact none i.token carried row hrow (entry.accepts_iff.mpr ⟨rfl, unexpired, rfl⟩)

/-- The extractor lets in whose token stands, and nobody stands whom it finds unauthorized. -/
lemma AtDesk.extracts (h : AtDesk c history db authorization) (now : Int) (faults : List Bool) :
    (∃ t, Standing history now authorization t ∧
      extractToken c authorization now ⟨db, faults⟩ = (.ok t, ⟨db, faults.tail⟩)) ∨
    ∃ e, (extractToken c authorization now ⟨db, faults⟩).1 = .error e ∧
      (extractToken c authorization now ⟨db, faults⟩).2.store = db ∧
      (e = .app .unauthorized ∧ (∀ t, ¬ Standing history now authorization t) ∨ e.Neutral) := by
  unfold extractToken
  cases carried : extractBearer authorization with
  | none =>
    refine .inr ⟨_, rfl, rfl, .inl ⟨rfl, ?_⟩⟩
    rintro t ⟨bearer, found, _⟩
    cases carried.symm.trans found
  | some bearer =>
    simp only [Repo.authenticate, bind_apply, database_query_faults]
    by_cases fails : faults.head? = some true
    · simp only [fails, if_true]
      exact .inr ⟨_, rfl, trivial, .inr trivial⟩
    · simp only [fails, if_false]
      cases found : authenticateRows c.time now (hashToken c.toCryptoCrates bearer)
          (db.tokens.filter fun r => r.revoked = false) with
      | none =>
        refine .inr ⟨_, rfl, rfl, .inl ⟨rfl, h.nobody fun bearer' carried' => ?_⟩⟩
        cases carried.symm.trans carried'
        exact authenticateRows_none.mp found
      | some t => exact .inl ⟨t, h.standing ⟨bearer, carried, authenticateRows_some found⟩, rfl⟩

/-- A listing of the table is one of the ledger. -/
lemma lists_ledger (recorded : List.Forall₂ (Recorded c) (ledger history) db.tokens) :
    ∃ entries, entries.Perm (ledger history) ∧ List.Forall₂ (Lists c.time) entries
      ((orderBy TokenRow.createdAt db.tokens).map TokenRow.info) := by
  obtain ⟨entries, related, whole⟩ :=
    List.perm_comp_forall₂ (orderBy_perm TokenRow.createdAt db.tokens) recorded.flip
  refine ⟨entries, whole, ?_⟩
  rw [List.forall₂_map_right_iff]
  exact related.flip.imp fun e row entry =>
    ⟨entry.name, entry.scope, entry.revoked, entry.expiry⟩

/-- Whatever statements fail, a call of a token that stands ends as the desk has it. -/
lemma perform_handles (roundTrip : c.time.RoundTrips) {call : Call} {p : Payload}
    (read : call.ReadFrom c p) (standing : Standing history now authorization t)
    (recorded : List.Forall₂ (Recorded c) (ledger history) db.tokens) (faults : List Bool) :
    ∃ more, Handles c.time history now authorization (.guarded (.ok call))
        (call.perform c key t d ⟨db, faults⟩).1 more ∧
      List.Forall₂ (Recorded c) (ledger (history ++ more))
        (call.perform c key t d ⟨db, faults⟩).2.store.tokens ∧
      ∀ i, .issued i ∈ more → i.token = d.token := by
  have same : List.Forall₂ (Recorded c) (ledger (history ++ [])) db.tokens := by
    rwa [List.append_nil]
  have turned : Stops ⟨db, faults⟩ (call.perform c key t d) (TurnsDown t call) :=
    perform_turnsDown read
  rcases perform_ends key call t d ⟨db, faults⟩ with ⟨response, ok, outcome⟩ | ⟨e, error, left⟩
  · rw [ok]
    generalize (call.perform c key t d ⟨db, faults⟩).2.store = db' at outcome ⊢
    have succeeded : response.status < 400 := outcome.succeeded.2.trans (by decide)
    cases outcome with
    | createProject body valid inScope =>
      refine ⟨[], .served t standing _ ?_ _ succeeded, same, by simp⟩
      rintro b ⟨⟩
      exact inScope
    | listProjects =>
      exact ⟨[], .served t standing .listProjects trivial _ succeeded, same, by simp⟩
    | getSecrets name p out valid inScope =>
      exact ⟨[], .served t standing (.getSecrets name) inScope _ succeeded, same, by simp⟩
    | putSecret name secretKey body p n ct row checked =>
      exact ⟨[], .served t standing (.putSecret name secretKey (.ok body)) checked.inScope _
        succeeded, same, by simp⟩
    | deleteSecret name secretKey p valid validKey inScope =>
      exact ⟨[], .served t standing (.deleteSecret name secretKey) inScope _ succeeded, same,
        by simp⟩
    | createToken body expiresAt admin valid validScope expiry =>
      have stated : (body.issue d.token d.expiresFrom.instant).Stated c.time expiresAt :=
        handler_expiry roundTrip rfl rfl expiry
      refine ⟨_, .issued t standing admin body d.token d.expiresFrom.instant expiresAt stated,
        recorded_issued recorded ⟨rfl, rfl, rfl, rfl, stated⟩, ?_⟩
      intro i issued
      cases List.mem_singleton.mp issued
      rfl
    | listTokens admin =>
      obtain ⟨entries, whole, lists⟩ := lists_ledger recorded
      exact ⟨[], .listed t standing admin entries _ whole lists, same, by simp⟩
    | revokeToken name admin =>
      have count : db.tokens.countP (TokenRow.activeAs name) = unrevoked name history :=
        recorded_count name recorded
      rw [count]
      exact ⟨_, .revoked t standing admin name, recorded_revoked recorded, by simp⟩
  · have kept : (call.perform c key t d ⟨db, faults⟩).2.store.tokens = db.tokens := by
      rcases left with same | ⟨_, _, _, _, _, _, _, _, same⟩
      · rw [same]
      · rw [same]
        rfl
    rw [error, kept]
    rcases turned e error with ⟨rfl, beyond⟩ | neutral
    · exact ⟨[], .forbidden t standing call beyond, same, by simp⟩
    · exact ⟨[], .failed _ e neutral, same, by simp⟩

/-- Whatever statements fail, a request ends as the desk has it, and the table stays the ledger. -/
theorem handle_handles (roundTrip : c.time.RoundTrips) {r : Request}
    (h : AtDesk c history db r.authorization) (faults : List Bool) :
    ∃ more, Handles c.time history d.authenticatedAt.instant r.authorization (r.routed c)
        (handle c key r d ⟨db, faults⟩).1 more ∧
      List.Forall₂ (Recorded c) (ledger (history ++ more))
        (handle c key r d ⟨db, faults⟩).2.store.tokens ∧
      ∀ i, .issued i ∈ more → i.token = d.token := by
  have same : List.Forall₂ (Recorded c) (ledger (history ++ [])) db.tokens := by
    rw [List.append_nil]
    exact h.recorded
  unfold handle
  cases routed : r.routed c with
  | answered response => exact ⟨[], .answered response, same, by simp⟩
  | guarded call =>
    simp only [bind_apply]
    rcases h.extracts d.authenticatedAt.instant faults with
      ⟨t, standing, extracted⟩ | ⟨e, error, stays, why⟩
    · rw [extracted]
      cases call with
      | error _ => exact ⟨[], .invalidPath t standing, same, by simp⟩
      | ok call =>
        exact perform_handles roundTrip (routed_readFrom routed) standing h.recorded faults.tail
    · rcases ran : extractToken c r.authorization d.authenticatedAt.instant ⟨db, faults⟩ with
        ⟨e' | t, s⟩
      · rw [ran] at error stays
        obtain rfl : e' = e := Except.error.inj error
        obtain rfl : s.store = db := stays
        rcases why with ⟨rfl, nobody⟩ | neutral
        · exact ⟨[], .unauthorized call nobody, same, by simp⟩
        · exact ⟨[], .failed call e' neutral, same, by simp⟩
      · rw [ran] at error
        cases error

end Request

/-! ## Runs -/

namespace TokenDesk

inductive Act where
  | asked (r : Request) (now : Int) (answer : Option Response)
  | created (name : String) (project : Option String) (ttlDays : Option UInt32)
    (r : Except CommandError Unit)
  | revoked (name : String) (r : Except CommandError Nat)

/-- The ledger moves as the answers and the host's commands have it. -/
inductive Does (c : ServerCrates Key) : List TokenEvent → Act → List TokenEvent → Prop where
  | asked (h : List TokenEvent) (r : Request) (now : Int) (result : Except Failure Response)
      (more : List TokenEvent)
      (handles : Handles c.time h now r.authorization (r.routed c) result more) :
      Does c h (.asked r now (reply r.method result)) (h ++ more)
  | created (h : List TokenEvent) (name : String) (project : Option String)
      (ttlDays : Option UInt32) (token : String) (issuedAt : Int) :
      Does c h (.created name project ttlDays (.ok ()))
        (h ++ [.issued ⟨token, name, project, issuedAt, ttlDays⟩])
  | notCreated (h : List TokenEvent) (name : String) (project : Option String)
      (ttlDays : Option UInt32) (e : CommandError) :
      Does c h (.created name project ttlDays (.error e)) h
  | revoked (h : List TokenEvent) (name : String) :
      Does c h (.revoked name (.ok (unrevoked name h))) (h ++ [.revoked name (unrevoked name h)])
  | notRevoked (h : List TokenEvent) (name : String) (e : CommandError) :
      Does c h (.revoked name (.error e)) h

end TokenDesk

open Simulation TokenDesk

section Run

variable (c) (key) (known : Set String)

/-- Any request and any token command, with bearers and new tokens from a known set. -/
inductive DeskStep (db : Db) : List Act → Db → Prop where
  | request (r : Request) (d : Draws c.time) (faults : List Bool)
      (carried : ∀ bearer, extractBearer r.authorization = some bearer → bearer ∈ known)
      (drawn : d.token ∈ known) :
      DeskStep db [.asked r d.authenticatedAt.instant (answer c key r d ⟨db, faults⟩).1]
        (answer c key r d ⟨db, faults⟩).2.store
  | tokenCreate (name : String) (project : Option String) (ttlDays : Option UInt32)
      (d : CommandDraws c.time) (faults : List Bool) (drawn : d.token ∈ known) :
      DeskStep db
        [.created name project ttlDays
          (Commands.tokenCreate c name project ttlDays d ⟨db, faults⟩).1]
        (Commands.tokenCreate c name project ttlDays d ⟨db, faults⟩).2.store
  | tokenRevoke (name : String) (faults : List Bool) :
      DeskStep db [.revoked name (Commands.tokenRevoke name ⟨db, faults⟩).1]
        (Commands.tokenRevoke name ⟨db, faults⟩).2.store

abbrev DeskRun (start : Db) : List Act → Db → Prop :=
  Shown (fun s t => ∃ acts, DeskStep c key known s acts t)
    (fun s t acts => DeskStep c key known s acts t) start

/-- The table is the ledger, and every token of it is known. -/
structure OnLedger (db : Db) (history : List TokenEvent) : Prop where
  recorded : List.Forall₂ (Recorded c) (ledger history) db.tokens
  known : ∀ token ∈ ledgerTokens history, token ∈ known

end Run

section Runs

variable {known : Set String} {start db' : Db} {acts : List Act} {history : List TokenEvent}

/-- Each entry of the ledger was issued. -/
lemma issued_of_entry {e : Issue × Bool} (listed : e ∈ ledger history) :
    .issued e.1 ∈ history := by
  induction history with
  | nil => cases listed
  | cons event rest ih =>
    cases event with
    | issued i =>
      rcases List.mem_cons.mp listed with rfl | listed
      · exact List.mem_cons_self
      · exact List.mem_cons_of_mem _ (ih listed)
    | revoked name count => exact List.mem_cons_of_mem _ (ih listed)

lemma DeskRun.next {more : List Act} (run : DeskRun c key known start acts db)
    (step : DeskStep c key known db more db') : DeskRun c key known start (acts ++ more) db' :=
  .tail run ⟨more, step⟩ step

lemma OnLedger.grown (h : OnLedger c known db history) {more : List TokenEvent}
    (recorded : List.Forall₂ (Recorded c) (ledger (history ++ more)) db'.tokens)
    (drawn : ∀ i, .issued i ∈ more → i.token ∈ known) :
    OnLedger c known db' (history ++ more) := by
  refine ⟨recorded, fun token listed => ?_⟩
  rw [ledgerTokens_append] at listed
  rcases List.mem_append.mp listed with before | new
  · exact h.known token before
  · obtain ⟨⟨i, revoked⟩, entry, rfl⟩ := List.mem_map.mp new
    exact drawn i (issued_of_entry entry)

/-- One step is one act of the ledger. -/
theorem OnLedger.step (roundTrip : c.time.RoundTrips)
    (apart : Set.InjOn (hashToken c.toCryptoCrates) known) (h : OnLedger c known db history)
    (step : DeskStep c key known db acts db') :
    ∃ a history', acts = [a] ∧ Does c history a history' ∧ OnLedger c known db' history' := by
  cases step with
  | request r d faults carried drawn =>
    have desk : AtDesk c history db r.authorization := by
      refine ⟨h.recorded, fun bearer found token listed same => ?_⟩
      exact apart (h.known token listed) (carried bearer found) same
    obtain ⟨more, handles, recorded, issued⟩ :
        ∃ more, Handles c.time history d.authenticatedAt.instant r.authorization (r.routed c)
          (handle c key r d ⟨db, faults⟩).1 more ∧ _ ∧ _ := handle_handles roundTrip desk faults
    refine ⟨_, _, rfl, .asked history r _ _ more handles, h.grown recorded ?_⟩
    intro i new
    rw [issued i new]
    exact drawn
  | tokenCreate name project ttlDays d faults drawn =>
    have whole : Triple (fun s => s = db) (Commands.tokenCreate c name project ttlDays d) _ _ :=
      tokenCreate_triple
    rcases whole.elim (s := ⟨db, faults⟩) rfl with
      ⟨_, ok, expiresAt, expiry, same⟩ | ⟨e, error, same⟩
    · rw [ok, same]
      refine ⟨_, _, rfl, .created history name project ttlDays d.token d.expiresFrom.instant,
        h.grown (recorded_issued h.recorded ⟨rfl, rfl, rfl, rfl, ?_⟩) ?_⟩
      · exact command_expiry roundTrip rfl expiry
      · intro i new
        cases List.mem_singleton.mp new
        exact drawn
    · rw [error, same]
      exact ⟨_, _, rfl, .notCreated history name project ttlDays e, h⟩
  | tokenRevoke name faults =>
    have whole : Triple (fun s => s = db) (Commands.tokenRevoke name) _ _ := tokenRevoke_triple
    rcases whole.elim (s := ⟨db, faults⟩) rfl with ⟨_, ok, rfl, same⟩ | ⟨e, error, same⟩
    · have count : db.tokens.countP (TokenRow.activeAs name) = unrevoked name history :=
        recorded_count name h.recorded
      rw [ok, same, count]
      exact ⟨_, _, rfl, .revoked history name, h.grown (recorded_revoked h.recorded) (by simp)⟩
    · rw [error, same]
      exact ⟨_, _, rfl, .notRevoked history name e, h⟩

end Runs

/-! ## A token that issues another and is revoked -/

end SecretsManager
