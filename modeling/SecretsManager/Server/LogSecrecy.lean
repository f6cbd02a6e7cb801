import SecretsManager.Server.RenamedKeys

/-!
# What the log does not tell

Two runs of the same requests, one with other values in its puts and with its keys
renamed. The tables stay alike, so every request ends in both with the same status and
every line of the log is the same.
-/

namespace SecretsManager

open FaultySession KeyedTable

variable {Key : Type} (c : ServerCrates Key)

/-- A request with what it draws and what fails of it, or a token command. -/
inductive AuditedOp where
  | request (r : Arrival) (d : AuditDraws c.time) (written : Bool) (faults : List Bool)
  | tokenCreate (name : String) (project : Option String) (ttlDays : Option UInt32)
      (d : CommandDraws c.time) (faults : List Bool)
  | tokenRevoke (name : String) (faults : List Bool)

/-- The requests of a run with their answers, and the log at its end. -/
def auditedRun (key : Key) : Db → List Entry → List (AuditedOp c) →
    List (Arrival × Option Response) × List Entry
  | _, log, [] => ([], log)
  | db, log, .request r d written faults :: ops =>
    let (response, s, log) := auditMiddleware c key r d written ⟨db, faults⟩ log
    let (answers, log) := auditedRun key s.store log ops
    ((r, response) :: answers, log)
  | db, log, .tokenCreate name project ttlDays d faults :: ops =>
    auditedRun key (Commands.tokenCreate c name project ttlDays d ⟨db, faults⟩).2.store log ops
  | db, log, .tokenRevoke name faults :: ops =>
    auditedRun key (Commands.tokenRevoke name ⟨db, faults⟩).2.store log ops

inductive OpAlike (ρ : String → String) : AuditedOp c → AuditedOp c → Prop where
  | request (r r' : Arrival) (d d' : AuditDraws c.time) (written : Bool) (faults : List Bool)
      (arrivals : ArrivalAlike c ρ r r') (draws : DrawsAlike c d d') :
      OpAlike ρ (.request r d written faults) (.request r' d' written faults)
  | tokenCreate (name : String) (project : Option String) (ttlDays : Option UInt32)
      (d : CommandDraws c.time) (faults : List Bool) :
      OpAlike ρ (.tokenCreate name project ttlDays d faults)
        (.tokenCreate name project ttlDays d faults)
  | tokenRevoke (name : String) (faults : List Bool) :
      OpAlike ρ (.tokenRevoke name faults) (.tokenRevoke name faults)

variable {c} {key : Key} {ρ : String → String} {db db' : Db}

/-! ## Whole requests -/

lemma authenticate_lockstep (alike : DbAlike c key ρ db db') (authorization : Option Bytes)
    (now : Int) : Lockstep db db' (extractToken c authorization now)
      (extractToken c authorization now)
      (fun token token' s s' => token' = token ∧ DbAlike c key ρ s s') (DbAlike c key ρ) := by
  unfold extractToken
  cases extractBearer authorization with
  | none => exact Lockstep.fail alike
  | some bearer =>
    refine Lockstep.bind (R := fun found found' s s' => found' = found ∧ DbAlike c key ρ s s')
      (Lockstep.mapError (Lockstep.query alike ⟨by rw [alike.tokens], alike⟩)) ?_
    rintro _ found s s' ⟨rfl, alike⟩
    cases found with
    | none => exact Lockstep.fail alike
    | some token => exact Lockstep.pure ⟨rfl, alike⟩

/-- The name for the log is the same. -/
lemma resolve_lockstep (alike : DbAlike c key ρ db db') (authorization : Option Bytes) (now : Int)
    (faults : List Bool) : ∃ name rest,
      resolveTokenName c authorization now ⟨db, faults⟩ = (name, ⟨db, rest⟩) ∧
        resolveTokenName c authorization now ⟨db', faults⟩ = (name, ⟨db', rest⟩) := by
  unfold resolveTokenName
  cases extractBearer authorization with
  | none => exact ⟨none, faults, rfl, rfl⟩
  | some bearer =>
    have both : Lockstep db db' (Repo.authenticate c.time (hashToken c.toCryptoCrates bearer) now)
        (Repo.authenticate c.time (hashToken c.toCryptoCrates bearer) now)
        (fun found found' s s' => found' = found ∧ s = db ∧ s' = db')
        (fun s s' => s = db ∧ s' = db') :=
      Lockstep.query ⟨rfl, rfl⟩ ⟨by rw [alike.tokens], rfl, rfl⟩
    rcases both.cases faults with
      ⟨_, found, _, _, rest, ran, ran', rfl, rfl, rfl⟩ | ⟨_, _, _, rest, ran, ran', rfl, rfl⟩
    · exact ⟨found.map AuthedToken.name, rest, by simp only [ran], by simp only [ran']⟩
    · exact ⟨none, rest, by simp only [ran], by simp only [ran']⟩

/-- Two answers of handlers are two answers to the request that called them. -/
lemma CallAnswers.alike {r : Request} {call : Call} {out out' : Response}
    (answers : CallAnswers ρ call out out') (routed : r.routed c = .guarded (.ok call)) :
    out'.status = out.status ∧ BodyAlike c ρ r out out' := by
  unfold BodyAlike
  rw [routed]
  cases call with
  | store call =>
    cases call with
    | getSecrets name => exact ⟨answers, trivial⟩
    | putSecret name k body =>
      obtain ⟨version, rfl, rfl⟩ := answers
      exact ⟨rfl, (if_pos rfl).mpr ⟨version, rfl, rfl⟩⟩
    | createProject | listProjects | deleteSecret =>
      obtain rfl : out' = out := answers
      exact ⟨rfl, rfl⟩
  | createToken | listTokens | revokeToken =>
    obtain rfl : out' = out := answers
    exact ⟨rfl, rfl⟩

/-- A request and its pair, from the router on. -/
lemma handle_blind (ideal : IdealAead.Ideal c.aead) (total : IdealAead.Total c.aead)
    (renames : Renaming ρ) (alike : DbAlike c key ρ db db') {r r' : Arrival}
    {d d' : AuditDraws c.time} (arrivals : ArrivalAlike c ρ r r') (draws : DrawsAlike c d d') :
    Blind c key ρ (fun out out' => out'.status = out.status ∧
        BodyAlike c ρ r.toRequest out out') db db'
      (handle c key r.toRequest d.toDraws) (handle c key r'.toRequest d'.toDraws) := by
  have routes := arrivals.routed
  unfold handle
  rw [arrivals.authorization, draws.authenticatedAt]
  generalize routed : r.routed c = here at routes
  generalize r'.routed c = there at routes
  cases routes with
  | answered response =>
    refine Lockstep.pure ⟨⟨rfl, ?_⟩, alike⟩
    rw [BodyAlike, routed]
  | invalidPath =>
    refine Lockstep.bind (authenticate_lockstep alike _ _) ?_
    rintro _ token s s' ⟨rfl, alike⟩
    refine Lockstep.pure ⟨⟨rfl, ?_⟩, alike⟩
    rw [BodyAlike, routed]
  | called call call' calls =>
    refine Lockstep.bind (authenticate_lockstep alike _ _) ?_
    rintro _ token s s' ⟨rfl, alike⟩
    have both : Blind c key ρ (CallAnswers ρ call) s s' (call.perform c key token d.toDraws)
      (call'.perform c key token d'.toDraws) := perform_blind ideal total renames alike draws calls
    apply Lockstep.conseq both
    rintro out out' t t' ⟨answers, alike⟩
    exact ⟨answers.alike routed, alike⟩

lemma routed_put {r : Request} {name k : String} {body : Except AppError SetSecretBody}
    (routed : r.routed c = .guarded (.ok (.store (.putSecret name k body)))) : r.method = .put := by
  obtain ⟨route, _, called⟩ := routed_guarded routed
  obtain ⟨_, _, rfl | ⟨raw, rfl⟩⟩ := Route.call_works called rfl
  · cases method : r.method <;> simp only [Route.call, method, reduceCtorEq] at called
    all_goals split at called <;> cases called
  · cases method : r.method with
    | put => rfl
    | delete =>
      simp only [Route.call, method, Option.some.injEq] at called
      split at called <;> cases called
    | _ => simp only [Route.call, method, reduceCtorEq] at called

/-- What leaves the two servers, with an empty body for a `HEAD`, which no put has. -/
lemma reply_alike {r : Request} {out out' : Response} (status : out'.status = out.status)
    (body : BodyAlike c ρ r out out') :
    AnswerAlike c ρ r (reply r.method (.ok out)) (reply r.method (.ok out')) := by
  by_cases head : r.method = .head
  · simp only [reply, head, if_true]
    refine ⟨status, ?_⟩
    unfold BodyAlike
    split
    · trivial
    · rename_i routed
      cases head.symm.trans (routed_put routed)
    · rfl
  · simp only [reply, head, if_false]
    exact ⟨status, body⟩

lemma reply_refl {r : Request} (m : Method) (e : Failure) :
    AnswerAlike c ρ r (reply m (.error e)) (reply m (.error e)) := by
  have same : ∀ out : Response, out.status ≠ 200 → AnswerAlike c ρ r (some out) (some out) := by
    intro out failed
    refine ⟨rfl, ?_⟩
    unfold BodyAlike
    split
    · trivial
    · rw [if_neg failed]
    · rfl
  cases e with
  | app e =>
    have failed : e.intoResponse.status ≠ 200 := by
      have := (intoResponse_failed e).1
      omega
    by_cases head : m = .head
    · simp only [reply, head, if_true]
      exact same _ failed
    · simp only [reply, head, if_false]
      exact same _ failed
  | panic => trivial

/-- One request: alike answers, alike tables and the same line in the log. -/
theorem middleware_blind (ideal : IdealAead.Ideal c.aead) (total : IdealAead.Total c.aead)
    (renames : Renaming ρ) (alike : DbAlike c key ρ db db') {r r' : Arrival}
    {d d' : AuditDraws c.time} (arrivals : ArrivalAlike c ρ r r') (draws : DrawsAlike c d d')
    (written : Bool) (faults : List Bool) (log : List Entry) :
    AnswerAlike c ρ r.toRequest (auditMiddleware c key r d written ⟨db, faults⟩ log).1
        (auditMiddleware c key r' d' written ⟨db', faults⟩ log).1 ∧
      DbAlike c key ρ (auditMiddleware c key r d written ⟨db, faults⟩ log).2.1.store
        (auditMiddleware c key r' d' written ⟨db', faults⟩ log).2.1.store ∧
      (auditMiddleware c key r' d' written ⟨db', faults⟩ log).2.2 =
        (auditMiddleware c key r d written ⟨db, faults⟩ log).2.2 := by
  obtain ⟨name, rest, resolved, resolved'⟩ :=
    resolve_lockstep alike r.authorization d.resolvedAt.instant faults
  obtain ⟨matched, project⟩ := arrivals.path.logged
  have entries : ∀ status, auditEntry c r' name d'.recordedAt status =
      auditEntry c r name d.recordedAt status := by
    intro status
    unfold auditEntry
    rw [arrivals.method, arrivals.extension, matched, project, draws.recordedAt]
  unfold auditMiddleware
  rw [arrivals.authorization, draws.resolvedAt, resolved, resolved']
  simp only [answer, arrivals.method]
  rcases (handle_blind ideal total renames alike arrivals draws).cases rest with
    ⟨out, out', s, s', _, ran, ran', ⟨status, body⟩, after⟩ | ⟨e, s, s', _, ran, ran', after⟩
  · rw [ran, ran']
    have answers : AnswerAlike c ρ r.toRequest (reply r.method (.ok out))
      (reply r.method (.ok out')) := reply_alike status body
    generalize reply r.method (.ok out) = here at answers ⊢
    generalize reply r.method (.ok out') = there at answers ⊢
    rcases here with _ | here <;> rcases there with _ | there
    · exact ⟨trivial, after, rfl⟩
    · exact answers.elim
    · exact answers.elim
    · have line : auditEntry c r' name d'.recordedAt there.status =
          auditEntry c r name d.recordedAt here.status :=
        (entries there.status).trans (congrArg (auditEntry c r name d.recordedAt) answers.1)
      exact ⟨answers, after, congrArg (recordEntry written · log) line⟩
  · rw [ran, ran']
    have answers : AnswerAlike c ρ r.toRequest (reply r.method (.error e))
      (reply r.method (.error e)) := reply_refl r.method e
    generalize reply r.method (.error e) = here at answers ⊢
    cases here with
    | none => exact ⟨trivial, after, rfl⟩
    | some here => exact ⟨answers, after, congrArg (recordEntry written · log) (entries here.status)⟩

/-! ## Whole runs -/

lemma tokenCreate_lockstep (alike : DbAlike c key ρ db db') (name : String)
    (project : Option String) (ttlDays : Option UInt32) (d : CommandDraws c.time) :
    Lockstep db db' (Commands.tokenCreate c name project ttlDays d)
      (Commands.tokenCreate c name project ttlDays d) (fun _ _ => DbAlike c key ρ)
      (DbAlike c key ρ) := by
  have checked : ∀ ok msg (f : Unit → Prog Db CommandError Unit),
      Lockstep db db' (f ()) (f ()) (fun _ _ => DbAlike c key ρ) (DbAlike c key ρ) →
      Lockstep db db' (Commands.bailUnless ok msg >>= f) (Commands.bailUnless ok msg >>= f)
        (fun _ _ => DbAlike c key ρ) (DbAlike c key ρ) := by
    intro ok msg f next
    cases ok with
    | true => exact next
    | false => exact Lockstep.fail alike
  refine checked _ _ _ (checked _ _ _ (checked _ _ _ ?_))
  refine Lockstep.lift_then alike fun expiresAt _ => ?_
  exact Lockstep.mapError (Lockstep.update alike (dbAlike_addToken alike))

lemma tokenRevoke_lockstep (alike : DbAlike c key ρ db db') (name : String) :
    Lockstep db db' (Commands.tokenRevoke name) (Commands.tokenRevoke name)
      (fun _ _ => DbAlike c key ρ) (DbAlike c key ρ) :=
  Lockstep.mapError (Lockstep.statement alike rfl rfl (dbAlike_revokeTokens alike name))

lemma lockstep_store {α ε : Type} {m m' : Prog Db ε α}
    (h : Lockstep db db' m m' (fun _ _ => DbAlike c key ρ) (DbAlike c key ρ)) (faults : List Bool) :
    DbAlike c key ρ (m ⟨db, faults⟩).2.store (m' ⟨db', faults⟩).2.store := by
  rcases h.cases faults with ⟨_, _, _, _, _, ran, ran', after⟩ | ⟨_, _, _, _, ran, ran', after⟩
  · rw [ran, ran']
    exact after
  · rw [ran, ran']
    exact after

lemma run_blind (ideal : IdealAead.Ideal c.aead) (total : IdealAead.Total c.aead)
    (renames : Renaming ρ) {ops ops' : List (AuditedOp c)}
    (pairs : List.Forall₂ (OpAlike c ρ) ops ops') {db db' : Db} (alike : DbAlike c key ρ db db')
    (log : List Entry) :
    List.Forall₂ (fun x x' => AnswerAlike c ρ x.1.toRequest x.2 x'.2)
        (auditedRun c key db log ops).1 (auditedRun c key db' log ops').1 ∧
      (auditedRun c key db' log ops').2 = (auditedRun c key db log ops).2 := by
  induction pairs generalizing db db' log with
  | nil => exact ⟨.nil, rfl⟩
  | cons pair _ ih =>
    cases pair with
    | request r r' d d' written faults arrivals draws =>
      have both := middleware_blind ideal total renames alike arrivals draws written faults log
      unfold auditedRun
      generalize auditMiddleware c key r d written ⟨db, faults⟩ log = here at both ⊢
      generalize auditMiddleware c key r' d' written ⟨db', faults⟩ log = there at both ⊢
      obtain ⟨response, s, grown⟩ := here
      obtain ⟨response', s', grown'⟩ := there
      obtain ⟨answers, after, line⟩ := both
      obtain rfl : grown' = grown := line
      obtain ⟨rest, same⟩ := ih after grown'
      exact ⟨.cons answers rest, same⟩
    | tokenCreate name project ttlDays d faults =>
      exact ih (lockstep_store (tokenCreate_lockstep alike name project ttlDays d) faults) log
    | tokenRevoke name faults =>
      exact ih (lockstep_store (tokenRevoke_lockstep alike name) faults) log

/-- Neither the statuses nor the log tell what the values are or how the keys are called. -/
theorem log_blind_to_secrets (ideal : IdealAead.Ideal c.aead) (total : IdealAead.Total c.aead)
    (renames : Renaming ρ) {ops ops' : List (AuditedOp c)}
    (pairs : List.Forall₂ (OpAlike c ρ) ops ops') :
    List.Forall₂ (fun x x' => AnswerAlike c ρ x.1.toRequest x.2 x'.2)
        (auditedRun c key .empty [] ops).1 (auditedRun c key .empty [] ops').1 ∧
      (auditedRun c key .empty [] ops').2 = (auditedRun c key .empty [] ops).2 :=
  run_blind ideal total renames pairs dbAlike_empty []

/-! ## A put of `KEY` as `v` and one of `NAME` as `w` -/

def twoValueServer : ServerCrates Bytes :=
  { framedServer with
    parseSetSecret := fun b =>
      if b = utf8 "\x7b\"value\":\"v\"\x7d" then some ⟨"v"⟩
      else if b = utf8 "\x7b\"value\":\"w\"\x7d" then some ⟨"w"⟩
      else none }

def swapNames (k : String) : String := if k = "KEY" then "NAME" else if k = "NAME" then "KEY" else k

lemma swapNames_renaming : Renaming swapNames := by
  constructor
  · intro k valid
    unfold swapNames
    split_ifs
    · decide
    · decide
    · exact valid
  · intro k k' _ _ same
    unfold swapNames at same
    split_ifs at same <;> simp_all

def putOf (name value : String) : Arrival :=
  ⟨bearerRequest .put ("/v1/projects/app/secrets/" ++ name) "tok"
    ("\x7b\"value\":\"" ++ value ++ "\"\x7d"), ""⟩

def valueDraws : AuditDraws twoValueServer.time := ⟨epochDraws "", epoch, epoch⟩

/-- A token, a project, a put and a listing. -/
def putRun (name value : String) : List (AuditedOp twoValueServer) :=
  [.tokenCreate "root" none none ⟨epoch, epoch, "tok"⟩ [],
    .request ⟨bearerRequest .post "/v1/projects" "tok" "\x7b\"name\":\"app\"\x7d", ""⟩ valueDraws
      true [],
    .request (putOf name value) valueDraws true [],
    .request (listing "app") valueDraws true []]

/-- A request that names no valid key is alike to itself. -/
lemma ArrivalAlike.refl {r : Arrival} (none : r.secretKey = none) : ArrivalAlike c ρ r r := by
  refine ⟨rfl, rfl, rfl, ?_, Or.inl rfl⟩
  unfold SamePath
  rw [none]

lemma putRun_alike :
    List.Forall₂ (OpAlike twoValueServer swapNames) (putRun "KEY" "v") (putRun "NAME" "w") := by
  have draws : DrawsAlike twoValueServer valueDraws valueDraws := ⟨rfl, rfl, rfl, rfl, rfl, rfl⟩
  refine .cons (.tokenCreate _ _ _ _ _) (.cons (.request _ _ _ _ _ _ ?_ draws)
    (.cons (.request _ _ _ _ _ _ ?_ draws) (.cons (.request _ _ _ _ _ _ ?_ draws) .nil)))
  · exact .refl (by decide)
  · have named : (putOf "KEY" "v").secretKey = some "KEY" := by decide
    refine ⟨rfl, rfl, rfl, ?_, Or.inr ⟨rfl, "app", "KEY", ⟨"v"⟩, ⟨"w"⟩, by decide, rfl, rfl⟩⟩
    unfold SamePath
    rw [named]
    exact ⟨"app", "KEY", "NAME", by decide, by decide, by decide⟩
  · exact .refl (by decide)

/-- The two runs are answered and logged alike. -/
theorem log_blind_to_secrets_putRun :
    List.Forall₂ (fun x x' => AnswerAlike twoValueServer swapNames x.1.toRequest x.2 x'.2)
        (auditedRun twoValueServer [7] .empty [] (putRun "KEY" "v")).1
        (auditedRun twoValueServer [7] .empty [] (putRun "NAME" "w")).1 ∧
      (auditedRun twoValueServer [7] .empty [] (putRun "NAME" "w")).2 =
        (auditedRun twoValueServer [7] .empty [] (putRun "KEY" "v")).2 :=
  log_blind_to_secrets (c := twoValueServer) Framing.framedAead_ideal Framing.framedAead_total
    swapNames_renaming putRun_alike

end SecretsManager
