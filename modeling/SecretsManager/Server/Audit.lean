import SecretsManager.Server.Commands

/-!
# The audit log

The middleware around the router writes one entry for every request it answers. It
takes the project from the path as sent, cut at slashes, while the handler gets the
segment decoded. So the entry names the project that was touched exactly when the
segment is spelled without percent signs.
-/

namespace SecretsManager

open FaultySession

/-- One line of the log. -/
structure Entry where
  ts : String
  token : Option String
  method : String
  path : String
  project : Option String
  status : Nat
  deriving DecidableEq

/-- A request with the text of its method, where that is none of the router's. -/
structure Arrival extends Request where
  extension : String

def Method.asStr (extension : String) : Method → String
  | .get => "GET"
  | .head => "HEAD"
  | .post => "POST"
  | .put => "PUT"
  | .delete => "DELETE"
  | .other => extension

def Route.template : Route → String
  | .health => "/v1/health"
  | .projects => "/v1/projects"
  | .secrets _ => "/v1/projects/\x7bname\x7d/secrets"
  | .secret _ _ => "/v1/projects/\x7bname\x7d/secrets/\x7bkey\x7d"
  | .tokens => "/v1/tokens"
  | .token _ => "/v1/tokens/\x7bname\x7d"

/-- `MatchedPath`, which a request with a wrong method has too. -/
def Request.matchedPath (r : Request) : Option String :=
  (matchRoute (pathSegments r.path)).map Route.template

/-! ## The project of an entry -/

/-- The loop that steps back to a boundary between characters. -/
def floorBoundary (segment : String) : Nat → Nat
  | 0 => 0
  | i + 1 => if String.Pos.Raw.isValid segment ⟨i + 1⟩ then i + 1 else floorBoundary segment i

/-- At most 64 bytes; what ends at a boundary is a text. -/
def truncateForLog (segment : String) : String :=
  let bytes := utf8 segment
  (fromUtf8 (bytes.take (floorBoundary segment (min bytes.length 64)))).getD ""

/-- The third segment as sent, on routes of a project. -/
def Request.auditProject (r : Request) : Option String :=
  match r.matchedPath with
  | some t =>
    if (stripPrefix "/v1/projects/\x7bname\x7d" t).isSome then
      (pathSegments r.path)[3]?.map truncateForLog
    else none
  | none => none

/-! ## The middleware -/

variable {Key : Type} (c : ServerCrates Key)

/-- The name is looked up apart from the extractor, and a failed lookup gives none. -/
def resolveTokenName (authorization : Option Bytes) (now : Int) (s : Session Db) :
    Option String × Session Db :=
  match extractBearer authorization with
  | none => (none, s)
  | some bearer =>
    match Repo.authenticate c.time (hashToken c.toCryptoCrates bearer) now s with
    | (.ok found, s') => (found.map AuthedToken.name, s')
    | (.error _, s') => (none, s')

def auditEntry (r : Arrival) (tokenName : Option String) (now : Reading c.time) (status : Nat) :
    Entry where
  ts := now.rfc3339
  token := tokenName
  method := r.method.asStr r.extension
  path := r.matchedPath.getD "(unmatched)"
  project := r.auditProject
  status := status

/-- A line that cannot be written is reported on stderr and lost. -/
def recordEntry (written : Bool) (e : Entry) (log : List Entry) : List Entry :=
  if written then log ++ [e] else log

/-- What one request draws with the middleware around it. -/
structure AuditDraws (time : TimeCrate) extends Draws time where
  resolvedAt : Reading time
  recordedAt : Reading time

/-- A handler that panics takes the middleware with it. -/
def auditMiddleware (key : Key) (r : Arrival) (d : AuditDraws c.time) (written : Bool)
    (s : Session Db) (log : List Entry) : Option Response × Session Db × List Entry :=
  let (tokenName, s) := resolveTokenName c r.authorization d.resolvedAt.instant s
  match answer c key r.toRequest d.toDraws s with
  | (some response, s) => (some response, s,
      recordEntry written (auditEntry c r tokenName d.recordedAt response.status) log)
  | (none, s) => (none, s, log)

/-- The project a call on secrets works on. -/
def StoreCall.secretsOf : StoreCall → Option String
  | .getSecrets name => some name
  | .putSecret name _ _ => some name
  | .deleteSecret name _ => some name
  | _ => none

/-- The request is routed to a handler of secrets and gives it this valid project. -/
def OperatesOn (r : Request) (project : String) : Prop :=
  ∃ call : StoreCall, r.routed c = .guarded (.ok (.store call)) ∧
    call.secretsOf = some project ∧ validProject project = true

/-- The third segment of the path holds no percent sign. -/
def Request.SpelledOut (r : Request) : Prop :=
  ∀ segment, (pathSegments r.path)[3]? = some segment → 37 ∉ utf8 segment

/-- The request is answered and its entry names this project. -/
def LogsProject (key : Key) (r : Arrival) (d : AuditDraws c.time) (s : Session Db)
    (log : List Entry) (project : String) : Prop :=
  ∃ response s' entry, auditMiddleware c key r d true s log =
    (some response, s', log ++ [entry]) ∧ entry.project = some project

variable {c} {key : Key}

/-! ## Cutting at a boundary -/

lemma take_utf8 (s : String) (i : Nat) :
    (⟨((utf8 s).take i).toArray⟩ : ByteArray) = s.toByteArray.extract 0 i := by
  apply ByteArray.ext
  apply Array.toList_inj.mp
  simp [utf8]

/-- A text cut at a boundary is a text. -/
lemma fromUtf8_take {s : String} {i : Nat} (boundary : String.Pos.Raw.IsValid s ⟨i⟩) :
    ∃ t, fromUtf8 ((utf8 s).take i) = some t := by
  have valid := (String.Pos.Raw.isValid_iff_isValidUTF8_extract_zero.mp boundary).2
  unfold fromUtf8 String.fromUTF8?
  rw [take_utf8]
  exact ⟨_, dif_pos valid⟩

lemma floorBoundary_isValid (s : String) (i : Nat) :
    String.Pos.Raw.IsValid s ⟨floorBoundary s i⟩ := by
  induction i with
  | zero => exact String.Pos.Raw.isValid_zero
  | succ i ih =>
    rw [floorBoundary]
    by_cases boundary : String.Pos.Raw.isValid s ⟨i + 1⟩ = true
    · rw [if_pos boundary]
      exact String.Pos.Raw.isValid_eq_true_iff.mp boundary
    · rw [if_neg boundary]
      exact ih

/-- What is logged is cut off the segment. -/
theorem utf8_truncateForLog (segment : String) : utf8 (truncateForLog segment) =
    (utf8 segment).take (floorBoundary segment (min (utf8 segment).length 64)) := by
  obtain ⟨t, cut⟩ := fromUtf8_take (floorBoundary_isValid segment (min (utf8 segment).length 64))
  unfold truncateForLog
  simp only [cut, Option.getD_some]
  exact ((fromUtf8_eq_some_iff _ _).mp cut).symm

lemma utf8_length (s : String) : (utf8 s).length = s.utf8ByteSize := by
  simp [utf8]

theorem truncateForLog_short {segment : String} (short : (utf8 segment).length ≤ 64) :
    truncateForLog segment = segment := by
  apply utf8_injective
  rw [utf8_truncateForLog, Nat.min_eq_left short]
  have whole : floorBoundary segment (utf8 segment).length = (utf8 segment).length := by
    have ends : String.Pos.Raw.isValid segment ⟨(utf8 segment).length⟩ = true := by
      rw [String.Pos.Raw.isValid_eq_true_iff, utf8_length]
      exact String.Pos.Raw.isValid_rawEndPos
    cases size : (utf8 segment).length with
    | zero => rfl
    | succ n =>
      rw [size] at ends
      rw [floorBoundary, if_pos ends]
  rw [whole, List.take_length]

/-! ## Decoded and cut -/

lemma percentDecodeBytes_append {front : Bytes} (plain : 37 ∉ front) (rest : Bytes) :
    percentDecodeBytes (front ++ rest) = front ++ percentDecodeBytes rest := by
  induction front with
  | nil => rfl
  | cons b front ih =>
    have first : b ≠ 37 := fun same => plain (same ▸ List.mem_cons_self)
    have later : 37 ∉ front := fun mem => plain (List.mem_cons_of_mem b mem)
    rw [List.cons_append, percentDecodeBytes]
    · rw [ih later, List.cons_append]
    · rintro _ _ _ same
      exact absurd same first

lemma percentDecodeBytes_nil {bytes : Bytes} (h : percentDecodeBytes bytes = []) : bytes = [] := by
  cases bytes using percentDecodeBytes.fun_cases with
  | case1 => simp_all [percentDecodeBytes]
  | case2 => simp_all [percentDecodeBytes]
  | case3 => simp_all [percentDecodeBytes]
  | case4 => rfl

/-- A valid name holds no percent sign. -/
lemma validProject_plain {name : String} (valid : validProject name = true) : 37 ∉ utf8 name := by
  intro mem
  simp only [validProject, validName, decide_eq_true_eq, List.all_eq_true] at valid
  exact absurd (valid.2.2 37 mem) (by decide)

/-- What is logged of a segment is the project it decodes to unless it is escaped. -/
theorem truncateForLog_eq_iff {segment p : String} (decoded : percentDecode segment = some p)
    (valid : validProject p = true) : truncateForLog segment = p ↔ 37 ∉ utf8 segment := by
  have bytes : percentDecodeBytes (utf8 segment) = utf8 p := (fromUtf8_eq_some_iff _ _).mp decoded
  constructor
  · rintro rfl
    have front : (utf8 segment).take (floorBoundary segment (min (utf8 segment).length 64)) =
        utf8 (truncateForLog segment) := (utf8_truncateForLog segment).symm
    generalize floorBoundary segment (min (utf8 segment).length 64) = i at front
    have plain : 37 ∉ (utf8 segment).take i := front ▸ validProject_plain valid
    -- nothing is left behind the cut, where the escape would have to be
    have rest : (utf8 segment).drop i = [] := by
      apply percentDecodeBytes_nil
      have split := percentDecodeBytes_append plain ((utf8 segment).drop i)
      rw [List.take_append_drop, bytes, front] at split
      exact List.self_eq_append_right.mp split
    rw [← List.take_append_drop i (utf8 segment), rest, List.append_nil]
    exact plain
  · intro plain
    have same : segment = p := by
      apply utf8_injective
      rw [← bytes, percentDecodeBytes_id fun b hb => ne_of_mem_of_not_mem hb plain]
    subst same
    exact truncateForLog_short (validProject_length valid)

/-! ## The project of a request -/

/-- A call on secrets came from a route that captured the name of its project. -/
lemma Route.call_works {route : Route} {payload : Payload} {m : Method} {call : StoreCall}
    {p : String} (called : route.call c payload m = some (.ok (.store call)))
    (works : call.secretsOf = some p) : ∃ name, percentDecode name = some p ∧
      (route = .secrets name ∨ ∃ secretKey, route = .secret name secretKey) := by
  cases route with
  | secrets name =>
    refine ⟨name, ?_, Or.inl rfl⟩
    cases m <;> simp only [Route.call, reduceCtorEq, Option.some.injEq] at called
    all_goals
      split at called <;> cases called
      rename_i decoded
      cases works
      exact decoded
  | secret name secretKey =>
    refine ⟨name, ?_, Or.inr ⟨secretKey, rfl⟩⟩
    cases m <;> simp only [Route.call, reduceCtorEq, Option.some.injEq] at called
    all_goals
      split at called <;> cases called
      rename_i decoded _
      cases works
      exact decoded
  | projects =>
    cases m <;> simp only [Route.call, reduceCtorEq, Option.some.injEq] at called <;>
      cases called <;> cases works
  | tokens => cases m <;> cases called
  | token name =>
    cases m <;> simp only [Route.call, reduceCtorEq, Option.some.injEq] at called
    split at called <;> cases called
  | health => cases m <;> cases called

/-- Such a route captured the third segment, and its entry has a project. -/
lemma matchRoute_named {segments : List String} {route : Route} {name : String}
    (h : matchRoute segments = some route)
    (named : route = .secrets name ∨ ∃ secretKey, route = .secret name secretKey) :
    segments[3]? = some name ∧
      (stripPrefix "/v1/projects/\x7bname\x7d" route.template).isSome = true := by
  constructor
  · rcases named with rfl | ⟨secretKey, rfl⟩
    · unfold matchRoute at h
      split at h <;> simp_all
    · unfold matchRoute at h
      split at h <;> simp_all
  · rcases named with rfl | ⟨secretKey, rfl⟩
    · rw [Route.template]
      decide
    · rw [Route.template]
      decide

/-- The handler works on the third segment, decoded. -/
lemma OperatesOn.segment {r : Request} {p : String} (h : OperatesOn c r p) :
    ∃ segment, (pathSegments r.path)[3]? = some segment ∧ percentDecode segment = some p ∧
      r.auditProject = some (truncateForLog segment) := by
  obtain ⟨call, routed, works, _⟩ := h
  obtain ⟨route, found, called⟩ := routed_guarded routed
  obtain ⟨name, decoded, named⟩ := Route.call_works called works
  obtain ⟨third, logged⟩ := matchRoute_named found named
  refine ⟨name, third, decoded, ?_⟩
  unfold Request.auditProject Request.matchedPath
  simp only [found, Option.map_some, third, logged, if_true]

theorem auditProject_iff {r : Request} {p : String} (h : OperatesOn c r p) :
    r.auditProject = some p ↔ r.SpelledOut := by
  obtain ⟨segment, third, decoded, logged⟩ := h.segment
  obtain ⟨_, _, _, valid⟩ := h
  rw [logged, Option.some_inj, truncateForLog_eq_iff decoded valid]
  unfold Request.SpelledOut
  rw [third]
  simp

/-! ## Handlers of the store always answer -/

/-- The handler does not panic. -/
def Answers (m : Handler α) : Prop := ∀ s, (m s).1 ≠ .error .panic

lemma Answers.pure {a : α} : Answers (Pure.pure a : Handler α) := fun _ h => nomatch h

lemma Answers.reject {e : AppError} : Answers (SecretsManager.reject e : Handler α) :=
  fun _ h => nomatch h

lemma Answers.database {m : Prog Db SqliteError α} : Answers (database m) := by
  intro s h
  rw [SecretsManager.database, mapError_apply] at h
  rcases ran : m s with ⟨_ | _, _⟩ <;> rw [ran] at h <;> cases h

lemma Answers.orReject {r : Except AppError α} : Answers (orReject r) := by
  intro s h
  cases r <;> cases h

lemma Answers.ensure {ok : Bool} {e : AppError} : Answers (ensure ok e) := by
  cases ok with
  | true => exact .pure
  | false => exact .reject

lemma Answers.bind {m : Handler α} {f : α → Handler β} (first : Answers m)
    (next : ∀ a, Answers (f a)) : Answers (m >>= f) := by
  intro s h
  rw [bind_apply] at h
  have started := first s
  rcases ran : m s with ⟨e | a, s'⟩
  · rw [ran] at h started
    cases h
    exact started rfl
  · rw [ran] at h
    exact next a s' h

lemma answers_found {name : String} {f : Nat → Handler β} (next : ∀ id, Answers (f id)) :
    Answers (do
      let some pid ← database (Repo.projectId name) | SecretsManager.reject .notFound
      f pid) := by
  apply Answers.bind .database
  rintro (_ | id)
  · exact .reject
  · exact next id

lemma StoreCall.answers (call : StoreCall) (token : AuthedToken) (d : Draws c.time) :
    Answers (call.perform c key token d) := by
  cases call with
  | createProject body =>
    refine .bind .orReject fun _ => .bind .ensure fun _ => .bind .orReject fun _ => ?_
    exact .bind .database fun _ => .bind .ensure fun _ => .bind .database fun _ => .pure
  | listProjects => exact .bind .database fun _ => .pure
  | getSecrets name =>
    refine .bind .ensure fun _ => .bind .orReject fun _ => answers_found fun _ => ?_
    exact .bind .database fun _ => .bind .orReject fun _ => .pure
  | putSecret name secretKey body =>
    refine .bind .orReject fun _ => .bind .ensure fun _ => .bind .orReject fun _ => ?_
    refine .bind .ensure fun _ => answers_found fun _ => ?_
    exact .bind .orReject fun _ => .bind .database fun _ => .pure
  | deleteSecret name secretKey =>
    refine .bind .ensure fun _ => .bind .ensure fun _ => .bind .orReject fun _ => ?_
    refine answers_found fun _ => .bind .database fun removed => ?_
    cases removed with
    | true => exact .pure
    | false => exact .reject

/-- Every request on secrets is answered, and its entry written with the project as sent. -/
lemma OperatesOn.recorded {r : Arrival} {p : String} (h : OperatesOn c r.toRequest p)
    (d : AuditDraws c.time) (s : Session Db) (log : List Entry) :
    ∃ response s' tokenName, auditMiddleware c key r d true s log =
      (some response, s', log ++ [auditEntry c r tokenName d.recordedAt response.status]) := by
  obtain ⟨call, routed, _, _⟩ := h
  unfold auditMiddleware
  rcases resolveTokenName c r.authorization d.resolvedAt.instant s with ⟨tokenName, s₁⟩
  have answers : Answers (handle c key r.toRequest d.toDraws) := by
    unfold handle
    rw [routed]
    refine .bind ?_ fun token => call.answers token d.toDraws
    unfold extractToken
    cases extractBearer r.authorization with
    | none => exact .reject
    | some bearer =>
      refine .bind .database fun found => ?_
      cases found with
      | none => exact .reject
      | some token => exact .pure
  have answered := answers s₁
  unfold answer
  rcases ran : handle c key r.toRequest d.toDraws s₁ with ⟨⟨e⟩ | response, s₂⟩
  · cases e with
    | app e =>
      simp only [ran, reply]
      exact ⟨_, _, _, rfl⟩
    | panic =>
      rw [ran] at answered
      exact absurd rfl answered
  · simp only [ran, reply]
    exact ⟨_, _, _, rfl⟩

/-- The entry of a request on a project names it unless the request spells the name with percent
signs. -/
theorem logsProject_iff {r : Arrival} {p : String} (operates : OperatesOn c r.toRequest p)
    (d : AuditDraws c.time) (s : Session Db) (log : List Entry) :
    LogsProject c key r d s log p ↔ r.SpelledOut := by
  obtain ⟨response, s', tokenName, ran⟩ : ∃ response s' tokenName,
      auditMiddleware c key r d true s log =
        (some response, s', log ++ [auditEntry c r tokenName d.recordedAt response.status]) :=
    operates.recorded d s log
  unfold LogsProject
  rw [ran, ← auditProject_iff operates]
  constructor
  · rintro ⟨_, _, entry, same, project⟩
    have last := (Prod.mk.inj (Prod.mk.inj same).2).2
    obtain rfl := List.singleton_inj.mp (List.append_cancel_left last)
    exact project
  · intro project
    exact ⟨_, _, _, rfl, project⟩

/-! ## One project under two names -/

def rootAuditDraws : AuditDraws framedServer.time := ⟨epochDraws "", epoch, epoch⟩

/-- A listing of the secrets of this project, as spelled. -/
def listing (name : String) : Arrival :=
  ⟨bearerRequest .get ("/v1/projects/" ++ name ++ "/secrets") "tok" "", ""⟩

lemma listing_operates {name : String}
    (found : matchRoute (pathSegments (listing name).path) = some (.secrets name))
    (decoded : percentDecode name = some "app") :
    OperatesOn framedServer (listing name).toRequest "app" := by
  refine ⟨.getSecrets "app", routed_of_call found (by simp) ?_, rfl, by decide⟩
  have method : (listing name).method = .get := rfl
  simp [Route.call, method, decoded]

/-- Under both spellings the secrets of `app` are sent, and the log has two names for it. -/
theorem encoded_listing_evades_log :
    (¬ ∀ r p, OperatesOn framedServer r.toRequest p →
      LogsProject framedServer [7] r rootAuditDraws ⟨projectDb, []⟩ [] p) ∧
    ["app", "%61pp"].map (fun name =>
      (auditMiddleware framedServer [7] (listing name) rootAuditDraws true ⟨projectDb, []⟩
        []).2.2.map fun e => (e.status, e.project)) =
      [[(200, some "app")], [(200, some "%61pp")]] := by
  constructor
  · intro all
    have operates : OperatesOn framedServer (listing "%61pp").toRequest "app" :=
      listing_operates (by decide) (by decide)
    obtain ⟨_, _, entry, ran, project⟩ := all (listing "%61pp") "app" operates
    have logged : (auditMiddleware framedServer [7] (listing "%61pp") rootAuditDraws true
        ⟨projectDb, []⟩ []).2.2.map Entry.project = [some "%61pp"] := by decide
    rw [ran, List.nil_append, List.map_singleton, project] at logged
    exact absurd logged (by decide)
  · decide

/-- The listing in plain letters is logged under `app`. -/
theorem logsProject_iff_listing :
    LogsProject framedServer [7] (listing "app") rootAuditDraws ⟨projectDb, []⟩ [] "app" ↔
      (listing "app").SpelledOut :=
  logsProject_iff (listing_operates (by decide) (by decide)) rootAuditDraws ⟨projectDb, []⟩ []

end SecretsManager
