import SecretsManager.Server.Outcomes
import SecretsManager.Lib.Transitions
import Mathlib.Data.Set.Basic

/-!
# What scoped bearers can do

An adversary sends any requests with the bearers it holds and with every token
its responses gave it, while other parties change the database as they like short
of issuing one of those bearers again. Each of its requests stays in the scopes of
its tokens, on the database and in the response.
-/

namespace SecretsManager

open FaultySession KeyedTable Relation

/-- The names of projects in a body. -/
def ResponseBody.projectNames : ResponseBody → List String
  | .project name => [name]
  | .projects ps => ps.map Project.name
  | _ => []

/-- Tokens, and metadata or counts of tokens. -/
def ResponseBody.isTokenData : ResponseBody → Bool
  | .token .. | .tokens _ | .revoked _ => true
  | _ => false

/-- The tokens a response hands out. -/
def issuedTokens : Option Response → Set String
  | some ⟨_, .token _ _ _ token⟩ => {token}
  | _ => ∅

variable {Key : Type} (c : ServerCrates Key)

/-- A bearer answered for by this row at this instant. -/
def AcceptedBy (now : Int) (bearer : String) (row : TokenRow) : Prop :=
  row.accepts c.time now (hashToken c.toCryptoCrates bearer) = true

/-- The scopes of the active, unexpired tokens among the bearers. -/
def heldScopes (db : Db) (now : Int) (held : Set String) : Set String :=
  {s | ∃ b ∈ held, ∃ row ∈ db.tokens, AcceptedBy c now b row ∧ row.projectScope = some s}

/-- What a request may do within the scopes `S`. -/
structure Confined (key : Key) (S : Set String) (db : Db) (out : Option Response × Db) : Prop where
  metaTable : out.2.metaTable = db.metaTable
  projects : out.2.projects = db.projects ∨
    ∃ row : ProjectRow, row.name ∈ S ∧ out.2.projects = db.projects ++ [row]
  secrets : ∀ id, (∀ p ∈ out.2.projects, p.id = id → p.name ∉ S) →
    out.2.secrets.filter (fun r => r.projectId = id) =
      db.secrets.filter fun r => r.projectId = id
  tokens : out.2.tokens = db.tokens
  values : ∀ response, out.1 = some response → ∀ values, response.body = .secrets values →
    ∃ p ∈ db.projects, p.name ∈ S ∧
      Handlers.openRows c key p.name ∅ ((db.secretsOf p.id).map SecretRow.stored) = .ok values
  names : ∀ response, out.1 = some response → ∀ name ∈ response.body.projectNames, name ∈ S
  tokenData : ∀ response, out.1 = some response → response.body.isTokenData = false

structure Attack where
  db : Db
  known : Set String

/-- The request carries no bearer but a known one. -/
def Request.bearerFrom (r : Request) (known : Set String) : Prop :=
  ∀ b, extractBearer r.authorization = some b → b ∈ known

/-- No active row for a known bearer that was not there. -/
def NotReissued (known : Set String) (db db' : Db) : Prop :=
  ∀ row ∈ db'.tokens, row.revoked = false →
    ∀ b ∈ known, row.tokenHash = hashToken c.toCryptoCrates b → row ∈ db.tokens

/-- A request of the adversary, no earlier than `since`, or a step of somebody else. -/
inductive AttackStep (key : Key) (since : Int) : Attack → Attack → Prop where
  | request (db : Db) (known : Set String) (r : Request) (d : Draws c.time)
      (bearer : r.bearerFrom known) (late : since ≤ d.authenticatedAt.instant) :
      AttackStep key since ⟨db, known⟩
        ⟨(serve c key r d db).2, known ∪ issuedTokens (serve c key r d db).1⟩
  | others (db db' : Db) (known : Set String) (conforms : db'.Conforms)
      (notReissued : NotReissued c known db db') : AttackStep key since ⟨db, known⟩ ⟨db', known⟩

/-- Known bearers are answered for within the scopes only. -/
structure AttackInv (since : Int) (S : Set String) (st : Attack) : Prop where
  conforms : st.db.Conforms
  inScope : ∀ b ∈ st.known, ∀ row ∈ st.db.tokens, AcceptedBy c since b row →
    ∃ s ∈ S, row.projectScope = some s

variable {c} {key : Key} {since : Int} {S : Set String}

/-- What is unexpired later was unexpired before. -/
lemma AcceptedBy.earlier {now : Int} {b : String} {row : TokenRow} (late : since ≤ now)
    (h : AcceptedBy c now b row) : AcceptedBy c since b row := by
  simp only [AcceptedBy, TokenRow.accepts, decide_eq_true_eq] at h ⊢
  refine ⟨h.1, ?_, h.2.2⟩
  have fresh := h.2.1
  cases hexp : row.expiresAt with
  | none => rfl
  | some text =>
    rw [hexp] at fresh
    simp only [notExpired] at fresh ⊢
    cases hp : c.time.parse text with
    | none => simp [hp] at fresh
    | some t =>
      simp only [hp, decide_eq_true_eq] at fresh ⊢
      omega

lemma Authenticates.scope_mem {st : Attack} (inv : AttackInv c since S st) {r : Request}
    (bearer : r.bearerFrom st.known) {now : Int} (late : since ≤ now) {token : AuthedToken}
    (h : Authenticates c st.db r.authorization now token) : ∃ s ∈ S, token.scope = some s := by
  obtain ⟨b, hb, row, hrow, accepted, rfl⟩ := h
  exact inv.inScope b (bearer b hb) row hrow (AcceptedBy.earlier late accepted)

lemma ensureScope_eq {token : AuthedToken} {s name : String} (scope : token.scope = some s)
    (inScope : ensureScope token name = .ok ()) : name = s := by
  unfold ensureScope at inScope
  rw [scope] at inScope
  by_contra different
  simp [Ne.symm different] at inScope

lemma ensureAdmin_scoped {token : AuthedToken} {s : String} (scope : token.scope = some s) :
    ensureAdmin token ≠ .ok () := by simp [ensureAdmin, scope]

/-! ## One request -/

/-- The database untouched and nothing told. -/
lemma Confined.silent {db : Db} {out : Option Response}
    (quiet : ∀ response, out = some response → response.body.projectNames = [] ∧
      response.body.isTokenData = false ∧ ∀ values, response.body ≠ .secrets values) :
    Confined c key S db (out, db) where
  metaTable := rfl
  projects := Or.inl rfl
  secrets _ _ := rfl
  tokens := rfl
  values response h values hbody := absurd hbody ((quiet response h).2.2 values)
  names response h name hname := by
    rw [(quiet response h).1] at hname
    cases hname
  tokenData response h := (quiet response h).2.1

lemma Confined.of_body {db db' : Db} {m : Method} {response : Response}
    (h : Confined c key S db (some response, db')) :
    Confined c key S db (reply m (.ok response), db') := by
  have told : ∀ out, reply m (.ok response) = some out →
      out.body = response.body ∨ out.body = .empty := fun out hout => (reply_ok hout).2
  refine { h with values := ?_, names := ?_, tokenData := ?_ }
  · intro out hout values hbody
    rcases told out hout with same | empty
    · exact h.values response rfl values (same.symm.trans hbody)
    · rw [empty] at hbody
      cases hbody
  · intro out hout name hname
    rcases told out hout with same | empty
    · exact h.names response rfl name (same ▸ hname)
    · rw [empty] at hname
      cases hname
  · intro out hout
    rcases told out hout with same | empty
    · rw [same]
      exact h.tokenData response rfl
    · rw [empty]
      rfl

variable {token : AuthedToken} {d : Draws c.time} {db db' : Db}

/-- Rows of a project of the scope may change. -/
lemma PutChecked.confined {s name secretKey value : String} {p : ProjectRow} {n ct : Bytes}
    (hs : s ∈ S) (scope : token.scope = some s)
    (checked : PutChecked c key token d db name secretKey value p n ct) {out : Option Response}
    (quiet : ∀ response, out = some response → response.body.projectNames = [] ∧
      response.body.isTokenData = false ∧ ∀ values, response.body ≠ .secrets values) :
    Confined c key S db (out, db.putSecretRow p.id secretKey n ct d.writtenAt.rfc3339) := by
  obtain rfl := ensureScope_eq scope checked.inScope
  obtain ⟨hp, rfl⟩ := project_mem checked.found
  have silent : Confined c key S db (out, db) := Confined.silent quiet
  refine { silent with secrets := ?_ }
  intro id outside
  exact putSecretRow_others fun same => outside p hp same.symm hs

lemma Outcome.confined {s : String} (hs : s ∈ S) (scope : token.scope = some s) {call : Call}
    {response : Response} (h : Outcome c key token d db call response db') :
    Confined c key S db (some response, db') := by
  have quiet : ∀ {status : Nat} {body : ResponseBody}, body.projectNames = [] →
      body.isTokenData = false → (∀ values, body ≠ .secrets values) →
      ∀ response, some (⟨status, body⟩ : Response) = some response →
        response.body.projectNames = [] ∧ response.body.isTokenData = false ∧
          ∀ values, response.body ≠ .secrets values := by
    rintro status body names tokens values _ ⟨⟩
    exact ⟨names, tokens, values⟩
  cases h with
  | createProject body valid inScope fresh =>
    obtain rfl := ensureScope_eq scope inScope
    refine ⟨rfl, Or.inr ⟨_, hs, rfl⟩, fun _ _ => rfl, rfl, ?_, ?_, ?_⟩
    · rintro _ ⟨⟩ values ⟨⟩
    · rintro _ ⟨⟩ name hname
      rw [List.mem_singleton.mp hname]
      exact hs
    · rintro _ ⟨⟩
      rfl
  | listProjects =>
    refine ⟨rfl, Or.inl rfl, fun _ _ => rfl, rfl, ?_, ?_, ?_⟩
    · rintro _ ⟨⟩ values ⟨⟩
    · rintro _ ⟨⟩ name hname
      obtain ⟨p, hp, rfl⟩ := List.mem_map.mp hname
      have seen := (List.mem_filter.mp hp).2
      simp only [scope, decide_eq_true_eq] at seen
      exact seen ▸ hs
    · rintro _ ⟨⟩
      rfl
  | getSecrets name p out valid inScope found opened =>
    obtain rfl := ensureScope_eq scope inScope
    obtain ⟨hp, rfl⟩ := project_mem found
    refine ⟨rfl, Or.inl rfl, fun _ _ => rfl, rfl, ?_, ?_, ?_⟩
    · rintro _ ⟨⟩ values ⟨⟩
      exact ⟨p, hp, hs, opened⟩
    · rintro _ ⟨⟩ name hname
      cases hname
    · rintro _ ⟨⟩
      rfl
  | putSecret name secretKey body p n ct row checked stored =>
    exact checked.confined hs scope (quiet rfl rfl fun _ h => by cases h)
  | deleteSecret name secretKey p validName validKey inScope found present =>
    obtain rfl := ensureScope_eq scope inScope
    obtain ⟨hp, rfl⟩ := project_mem found
    have silent : Confined c key S db (some ⟨204, .empty⟩, db) :=
      Confined.silent (quiet rfl rfl fun _ h => by cases h)
    refine { silent with secrets := ?_ }
    intro id outside
    exact removeSecretRow_others fun same => outside p hp same.symm hs
  | createToken body expiresAt admin => exact absurd admin (ensureAdmin_scoped scope)
  | listTokens admin => exact absurd admin (ensureAdmin_scoped scope)
  | revokeToken name admin => exact absurd admin (ensureAdmin_scoped scope)

/-- A request whose token is scoped to a member of `S` is confined to `S`. -/
theorem serve_confined {st : Attack} (inv : AttackInv c since S st) (r : Request)
    (bearer : r.bearerFrom st.known) (late : since ≤ d.authenticatedAt.instant) :
    Confined c key S st.db (serve c key r d st.db) := by
  have whole : Triple (fun s => s = st.db) (handle c key r d) _ _ := handle_triple r
  have ends := whole.elim (s := ⟨st.db, []⟩) rfl
  unfold serve run
  generalize (handle c key r d ⟨st.db, []⟩).2.store = db' at ends ⊢
  rcases ends with ⟨response, ok, handled⟩ | ⟨e, error, failed⟩
  · rw [ok]
    apply Confined.of_body
    cases handled with
    | answered routed =>
      apply Confined.silent
      rintro _ ⟨⟩
      rcases routed_answered routed with body | body <;> rw [body] <;>
        exact ⟨rfl, rfl, fun _ h => by cases h⟩
    | invalidPath =>
      apply Confined.silent
      rintro _ ⟨⟩
      exact ⟨rfl, rfl, fun _ h => by cases h⟩
    | called token call routed authenticated outcome =>
      obtain ⟨s, hs, scope⟩ := authenticated.scope_mem inv bearer late
      exact outcome.confined hs scope
  · rw [error]
    have quiet : ∀ response, reply r.method (.error e) = some response →
        response.body.projectNames = [] ∧ response.body.isTokenData = false ∧
          ∀ values, response.body ≠ .secrets values := by
      intro response h
      rcases reply_error h with body | ⟨_, body⟩ <;> rw [body] <;>
        exact ⟨rfl, rfl, fun _ h => by cases h⟩
    rcases failed with rfl | ⟨token, call, _, authenticated, leftover⟩
    · exact Confined.silent quiet
    · rcases leftover with rfl | ⟨_, _, _, _, _, _, _, checked, rfl⟩
      · exact Confined.silent quiet
      · obtain ⟨s, hs, scope⟩ := authenticated.scope_mem inv bearer late
        exact checked.confined hs scope quiet

/-! ## Whole runs -/

lemma issuedTokens_of_confined {out : Option Response × Db} (h : Confined c key S db out) :
    issuedTokens out.1 = ∅ := by
  rcases ho : out.1 with _ | ⟨status, body⟩
  · rfl
  · have quiet := h.tokenData _ ho
    cases body <;> first | rfl | cases quiet

theorem attack_step {st st' : Attack} (inv : AttackInv c since S st)
    (step : AttackStep c key since st st') : AttackInv c since S st' := by
  cases step with
  | request db known r d bearer late =>
    have confined : Confined c key S db (serve c key r d db) := serve_confined inv r bearer late
    refine ⟨handle_conforms r ⟨db, []⟩ inv.conforms, ?_⟩
    rw [issuedTokens_of_confined confined, Set.union_empty, confined.tokens]
    exact inv.inScope
  | others db db' known conforms notReissued =>
    refine ⟨conforms, ?_⟩
    intro b hb row hrow accepted
    have active : row.revoked = false ∧ row.tokenHash = hashToken c.toCryptoCrates b := by
      simp only [AcceptedBy, TokenRow.accepts, decide_eq_true_eq] at accepted
      exact ⟨accepted.1, accepted.2.2⟩
    exact inv.inScope b hb row (notReissued row hrow active.1 b hb active.2) accepted

/-- Nothing outside the scopes of the adversary's tokens is changed or told, and without
any such scope nothing happens. -/
theorem no_privilege_escalation {start : Db} {held : Set String} {st : Attack}
    (conforms : start.Conforms)
    (noneUnscoped : ∀ b ∈ held, ∀ row ∈ start.tokens, AcceptedBy c since b row →
      row.projectScope ≠ none)
    (attack : ReflTransGen (AttackStep c key since) ⟨start, held⟩ st) (r : Request)
    (d : Draws c.time) (bearer : r.bearerFrom st.known) (late : since ≤ d.authenticatedAt.instant) :
    Confined c key (heldScopes c start since held) st.db (serve c key r d st.db) ∧
    (heldScopes c start since held = ∅ → (serve c key r d st.db).2 = st.db ∧
      ∀ call, r.routed c = .guarded call →
        (serve c key r d st.db).1.map Response.status = some 401) := by
  have inv : AttackInv c since (heldScopes c start since held) st := by
    refine Transitions.preserved (fun _ _ inv step => attack_step inv step) attack ⟨conforms, ?_⟩
    intro b hb row hrow accepted
    obtain ⟨s, hs⟩ := Option.ne_none_iff_exists'.mp (noneUnscoped b hb row hrow accepted)
    exact ⟨s, ⟨b, hb, row, hrow, accepted, hs⟩, hs⟩
  refine ⟨serve_confined inv r bearer late, fun empty => ?_⟩
  have nobody : ∀ b, extractBearer r.authorization = some b → ∀ row ∈ st.db.tokens,
      ¬ row.accepts c.time d.authenticatedAt.instant (hashToken c.toCryptoCrates b) := by
    intro b hb row hrow accepted
    obtain ⟨s, hs, _⟩ := inv.inScope b (bearer b hb) row hrow (AcceptedBy.earlier late accepted)
    rw [empty] at hs
    cases hs
  unfold serve run handle
  cases routed : r.routed c with
  | answered response => exact ⟨rfl, fun _ h => by cases h⟩
  | guarded call =>
    simp only [bind_apply, extractToken_nil nobody, true_and, reply]
    intro _ _
    split <;> rfl

/-- Two projects, and one token for the first. -/
def scopedTokenDb : Db where
  metaTable := []
  projects := [⟨1, "app", "t"⟩, ⟨2, "other", "t"⟩]
  secrets := []
  tokens := [⟨1, "ci", utf8 "tok", some "app", "t", false, none⟩]

theorem no_privilege_escalation_scopedToken :
    let r := bearerRequest .put "/v1/projects/app/secrets/KEY" "tok" "\x7b\"value\":\"v\"\x7d"
    let out := serve framedServer [7] r (epochDraws "") scopedTokenDb
    Confined framedServer [7] (heldScopes framedServer scopedTokenDb 0 {"tok"}) scopedTokenDb out ∧
    (heldScopes framedServer scopedTokenDb 0 {"tok"} = ∅ → out.2 = scopedTokenDb ∧
      ∀ call, r.routed framedServer = .guarded call → out.1.map Response.status = some 401) := by
  refine no_privilege_escalation (by decide) ?_ .refl _ (epochDraws "") ?_ (by decide)
  · intro b _ row hrow _
    rw [List.mem_singleton.mp hrow]
    simp
  · intro b hb
    have bearer : extractBearer (some (utf8 ("Bearer " ++ "tok"))) = some "tok" := by decide
    exact (Option.some.inj (bearer.symm.trans hb)).symm

end SecretsManager
