import SecretsManager.Server.AuditTrail
import SecretsManager.Server.ReferenceStore

/-!
# Calls on the store under faults

A handler of the store whose statements fail either ends as it does without faults, or
with the error of one of them. Then the map it stands for is as before, or a put has
been made that nothing reports.
-/

namespace SecretsManager

open FaultySession KeyedTable

variable {Key : Type} {c : ServerCrates Key} {key : Key} {token : AuthedToken} {d : Draws c.time}
  {db : Db} {ref : RefStore}

/-- The error of a handler whose statement failed. -/
def brokenStatement : Failure := .app (.internal "database")

lemma degrades_database {m : Prog Db SqliteError α} (h : Degrades m fun _ => True) :
    Degrades (database m) (· = brokenStatement) := h.mapError fun _ _ => rfl

lemma degrades_statement {f : Db → Except SqliteError (α × Db)} :
    Degrades (database (statement .failed f)) (· = brokenStatement) :=
  degrades_database (.statement trivial)

lemma degrades_query {f : Db → α} :
    Degrades (database (query .failed f)) (· = brokenStatement) :=
  degrades_database (.query trivial)

lemma degrades_ensure {ok : Bool} {e : AppError} :
    Degrades (ensure ok e) (· = brokenStatement) := by
  cases ok with
  | true => exact .pure
  | false => exact .fail

lemma degrades_found {name : String} {f : Nat → Handler α}
    (next : ∀ id, Degrades (f id) (· = brokenStatement)) :
    Degrades (do
      let some pid ← database (Repo.projectId name) | reject .notFound
      f pid) (· = brokenStatement) := by
  refine .bind degrades_query ?_
  rintro (_ | id)
  · exact .fail
  · exact next id

/-- A handler of the store ends as it does without faults, or with the error of one. -/
lemma StoreCall.degrades (call : StoreCall) (token : AuthedToken) (d : Draws c.time) :
    Degrades (call.perform c key token d) (· = brokenStatement) := by
  cases call with
  | createProject body =>
    refine .bind .lift fun _ => .bind degrades_ensure fun _ => .bind .lift fun _ => ?_
    refine .bind degrades_query fun _ => .bind degrades_ensure fun _ => ?_
    exact .bind degrades_statement fun _ => .pure
  | listProjects => exact .bind degrades_query fun _ => .pure
  | getSecrets name =>
    refine .bind degrades_ensure fun _ => .bind .lift fun _ => degrades_found fun _ => ?_
    exact .bind degrades_query fun _ => .bind .lift fun _ => .pure
  | putSecret name secretKey body =>
    refine .bind .lift fun _ => .bind degrades_ensure fun _ => .bind .lift fun _ => ?_
    refine .bind degrades_ensure fun _ => degrades_found fun _ => .bind .lift fun _ => ?_
    refine .bind (degrades_database ?_) fun _ => .pure
    exact .bind (.statement trivial) fun _ => .statement trivial
  | deleteSecret name secretKey =>
    refine .bind degrades_ensure fun _ => .bind degrades_ensure fun _ => .bind .lift fun _ => ?_
    refine degrades_found fun _ => .bind degrades_statement fun removed => ?_
    cases removed with
    | true => exact .pure
    | false => exact .fail

/-- Without faults the handler answers as the map does. -/
lemma perform_nil_served (ideal : IdealAead.Ideal c.aead) (total : IdealAead.Total c.aead)
    (h : Refines c key db ref) (call : StoreCall) (m : Method) :
    reply m (call.perform c key token d ⟨db, []⟩).1 =
        reply m (.ok (ref.step token d.writtenAt.rfc3339 call).1) ∧
      Refines c key (call.perform c key token d ⟨db, []⟩).2.store
        (ref.step token d.writtenAt.rfc3339 call).2 := by
  have follows : Follows (call.perform c key token d) db _ _ := perform_follows ideal total h call
  unfold RefStore.step
  cases hr : ref.call token d.writtenAt.rfc3339 call with
  | ok out =>
    rw [hr] at follows
    obtain ⟨response, s, ran, rfl, refines⟩ := follows
    rw [ran]
    exact ⟨rfl, refines⟩
  | error e =>
    rw [hr] at follows
    obtain ⟨s, ran, same⟩ := follows
    rw [ran, same]
    exact ⟨rfl, h⟩

/-- While its statements succeed it answers so under faults too. When one has failed it breaks,
and has made a put at most. -/
lemma perform_faulty (ideal : IdealAead.Ideal c.aead) (total : IdealAead.Total c.aead)
    (h : Refines c key db ref) (call : StoreCall) (faults : List Bool) (m : Method) :
    (metFault (call.perform c key token d) ⟨db, faults⟩ = false ∧
      reply m (call.perform c key token d ⟨db, faults⟩).1 =
        reply m (.ok (ref.step token d.writtenAt.rfc3339 call).1) ∧
      Refines c key (call.perform c key token d ⟨db, faults⟩).2.store
        (ref.step token d.writtenAt.rfc3339 call).2) ∨
    (metFault (call.perform c key token d) ⟨db, faults⟩ = true ∧
      (call.perform c key token d ⟨db, faults⟩).1 = .error brokenStatement ∧
      (Refines c key (call.perform c key token d ⟨db, faults⟩).2.store ref ∨
        (∃ name secretKey body, call = .putSecret name secretKey body) ∧
          Refines c key (call.perform c key token d ⟨db, faults⟩).2.store
            (ref.step token d.writtenAt.rfc3339 call).2)) := by
  obtain ⟨answers, refines⟩ : reply m (call.perform c key token d ⟨db, []⟩).1 = _ ∧ _ :=
    perform_nil_served ideal total h call m
  rcases (call.degrades token d).ends db faults with
    ⟨unmet, sameAnswer, sameStore⟩ | ⟨met, _, rfl, stopped⟩
  · rw [sameAnswer, sameStore]
    exact .inl ⟨unmet, answers, refines⟩
  · refine .inr ⟨met, stopped, ?_⟩
    have ends := perform_ends key (.store call) token d ⟨db, faults⟩
    rcases ends with ⟨_, ok, _⟩ |
      ⟨_, _, kept | ⟨name, secretKey, body, p, n, ct, put, checked, made⟩⟩
    · exact nomatch ok.symm.trans stopped
    · have kept : (call.perform c key token d ⟨db, faults⟩).2.store = db := kept
      rw [kept]
      exact .inl h
    · obtain rfl : call = .putSecret name secretKey (.ok body) := Call.store.inj put
      refine .inr ⟨⟨name, secretKey, .ok body, rfl⟩, ?_⟩
      have whole : ((StoreCall.putSecret name secretKey (.ok body)).perform c key token d
          ⟨db, []⟩).2.store = _ := congrArg (fun x => x.2.store) (putSecret_nil checked)
      have made : ((StoreCall.putSecret name secretKey (.ok body)).perform c key token d
          ⟨db, faults⟩).2.store = _ := made
      rw [whole] at refines
      rw [made]
      exact refines

/-! ## Calls about tokens -/

/-- What is done about tokens is nothing to the map. -/
lemma Refines.tokensOnly (h : Refines c key db ref) {db' : Db} (conforms : db'.Conforms)
    (projects : db'.projects = db.projects) (secrets : db'.secrets = db.secrets) :
    Refines c key db' ref := by
  refine ⟨conforms, fun name => ?_⟩
  rw [view_congr projects secrets]
  exact h.views name

lemma perform_tokensOnly (h : Refines c key db ref) {call : Call}
    (other : ∀ s, call ≠ .store s) (faults : List Bool) :
    Refines c key (call.perform c key token d ⟨db, faults⟩).2.store ref := by
  have conforms : (call.perform c key token d ⟨db, faults⟩).2.store.Conforms :=
    perform_conforms call token d ⟨db, faults⟩ h.conforms
  have ends := perform_ends key call token d ⟨db, faults⟩
  generalize (call.perform c key token d ⟨db, faults⟩).2.store = db' at ends conforms ⊢
  rcases ends with ⟨response, _, outcome⟩ | ⟨_, _, rfl | ⟨_, _, _, _, _, _, put, _⟩⟩
  · cases outcome with
    | createToken => exact h.tokensOnly conforms rfl rfl
    | listTokens => exact h
    | revokeToken => exact h.tokensOnly conforms rfl rfl
    | createProject => exact absurd rfl (other _)
    | listProjects => exact absurd rfl (other _)
    | getSecrets => exact absurd rfl (other _)
    | putSecret => exact absurd rfl (other _)
    | deleteSecret => exact absurd rfl (other _)
  · exact h
  · exact absurd put (other _)

lemma commandStep_refines (h : Refines c key db ref) {db' : Db} (ran : CommandStep c db db') :
    Refines c key db' ref := by
  cases ran with
  | create name project ttlDays d faults =>
    have whole : Triple (fun s => s = db) (Commands.tokenCreate c name project ttlDays d) _ _ :=
      tokenCreate_triple
    rcases whole.elim (s := ⟨db, faults⟩) rfl with ⟨_, _, expiresAt, _, same⟩ | ⟨_, _, same⟩
    · rw [same]
      exact h.tokensOnly (addToken_conforms h.conforms) rfl rfl
    · rw [same]
      exact h
  | revoke name faults =>
    have whole : Triple (fun s => s = db) (Commands.tokenRevoke name) _ _ := tokenRevoke_triple
    rcases whole.elim (s := ⟨db, faults⟩) rfl with ⟨_, _, _, same⟩ | ⟨_, _, same⟩
    · rw [same]
      exact h.tokensOnly (revokeTokens_conforms h.conforms) rfl rfl
    · rw [same]
      exact h

end SecretsManager
