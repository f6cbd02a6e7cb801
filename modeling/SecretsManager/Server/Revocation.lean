import SecretsManager.Server.Outcomes
import SecretsManager.Lib.Transitions

/-!
# Revocation under concurrent requests

A request takes the database lock twice: once to authenticate and, after its body
has been read, once to act. Between the two any other request or command may run,
so a revocation stops the tokens it revokes from authenticating but not the
requests that have already authenticated with them.
-/

namespace SecretsManager

open FaultySession KeyedTable Relation

/-- A request that has authenticated, with the row that answered for it. -/
structure InFlight where
  ticket : Nat
  authority : TokenRow
  token : AuthedToken
  call : Call

structure Service where
  db : Db
  inFlight : List InFlight
  tickets : Nat

inductive Label where
  | authenticated (p : InFlight)
  | acted (p : InFlight) (outcome : Except Failure Response)
  | commandRevoked (name : String) (outcome : Except SqliteError Nat)
  | silent

variable {Key : Type} (c : ServerCrates Key)

/-- The row on whose authority a header authenticates. -/
def authority (db : Db) (authorization : Option Bytes) (now : Int) : Option TokenRow := do
  let bearer ← extractBearer authorization
  (db.tokens.filter (TokenRow.accepts c.time now (hashToken c.toCryptoCrates bearer))).getLast?

inductive ServiceStep (key : Key) : Service → Label → Service → Prop where
  /-- The extractor, under its own lock. -/
  | authenticate (st : Service) (r : Request) (now : Int) (faults : List Bool) (call : Call)
      (token : AuthedToken) (row : TokenRow) (routed : r.routed c = .guarded (.ok call))
      (extracted : (extractToken c r.authorization now ⟨st.db, faults⟩).1 = .ok token)
      (onAuthority : authority c st.db r.authorization now = some row) :
      ServiceStep key st (.authenticated ⟨st.tickets, row, token, call⟩)
        ⟨st.db, ⟨st.tickets, row, token, call⟩ :: st.inFlight, st.tickets + 1⟩
  /-- The handler, once its body has been read. -/
  | act (db : Db) (before after : List InFlight) (p : InFlight) (tickets : Nat)
      (d : Draws c.time) (faults : List Bool) :
      ServiceStep key ⟨db, before ++ p :: after, tickets⟩
        (.acted p (p.call.perform c key p.token d ⟨db, faults⟩).1)
        ⟨(p.call.perform c key p.token d ⟨db, faults⟩).2.store, before ++ after, tickets⟩
  | abandon (db : Db) (before after : List InFlight) (p : InFlight) (tickets : Nat) :
      ServiceStep key ⟨db, before ++ p :: after, tickets⟩ .silent ⟨db, before ++ after, tickets⟩
  /-- `token revoke` of the command line. -/
  | commandRevoke (st : Service) (name : String) (faults : List Bool) :
      ServiceStep key st (.commandRevoked name (Repo.revokeToken name ⟨st.db, faults⟩).1)
        { st with db := (Repo.revokeToken name ⟨st.db, faults⟩).2.store }
  /-- `token create` of the command line. -/
  | commandCreate (st : Service) (name token : String) (scope expiresAt : Option String)
      (now : Reading c.time) (faults : List Bool) :
      ServiceStep key st .silent { st with
        db := (Repo.insertToken name (hashToken c.toCryptoCrates token) scope expiresAt now.rfc3339
          ⟨st.db, faults⟩).2.store }

def ServiceRun (key : Key) : Service → Service → Prop :=
  ReflTransGen fun st st' => ∃ l, ServiceStep c key st l st'

/-- The step returned the count of a revocation of this name. -/
def Label.revokes (name : String) : Label → Prop
  | .acted p (.ok _) => p.call = .revokeToken name
  | .commandRevoked name' (.ok _) => name' = name
  | _ => False

/-- Once a revocation has returned, nothing is done any more on the authority of a token of
that name that was there. -/
def RevocationIsFinal (key : Key) : Prop :=
  ∀ start before after last next : Service, ∀ name l p response,
    start.db.Conforms → start.inFlight = [] → ServiceRun c key start before →
    ServiceStep c key before l after → l.revokes name → ServiceRun c key after last →
    ServiceStep c key last (.acted p (.ok response)) next → p.call ≠ .store .listProjects →
    ∀ row ∈ before.db.tokens, row.name = name → row.id ≠ p.authority.id

variable {c} {key : Key}

/-! ## Token rows -/

/-- Rows are never dropped, and a row that is not new has not been made active. -/
structure TokensKept (db db' : Db) : Prop where
  kept : ∀ row ∈ db.tokens, ∃ row' ∈ db'.tokens, row'.id = row.id
  stays : ∀ row' ∈ db'.tokens, row'.revoked = true ∨ row' ∈ db.tokens ∨
    ∀ row ∈ db.tokens, row.id ≠ row'.id

lemma TokensKept.of_same {db db' : Db} (same : db'.tokens = db.tokens) : TokensKept db db' where
  kept row hrow := ⟨row, same ▸ hrow, rfl⟩
  stays _ hrow := Or.inr (Or.inl (same ▸ hrow))

lemma addToken_kept (db : Db) (name text : String) (hash : Bytes) (o o' : Option String) :
    TokensKept db (db.addToken name hash o text o') where
  kept row hrow := ⟨row, List.mem_append_left _ hrow, rfl⟩
  stays row hrow := by
    rcases List.mem_append.mp hrow with old | new
    · exact Or.inr (Or.inl old)
    · rw [List.mem_singleton.mp new]
      exact Or.inr (Or.inr fun row hrow => nextId_fresh TokenRow.id hrow)

lemma mem_revokeTokens {db : Db} {name : String} {row' : TokenRow}
    (h : row' ∈ (db.revokeTokens name).tokens) :
    ∃ row ∈ db.tokens, row'.id = row.id ∧ row'.name = row.name ∧
      (row'.revoked = true ∨ (row' = row ∧ row.activeAs name = false)) := by
  obtain ⟨row, hrow, rfl⟩ := List.mem_map.mp h
  refine ⟨row, hrow, ?_⟩
  by_cases active : row.activeAs name
  · rw [if_pos active]
    exact ⟨rfl, rfl, Or.inl rfl⟩
  · rw [if_neg active]
    exact ⟨rfl, rfl, Or.inr ⟨rfl, by simpa using active⟩⟩

lemma revokeTokens_kept (db : Db) (name : String) : TokensKept db (db.revokeTokens name) where
  kept row hrow := ⟨_, List.mem_map.mpr ⟨row, hrow, rfl⟩, by split <;> rfl⟩
  stays row' hrow' := by
    obtain ⟨row, hrow, _, _, revoked | ⟨rfl, _⟩⟩ := mem_revokeTokens hrow'
    · exact Or.inl revoked
    · exact Or.inr (Or.inl hrow)

/-- What becomes of the token table: nothing, one row more, or a name revoked. -/
inductive TokensStep (db : Db) : Db → Prop where
  | same {db' : Db} (tokens : db'.tokens = db.tokens) : TokensStep db db'
  | added (name : String) (hash : Bytes) (scope : Option String) (text : String)
      (expiresAt : Option String) : TokensStep db (db.addToken name hash scope text expiresAt)
  | revoked (name : String) : TokensStep db (db.revokeTokens name)

lemma TokensStep.tokensKept {db db' : Db} (h : TokensStep db db') : TokensKept db db' := by
  cases h with
  | same tokens => exact .of_same tokens
  | added => exact addToken_kept ..
  | revoked name => exact revokeTokens_kept db name

lemma Outcome.tokensStep {token : AuthedToken} {d : Draws c.time} {db db' : Db} {call : Call}
    {response : Response} (h : Outcome c key token d db call response db') : TokensStep db db' := by
  cases h with
  | createToken => exact .added ..
  | revokeToken name => exact .revoked name
  | createProject => exact .same rfl
  | listProjects => exact .same rfl
  | getSecrets => exact .same rfl
  | putSecret => exact .same rfl
  | deleteSecret => exact .same rfl
  | listTokens => exact .same rfl

lemma revokeToken_repo (name : String) (db : Db) (faults : List Bool) :
    (∃ n, (Repo.revokeToken name ⟨db, faults⟩).1 = .ok n ∧
      (Repo.revokeToken name ⟨db, faults⟩).2.store = db.revokeTokens name) ∨
    ((∃ e, (Repo.revokeToken name ⟨db, faults⟩).1 = .error e) ∧
      (Repo.revokeToken name ⟨db, faults⟩).2.store = db) := by
  have whole : Triple (fun s => s = db) (Repo.revokeToken name)
      (fun _ s => s = db.revokeTokens name) (fun s => s = db) := by
    refine Triple.statement (fun _ h => h) ?_
    rintro s n s' rfl ran
    cases ran
    rfl
  rcases whole.elim (s := ⟨db, faults⟩) rfl with ⟨n, ok, same⟩ | ⟨e, error, same⟩
  · exact Or.inl ⟨n, ok, same⟩
  · exact Or.inr ⟨⟨e, error⟩, same⟩

lemma perform_tokensStep (call : Call) (token : AuthedToken) (d : Draws c.time) (s : Session Db) :
    TokensStep s.store (call.perform c key token d s).2.store := by
  have ends := perform_ends key call token d s
  generalize (call.perform c key token d s).2.store = db' at ends
  rcases ends with ⟨response, _, outcome⟩ | ⟨e, _, rfl | ⟨_, _, _, _, _, _, _, _, rfl⟩⟩
  · exact outcome.tokensStep
  · exact .same rfl
  · exact .same rfl

lemma perform_conforms (call : Call) (token : AuthedToken) (d : Draws c.time) (s : Session Db)
    (conforms : s.store.Conforms) : (call.perform c key token d s).2.store.Conforms := by
  rcases perform_ends key call token d s with ⟨response, _, outcome⟩ | ⟨e, _, leftover⟩
  · exact outcome.conforms conforms
  · exact leftover.conforms conforms

lemma insertToken_repo (name : String) (hash : Bytes) (scope expiresAt : Option String)
    (now : String) (db : Db) (faults : List Bool) :
    (Repo.insertToken name hash scope expiresAt now ⟨db, faults⟩).2.store = db ∨
      (Repo.insertToken name hash scope expiresAt now ⟨db, faults⟩).2.store =
        db.addToken name hash scope now expiresAt := by
  have whole : Triple (fun s => s = db) (Repo.insertToken name hash scope expiresAt now)
      (fun _ s => s = db.addToken name hash scope now expiresAt) (fun s => s = db) := by
    refine Triple.update (fun _ h => h) ?_
    rintro s rfl
    rfl
  rcases whole.elim (s := ⟨db, faults⟩) rfl with ⟨n, _, same⟩ | ⟨e, _, same⟩
  · exact Or.inr same
  · exact Or.inl same

lemma step_kept {st st' : Service} {l : Label} (step : ServiceStep c key st l st') :
    TokensKept st.db st'.db := by
  apply TokensStep.tokensKept
  cases step with
  | authenticate => exact .same rfl
  | act db before after p tickets d faults =>
    exact perform_tokensStep p.call p.token d ⟨db, faults⟩
  | abandon => exact .same rfl
  | commandRevoke st name faults =>
    rcases revokeToken_repo name st.db faults with ⟨_, _, same⟩ | ⟨_, same⟩ <;> simp only [same]
    · exact .revoked name
    · exact .same rfl
  | commandCreate st name token scope expiresAt now faults =>
    rcases insertToken_repo name (hashToken c.toCryptoCrates token) scope expiresAt now.rfc3339
      st.db faults with same | same <;> simp only [same]
    · exact .same rfl
    · exact .added ..

lemma step_conforms {st st' : Service} {l : Label} (step : ServiceStep c key st l st')
    (conforms : st.db.Conforms) : st'.db.Conforms := by
  cases step with
  | authenticate => exact conforms
  | act db before after p tickets d faults =>
    exact perform_conforms p.call p.token d ⟨db, faults⟩ conforms
  | abandon => exact conforms
  | commandRevoke st name faults =>
    rcases revokeToken_repo name st.db faults with ⟨_, _, same⟩ | ⟨_, same⟩ <;> simp only [same]
    · exact revokeTokens_conforms conforms
    · exact conforms
  | commandCreate st name token scope expiresAt now faults =>
    rcases insertToken_repo name (hashToken c.toCryptoCrates token) scope expiresAt now.rfc3339
      st.db faults with same | same <;> simp only [same]
    · exact conforms
    · exact addToken_conforms conforms

/-! ## After the revocation -/

/-- The revoked rows stay, stay revoked, and speak for old requests only. -/
structure AfterRevoke (revoked : Set Nat) (old : List InFlight) (st : Service) : Prop where
  kept : ∀ id ∈ revoked, ∃ row ∈ st.db.tokens, row.id = id
  dead : ∀ row ∈ st.db.tokens, row.id ∈ revoked → row.revoked = true
  inFlight : ∀ p ∈ st.inFlight, p.authority.id ∈ revoked → p ∈ old

lemma authority_active {db : Db} {authorization : Option Bytes} {now : Int} {row : TokenRow}
    (h : authority c db authorization now = some row) : row ∈ db.tokens ∧ row.revoked = false := by
  simp only [authority, Option.bind_eq_bind, Option.bind_eq_some_iff] at h
  obtain ⟨bearer, _, last⟩ := h
  obtain ⟨hrow, accepted⟩ := List.mem_filter.mp (List.mem_of_getLast? last)
  simp only [TokenRow.accepts, decide_eq_true_eq] at accepted
  exact ⟨hrow, accepted.1⟩

/-- The rows named so are revoked by the step that returns the count. -/
lemma afterRevoke_start {st st' : Service} {l : Label} {name : String}
    (conforms : st.db.Conforms) (step : ServiceStep c key st l st') (revokes : l.revokes name) :
    AfterRevoke {id | ∃ row ∈ st.db.tokens, row.name = name ∧ row.id = id} st.inFlight st' := by
  have written : st'.db = st.db.revokeTokens name ∧ ∀ p ∈ st'.inFlight, p ∈ st.inFlight := by
    cases step with
    | authenticate => exact revokes.elim
    | abandon => exact revokes.elim
    | commandCreate => exact revokes.elim
    | commandRevoke st name' faults =>
      refine ⟨?_, fun _ h => h⟩
      rcases revokeToken_repo name' st.db faults with ⟨n, ok, same⟩ | ⟨⟨e, error⟩, _⟩
      · rw [ok] at revokes
        obtain rfl : name' = name := revokes
        exact same
      · rw [error] at revokes
        exact revokes.elim
    | act db before after p tickets d faults =>
      refine ⟨?_, fun q hq => ?_⟩
      · have ends := perform_ends key p.call p.token d ⟨db, faults⟩
        revert revokes
        generalize (p.call.perform c key p.token d ⟨db, faults⟩).1 = outcome at ends
        generalize (p.call.perform c key p.token d ⟨db, faults⟩).2.store = db' at ends
        intro revokes
        rcases ends with ⟨response, rfl, outcome⟩ | ⟨e, rfl, _⟩
        · have called : p.call = .revokeToken name := revokes
          rw [called] at outcome
          cases outcome
          rfl
        · exact revokes.elim
      · rcases List.mem_append.mp hq with h | h
        · exact List.mem_append_left _ h
        · exact List.mem_append_right _ (List.mem_cons_of_mem _ h)
  obtain ⟨hdb, fewer⟩ := written
  have kept := revokeTokens_kept st.db name
  refine ⟨?_, ?_, fun p hp _ => fewer p hp⟩
  · rintro id ⟨row, hrow, _, rfl⟩
    rw [hdb]
    exact kept.kept row hrow
  · rintro row' hrow' ⟨named, hnamed, isName, same⟩
    rw [hdb] at hrow'
    obtain ⟨row, hrow, sameId, _, revoked | ⟨rfl, inactive⟩⟩ := mem_revokeTokens hrow'
    · exact revoked
    · obtain rfl := conforms.tokenIds.eq_of_key hnamed hrow same
      simpa [TokenRow.activeAs, isName] using inactive

lemma afterRevoke_step {revoked : Set Nat} {old : List InFlight} {st st' : Service} {l : Label}
    (inv : AfterRevoke revoked old st) (step : ServiceStep c key st l st') :
    AfterRevoke revoked old st' := by
  have kept := step_kept step
  have rows : (∀ id ∈ revoked, ∃ row ∈ st'.db.tokens, row.id = id) ∧
      ∀ row ∈ st'.db.tokens, row.id ∈ revoked → row.revoked = true := by
    constructor
    · intro id hid
      obtain ⟨row, hrow, rfl⟩ := inv.kept id hid
      exact kept.kept row hrow
    · intro row' hrow' hid
      rcases kept.stays row' hrow' with h | old | fresh
      · exact h
      · exact inv.dead row' old hid
      · obtain ⟨row, hrow, same⟩ := inv.kept _ hid
        exact absurd same (fresh row hrow)
  refine ⟨rows.1, rows.2, ?_⟩
  cases step with
  | authenticate st r now faults call token row routed extracted onAuthority =>
    intro p hp hid
    rcases List.mem_cons.mp hp with rfl | hp
    · obtain ⟨hrow, active⟩ := authority_active onAuthority
      rw [inv.dead _ hrow hid] at active
      cases active
    · exact inv.inFlight p hp hid
  | act db before after p tickets d faults =>
    intro q hq
    refine inv.inFlight q ?_
    rcases List.mem_append.mp hq with h | h
    · exact List.mem_append_left _ h
    · exact List.mem_append_right _ (List.mem_cons_of_mem _ h)
  | abandon db before after p tickets =>
    intro q hq
    refine inv.inFlight q ?_
    rcases List.mem_append.mp hq with h | h
    · exact List.mem_append_left _ h
    · exact List.mem_append_right _ (List.mem_cons_of_mem _ h)
  | commandRevoke => exact inv.inFlight
  | commandCreate => exact inv.inFlight

/-- After a revocation has returned, only requests that had authenticated before it ran
act on the authority of the tokens it found under that name. -/
theorem acts_after_revocation_were_in_flight {start before after last next : Service}
    {name : String} {l : Label} {p : InFlight} {outcome : Except Failure Response}
    (conforms : start.db.Conforms) (earlier : ServiceRun c key start before)
    (revocation : ServiceStep c key before l after) (revokes : l.revokes name)
    (later : ServiceRun c key after last)
    (act : ServiceStep c key last (.acted p outcome) next) :
    ∀ row ∈ before.db.tokens, row.name = name → row.id = p.authority.id → p ∈ before.inFlight := by
  intro row hrow named same
  have schema := Transitions.preserved (P := fun st : Service => st.db.Conforms)
    (fun _ _ h ⟨_, step⟩ => step_conforms step h) earlier conforms
  have inv := Transitions.preserved (P := AfterRevoke _ before.inFlight)
    (fun _ _ h ⟨_, step⟩ => afterRevoke_step h step) later
    (afterRevoke_start schema revocation revokes)
  cases act with
  | act db before' after' p tickets d faults =>
    exact inv.inFlight p (List.mem_append_right _ List.mem_cons_self) ⟨row, hrow, named, same⟩

/-! ## A request that authenticated before the revocation -/

/-- One admin token. -/
def adminDb : Db where
  metaTable := []
  projects := []
  secrets := []
  tokens := [⟨1, "root", utf8 "tok", none, "t", false, none⟩]

def mintRequest : Request := bearerRequest .post "/v1/tokens" "tok" "\x7b\"name\":\"fresh\"\x7d"

/-- The call to issue a token, authenticated by the admin token. -/
def mintInFlight : InFlight where
  ticket := 0
  authority := ⟨1, "root", utf8 "tok", none, "t", false, none⟩
  token := ⟨"root", none⟩
  call := .createToken (.ok ⟨"fresh", none, none, false⟩)

def revokedDb : Db := adminDb.revokeTokens "root"

lemma mint_authenticates : ServiceStep framedServer [7] ⟨adminDb, [], 0⟩
    (.authenticated mintInFlight) ⟨adminDb, [mintInFlight], 1⟩ :=
  .authenticate ⟨adminDb, [], 0⟩ mintRequest 0 [] _ _ _ rfl (by decide) (by decide)

lemma mint_revoked : ServiceStep framedServer [7] ⟨adminDb, [mintInFlight], 1⟩
    (.commandRevoked "root" (.ok 1)) ⟨revokedDb, [mintInFlight], 1⟩ :=
  .commandRevoke ⟨adminDb, [mintInFlight], 1⟩ "root" []

lemma mint_acts : ∃ next, ServiceStep framedServer [7] ⟨revokedDb, [mintInFlight], 1⟩
    (.acted mintInFlight (.ok ⟨201, .token "fresh" none (some "1970-04-01T00:00:00Z") "new"⟩))
    next :=
  ⟨_, .act revokedDb [] [] mintInFlight 1 (epochDraws "new") []⟩

/-- The admin token is revoked, and then a fresh admin token is issued on its authority. -/
theorem revocation_not_final : ¬ RevocationIsFinal framedServer [7] := by
  intro final
  obtain ⟨next, acts⟩ := mint_acts
  have never := final ⟨adminDb, [], 0⟩ _ _ _ next "root" _ mintInFlight _ (by decide) rfl
    (.single ⟨_, mint_authenticates⟩) mint_revoked rfl .refl acts (by simp [mintInFlight])
  exact never ⟨1, "root", utf8 "tok", none, "t", false, none⟩ (by decide) rfl rfl

/-- The call that acts after the revocation had authenticated before it. -/
theorem acts_after_revocation_mint : ∃ before after next : Service,
    ServiceRun framedServer [7] ⟨adminDb, [], 0⟩ before ∧
    ServiceStep framedServer [7] before (.commandRevoked "root" (.ok 1)) after ∧
    ServiceStep framedServer [7] after (.acted mintInFlight
      (.ok ⟨201, .token "fresh" none (some "1970-04-01T00:00:00Z") "new"⟩)) next ∧
    mintInFlight ∈ before.inFlight := by
  obtain ⟨next, acts⟩ := mint_acts
  have earlier : ServiceRun framedServer [7] ⟨adminDb, [], 0⟩ ⟨adminDb, [mintInFlight], 1⟩ :=
    .single ⟨_, mint_authenticates⟩
  refine ⟨_, _, next, earlier, mint_revoked, acts, ?_⟩
  exact acts_after_revocation_were_in_flight (by decide) earlier mint_revoked rfl .refl acts
    ⟨1, "root", utf8 "tok", none, "t", false, none⟩ (by decide) rfl rfl

end SecretsManager
