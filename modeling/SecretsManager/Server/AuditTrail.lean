import SecretsManager.Server.Audit
import SecretsManager.Server.Revocation

/-!
# Who is named in the log

A request looks its token up twice: the middleware for the name to be logged, the
extractor to let it in. Between the two, and after them, other requests and commands
run and the clock goes on. A token that is still good at the second lookup was good at
the first, for rows are only added and revoked, so the name logged is the one that
acted.
-/

namespace SecretsManager

open FaultySession KeyedTable Relation

/-- How far a request has come, with what its extractor gave and what was returned. -/
inductive Stage where
  | arrived
  | authenticated (token : AuthedToken) (call : Except Unit Call)
  | answered (identity : Option AuthedToken) (response : Response)
  | recorded (identity : Option AuthedToken) (response : Response) (written : Bool)
  | dropped

/-- A request with the name looked up for the log, and the table and the clock at that time. -/
structure Attended where
  arrival : Arrival
  tokenName : Option String
  lookedUp : Bool
  tokensThen : List TokenRow
  arrivedAt : Int
  stage : Stage

/-- The log, each line with the number of its request. -/
structure AuditedServer where
  db : Db
  clock : Int
  requests : Nat → Option Attended
  next : Nat
  log : List (Nat × Entry)

def AuditedServer.start (db : Db) (clock : Int) : AuditedServer :=
  ⟨db, clock, fun _ => none, 0, []⟩

def AuditedServer.entries (st : AuditedServer) (n : Nat) : List Entry :=
  (st.log.filter fun x => x.1 = n).map Prod.snd

variable {Key : Type} (c : ServerCrates Key)

/-- The handler behind the extractor. -/
def handleCall (key : Key) (token : AuthedToken) (call : Except Unit Call) (d : Draws c.time) :
    Handler Response :=
  match call with
  | .error () => pure ⟨400, .invalidPath⟩
  | .ok call => call.perform c key token d

/-- What one lock or one await of a request can do. -/
inductive StageStep (key : Key) (now : Int) (r : Arrival) : Db → Stage → Db → Stage → Prop where
  | route (db : Db) (response out : Response) (routed : r.routed c = .answered response)
      (replied : reply r.method (.ok response) = some out) :
      StageStep key now r db .arrived db (.answered none out)
  /-- The extractor, under its own lock. -/
  | authenticate (db : Db) (faults : List Bool) (token : AuthedToken) (call : Except Unit Call)
      (routed : r.routed c = .guarded call)
      (extracted : (extractToken c r.authorization now ⟨db, faults⟩).1 = .ok token) :
      StageStep key now r db .arrived db (.authenticated token call)
  | refuse (db : Db) (faults : List Bool) (call : Except Unit Call) (e : Failure) (out : Response)
      (routed : r.routed c = .guarded call)
      (extracted : (extractToken c r.authorization now ⟨db, faults⟩).1 = .error e)
      (replied : reply r.method (.error e) = some out) :
      StageStep key now r db .arrived db (.answered none out)
  | act (db : Db) (faults : List Bool) (token : AuthedToken) (call : Except Unit Call)
      (d : Draws c.time) (out : Response)
      (replied : reply r.method (handleCall c key token call d ⟨db, faults⟩).1 = some out) :
      StageStep key now r db (.authenticated token call)
        (handleCall c key token call d ⟨db, faults⟩).2.store (.answered (some token) out)
  | panic (db : Db) (faults : List Bool) (token : AuthedToken) (call : Except Unit Call)
      (d : Draws c.time)
      (panics : reply r.method (handleCall c key token call d ⟨db, faults⟩).1 = none) :
      StageStep key now r db (.authenticated token call)
        (handleCall c key token call d ⟨db, faults⟩).2.store .dropped
  /-- The client went away before the response. -/
  | drop (db : Db) (stage : Stage) (open' : ∀ i response w, stage ≠ .recorded i response w) :
      StageStep key now r db stage db .dropped

/-- The token commands of the command line. -/
inductive CommandStep (db : Db) : Db → Prop where
  | create (name : String) (project : Option String) (ttlDays : Option UInt32)
      (d : CommandDraws c.time) (faults : List Bool) :
      CommandStep db (Commands.tokenCreate c name project ttlDays d ⟨db, faults⟩).2.store
  | revoke (name : String) (faults : List Bool) :
      CommandStep db (Commands.tokenRevoke name ⟨db, faults⟩).2.store

inductive AuditedStep (key : Key) : AuditedServer → AuditedServer → Prop where
  /-- `resolve_token_name`, before anything else. -/
  | arrive (st : AuditedServer) (r : Arrival) (faults : List Bool) :
      AuditedStep key st { st with
        requests := Function.update st.requests st.next (some
          ⟨r, (resolveTokenName c r.authorization st.clock ⟨st.db, faults⟩).1,
            faults.head? ≠ some true, st.db.tokens, st.clock, .arrived⟩)
        next := st.next + 1 }
  | advance (st : AuditedServer) (n : Nat) (a : Attended) (stage : Stage) (db : Db)
      (found : st.requests n = some a)
      (moves : StageStep c key st.clock a.arrival st.db a.stage db stage) :
      AuditedStep key st { st with
        db := db
        requests := Function.update st.requests n (some { a with stage := stage }) }
  | record (st : AuditedServer) (n : Nat) (a : Attended) (identity : Option AuthedToken)
      (response : Response) (now : Reading c.time) (written : Bool)
      (found : st.requests n = some a) (answered : a.stage = .answered identity response) :
      AuditedStep key st { st with
        requests := Function.update st.requests n
          (some { a with stage := .recorded identity response written })
        log := if written then
            st.log ++ [(n, auditEntry c a.arrival a.tokenName now response.status)]
          else st.log }
  | command (st : AuditedServer) (db : Db) (ran : CommandStep c st.db db) :
      AuditedStep key st { st with db := db }
  | tick (st : AuditedServer) (clock : Int) (later : st.clock ≤ clock) :
      AuditedStep key st { st with clock := clock }

/-- The presented token was issued before the request arrived. -/
def Attended.IssuedBefore (a : Attended) : Prop :=
  ∃ bearer, extractBearer a.arrival.authorization = some bearer ∧
    ∃ row ∈ a.tokensThen, row.tokenHash = hashToken c.toCryptoCrates bearer

def DistinctHashes (tokens : List TokenRow) : Prop := (tokens.map TokenRow.tokenHash).Nodup

instance (tokens : List TokenRow) : Decidable (DistinctHashes tokens) :=
  inferInstanceAs (Decidable (tokens.map TokenRow.tokenHash).Nodup)

variable {c} {key : Key}

/-! ## Rows that are only added and revoked -/

/-- The row as it was, but for a revocation since. -/
structure TokenRow.Older (row row' : TokenRow) : Prop where
  name : row'.name = row.name
  tokenHash : row'.tokenHash = row.tokenHash
  expiresAt : row'.expiresAt = row.expiresAt
  active : row'.revoked = false → row.revoked = false

def Aged (tokens tokens' : List TokenRow) : Prop :=
  ∀ (i : Nat) (row : TokenRow), tokens[i]? = some row → ∃ row', tokens'[i]? = some row' ∧
    row.Older row'

lemma Aged.refl (tokens : List TokenRow) : Aged tokens tokens :=
  fun _ row hrow => ⟨row, hrow, rfl, rfl, rfl, id⟩

lemma Aged.of_same {tokens tokens' : List TokenRow} (same : tokens' = tokens) :
    Aged tokens tokens' := same ▸ .refl tokens

lemma Aged.trans {tokens tokens' tokens'' : List TokenRow} (first : Aged tokens tokens')
    (second : Aged tokens' tokens'') : Aged tokens tokens'' := by
  intro i row hrow
  obtain ⟨row', hrow', older⟩ := first i row hrow
  obtain ⟨row'', hrow'', older'⟩ := second i row' hrow'
  refine ⟨row'', hrow'', ?_, ?_, ?_, ?_⟩
  · rw [older'.name, older.name]
  · rw [older'.tokenHash, older.tokenHash]
  · rw [older'.expiresAt, older.expiresAt]
  · exact fun active => older.active (older'.active active)

lemma addToken_aged {db : Db} {name text : String} {hash : Bytes} {o o' : Option String} :
    Aged db.tokens (db.addToken name hash o text o').tokens := by
  intro i row hrow
  refine ⟨row, ?_, rfl, rfl, rfl, id⟩
  obtain ⟨inside, _⟩ := List.getElem?_eq_some_iff.mp hrow
  exact (List.getElem?_append_left inside).trans hrow

lemma revokeTokens_aged (db : Db) (name : String) :
    Aged db.tokens (db.revokeTokens name).tokens := by
  intro i row hrow
  have mapped : (db.revokeTokens name).tokens[i]? =
      some (if row.activeAs name then { row with revoked := true } else row) := by
    unfold Db.revokeTokens
    rw [List.getElem?_map, hrow]
    rfl
  refine ⟨_, mapped, ?_⟩
  by_cases active : row.activeAs name = true
  · rw [if_pos active]
    exact ⟨rfl, rfl, rfl, fun h => nomatch h⟩
  · rw [if_neg active]
    exact ⟨rfl, rfl, rfl, id⟩

lemma TokensStep.aged {db db' : Db} (h : TokensStep db db') : Aged db.tokens db'.tokens := by
  cases h with
  | same tokens => exact .of_same tokens
  | added => exact addToken_aged
  | revoked name => exact revokeTokens_aged db name

lemma handleCall_aged (token : AuthedToken) (call : Except Unit Call) (d : Draws c.time)
    (s : Session Db) : Aged s.store.tokens (handleCall c key token call d s).2.store.tokens := by
  cases call with
  | error _ => exact .refl _
  | ok call => exact (perform_tokensStep call token d s).aged

lemma commandStep_aged {db db' : Db} (ran : CommandStep c db db') : Aged db.tokens db'.tokens := by
  cases ran with
  | create name project ttlDays d faults =>
    have whole : Triple (fun s => s = db) (Commands.tokenCreate c name project ttlDays d) _ _ :=
      tokenCreate_triple
    rcases whole.elim (s := ⟨db, faults⟩) rfl with ⟨_, _, expiresAt, _, same⟩ | ⟨_, _, same⟩
    · rw [same]
      exact addToken_aged
    · exact .of_same (congrArg Db.tokens same)
  | revoke name faults =>
    have whole : Triple (fun s => s = db) (Commands.tokenRevoke name) _ _ := tokenRevoke_triple
    rcases whole.elim (s := ⟨db, faults⟩) rfl with ⟨_, _, _, same⟩ | ⟨_, _, same⟩
    · rw [same]
      exact revokeTokens_aged db name
    · exact .of_same (congrArg Db.tokens same)

lemma stageStep_aged {now : Int} {r : Arrival} {db db' : Db} {stage stage' : Stage}
    (moves : StageStep c key now r db stage db' stage') : Aged db.tokens db'.tokens := by
  cases moves with
  | act faults token call d => exact handleCall_aged token call d ⟨db, faults⟩
  | panic faults token call d => exact handleCall_aged token call d ⟨db, faults⟩
  | route => exact .refl _
  | authenticate => exact .refl _
  | refuse => exact .refl _
  | drop => exact .refl _

/-- Hashes that are distinct in the end were distinct before. -/
lemma DistinctHashes.same {tokens tokens' : List TokenRow} (distinct : DistinctHashes tokens')
    (aged : Aged tokens tokens') {row row' : TokenRow} (hrow : row ∈ tokens)
    (hrow' : row' ∈ tokens) (hash : row.tokenHash = row'.tokenHash) : row = row' := by
  obtain ⟨i, hi⟩ := List.mem_iff_getElem?.mp hrow
  obtain ⟨j, hj⟩ := List.mem_iff_getElem?.mp hrow'
  obtain ⟨later, hlater, older⟩ := aged i row hi
  obtain ⟨later', hlater', older'⟩ := aged j row' hj
  have mapped : (tokens'.map TokenRow.tokenHash)[i]? = (tokens'.map TokenRow.tokenHash)[j]? := by
    rw [List.getElem?_map, List.getElem?_map, hlater, hlater']
    exact congrArg some (older.tokenHash.trans (hash.trans older'.tokenHash.symm))
  obtain ⟨inside, _⟩ := List.getElem?_eq_some_iff.mp hlater
  have inside : i < (tokens'.map TokenRow.tokenHash).length := by simpa using inside
  obtain rfl : i = j := (List.getElem?_inj inside distinct).mp mapped
  exact Option.some.inj (hi.symm.trans hj)

lemma DistinctHashes.earlier {tokens tokens' : List TokenRow} (distinct : DistinctHashes tokens')
    (aged : Aged tokens tokens') : DistinctHashes tokens := by
  have front : (tokens'.map TokenRow.tokenHash).take tokens.length =
      tokens.map TokenRow.tokenHash := by
    apply List.ext_getElem?
    intro i
    rw [List.getElem?_take, List.getElem?_map, List.getElem?_map]
    cases hrow : tokens[i]? with
    | none =>
      rw [if_neg (by simpa using hrow)]
      rfl
    | some row =>
      obtain ⟨row', hrow', older⟩ := aged i row hrow
      obtain ⟨inside, _⟩ := List.getElem?_eq_some_iff.mp hrow
      rw [if_pos inside, hrow']
      exact congrArg some older.tokenHash
  unfold DistinctHashes
  rw [← front]
  exact List.Nodup.sublist (List.take_sublist _ _) distinct

/-! ## The two lookups -/

/-- A row that lets a bearer in now let it in before. -/
lemma TokenRow.Older.accepts {row row' : TokenRow} (older : row.Older row') {now now' : Int}
    (later : now ≤ now') {presented : Bytes} (h : row'.accepts c.time now' presented = true) :
    row.accepts c.time now presented = true := by
  simp only [TokenRow.accepts, decide_eq_true_eq] at h ⊢
  obtain ⟨active, fresh, hash⟩ := h
  refine ⟨older.active active, ?_, older.tokenHash ▸ hash⟩
  rw [older.expiresAt] at fresh
  cases expiry : row.expiresAt with
  | none => rfl
  | some text =>
    rw [expiry] at fresh
    simp only [notExpired] at fresh ⊢
    cases parsed : c.time.parse text with
    | none => simp [parsed] at fresh
    | some t =>
      simp only [parsed, decide_eq_true_eq] at fresh ⊢
      omega

/-- The name for the log: the lookup as it answers when no statement fails. -/
def nameAt (c : ServerCrates Key) (authorization : Option Bytes) (now : Int)
    (tokens : List TokenRow) : Option String :=
  (extractBearer authorization).bind fun bearer =>
    (authenticateRows c.time now (hashToken c.toCryptoCrates bearer)
      (tokens.filter fun r => r.revoked = false)).map AuthedToken.name

lemma resolveTokenName_eq {authorization : Option Bytes} {now : Int} {db : Db}
    {faults : List Bool} (ok : faults.head? ≠ some true) :
    (resolveTokenName c authorization now ⟨db, faults⟩).1 = nameAt c authorization now db.tokens := by
  unfold resolveTokenName nameAt
  cases extractBearer authorization with
  | none => rfl
  | some bearer =>
    rcases faults with _ | ⟨_ | _, faults⟩
    · rfl
    · rfl
    · exact absurd rfl ok

/-- The only row of a bearer's hash gives the name. -/
lemma nameAt_of_accepts {authorization : Option Bytes} {now : Int} {tokens : List TokenRow}
    {bearer : String} (presented : extractBearer authorization = some bearer) {row : TokenRow}
    (hrow : row ∈ tokens)
    (accepted : row.accepts c.time now (hashToken c.toCryptoCrates bearer) = true)
    (only : ∀ row' ∈ tokens, row'.tokenHash = row.tokenHash → row' = row) :
    nameAt c authorization now tokens = some row.name := by
  have hash : row.tokenHash = hashToken c.toCryptoCrates bearer := by
    simp only [TokenRow.accepts, decide_eq_true_eq] at accepted
    exact accepted.2.2
  cases found : authenticateRows c.time now (hashToken c.toCryptoCrates bearer)
      (tokens.filter fun r => r.revoked = false) with
  | none => exact absurd accepted (authenticateRows_none.mp found row hrow)
  | some token =>
    obtain ⟨row', hrow', accepted', rfl⟩ := authenticateRows_some found
    simp only [TokenRow.accepts, decide_eq_true_eq] at accepted'
    obtain rfl := only row' hrow' (accepted'.2.2.trans hash.symm)
    unfold nameAt
    rw [presented, Option.bind_some, found]
    rfl

/-- What the extractor lets in is what the first lookup named. -/
theorem lookups_agree {authorization : Option Bytes} {now now' : Int} {tokens : List TokenRow}
    {db : Db} {faults : List Bool} {token : AuthedToken} (aged : Aged tokens db.tokens)
    (later : now ≤ now') (distinct : DistinctHashes db.tokens)
    (issued : ∃ bearer, extractBearer authorization = some bearer ∧
      ∃ row ∈ tokens, row.tokenHash = hashToken c.toCryptoCrates bearer)
    (extracted : (extractToken c authorization now' ⟨db, faults⟩).1 = .ok token) :
    nameAt c authorization now tokens = some token.name := by
  obtain ⟨bearer, presented, row, hrow, hash⟩ := issued
  obtain ⟨i, hi⟩ := List.mem_iff_getElem?.mp hrow
  obtain ⟨row', hi', older⟩ := aged i row hi
  have hrow' : row' ∈ db.tokens := List.mem_of_getElem? hi'
  obtain ⟨bearer', presented', actor, hactor, accepted, rfl⟩ :
      Authenticates c db authorization now' token := by
    have reads : Reads db (extractToken c authorization now') _ := extractToken_reads
    rcases reads.elim (s := ⟨db, faults⟩) rfl with ⟨_, ok, _, authenticated⟩ | ⟨_, error, _⟩
    · cases extracted.symm.trans ok
      exact authenticated
    · cases extracted.symm.trans error
  obtain rfl := Option.some.inj (presented.symm.trans presented')
  -- the row that was there before is the one that acts
  have same : actor = row' := by
    apply distinct.same (.refl _) hactor hrow'
    simp only [TokenRow.accepts, decide_eq_true_eq] at accepted
    rw [accepted.2.2, older.tokenHash, hash]
  subst same
  rw [older.name]
  exact nameAt_of_accepts presented hrow (older.accepts later accepted)
    fun other hother alike => distinct.same aged hother hrow alike

/-! ## Runs -/

/-- Who the extractor let in, once it has. -/
def Stage.identity : Stage → Option AuthedToken
  | .authenticated token _ => some token
  | .answered identity _ => identity
  | .recorded identity _ _ => identity
  | _ => none

variable (c) in
/-- What was noted of a request, seen from the present table and clock. -/
structure Attended.Kept (tokens : List TokenRow) (clock : Int) (a : Attended) : Prop where
  aged : Aged a.tokensThen tokens
  clock : a.arrivedAt ≤ clock
  looked : a.lookedUp = true →
    a.tokenName = nameAt c a.arrival.authorization a.arrivedAt a.tokensThen
  named : ∀ token, a.stage.identity = some token → a.lookedUp = true → a.IssuedBefore c →
    DistinctHashes tokens → a.tokenName = some token.name

variable (c) in
/-- Every request is kept, and the log has one line for each that was recorded. -/
structure AuditedServer.Inv (st : AuditedServer) : Prop where
  kept : ∀ n a, st.requests n = some a → a.Kept c st.db.tokens st.clock
  fresh : ∀ n, st.next ≤ n → st.requests n = none
  unrecorded : ∀ n, (∀ a i response w, st.requests n = some a →
    a.stage ≠ .recorded i response w) → st.entries n = []
  recorded : ∀ n a i response w, st.requests n = some a → a.stage = .recorded i response w →
    ∃ now, st.entries n =
      recordEntry w (auditEntry c a.arrival a.tokenName now response.status) []

lemma Attended.Kept.later {tokens tokens' : List TokenRow} {clock clock' : Int} {a : Attended}
    (kept : a.Kept c tokens clock) (aged : Aged tokens tokens') (later : clock ≤ clock') :
    a.Kept c tokens' clock' where
  aged := kept.aged.trans aged
  clock := kept.clock.trans later
  looked := kept.looked
  named token identity looked issued distinct :=
    kept.named token identity looked issued (distinct.earlier aged)

/-- A request that moves on keeps what was noted of it. -/
lemma Attended.Kept.moves {a : Attended} {db db' : Db} {stage : Stage} {clock : Int}
    (kept : a.Kept c db.tokens clock)
    (moves : StageStep c key clock a.arrival db a.stage db' stage) :
    ({ a with stage := stage } : Attended).Kept c db'.tokens clock := by
  have later := kept.later (stageStep_aged moves) le_rfl
  refine ⟨later.aged, later.clock, later.looked, ?_⟩
  intro token identity looked issued distinct
  generalize was : a.stage = stage' at moves
  cases moves with
  | route => cases identity
  | refuse => cases identity
  | panic => cases identity
  | drop => cases identity
  | authenticate faults token' call routed extracted =>
    cases identity
    rw [kept.looked looked]
    exact lookups_agree kept.aged kept.clock distinct issued extracted
  | act faults token' call d out replied =>
    cases identity
    exact later.named token (by rw [was]; rfl) looked issued distinct

lemma stageStep_open {now : Int} {r : Arrival} {db db' : Db} {stage stage' : Stage}
    (moves : StageStep c key now r db stage db' stage') (i : Option AuthedToken)
    (response : Response) (w : Bool) :
    stage ≠ .recorded i response w ∧ stage' ≠ .recorded i response w := by
  cases moves with
  | drop _ open' => exact ⟨open' i response w, nofun⟩
  | route => exact ⟨nofun, nofun⟩
  | authenticate => exact ⟨nofun, nofun⟩
  | refuse => exact ⟨nofun, nofun⟩
  | act => exact ⟨nofun, nofun⟩
  | panic => exact ⟨nofun, nofun⟩

/-- One line more, for one request. -/
lemma entries_append (st : AuditedServer) (n m : Nat) (e : Entry) :
    AuditedServer.entries { st with log := st.log ++ [(n, e)] } m =
      if n = m then st.entries m ++ [e] else st.entries m := by
  by_cases same : n = m
  · simp [AuditedServer.entries, List.filter_append, same]
  · simp [AuditedServer.entries, List.filter_append, same]

/-- One request changed, the others as they were. -/
lemma update_some {f : Nat → Option α} {n m : Nat} {a b : α}
    (h : Function.update f n (some a) m = some b) : (m = n ∧ a = b) ∨ (m ≠ n ∧ f m = some b) := by
  simpa only [Option.some.injEq] using Transitions.updated h

lemma inv_start (db : Db) (clock : Int) : (AuditedServer.start db clock).Inv c where
  kept _ _ h := nomatch h
  fresh _ _ := rfl
  unrecorded _ _ := rfl
  recorded _ _ _ _ _ h := nomatch h

lemma inv_arrive {st : AuditedServer} (inv : st.Inv c) (r : Arrival) (faults : List Bool) :
    AuditedServer.Inv c { st with
      requests := Function.update st.requests st.next (some
        ⟨r, (resolveTokenName c r.authorization st.clock ⟨st.db, faults⟩).1,
          faults.head? ≠ some true, st.db.tokens, st.clock, .arrived⟩)
      next := st.next + 1 } where
  kept n a h := by
    rcases update_some h with ⟨rfl, rfl⟩ | ⟨_, h⟩
    · refine ⟨.refl _, le_rfl, ?_, fun _ identity => nomatch identity⟩
      intro looked
      exact resolveTokenName_eq (of_decide_eq_true looked)
    · exact inv.kept n a h
  fresh n later := by
    have later : st.next + 1 ≤ n := later
    have other : n ≠ st.next := by omega
    exact (Function.update_of_ne other ..).trans (inv.fresh n (by omega))
  unrecorded n open' := by
    apply inv.unrecorded n
    intro a i response w h
    have other : n ≠ st.next := by
      rintro rfl
      exact nomatch (inv.fresh st.next le_rfl).symm.trans h
    exact open' a i response w ((Function.update_of_ne other ..).trans h)
  recorded n a i response w h stage := by
    rcases update_some h with ⟨rfl, rfl⟩ | ⟨_, h⟩
    · cases stage
    · exact inv.recorded n a i response w h stage

lemma inv_advance {st : AuditedServer} (inv : st.Inv c) {n : Nat} {a : Attended} {stage : Stage}
    {db : Db} (found : st.requests n = some a)
    (moves : StageStep c key st.clock a.arrival st.db a.stage db stage) :
    AuditedServer.Inv c { st with
      db := db
      requests := Function.update st.requests n (some { a with stage := stage }) } where
  kept m b h := by
    rcases update_some h with ⟨rfl, rfl⟩ | ⟨_, h⟩
    · exact (inv.kept m a found).moves moves
    · exact (inv.kept m b h).later (stageStep_aged moves) le_rfl
  fresh m later := by
    have other : m ≠ n := by
      rintro rfl
      exact nomatch (inv.fresh m later).symm.trans found
    exact (Function.update_of_ne other ..).trans (inv.fresh m later)
  unrecorded m open' := by
    apply inv.unrecorded m
    intro b i response w h
    by_cases same : m = n
    · subst same
      cases found.symm.trans h
      exact (stageStep_open moves i response w).1
    · exact open' b i response w ((Function.update_of_ne same ..).trans h)
  recorded m b i response w h recorded := by
    rcases update_some h with ⟨rfl, rfl⟩ | ⟨_, h⟩
    · exact absurd recorded (stageStep_open moves i response w).2
    · exact inv.recorded m b i response w h recorded

lemma inv_record {st : AuditedServer} (inv : st.Inv c) {n : Nat} {a : Attended}
    {identity : Option AuthedToken} {response : Response} (now : Reading c.time) (written : Bool)
    (found : st.requests n = some a) (answered : a.stage = .answered identity response) :
    AuditedServer.Inv c { st with
      requests := Function.update st.requests n
        (some { a with stage := .recorded identity response written })
      log := if written then
          st.log ++ [(n, auditEntry c a.arrival a.tokenName now response.status)]
        else st.log } := by
  have before : st.entries n = [] := by
    apply inv.unrecorded n
    intro b i response' w h
    cases found.symm.trans h
    rw [answered]
    exact nofun
  have entries : ∀ m, AuditedServer.entries { st with log := if written then
        st.log ++ [(n, auditEntry c a.arrival a.tokenName now response.status)] else st.log } m =
      if n = m then recordEntry written
        (auditEntry c a.arrival a.tokenName now response.status) [] else st.entries m := by
    intro m
    cases written with
    | true =>
      rw [if_pos rfl, entries_append]
      by_cases same : n = m
      · rw [if_pos same, if_pos same, ← same, before]
        rfl
      · rw [if_neg same, if_neg same]
    | false =>
      by_cases same : n = m
      · rw [if_pos same, ← same]
        exact before
      · rw [if_neg same]
        rfl
  constructor
  · intro m b h
    rcases update_some h with ⟨rfl, rfl⟩ | ⟨_, h⟩
    · have kept := inv.kept m a found
      refine ⟨kept.aged, kept.clock, kept.looked, ?_⟩
      intro token acted
      exact kept.named token (by rw [answered]; exact acted)
    · exact inv.kept m b h
  · intro m later
    have other : m ≠ n := by
      rintro rfl
      exact nomatch (inv.fresh m later).symm.trans found
    exact (Function.update_of_ne other ..).trans (inv.fresh m later)
  · intro m open'
    have other : m ≠ n := by
      rintro rfl
      exact open' _ identity response written (Function.update_self ..) rfl
    refine (entries m).trans ?_
    rw [if_neg (Ne.symm other)]
    apply inv.unrecorded m
    intro b i response' w h
    exact open' b i response' w ((Function.update_of_ne other ..).trans h)
  · intro m b i response' w h recorded
    rcases update_some h with ⟨rfl, rfl⟩ | ⟨same, h⟩
    · cases recorded
      exact ⟨now, (entries m).trans (if_pos rfl)⟩
    · obtain ⟨then', logged⟩ := inv.recorded m b i response' w h recorded
      exact ⟨then', ((entries m).trans (if_neg (Ne.symm same))).trans logged⟩

lemma inv_step {st st' : AuditedServer} (inv : st.Inv c) (step : AuditedStep c key st st') :
    st'.Inv c := by
  cases step with
  | arrive r faults => exact inv_arrive inv r faults
  | advance n a stage db found moves => exact inv_advance inv found moves
  | record n a identity response now written found answered =>
    exact inv_record inv now written found answered
  | command db ran =>
    refine ⟨?_, inv.fresh, inv.unrecorded, inv.recorded⟩
    exact fun n a h => (inv.kept n a h).later (commandStep_aged ran) le_rfl
  | tick clock later =>
    refine ⟨?_, inv.fresh, inv.unrecorded, inv.recorded⟩
    exact fun n a h => (inv.kept n a h).later (.refl _) later

lemma inv_run {db : Db} {clock : Int} {st : AuditedServer}
    (run : ReflTransGen (AuditedStep c key) (.start db clock) st) : st.Inv c :=
  Transitions.preserved (fun _ _ inv step => inv_step inv step) run (inv_start db clock)

/-- Whatever ran between the two lookups of a request, its one line in the log names the token
that it acted under, with the status that was returned. -/
theorem log_names_actor {db : Db} {clock : Int} {st : AuditedServer}
    (run : ReflTransGen (AuditedStep c key) (.start db clock) st) {n : Nat} {a : Attended}
    (found : st.requests n = some a) {token : AuthedToken} {response : Response}
    (recorded : a.stage = .recorded (some token) response true) (looked : a.lookedUp = true)
    (issued : a.IssuedBefore c) (distinct : DistinctHashes st.db.tokens) :
    ∃ entry, st.entries n = [entry] ∧ entry.token = some token.name ∧
      entry.status = response.status := by
  have inv : st.Inv c := inv_run run
  obtain ⟨now, logged⟩ := inv.recorded n a _ _ _ found recorded
  have named : a.tokenName = some token.name :=
    (inv.kept n a found).named token (by rw [recorded]; rfl) looked issued distinct
  exact ⟨_, logged, named, rfl⟩

/-! ## A listing with a token created and time gone by between its lookups -/

def otherDraws : CommandDraws framedServer.time := ⟨epoch, epoch, "tok2"⟩

def attendedListing (stage : Stage) : Attended :=
  ⟨listing "app", (resolveTokenName framedServer (listing "app").authorization 0
    ⟨projectDb, []⟩).1, true, projectDb.tokens, 0, stage⟩

def arrivedListing : AuditedServer :=
  { AuditedServer.start projectDb 0 with
    requests := Function.update (fun _ => none) 0 (some (attendedListing .arrived))
    next := 1 }

def laterListing : AuditedServer :=
  { arrivedListing with
    db := (Commands.tokenCreate framedServer "ci" none none otherDraws ⟨projectDb, []⟩).2.store
    clock := 5 }

def authenticatedListing : AuditedServer :=
  { laterListing with
    requests := Function.update laterListing.requests 0 (some (attendedListing
      (.authenticated ⟨"root", none⟩ (.ok (.store (.getSecrets "app")))))) }

def answeredListing : AuditedServer :=
  { authenticatedListing with
    requests := Function.update authenticatedListing.requests 0 (some (attendedListing
      (.answered (some ⟨"root", none⟩) ⟨200, .secrets ∅⟩))) }

def recordedListing : AuditedServer :=
  { answeredListing with
    requests := Function.update answeredListing.requests 0 (some (attendedListing
      (.recorded (some ⟨"root", none⟩) ⟨200, .secrets ∅⟩ true)))
    log := [(0, auditEntry framedServer (listing "app") (attendedListing .arrived).tokenName epoch
      200)] }

lemma recordedListing_run :
    ReflTransGen (AuditedStep framedServer [7]) (.start projectDb 0) recordedListing := by
  have arrived : AuditedStep framedServer [7] (.start projectDb 0) arrivedListing :=
    .arrive _ (listing "app") []
  have created : AuditedStep framedServer [7] arrivedListing
      { arrivedListing with db := laterListing.db } :=
    .command _ _ (.create "ci" none none otherDraws [])
  have ticked : AuditedStep framedServer [7] { arrivedListing with db := laterListing.db }
      laterListing := .tick _ 5 (by decide)
  have routed : (listing "app").toRequest.routed framedServer =
      .guarded (.ok (.store (.getSecrets "app"))) := by
    have found : matchRoute (pathSegments (listing "app").path) = some (.secrets "app") := by decide
    apply routed_of_call found (by simp)
    rfl
  have authenticated : AuditedStep framedServer [7] laterListing authenticatedListing :=
    .advance _ 0 (attendedListing .arrived) _ _ rfl
      (.authenticate _ [] ⟨"root", none⟩ _ routed (by decide))
  have served : handleCall framedServer [7] ⟨"root", none⟩ (.ok (.store (.getSecrets "app")))
      (epochDraws "") ⟨laterListing.db, []⟩ = (.ok ⟨200, .secrets ∅⟩, ⟨laterListing.db, []⟩) := by
    rfl
  have acted : StageStep framedServer [7] 5 (listing "app") laterListing.db
      (.authenticated ⟨"root", none⟩ (.ok (.store (.getSecrets "app")))) laterListing.db
      (.answered (some ⟨"root", none⟩) ⟨200, .secrets ∅⟩) := by
    have replied : reply (listing "app").method (handleCall framedServer [7] ⟨"root", none⟩
        (.ok (.store (.getSecrets "app"))) (epochDraws "") ⟨laterListing.db, []⟩).1 =
        some ⟨200, .secrets ∅⟩ := by
      rw [served]
      rfl
    have act : StageStep framedServer [7] 5 (listing "app") _ _ _ _ :=
      .act laterListing.db [] ⟨"root", none⟩ _ (epochDraws "") _ replied
    rw [served] at act
    exact act
  have answered : AuditedStep framedServer [7] authenticatedListing answeredListing :=
    .advance _ 0 (attendedListing (.authenticated ⟨"root", none⟩
      (.ok (.store (.getSecrets "app"))))) _ _ rfl acted
  have recorded : AuditedStep framedServer [7] answeredListing recordedListing :=
    AuditedStep.record (c := framedServer) answeredListing 0 (attendedListing
      (.answered (some ⟨"root", none⟩) ⟨200, .secrets ∅⟩)) _ _ epoch true rfl rfl
  exact (((((ReflTransGen.single arrived).tail created).tail ticked).tail authenticated).tail
    answered).tail recorded

/-- One line, under the name of the token that listed. -/
theorem log_names_actor_listing : ∃ entry, recordedListing.entries 0 = [entry] ∧
    entry.token = some "root" ∧ entry.status = 200 := by
  have issued : (attendedListing (.recorded (some ⟨"root", none⟩) ⟨200, .secrets ∅⟩
      true)).IssuedBefore framedServer := by
    exact ⟨"tok", by decide, by decide⟩
  have found : recordedListing.requests 0 = some (attendedListing
      (.recorded (some ⟨"root", none⟩) ⟨200, .secrets ∅⟩ true)) := rfl
  exact log_names_actor recordedListing_run found rfl rfl issued (by decide)

end SecretsManager
