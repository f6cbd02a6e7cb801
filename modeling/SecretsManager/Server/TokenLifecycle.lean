import SecretsManager.Server.Commands

/-!
# The life of a token

A run of API calls and token commands, in any order and with any statement failing,
leaves a history of issues and revocations. The ledger of a history lists its issues
in order, each with whether its name has been revoked since; the tokens table is the
ledger, row by row, so a bearer authenticates exactly while its issue stands there
unrevoked and its days have not run out.
-/

namespace SecretsManager

open FaultySession KeyedTable

/-! ## Histories -/

/-- A token that was handed out. -/
structure Issue where
  token : String
  name : String
  scope : Option String
  issuedAt : Int
  ttlDays : Option UInt32
  deriving DecidableEq

/-- No expiry, or a day that has not come. -/
def Issue.unexpired (i : Issue) (now : Int) : Prop :=
  ∀ days, i.ttlDays = some days → now < i.issuedAt + days.toNat * 86400 * 1000000000

inductive TokenEvent where
  | issued (i : Issue)
  | revoked (name : String) (count : Nat)

def TokenEvent.revokes (name : String) : TokenEvent → Bool
  | issued _ => false
  | revoked name' _ => name' = name

/-- The issues of a history, each with whether its name was revoked after it. -/
def ledger : List TokenEvent → List (Issue × Bool)
  | [] => []
  | .issued i :: rest => (i, rest.any (TokenEvent.revokes i.name)) :: ledger rest
  | .revoked .. :: rest => ledger rest

def ledgerTokens (history : List TokenEvent) : List String :=
  (ledger history).map fun e => e.1.token

/-- The tokens of this name that are not revoked. -/
def unrevoked (name : String) (history : List TokenEvent) : Nat :=
  (ledger history).countP fun e => e.1.name = name ∧ e.2 = false

/-- The bearer was issued as this identity, was not revoked since and has not expired. -/
def Valid (history : List TokenEvent) (now : Int) (bearer : String) (t : AuthedToken) : Prop :=
  ∃ before i after, history = before ++ .issued i :: after ∧ i.token = bearer ∧
    t = ⟨i.name, i.scope⟩ ∧ (∀ count, .revoked i.name count ∉ after) ∧ i.unexpired now

lemma ledger_append (first rest : List TokenEvent) : ledger (first ++ rest) =
    (ledger first).map (fun e => (e.1, e.2 || rest.any (TokenEvent.revokes e.1.name))) ++
      ledger rest := by
  induction first with
  | nil => rfl
  | cons e first ih =>
    cases e with
    | issued i => simp [ledger, ih]
    | revoked name count => simp [ledger, ih]

lemma ledger_issued (history : List TokenEvent) (i : Issue) :
    ledger (history ++ [.issued i]) = ledger history ++ [(i, false)] := by
  simp [ledger_append, ledger, TokenEvent.revokes]

lemma ledger_revoked (history : List TokenEvent) (name : String) (count : Nat) :
    ledger (history ++ [.revoked name count]) =
      (ledger history).map fun e => (e.1, e.2 || decide (name = e.1.name)) := by
  simp [ledger_append, ledger, TokenEvent.revokes]

/-- An issue stands unrevoked in the ledger if no revocation of its name follows it. -/
lemma mem_ledger {history : List TokenEvent} {i : Issue} : (i, false) ∈ ledger history ↔
    ∃ before after, history = before ++ .issued i :: after ∧
      ∀ count, TokenEvent.revoked i.name count ∉ after := by
  have revokes : ∀ {name : String} {rest : List TokenEvent},
      rest.any (TokenEvent.revokes name) = false ↔ ∀ count, .revoked name count ∉ rest := by
    intro name rest
    rw [List.any_eq_false]
    constructor
    · intro none count mem
      exact none _ mem (by simp [TokenEvent.revokes])
    · rintro none (_ | ⟨name', count⟩) mem
      · simp [TokenEvent.revokes]
      · simp only [TokenEvent.revokes, decide_eq_true_eq]
        rintro rfl
        exact none count mem
  induction history with
  | nil => simp [ledger]
  | cons e history ih =>
    constructor
    · intro mem
      cases e with
      | issued j =>
        rcases List.mem_cons.mp mem with same | later
        · obtain ⟨rfl, unrevoked⟩ := Prod.mk.inj same
          exact ⟨[], history, rfl, revokes.mp unrevoked.symm⟩
        · obtain ⟨before, after, rfl, none⟩ := ih.mp later
          exact ⟨.issued j :: before, after, rfl, none⟩
      | revoked name count =>
        obtain ⟨before, after, rfl, none⟩ := ih.mp mem
        exact ⟨.revoked name count :: before, after, rfl, none⟩
    · rintro ⟨before, after, split, none⟩
      cases before with
      | nil =>
        obtain ⟨rfl, rfl⟩ := List.cons.inj split
        exact List.mem_cons.mpr (Or.inl (Prod.ext rfl (revokes.mpr none).symm))
      | cons _ before =>
        obtain ⟨rfl, rfl⟩ := List.cons.inj split
        have later := ih.mpr ⟨before, after, rfl, none⟩
        cases e with
        | issued j => exact List.mem_cons_of_mem _ later
        | revoked name count => exact later

theorem valid_iff {history : List TokenEvent} {now : Int} {bearer : String} {t : AuthedToken} :
    Valid history now bearer t ↔ ∃ i, (i, false) ∈ ledger history ∧ i.token = bearer ∧
      t = ⟨i.name, i.scope⟩ ∧ i.unexpired now := by
  constructor
  · rintro ⟨before, i, after, split, token, identity, none, unexpired⟩
    exact ⟨i, mem_ledger.mpr ⟨before, after, split, none⟩, token, identity, unexpired⟩
  · rintro ⟨i, mem, token, identity, unexpired⟩
    obtain ⟨before, after, split, none⟩ := mem_ledger.mp mem
    exact ⟨before, i, after, split, token, identity, none, unexpired⟩

/-! ## Runs -/

inductive TokenOp (time : TimeCrate) where
  /-- Any call of the API, on anybody's authority. -/
  | request (caller : AuthedToken) (call : Call) (d : Draws time) (faults : List Bool)
  | commandCreate (name : String) (project : Option String) (ttlDays : Option UInt32)
    (d : CommandDraws time) (faults : List Bool)
  | commandRevoke (name : String) (faults : List Bool)

variable {Key : Type} (c : ServerCrates Key) (key : Key)

namespace TokenOp

/-- The database after the operation. -/
def after : TokenOp c.time → Db → Db
  | request caller call d faults, db => (call.perform c key caller d ⟨db, faults⟩).2.store
  | commandCreate name project ttlDays d faults, db =>
    (Commands.tokenCreate c name project ttlDays d ⟨db, faults⟩).2.store
  | commandRevoke name faults, db => (Commands.tokenRevoke name ⟨db, faults⟩).2.store

/-- The token that the operation handed out, or the count that it reported. -/
def event : TokenOp c.time → Db → Option TokenEvent
  | request caller call d faults, db =>
    match call, (call.perform c key caller d ⟨db, faults⟩).1 with
    | .createToken (.ok body), .ok _ => some (.issued ⟨d.token, body.name, body.project,
        d.expiresFrom.instant, if body.noExpiry then none else some (body.ttlDays.getD 90)⟩)
    | .revokeToken name, .ok ⟨_, .revoked count⟩ => some (.revoked name count)
    | _, _ => none
  | commandCreate name project ttlDays d faults, db =>
    match (Commands.tokenCreate c name project ttlDays d ⟨db, faults⟩).1 with
    | .ok _ => some (.issued ⟨d.token, name, project, d.expiresFrom.instant, ttlDays⟩)
    | .error _ => none
  | commandRevoke name faults, db =>
    match (Commands.tokenRevoke name ⟨db, faults⟩).1 with
    | .ok count => some (.revoked name count)
    | .error _ => none

end TokenOp

/-- The database after a run. -/
def tokenRun (db : Db) (ops : List (TokenOp c.time)) : Db :=
  ops.foldl (fun db op => op.after c key db) db

/-- What a run handed out and revoked, in order. -/
def tokenHistory : Db → List (TokenOp c.time) → List TokenEvent
  | _, [] => []
  | db, op :: ops => (op.event c key db).toList ++ tokenHistory (op.after c key db) ops

/-- No token of the history is hashed like this one but itself. -/
def CollisionFree (history : List TokenEvent) (bearer : String) : Prop :=
  ∀ token ∈ ledgerTokens history, hashToken c.toCryptoCrates token =
    hashToken c.toCryptoCrates bearer → token = bearer

/-- Whom a bearer authenticates as. -/
def identityOf (db : Db) (now : Int) (bearer : String) :
    Except SqliteError (Option AuthedToken) :=
  (Repo.authenticate c.time (hashToken c.toCryptoCrates bearer) now ⟨db, []⟩).1

variable {c} {key}

lemma tokenRun_snoc (db : Db) (ops : List (TokenOp c.time)) (op : TokenOp c.time) :
    tokenRun c key db (ops ++ [op]) = op.after c key (tokenRun c key db ops) := by
  simp [tokenRun]

lemma tokenHistory_append (db : Db) (first rest : List (TokenOp c.time)) :
    tokenHistory c key db (first ++ rest) =
      tokenHistory c key db first ++ tokenHistory c key (tokenRun c key db first) rest := by
  induction first generalizing db with
  | nil => rfl
  | cons op first ih =>
    simp only [List.cons_append, tokenHistory, ih, List.append_assoc]
    rfl

lemma tokenHistory_snoc (db : Db) (ops : List (TokenOp c.time)) (op : TokenOp c.time) :
    tokenHistory c key db (ops ++ [op]) =
      tokenHistory c key db ops ++ (op.event c key (tokenRun c key db ops)).toList := by
  simp [tokenHistory_append, tokenHistory]

/-! ## The table is the ledger -/

/-- What is printed can be read back. -/
def TimeCrate.RoundTrips (time : TimeCrate) : Prop :=
  ∀ i text, time.format i = some text → time.parse text = some i

section Rows

variable (roundTrip : c.time.RoundTrips)

/-- The row of an entry of the ledger. -/
structure Recorded (c : ServerCrates Key) (e : Issue × Bool) (row : TokenRow) : Prop where
  name : row.name = e.1.name
  hash : row.tokenHash = hashToken c.toCryptoCrates e.1.token
  scope : row.projectScope = e.1.scope
  revoked : row.revoked = e.2
  expiry : ∀ now, notExpired c.time now row.expiresAt = true ↔ e.1.unexpired now

lemma notExpired_never {i : Issue} {now : Int} (never : i.ttlDays = none) :
    notExpired c.time now none = true ↔ i.unexpired now := by
  simp [notExpired, Issue.unexpired, never]

include roundTrip

lemma notExpired_text {i : Issue} {now expiry : Int} {days : UInt32} {text : String}
    (ttl : i.ttlDays = some days) (added : addDays i.issuedAt days = some expiry)
    (formatted : c.time.format expiry = some text) :
    notExpired c.time now (some text) = true ↔ i.unexpired now := by
  have sum : i.issuedAt + days.toNat * 86400 * 1000000000 = expiry := by
    simp only [addDays, Option.ite_none_right_eq_some, Option.some.injEq] at added
    exact added.2
  simp [notExpired, roundTrip _ _ formatted, Issue.unexpired, ttl, sum]

lemma handler_expiry {body : CreateTokenBody} {d : Draws c.time} {expiresAt : Option String}
    {i : Issue} (issuedAt : i.issuedAt = d.expiresFrom.instant)
    (ttl : i.ttlDays = if body.noExpiry then none else some (body.ttlDays.getD 90))
    (expiry : Handlers.tokenExpiry c body d = .ok expiresAt) (now : Int) :
    notExpired c.time now expiresAt = true ↔ i.unexpired now := by
  unfold Handlers.tokenExpiry at expiry
  cases never : body.noExpiry with
  | true =>
    simp only [never, if_true] at expiry ttl
    cases expiry
    exact notExpired_never ttl
  | false =>
    simp only [never, Bool.false_eq_true, if_false] at expiry ttl
    split at expiry
    · cases expiry
    · split at expiry
      · cases expiry
      · rename_i instant added
        split at expiry
        · cases expiry
        · rename_i text formatted
          cases expiry
          rw [← issuedAt] at added
          exact notExpired_text roundTrip ttl added formatted

lemma command_expiry {ttlDays : Option UInt32} {expiresAt : Option String} {i : Issue}
    (ttl : i.ttlDays = ttlDays)
    (expiry : Commands.tokenExpiry c ttlDays i.issuedAt = .ok expiresAt) (now : Int) :
    notExpired c.time now expiresAt = true ↔ i.unexpired now := by
  unfold Commands.tokenExpiry at expiry
  cases ttlDays with
  | none =>
    cases expiry
    exact notExpired_never ttl
  | some days =>
    simp only at expiry
    split at expiry
    · cases expiry
    · rename_i instant added
      split at expiry
      · cases expiry
      · rename_i text formatted
        cases expiry
        exact notExpired_text roundTrip ttl added formatted

/-- An operation hands out a token and adds its row, revokes a name and counts its rows, or leaves
the table alone. -/
theorem op_cases (op : TokenOp c.time) (db : Db) :
    (∃ i row, op.event c key db = some (.issued i) ∧
      (op.after c key db).tokens = db.tokens ++ [row] ∧ Recorded c (i, false) row) ∨
    (∃ name, op.event c key db =
        some (.revoked name (db.tokens.countP (TokenRow.activeAs name))) ∧
      (op.after c key db).tokens = (db.revokeTokens name).tokens) ∨
    (op.event c key db = none ∧ (op.after c key db).tokens = db.tokens) := by
  cases op with
  | request caller call d faults =>
    have ends := perform_ends key call caller d ⟨db, faults⟩
    unfold TokenOp.event TokenOp.after
    simp only
    generalize (call.perform c key caller d ⟨db, faults⟩).1 = outcome at ends ⊢
    generalize (call.perform c key caller d ⟨db, faults⟩).2.store = db' at ends ⊢
    rcases ends with ⟨response, rfl, outcome⟩ | ⟨e, rfl, leftover⟩
    · cases outcome with
      | createToken body expiresAt admin valid validScope expiry =>
        refine Or.inl ⟨_, _, rfl, rfl, rfl, rfl, rfl, rfl, ?_⟩
        exact handler_expiry roundTrip rfl rfl expiry
      | revokeToken name => exact Or.inr (Or.inl ⟨name, rfl, rfl⟩)
      | createProject => exact Or.inr (Or.inr ⟨rfl, rfl⟩)
      | listProjects => exact Or.inr (Or.inr ⟨rfl, rfl⟩)
      | getSecrets => exact Or.inr (Or.inr ⟨rfl, rfl⟩)
      | putSecret => exact Or.inr (Or.inr ⟨rfl, rfl⟩)
      | deleteSecret => exact Or.inr (Or.inr ⟨rfl, rfl⟩)
      | listTokens => exact Or.inr (Or.inr ⟨rfl, rfl⟩)
    · refine Or.inr (Or.inr ⟨?_, ?_⟩)
      · cases call with
        | createToken body => cases body <;> rfl
        | _ => rfl
      · rcases leftover with rfl | ⟨_, _, _, _, _, _, _, _, rfl⟩ <;> rfl
  | commandCreate name project ttlDays d faults =>
    have whole : Triple (fun s => s = db) (Commands.tokenCreate c name project ttlDays d) _ _ :=
      tokenCreate_triple
    unfold TokenOp.event TokenOp.after
    simp only
    rcases whole.elim (s := ⟨db, faults⟩) rfl with ⟨_, ok, expiresAt, expiry, same⟩ | ⟨e, error, same⟩
    · rw [ok, same]
      refine Or.inl ⟨_, _, rfl, rfl, rfl, rfl, rfl, rfl, ?_⟩
      exact command_expiry roundTrip rfl expiry
    · rw [error, same]
      exact Or.inr (Or.inr ⟨rfl, rfl⟩)
  | commandRevoke name faults =>
    have whole : Triple (fun s => s = db) (Commands.tokenRevoke name) _ _ := tokenRevoke_triple
    unfold TokenOp.event TokenOp.after
    simp only
    rcases whole.elim (s := ⟨db, faults⟩) rfl with ⟨_, ok, rfl, same⟩ | ⟨e, error, same⟩
    · rw [ok, same]
      exact Or.inr (Or.inl ⟨name, rfl, rfl⟩)
    · rw [error, same]
      exact Or.inr (Or.inr ⟨rfl, rfl⟩)

omit roundTrip

variable {history : List TokenEvent} {rows : List TokenRow}

lemma recorded_issued {i : Issue} {row : TokenRow}
    (recorded : List.Forall₂ (Recorded c) (ledger history) rows)
    (added : Recorded c (i, false) row) :
    List.Forall₂ (Recorded c) (ledger (history ++ [.issued i])) (rows ++ [row]) := by
  rw [ledger_issued]
  exact List.rel_append recorded (.cons added .nil)

lemma recorded_revoked {db : Db} {name : String} {count : Nat}
    (recorded : List.Forall₂ (Recorded c) (ledger history) db.tokens) :
    List.Forall₂ (Recorded c) (ledger (history ++ [.revoked name count]))
      (db.revokeTokens name).tokens := by
  rw [ledger_revoked]
  unfold Db.revokeTokens
  rw [List.forall₂_map_left_iff, List.forall₂_map_right_iff]
  apply recorded.imp
  intro e row h
  by_cases active : row.activeAs name
  · rw [if_pos active]
    simp only [TokenRow.activeAs, decide_eq_true_eq] at active
    have named : name = e.1.name := active.1.symm.trans h.name
    exact ⟨h.name, h.hash, h.scope, by simp [named], h.expiry⟩
  · rw [if_neg active]
    refine ⟨h.name, h.hash, h.scope, ?_, h.expiry⟩
    simp only [TokenRow.activeAs, h.name, h.revoked, decide_eq_true_eq, not_and] at active
    rw [h.revoked]
    by_cases named : e.1.name = name
    · simp [active named]
    · simp [Ne.symm named]

include roundTrip

/-- After any run, the tokens table is the ledger of its history. -/
theorem recorded_run (ops : List (TokenOp c.time)) :
    List.Forall₂ (Recorded c) (ledger (tokenHistory c key .empty ops))
      (tokenRun c key .empty ops).tokens := by
  induction ops using List.reverseRecOn with
  | nil => exact .nil
  | append_singleton ops op ih =>
    rw [tokenHistory_snoc, tokenRun_snoc]
    rcases op_cases roundTrip op (tokenRun c key .empty ops) with
      ⟨i, row, event, after, added⟩ | ⟨name, event, after⟩ | ⟨event, after⟩
    · rw [event, after]
      exact recorded_issued ih added
    · rw [event, after]
      exact recorded_revoked ih
    · rw [event, after]
      simpa using ih

end Rows

/-! ## Whom a bearer authenticates as -/

section Identities

variable {history : List TokenEvent} {db : Db} {now : Int} {bearer : String} {t : AuthedToken}

lemma Recorded.accepts_iff {e : Issue × Bool} {row : TokenRow} (h : Recorded c e row) :
    row.accepts c.time now (hashToken c.toCryptoCrates bearer) = true ↔
      e.2 = false ∧ e.1.unexpired now ∧
        hashToken c.toCryptoCrates e.1.token = hashToken c.toCryptoCrates bearer := by
  simp only [TokenRow.accepts, h.revoked, h.expiry, h.hash, decide_eq_true_eq]

lemma identityOf_eq : identityOf c db now bearer =
    .ok (authenticateRows c.time now (hashToken c.toCryptoCrates bearer)
      (db.tokens.filter fun r => r.revoked = false)) := rfl

/-- Who is answered for was issued and stands in the ledger. -/
lemma valid_of_identity (recorded : List.Forall₂ (Recorded c) (ledger history) db.tokens)
    (free : CollisionFree c history bearer) (found : identityOf c db now bearer = .ok (some t)) :
    Valid history now bearer t := by
  rw [identityOf_eq] at found
  obtain ⟨row, hrow, accepted, rfl⟩ := authenticateRows_some (Except.ok.inj found)
  obtain ⟨⟨i, revoked⟩, listed, entry⟩ := forall₂_mem_left recorded.flip hrow
  obtain ⟨rfl, unexpired, hash⟩ := entry.accepts_iff.mp accepted
  have token := free i.token (List.mem_map.mpr ⟨_, listed, rfl⟩) hash
  rw [valid_iff]
  refine ⟨i, listed, token, ?_, unexpired⟩
  rw [entry.name, entry.scope]

/-- One issue of a token is all there is, so nobody else is answered for. -/
theorem identity_iff_valid (recorded : List.Forall₂ (Recorded c) (ledger history) db.tokens)
    (distinct : (ledgerTokens history).Nodup) (free : CollisionFree c history bearer) :
    identityOf c db now bearer = .ok (some t) ↔ Valid history now bearer t := by
  constructor
  · exact valid_of_identity recorded free
  · intro valid
    obtain ⟨i, listed, rfl, rfl, unexpired⟩ := valid_iff.mp valid
    obtain ⟨row, hrow, entry⟩ := forall₂_mem_left recorded listed
    have accepted : row.accepts c.time now (hashToken c.toCryptoCrates i.token) = true :=
      entry.accepts_iff.mpr ⟨rfl, unexpired, rfl⟩
    cases found : authenticateRows c.time now (hashToken c.toCryptoCrates i.token)
        (db.tokens.filter fun r => r.revoked = false) with
    | none => exact absurd accepted (authenticateRows_none.mp found row hrow)
    | some t =>
      have answered : identityOf c db now i.token = .ok (some t) := by rw [identityOf_eq, found]
      obtain ⟨j, listed', token, rfl, _⟩ := valid_iff.mp (valid_of_identity recorded free answered)
      have same : (j, false) = (i, false) :=
        List.inj_on_of_nodup_map distinct listed' listed token
      obtain rfl := congrArg Prod.fst same
      exact answered

lemma recorded_count {entries : List (Issue × Bool)} {rows : List TokenRow} (name : String)
    (recorded : List.Forall₂ (Recorded c) entries rows) :
    rows.countP (TokenRow.activeAs name) =
      entries.countP fun e => e.1.name = name ∧ e.2 = false := by
  induction recorded with
  | nil => rfl
  | cons entry _ ih =>
    rw [List.countP_cons, List.countP_cons, ih]
    simp only [TokenRow.activeAs, entry.name, entry.revoked]

/-- A revocation of one name leaves the tokens of the others valid. -/
lemma valid_other {name : String} {count : Nat} (other : t.name ≠ name) :
    Valid history now bearer t ↔ Valid (history ++ [.revoked name count]) now bearer t := by
  rw [valid_iff, valid_iff, ledger_revoked]
  apply exists_congr
  intro i
  apply and_congr_left
  rintro ⟨_, rfl, _⟩
  constructor
  · intro listed
    exact List.mem_map.mpr ⟨_, listed, by simp [Ne.symm other]⟩
  · intro listed
    obtain ⟨⟨j, revoked⟩, before, same⟩ := List.mem_map.mp listed
    obtain ⟨rfl, kept⟩ := Prod.mk.inj same
    obtain ⟨rfl, _⟩ := (Bool.or_eq_false_iff).mp kept
    exact before

end Identities

lemma ledgerTokens_append (first rest : List TokenEvent) :
    ledgerTokens (first ++ rest) = ledgerTokens first ++ ledgerTokens rest := by
  simp [ledgerTokens, ledger_append, Function.comp_def]

/-- After any run of issues and revocations, a bearer authenticates as whom it was issued to until
its name is revoked or its days are over, and a revocation counts what it revokes and touches no
other name. -/
theorem tokens_live_as_issued (roundTrip : c.time.RoundTrips) (ops : List (TokenOp c.time))
    (distinct : (ledgerTokens (tokenHistory c key .empty ops)).Nodup) :
    (∀ now bearer, CollisionFree c (tokenHistory c key .empty ops) bearer → ∀ t,
      identityOf c (tokenRun c key .empty ops) now bearer = .ok (some t) ↔
        Valid (tokenHistory c key .empty ops) now bearer t) ∧
    ∀ first op rest name count, ops = first ++ op :: rest →
      op.event c key (tokenRun c key .empty first) = some (.revoked name count) →
      count = unrevoked name (tokenHistory c key .empty first) ∧
      ∀ now bearer, CollisionFree c (tokenHistory c key .empty ops) bearer → ∀ t, t.name ≠ name →
        (identityOf c (tokenRun c key .empty first) now bearer = .ok (some t) ↔
          identityOf c (tokenRun c key .empty (first ++ [op])) now bearer = .ok (some t)) := by
  constructor
  · intro now bearer free t
    exact identity_iff_valid (recorded_run roundTrip ops) distinct free
  · rintro first op rest name count rfl event
    have recorded : List.Forall₂ (Recorded c) (ledger (tokenHistory c key .empty first))
        (tokenRun c key .empty first).tokens :=
      recorded_run roundTrip first
    constructor
    · rcases op_cases roundTrip op (tokenRun c key .empty first) with
        ⟨i, _, issued, _⟩ | ⟨_, revoked, _⟩ | ⟨none, _⟩
      · cases event.symm.trans issued
      · cases event.symm.trans revoked
        exact recorded_count name recorded
      · cases event.symm.trans none
    · intro now bearer free t other
      have after : tokenHistory c key .empty (first ++ [op]) =
          tokenHistory c key .empty first ++ [.revoked name count] := by
        rw [tokenHistory_snoc, event]
        rfl
      have shape : tokenHistory c key .empty (first ++ op :: rest) =
          tokenHistory c key .empty (first ++ [op]) ++
            tokenHistory c key (tokenRun c key .empty (first ++ [op])) rest := by
        rw [← tokenHistory_append]
        simp
      rw [shape, ledgerTokens_append] at distinct
      have free' : CollisionFree c (tokenHistory c key .empty (first ++ [op])) bearer := by
        intro token issued
        refine free token ?_
        rw [shape, ledgerTokens_append]
        exact List.mem_append_left _ issued
      have distinct' := (List.nodup_append.mp distinct).1
      rw [identity_iff_valid (recorded_run roundTrip (first ++ [op])) distinct' free', after,
        ← valid_other other]
      rw [after, ledgerTokens_append] at distinct'
      refine identity_iff_valid recorded (List.nodup_append.mp distinct').1 ?_
      intro token issued
      refine free' token ?_
      rw [after, ledgerTokens_append]
      exact List.mem_append_left _ issued

lemma tableTime_roundTrips : tableTime.RoundTrips := by
  intro i text formatted
  simp only [tableTime] at formatted ⊢
  split at formatted
  · cases formatted
    simp_all
  · split at formatted
    · cases formatted
      simp_all
    · cases formatted

/-- A name that is used again after its revocation, by the command line and by the API. -/
def reusedName : List (TokenOp framedServer.time) :=
  [.commandCreate "ci" none none ⟨epoch, epoch, "first"⟩ [],
    .commandCreate "ci" (some "app") (some 90) ⟨epoch, epoch, "second"⟩ [],
    .commandRevoke "ci" [],
    .request ⟨"root", none⟩ (.createToken (.ok ⟨"ci", none, none, false⟩)) (epochDraws "third") []]

theorem tokens_live_as_issued_reusedName :
    (∀ now bearer, CollisionFree framedServer (tokenHistory framedServer [7] .empty reusedName)
        bearer → ∀ t,
      identityOf framedServer (tokenRun framedServer [7] .empty reusedName) now bearer =
          .ok (some t) ↔
        Valid (tokenHistory framedServer [7] .empty reusedName) now bearer t) ∧
    ∀ first op rest name count, reusedName = first ++ op :: rest →
      op.event framedServer [7] (tokenRun framedServer [7] .empty first) =
        some (.revoked name count) →
      count = unrevoked name (tokenHistory framedServer [7] .empty first) ∧
      ∀ now bearer, CollisionFree framedServer (tokenHistory framedServer [7] .empty reusedName)
          bearer → ∀ t, t.name ≠ name →
        (identityOf framedServer (tokenRun framedServer [7] .empty first) now bearer =
            .ok (some t) ↔
          identityOf framedServer (tokenRun framedServer [7] .empty (first ++ [op])) now bearer =
            .ok (some t)) :=
  tokens_live_as_issued tableTime_roundTrips reusedName (by decide)

example : ["first", "second", "third"].map (identityOf framedServer
    (tokenRun framedServer [7] .empty reusedName) 0) =
      [.ok none, .ok none, .ok (some ⟨"ci", none⟩)] := by decide

end SecretsManager
