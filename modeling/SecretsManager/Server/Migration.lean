import SecretsManager.Server.Repo
import SecretsManager.Lib.ColumnTables
import SecretsManager.Lib.Transitions

/-!
# Opening a database of an earlier version

`open` creates the tables that are missing, looks for the column of the expiry
and adds it when it is not there. Each statement commits on its own, and the
`token` commands take no lock, so the statements of several processes mix in any
order. An open fails exactly when another one adds the column between its look
and its own addition; nothing is lost either way.
-/

namespace SecretsManager

open ColumnTables Transitions

inductive SqlValue where
  | null
  | integer (n : Int)
  | text (s : String)
  | blob (bytes : Bytes)
  deriving DecidableEq

abbrev DbFile : Type := Catalog SqlValue

/-- One `CREATE TABLE IF NOT EXISTS` of `migrate`. -/
structure TableDef where
  name : String
  columns : List String
  distinct : columns.Nodup
  deriving DecidableEq

def TableDef.table (d : TableDef) : ColumnTable SqlValue := .empty d.columns d.distinct

def metaDef : TableDef := ⟨"meta", ["key", "value"], by decide⟩

def projectsDef : TableDef := ⟨"projects", ["id", "name", "created_at"], by decide⟩

def secretsDef : TableDef where
  name := "secrets"
  columns := ["id", "project_id", "key", "nonce", "ciphertext", "version", "updated_at"]
  distinct := by decide

/-- The columns of `tokens` before tokens could expire. -/
def legacyColumns : List String :=
  ["id", "name", "token_hash", "project_scope", "created_at", "revoked"]

def tokenColumns : List String := legacyColumns ++ ["expires_at"]

def tokensDef : TableDef := ⟨"tokens", tokenColumns, by decide⟩

/-! ## The statements of one open -/

/-- What an open does next, or how it ended. -/
inductive Opening where
  | connecting
  | settingPragmas
  | creating (table : TableDef) (rest : List TableDef)
  | testing
  | altering
  | opened
  | failed (context : String) (cause : AlterError)
  deriving DecidableEq

/-- `None` for an open that has ended. -/
def Opening.step (file : DbFile) : Opening → Option (Opening × DbFile)
  | .connecting => some (.settingPragmas, file)
  | .settingPragmas => some (.creating metaDef [projectsDef, secretsDef, tokensDef], file)
  | .creating d rest =>
    let created := file.createIfAbsent d.name d.table
    match rest with
    | [] => some (.testing, created)
    | next :: rest => some (.creating next rest, created)
  | .testing =>
    some (if file.hasColumn "tokens" "expires_at" then .opened else .altering, file)
  | .altering =>
    match file.addColumn "tokens" "expires_at" .null with
    | .ok altered => some (.opened, altered)
    | .error cause => some (.failed "failed to add tokens.expires_at column" cause, file)
  | .opened => none
  | .failed _ _ => none

/-- An upper bound of the statements to come. -/
def Opening.remaining : Opening → Nat
  | .connecting => 8
  | .settingPragmas => 7
  | .creating _ rest => rest.length + 3
  | .testing => 2
  | .altering => 1
  | .opened => 0
  | .failed _ _ => 0

/-- A database file and the processes that open it, each by its number. -/
structure OpeningHost where
  file : DbFile
  openers : Nat → Opening

namespace OpeningHost

def startedOn (file : DbFile) : OpeningHost := ⟨file, fun _ => .connecting⟩

/-- The next statement of one process. -/
def advance (h : OpeningHost) (pid : Nat) : Option OpeningHost :=
  ((h.openers pid).step h.file).map fun (next, file) =>
    ⟨file, Function.update h.openers pid next⟩

/-- Whoever is about to add the column finds it missing. -/
def AddsMissing (h : OpeningHost) (pid : Nat) : Prop :=
  h.openers pid = .altering → h.file.hasColumn "tokens" "expires_at" = false

instance (h : OpeningHost) (pid : Nat) : Decidable (h.AddsMissing pid) :=
  inferInstanceAs (Decidable (_ → _))

end OpeningHost

/-! ## Reading the tokens -/

def optionalText : Option SqlValue → Option (Option String)
  | some .null => some none
  | some (.text s) => some (some s)
  | _ => none

/-- A row as the columns of `tokenColumns` give it. -/
def tokenFromCells : List (Option SqlValue) → Option TokenRow
  | [some (.integer (.ofNat id)), some (.text name), some (.blob hash), scope,
      some (.text createdAt), some (.integer revoked), expires] => do
    let scope ← optionalText scope
    let expires ← optionalText expires
    return ⟨id, name, hash, scope, createdAt, revoked ≠ 0, expires⟩
  | _ => none

def DbFile.tokens (file : DbFile) : Option (List TokenRow) := do
  let t ← file "tokens"
  (t.select tokenColumns).mapM tokenFromCells

structure LegacyToken where
  id : Nat
  name : String
  tokenHash : Bytes
  projectScope : Option String
  createdAt : String
  revoked : Bool
  deriving DecidableEq

def LegacyToken.cells (r : LegacyToken) : List SqlValue :=
  [.integer r.id, .text r.name, .blob r.tokenHash, r.projectScope.elim .null .text,
    .text r.createdAt, .integer r.revoked.toNat]

/-- The `tokens` table as an earlier version left it. -/
def legacyTable (legacy : List LegacyToken) : ColumnTable SqlValue where
  columns := legacyColumns
  rows := legacy.map LegacyToken.cells
  distinct := by decide
  shaped := by
    intro row mem
    obtain ⟨r, -, rfl⟩ := List.mem_map.mp mem
    rfl

/-- The same token, without an expiry. -/
def LegacyToken.migrated (r : LegacyToken) : TokenRow :=
  ⟨r.id, r.name, r.tokenHash, r.projectScope, r.createdAt, r.revoked, none⟩

/-- What the bearer of a token was before tokens could expire. -/
def legacyIdentity (legacy : List LegacyToken) (presented : Bytes) : Option AuthedToken :=
  ((legacy.filter fun r => r.revoked = false ∧ r.tokenHash = presented).getLast?).map
    fun r => ⟨r.name, r.projectScope⟩

/-! ## What one statement does -/

section Step

variable {file file' : DbFile} {o next : Opening}

theorem Opening.step_keeps (stepped : o.step file = some (next, file')) : file.Keeps file' := by
  cases o with
  | connecting | settingPragmas | testing =>
    cases stepped
    exact .refl file
  | creating d rest =>
    cases rest <;> cases stepped <;> exact Catalog.createIfAbsent_keeps d.name d.table
  | altering =>
    simp only [Opening.step] at stepped
    split at stepped
    · next altered added =>
      cases stepped
      exact Catalog.addColumn_keeps added
    · cases stepped
      exact .refl file
  | opened | failed => cases stepped

theorem Opening.step_remaining (stepped : o.step file = some (next, file')) :
    next.remaining < o.remaining := by
  cases o with
  | connecting | settingPragmas =>
    cases stepped
    decide
  | creating d rest =>
    cases rest <;> cases stepped <;> simp [Opening.remaining]
  | testing =>
    cases stepped
    split <;> decide
  | altering =>
    simp only [Opening.step] at stepped
    split at stepped <;> cases stepped <;> simp [Opening.remaining]
  | opened | failed => cases stepped

/-- An open that returns has seen or added the column. -/
theorem Opening.step_opened (stepped : o.step file = some (.opened, file')) :
    file'.hasColumn "tokens" "expires_at" = true := by
  cases o with
  | connecting | settingPragmas => cases stepped
  | creating d rest => cases rest <;> cases stepped
  | testing =>
    simp only [Opening.step, Option.some.injEq, Prod.mk.injEq] at stepped
    obtain ⟨phase, rfl⟩ := stepped
    by_contra missing
    rw [if_neg missing] at phase
    cases phase
  | altering =>
    simp only [Opening.step] at stepped
    split at stepped
    · next altered added =>
      cases stepped
      exact Catalog.addColumn_hasColumn added
    · cases stepped
  | opened | failed => cases stepped

/-- Only the addition of the column can fail. -/
theorem Opening.step_failed {context : String} {cause : AlterError}
    (stepped : o.step file = some (.failed context cause, file')) :
    o = .altering ∧ file.addColumn "tokens" "expires_at" .null = .error cause := by
  cases o with
  | connecting | settingPragmas => cases stepped
  | creating d rest => cases rest <;> cases stepped
  | testing =>
    simp only [Opening.step] at stepped
    split at stepped <;> cases stepped
  | altering =>
    simp only [Opening.step] at stepped
    split at stepped
    · cases stepped
    · next refused =>
      cases stepped
      exact ⟨rfl, refused⟩
  | opened | failed => cases stepped

/-- The addition fails where the column is. -/
theorem Opening.altering_fails (there : file.hasColumn "tokens" "expires_at" = true) :
    Opening.altering.step file =
      some (.failed "failed to add tokens.expires_at column" .duplicateColumn, file) := by
  simp only [Opening.step, Catalog.addColumn_again there]

end Step

/-- The old table with the new column, `NULL` in every row. -/
def migratedTable (legacy : List LegacyToken) : ColumnTable SqlValue :=
  (legacyTable legacy).addColumn "expires_at" .null (show "expires_at" ∉ legacyColumns by decide)

/-- The `tokens` table is the old one, with or without the new column. -/
def HoldsTokens (legacy : List LegacyToken) (file : DbFile) : Prop :=
  file "tokens" = some (legacyTable legacy) ∨ file "tokens" = some (migratedTable legacy)

theorem Opening.step_tokens {legacy : List LegacyToken} {file file' : DbFile} {o next : Opening}
    (holds : HoldsTokens legacy file) (stepped : o.step file = some (next, file')) :
    HoldsTokens legacy file' := by
  cases o with
  | connecting | settingPragmas | testing =>
    cases stepped
    exact holds
  | creating d rest =>
    have created : HoldsTokens legacy (file.createIfAbsent d.name d.table) := by
      rcases holds with old | new
      · exact .inl (Catalog.createIfAbsent_found old d.name d.table)
      · exact .inr (Catalog.createIfAbsent_found new d.name d.table)
    cases rest <;> cases stepped <;> exact created
  | altering =>
    simp only [Opening.step] at stepped
    split at stepped
    · next altered added =>
      cases stepped
      obtain ⟨t, found, missing, rfl⟩ := Catalog.addColumn_ok added
      rcases holds with old | new
      · cases old.symm.trans found
        exact .inr (Function.update_self _ _ _)
      · cases new.symm.trans found
        exact absurd (List.mem_append_right _ (List.mem_singleton_self _)) missing
    · cases stepped
      exact holds
  | opened | failed => cases stepped

/-! ## Runs of several opens -/

namespace OpeningHost

variable {h h' start : OpeningHost} {pid : Nat} {pids : List Nat}

theorem advance_cases (moved : h.advance pid = some h') :
    ∃ next file, (h.openers pid).step h.file = some (next, file) ∧
      h' = ⟨file, Function.update h.openers pid next⟩ := by
  obtain ⟨⟨next, file⟩, stepped, rfl⟩ := Option.map_eq_some_iff.mp moved
  exact ⟨next, file, stepped, rfl⟩

theorem run_keeps (ran : run advance start pids = some h) : start.file.Keeps h.file := by
  apply run_always (P := fun h => start.file.Keeps h.file) _ ran (.refl _)
  intro h pid h' keeps moved
  obtain ⟨next, file, stepped, rfl⟩ := advance_cases moved
  exact keeps.trans (Opening.step_keeps stepped)

theorem run_tokens {legacy : List LegacyToken} (ran : run advance start pids = some h)
    (old : start.file "tokens" = some (legacyTable legacy)) : HoldsTokens legacy h.file := by
  apply run_always (P := fun h => HoldsTokens legacy h.file) _ ran (.inl old)
  intro h pid h' holds moved
  obtain ⟨next, file, stepped, rfl⟩ := advance_cases moved
  exact Opening.step_tokens holds stepped

/-- Whoever is past its open finds the column in the file. -/
def SeenByOpened (h : OpeningHost) : Prop :=
  ∀ pid, h.openers pid = .opened → h.file.hasColumn "tokens" "expires_at" = true

theorem advance_seen (seen : h.SeenByOpened) (moved : h.advance pid = some h') :
    h'.SeenByOpened := by
  obtain ⟨next, file, stepped, rfl⟩ := advance_cases moved
  intro other opened
  by_cases same : other = pid
  · subst same
    simp only [Function.update_self] at opened
    subst opened
    exact Opening.step_opened stepped
  · simp only [Function.update_of_ne same] at opened
    exact (Opening.step_keeps stepped).hasColumn (seen other opened)

/-- Every statement of a process brings its own end nearer and nobody else's further. -/
theorem run_remaining (ran : run advance start pids = some h) (pid : Nat) :
    pids.count pid + (h.openers pid).remaining ≤ (start.openers pid).remaining := by
  induction pids generalizing start with
  | nil =>
    cases ran
    simp
  | cons first rest ih =>
    obtain ⟨middle, moved, ran⟩ := Option.bind_eq_some_iff.mp ran
    have later := ih ran
    obtain ⟨next, file, stepped, rfl⟩ := advance_cases moved
    have nearer := Opening.step_remaining stepped
    by_cases same : first = pid
    · subst same
      simp only [Function.update_self] at later
      simp only [List.count_cons_self]
      omega
    · simp only [Function.update_of_ne (Ne.symm same)] at later
      simp only [List.count_cons_of_ne same]
      omega

def Failed (h : OpeningHost) (pid : Nat) : Prop :=
  ∃ context cause, h.openers pid = .failed context cause

/-- An open that failed stays so. -/
theorem run_failed (ran : run advance start pids = some h) (failed : start.Failed pid) :
    h.Failed pid := by
  obtain ⟨context, cause, failed⟩ := failed
  have kept : h.openers pid = start.openers pid := by
    apply run_ended id openers (fun phase => phase = .failed context cause) _ _ failed ran
    · intro h pid failed
      rw [advance, show h.openers pid = .failed context cause from failed]
      rfl
    · intro h other h' pid moved ne
      obtain ⟨next, file, stepped, rfl⟩ := advance_cases moved
      exact Function.update_of_ne ne _ _
  exact ⟨context, cause, kept.trans failed⟩

/-- A column that is missing where it is added keeps the opens going. -/
theorem advance_succeeds {legacy : List LegacyToken} (holds : HoldsTokens legacy h.file)
    (missing : h.AddsMissing pid) (none : ∀ other, ¬ h.Failed other)
    (moved : h.advance pid = some h') : ∀ other, ¬ h'.Failed other := by
  obtain ⟨next, file, stepped, rfl⟩ := advance_cases moved
  rintro other ⟨context, cause, failed⟩
  by_cases same : other = pid
  · subst same
    simp only [Function.update_self] at failed
    subst failed
    obtain ⟨altering, refused⟩ := Opening.step_failed stepped
    obtain ⟨t, found⟩ : ∃ t, h.file "tokens" = some t := by
      rcases holds with old | new
      · exact ⟨_, old⟩
      · exact ⟨_, new⟩
    obtain ⟨altered, added⟩ := Catalog.addColumn_missing found (missing altering)
    cases added.symm.trans refused
  · simp only [Function.update_of_ne same] at failed
    exact none other ⟨context, cause, failed⟩

/-- An open that has ended and did not fail has returned. -/
lemma ended_opened (ended : h.advance pid = none) (none : ¬ h.Failed pid) :
    h.openers pid = .opened := by
  have stuck : (h.openers pid).step h.file = Option.none := Option.map_eq_none_iff.mp ended
  cases phase : h.openers pid with
  | opened => rfl
  | failed context cause => exact absurd ⟨context, cause, phase⟩ none
  | connecting | settingPragmas | testing =>
    rw [phase] at stuck
    cases stuck
  | creating d rest =>
    rw [phase] at stuck
    cases rest <;> cases stuck
  | altering =>
    rw [phase] at stuck
    simp only [Opening.step] at stuck
    split at stuck <;> cases stuck

end OpeningHost

/-! ## The tokens after the opens -/

lemma tokenFromCells_migrated (r : LegacyToken) :
    tokenFromCells (legacyColumns.map ((legacyTable []).cell r.cells) ++ [some .null]) =
      some r.migrated := by
  rcases r with ⟨id, name, hash, scope, createdAt, revoked⟩
  cases scope <;> cases revoked <;> rfl

/-- The table with the new column reads as the old tokens without expiry. -/
theorem migratedTable_reads (legacy : List LegacyToken) :
    ((migratedTable legacy).select tokenColumns).mapM tokenFromCells =
      some (legacy.map LegacyToken.migrated) := by
  have selected : (migratedTable legacy).select tokenColumns =
      ((legacyTable legacy).select legacyColumns).map (· ++ [some .null]) :=
    ColumnTable.addColumn_select _ _ fun _ mem => mem
  have rows : (legacyTable legacy).select legacyColumns =
      legacy.map fun r => legacyColumns.map ((legacyTable []).cell r.cells) := by
    simp only [ColumnTable.select, legacyTable, List.map_map]
    rfl
  rw [selected, rows, List.map_map]
  clear selected rows
  induction legacy with
  | nil => rfl
  | cons r legacy ih =>
    simp only [List.map_cons, List.mapM_cons, Function.comp_apply, tokenFromCells_migrated]
    rw [ih]
    rfl

/-- Without an expiry, the clock has no say. -/
theorem migrated_identity {legacy : List LegacyToken} {db : Db}
    (reads : db.tokens = legacy.map LegacyToken.migrated) (time : TimeCrate) (now : Int)
    (presented : Bytes) :
    (Repo.authenticate time presented now ⟨db, []⟩).1 = .ok (legacyIdentity legacy presented) := by
  have accepts : (TokenRow.accepts time now presented ∘ LegacyToken.migrated) =
      fun r => decide (r.revoked = false ∧ r.tokenHash = presented) := by
    funext r
    simp [TokenRow.accepts, LegacyToken.migrated, notExpired]
  have found : authenticateRows time now presented (db.tokens.filter fun r => r.revoked = false) =
      legacyIdentity legacy presented := by
    rw [authenticateRows_eq, reads, List.filter_map, List.getLast?_map, accepts, Option.map_map]
    rfl
  simp only [Repo.authenticate, FaultySession.query_nil, found]

/-- The bearer of a token that no other active row stores is who that token names. -/
theorem legacyIdentity_own {legacy : List LegacyToken} {token : LegacyToken}
    (mem : token ∈ legacy) (active : token.revoked = false)
    (own : ∀ other ∈ legacy, other.revoked = false → other.tokenHash = token.tokenHash →
      other = token) :
    legacyIdentity legacy token.tokenHash = some ⟨token.name, token.projectScope⟩ := by
  unfold legacyIdentity
  cases last : (legacy.filter fun r =>
      r.revoked = false ∧ r.tokenHash = token.tokenHash).getLast? with
  | none =>
    have none : ∀ r ∈ legacy, ¬ (r.revoked = false ∧ r.tokenHash = token.tokenHash) := by
      simpa using List.getLast?_eq_none_iff.mp last
    exact absurd ⟨active, rfl⟩ (none token mem)
  | some r =>
    obtain ⟨here, accepted⟩ := List.mem_filter.mp (List.mem_of_getLast? last)
    obtain ⟨active', same⟩ := of_decide_eq_true accepted
    rw [own r here active' same]
    rfl

/-! ## Which runs are safe -/

/-- What is asked of the opens of a file with old tokens, however far they have got. -/
structure OpensSafely (start : DbFile) (legacy : List LegacyToken) (pids : List Nat)
    (h : OpeningHost) : Prop where
  /-- An open takes at most eight statements … -/
  ends : ∀ pid, pids.count pid + (h.openers pid).remaining ≤ 8
  /-- … and succeeds. -/
  succeeds : ∀ pid, h.advance pid = none → h.openers pid = .opened
  columnOnce : ∀ pid, h.openers pid = .opened →
    ∃ t, h.file "tokens" = some t ∧ t.columns.count "expires_at" = 1
  keepsRows : ∀ name t, start name = some t →
    ∃ t', h.file name = some t' ∧ t'.select t.columns = t.select t.columns
  noExpiry : ∀ pid, h.openers pid = .opened →
    h.file.tokens = some (legacy.map LegacyToken.migrated)
  /-- Every bearer is who it was, and a token whose hash no other active one has is itself. -/
  authenticates : ∀ pid, h.openers pid = .opened →
    ∀ db : Db, h.file.tokens = some db.tokens → ∀ (time : TimeCrate) (now : Int),
      (∀ presented, (Repo.authenticate time presented now ⟨db, []⟩).1 =
        .ok (legacyIdentity legacy presented)) ∧
      ∀ token ∈ legacy, token.revoked = false →
        (∀ other ∈ legacy, other.revoked = false → other.tokenHash = token.tokenHash →
          other = token) →
        (Repo.authenticate time token.tokenHash now ⟨db, []⟩).1 =
          .ok (some ⟨token.name, token.projectScope⟩)

namespace OpeningHost

variable {start : DbFile} {legacy : List LegacyToken} {pids : List Nat} {h : OpeningHost}

/-- Past one open, the table is the old one with the new column. -/
lemma migrated_of_opened (old : start "tokens" = some (legacyTable legacy))
    (ran : run advance (startedOn start) pids = some h) {pid : Nat}
    (opened : h.openers pid = .opened) : h.file "tokens" = some (migratedTable legacy) := by
  have seen : h.SeenByOpened := by
    apply run_always (P := SeenByOpened) (fun h pid h' => advance_seen) ran
    intro pid opened
    cases opened
  have column := seen pid opened
  rcases run_tokens ran old with before | after
  · simp only [Catalog.hasColumn, before, Option.any_some, decide_eq_true_eq] at column
    exact absurd column (show "expires_at" ∉ legacyColumns by decide)
  · exact after

lemma tokens_of_opened (old : start "tokens" = some (legacyTable legacy))
    (ran : run advance (startedOn start) pids = some h) {pid : Nat}
    (opened : h.openers pid = .opened) :
    h.file.tokens = some (legacy.map LegacyToken.migrated) := by
  have table := migrated_of_opened old ran opened
  simp only [DbFile.tokens, table]
  exact migratedTable_reads legacy

theorem opensSafely_of_none_failed (old : start "tokens" = some (legacyTable legacy))
    (ran : run advance (startedOn start) pids = some h) (none : ∀ pid, ¬ h.Failed pid) :
    OpensSafely start legacy pids h where
  ends := run_remaining ran
  succeeds := fun pid ended => ended_opened ended (none pid)
  columnOnce := by
    intro pid opened
    refine ⟨_, migrated_of_opened old ran opened, ?_⟩
    exact List.count_eq_one_of_mem (migratedTable legacy).distinct
      (List.mem_append_right _ (List.mem_singleton_self _))
  keepsRows := by
    intro name t found
    obtain ⟨t', found', longer⟩ := run_keeps ran name t found
    exact ⟨t', found', longer.select fun _ mem => mem⟩
  noExpiry := fun pid opened => tokens_of_opened old ran opened
  authenticates := by
    intro pid opened db reads time now
    have rows : db.tokens = legacy.map LegacyToken.migrated :=
      Option.some.inj (reads.symm.trans (tokens_of_opened old ran opened))
    constructor
    · exact migrated_identity rows time now
    · intro token mem active own
      rw [migrated_identity rows, legacyIdentity_own mem active own]

/-- Without a column added behind the back of an open, none fails. -/
theorem none_failed (old : start "tokens" = some (legacyTable legacy))
    (missing : Allowed advance AddsMissing (startedOn start) pids)
    (ran : run advance (startedOn start) pids = some h) : ∀ pid, ¬ h.Failed pid := by
  have both : HoldsTokens legacy h.file ∧ ∀ pid, ¬ h.Failed pid := by
    apply run_preserves (P := fun h => HoldsTokens legacy h.file ∧ ∀ pid, ¬ h.Failed pid)
      _ missing ran
    · refine ⟨.inl old, ?_⟩
      rintro pid ⟨context, cause, failed⟩
      cases failed
    · rintro h pid h' ⟨holds, none⟩ missing moved
      refine ⟨?_, advance_succeeds holds missing none moved⟩
      obtain ⟨next, file, stepped, rfl⟩ := advance_cases moved
      exact Opening.step_tokens holds stepped
  exact both.2

/-- A column added behind the back of an open makes it fail. -/
theorem allowed_of_none_failed (ran : run advance (startedOn start) pids = some h)
    (none : ∀ pid, ¬ h.Failed pid) : Allowed advance AddsMissing (startedOn start) pids := by
  rintro before pid after rfl u reached altering
  by_contra there
  obtain ⟨u', v, reached', moved, ran⟩ := run_split ran
  cases reached.symm.trans reached'
  have fails := @Opening.altering_fails u.file (by simpa using there)
  obtain ⟨next, file, stepped, rfl⟩ := advance_cases moved
  rw [altering, fails] at stepped
  cases stepped
  exact none pid (run_failed ran ⟨_, _, Function.update_self _ _ _⟩)

end OpeningHost

/-- The opens of a file with old tokens are safe exactly when none adds the column after
another one did. -/
theorem opens_safely_iff {start : DbFile} {legacy : List LegacyToken} {pids : List Nat}
    {h : OpeningHost} (old : start "tokens" = some (legacyTable legacy))
    (ran : run OpeningHost.advance (.startedOn start) pids = some h) :
    OpensSafely start legacy pids h ↔
      Allowed OpeningHost.advance OpeningHost.AddsMissing (.startedOn start) pids := by
  constructor
  · intro safe
    apply OpeningHost.allowed_of_none_failed ran
    rintro pid ⟨context, cause, failed⟩
    have ended : h.advance pid = none := by simp [OpeningHost.advance, failed, Opening.step]
    cases failed.symm.trans (safe.succeeds pid ended)
  · intro missing
    exact OpeningHost.opensSafely_of_none_failed old ran
      (OpeningHost.none_failed old missing ran)

/-! ## Two opens of one file -/

def oldTokens : List LegacyToken :=
  [⟨1, "ci", [1], some "app", "2025-01-01T00:00:00Z", false⟩,
    ⟨2, "ops", [2], none, "2025-01-02T00:00:00Z", false⟩]

def oldFile : DbFile := fun name => if name = "tokens" then some (legacyTable oldTokens) else none

/-- The second one looks after the first one's addition. -/
def secondLooksLate : List Nat := List.replicate 6 0 ++ List.replicate 6 1 ++ [0, 0, 1]

/-- Both look before either adds. -/
def bothLookFirst : List Nat := List.replicate 7 0 ++ List.replicate 7 1 ++ [0, 1]

theorem opens_safely_iff_secondLooksLate :
    ∃ h, run OpeningHost.advance (.startedOn oldFile) secondLooksLate = some h ∧
      h.openers 0 = .opened ∧ h.openers 1 = .opened ∧
      OpensSafely oldFile oldTokens secondLooksLate h := by
  have ends : (run OpeningHost.advance (.startedOn oldFile) secondLooksLate).map (fun h =>
      (h.openers 0, h.openers 1)) = some (.opened, .opened) := by
    decide +kernel
  have missing : Allowed OpeningHost.advance OpeningHost.AddsMissing (.startedOn oldFile)
      secondLooksLate := by
    apply allowed_of_allows
    decide +kernel
  obtain ⟨h, ran, phases⟩ := Option.map_eq_some_iff.mp ends
  obtain ⟨first, second⟩ := Prod.mk.inj phases
  exact ⟨h, ran, first, second, (opens_safely_iff rfl ran).mpr missing⟩

theorem racing_opens_fail :
    ∃ h, oldFile "tokens" = some (legacyTable oldTokens) ∧
      run OpeningHost.advance (.startedOn oldFile) bothLookFirst = some h ∧
      h.openers 1 = .failed "failed to add tokens.expires_at column" .duplicateColumn ∧
      ¬ OpensSafely oldFile oldTokens bothLookFirst h := by
  have ends : (run OpeningHost.advance (.startedOn oldFile) bothLookFirst).map (fun h =>
      h.openers 1) =
      some (.failed "failed to add tokens.expires_at column" .duplicateColumn) := by
    decide +kernel
  obtain ⟨h, ran, failed⟩ := Option.map_eq_some_iff.mp ends
  refine ⟨h, rfl, ran, failed, ?_⟩
  intro safe
  have ended : h.advance 1 = none := by simp [OpeningHost.advance, failed, Opening.step]
  cases failed.symm.trans (safe.succeeds 1 ended)

end SecretsManager
