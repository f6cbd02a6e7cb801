import SecretsManager.Lib.VersionedCell
import SecretsManager.Server.ReferenceStore
import SecretsManager.Server.Rekey
import SecretsManager.Server.Commands

/-!
# The versions of a key

Each key of a project is a cell with a version. Handlers and rekeys move it as such a
cell moves: an upsert writes it, a delete forgets its version with its row, and a
rekey keeps every version.
-/

namespace SecretsManager

open FaultySession KeyedTable VersionedCell

variable {Key : Type} (c : ServerCrates Key)

/-- A call handled under the key that its server holds, or a rekey, under these faults. -/
inductive VersionOp where
  | call (key : Key) (op : StoreOp c) (faults : List Bool)
  | rekey (current new : String) (draws : RekeyDraws) (faults : List Bool)

namespace VersionOp

/-- What the client is answered, and the database after it. -/
def step : VersionOp c → Db → Option Response × Db
  | .call key op faults, db =>
    let out := op.call.perform c key op.token op.draws ⟨db, faults⟩
    (reply .get out.1, out.2.store)
  | .rekey current new draws faults, db =>
    (none, (SecretsManager.rekey c.toCryptoCrates current new draws ⟨db, faults⟩).2.store)

/-- What the answer tells of a key: the version of a put that succeeded, or a deletion. -/
def tells (name secretKey : String) : VersionOp c → Option Response → Option (Notice String)
  | .call _ ⟨_, .putSecret n k (.ok body), _⟩ _, some ⟨200, .version _ version⟩ =>
    if n = name ∧ k = secretKey then some (.put body.value version) else none
  | .call _ ⟨_, .deleteSecret n k, _⟩ _, some ⟨204, _⟩ =>
    if n = name ∧ k = secretKey then some .deleted else none
  | _, _ => none

/-- No statement of a call fails. -/
def Faultless : VersionOp c → Prop
  | .call _ _ faults => faults = []
  | .rekey .. => True

end VersionOp

/-- What a run tells of a key, operation by operation. -/
def versionHistory (name secretKey : String) : Db → List (VersionOp c) → List (Option (Notice String))
  | _, [] => []
  | db, op :: ops =>
    let out := op.step c db
    op.tells c name secretKey out.1 :: versionHistory name secretKey out.2 ops

/-- The versions of the successful puts increase, and none of them stands for two values. -/
structure Monotonic (history : List (Option (Notice String))) : Prop where
  increasing : Increasing history
  oneValue : ∀ value value' version, some (.put value version) ∈ history →
    some (.put value' version) ∈ history → value = value'

/-- The version stored for a key of a project. -/
def Db.versionOf (db : Db) (name secretKey : String) : Option Nat :=
  (db.project name).bind fun p => (db.secret p.id secretKey).map SecretRow.version

/-! ## What a step does to one key -/

section Cell

variable {c} {db : Db} {name name' secretKey secretKey' text : String} {p : ProjectRow}
  {n ct : Bytes} {row : SecretRow}

lemma versionOf_eq (found : db.project name = some p) :
    db.versionOf name secretKey = (db.secret p.id secretKey).map SecretRow.version := by
  simp only [Db.versionOf, found, Option.bind_some]

/-- Two projects do not share the rows of a key. -/
lemma other_key (conforms : db.Conforms) (found : db.project name = some p)
    (other : ¬ (name = name' ∧ secretKey = secretKey')) {q : ProjectRow}
    (found' : db.project name' = some q) : (q.id, secretKey') ≠ (p.id, secretKey) := by
  intro same
  obtain ⟨ids, keys⟩ := Prod.mk.inj same
  obtain ⟨hp, pName⟩ := project_mem found
  obtain ⟨hq, qName⟩ := project_mem found'
  have row := conforms.projectIds.eq_of_key hq hp ids
  subst row
  exact other ⟨pName.symm.trans qName, keys.symm⟩

lemma versionOf_put (conforms : db.Conforms) (found : db.project name = some p) :
    (db.putSecretRow p.id secretKey n ct text).versionOf name' secretKey' =
      if name = name' ∧ secretKey = secretKey' then
        some (next (db.versionOf name secretKey))
      else db.versionOf name' secretKey' := by
  by_cases same : name = name' ∧ secretKey = secretKey'
  · obtain ⟨rfl, rfl⟩ := same
    have found' : (db.putSecretRow p.id secretKey n ct text).project name = some p := found
    rw [if_pos ⟨rfl, rfl⟩, versionOf_eq found', versionOf_eq found, secret_putSecretRow, if_pos rfl]
    cases db.secret p.id secretKey with
    | some old => rfl
    | none => rfl
  · rw [if_neg same]
    simp only [Db.versionOf, putSecretRow_project]
    cases found' : db.project name' with
    | none => rfl
    | some q =>
        simp only [Option.bind_some]
        rw [secret_putSecretRow, if_neg (other_key conforms found same found')]

lemma versionOf_remove (conforms : db.Conforms) (found : db.project name = some p) :
    (db.removeSecretRow p.id secretKey).versionOf name' secretKey' =
      if name = name' ∧ secretKey = secretKey' then none else db.versionOf name' secretKey' := by
  by_cases same : name = name' ∧ secretKey = secretKey'
  · obtain ⟨rfl, rfl⟩ := same
    have found' : (db.removeSecretRow p.id secretKey).project name = some p := found
    rw [if_pos ⟨rfl, rfl⟩, versionOf_eq found', secret_removeSecretRow, if_pos rfl]
    rfl
  · rw [if_neg same]
    simp only [Db.versionOf, removeSecretRow_project]
    cases found' : db.project name' with
    | none => rfl
    | some q =>
        simp only [Option.bind_some]
        rw [secret_removeSecretRow, if_neg (other_key conforms found same found')]

lemma versionOf_addProject (conforms : db.Conforms) :
    (db.addProject name text).versionOf name' secretKey' = db.versionOf name' secretKey' := by
  simp only [Db.versionOf, project_addProject]
  cases found : db.project name' with
  | some q => rfl
  | none =>
      by_cases same : name = name'
      · simp only [if_pos same, Option.or_some, Option.getD_none, Option.bind_some,
          Option.bind_none, Option.map_eq_none_iff]
        -- rows belong to projects that are there, and the id is new
        cases owned : db.secret (nextId ProjectRow.id db.projects) secretKey' with
        | none =>
            rw [← owned]
            rfl
        | some r =>
            obtain ⟨mem, owner, -⟩ := secret_mem owned
            obtain ⟨p, hp, same⟩ := conforms.owned r mem
            exact absurd (same.trans owner) (nextId_fresh ProjectRow.id hp)
      · simp only [if_neg same, Option.or_none, Option.bind_none]

/-- A rekey gives every row new bytes and nothing else. -/
lemma versionOf_rekeyed {oldKey newKey : Key} {new : String} {db' : Db}
    (rekeyed : Rekeyed c.toCryptoCrates oldKey newKey new db db') :
    db'.versionOf name secretKey = db.versionOf name secretKey := by
  have versions : ∀ id, (db'.secret id secretKey).map SecretRow.version =
      (db.secret id secretKey).map SecretRow.version := by
    intro id
    rcases get_forall₂ (k := (id, secretKey)) rekeyed.rows (fun r r' => Progress.at_eq) with
      ⟨absent, absent'⟩ | ⟨r, r', found, found', frame, -⟩
    · simp only [Db.secret, absent, absent']
    · simp only [SecretRow.frame, Prod.mk.injEq] at frame
      simp only [Db.secret, found, found', Option.map_some, frame]
  simp only [Db.versionOf, Db.project, rekeyed.projects, versions]

end Cell

/-! ## Steps and runs -/

section Runs

variable {c} {db : Db} {name secretKey : String}

/-- An error tells nothing of any key. -/
lemma tells_error (op : VersionOp c) (e : Failure) :
    op.tells c name secretKey (reply .get (.error e)) = none := by
  cases op with
  | rekey => rfl
  | call key op faults =>
      obtain ⟨token, call, draws⟩ := op
      cases call with
      | putSecret n k body =>
          cases body with
          | error _ => rfl
          | ok body =>
              cases e with
              | panic => rfl
              | app e => cases e <;> rfl
      | deleteSecret n k =>
          cases e with
          | panic => rfl
          | app e => cases e <;> rfl
      | _ => rfl

lemma Outcome.cell {key : Key} {token : AuthedToken} {d : Draws c.time} {call : StoreCall}
    {response : Response} {db' : Db} {faults : List Bool} {lossy : Prop} (conforms : db.Conforms)
    (outcome : Outcome c key token d db (.store call) response db') :
    Step String lossy (db.versionOf name secretKey)
      ((VersionOp.call key ⟨token, call, d⟩ faults).tells c name secretKey
        (reply .get (.ok response)))
      (db'.versionOf name secretKey) := by
  cases outcome with
  | createProject body valid inScope fresh =>
      rw [versionOf_addProject conforms]
      exact .kept _
  | listProjects => exact .kept _
  | getSecrets n p out valid inScope found opened => exact .kept _
  | putSecret n k body p nonce ct row checked stored =>
      have answered : some row.version = some (next (db.versionOf n k)) := by
        have written : (db.putSecretRow p.id k nonce ct d.writtenAt.rfc3339).versionOf n k = _ :=
          versionOf_put conforms checked.found
        have found : (db.putSecretRow p.id k nonce ct d.writtenAt.rfc3339).project n = some p :=
          checked.found
        rw [if_pos ⟨rfl, rfl⟩, versionOf_eq found, stored] at written
        exact written
      rw [versionOf_put conforms checked.found]
      by_cases same : n = name ∧ k = secretKey
      · obtain ⟨rfl, rfl⟩ := same
        rw [if_pos ⟨rfl, rfl⟩, ← answered]
        have told : (VersionOp.call key ⟨token, .putSecret n k (.ok body), d⟩ faults).tells c n k
            (reply .get (.ok ⟨200, .version k row.version⟩)) =
            some (.put body.value row.version) := if_pos ⟨rfl, rfl⟩
        rw [told, Option.some.inj answered]
        exact .put _ _
      · have silent : (VersionOp.call key ⟨token, .putSecret n k (.ok body), d⟩ faults).tells c
            name secretKey (reply .get (.ok ⟨200, .version k row.version⟩)) = none := if_neg same
        rw [if_neg same, silent]
        exact .kept _
  | deleteSecret n k p validName validKey inScope found present =>
      rw [versionOf_remove conforms found]
      by_cases same : n = name ∧ k = secretKey
      · obtain ⟨rfl, rfl⟩ := same
        obtain ⟨row, stored⟩ := Option.isSome_iff_exists.mp present
        have told : (VersionOp.call key ⟨token, .deleteSecret n k, d⟩ faults).tells c n k
            (reply .get (.ok ⟨204, .empty⟩)) = some .deleted := if_pos ⟨rfl, rfl⟩
        rw [if_pos ⟨rfl, rfl⟩, told, versionOf_eq found, stored]
        exact .deleted _
      · have silent : (VersionOp.call key ⟨token, .deleteSecret n k, d⟩ faults).tells c name
            secretKey (reply .get (.ok ⟨204, .empty⟩)) = none := if_neg same
        rw [if_neg same, silent]
        exact .kept _

/-- A call that fails has left the cell alone, or it is a put whose version was not read. -/
lemma Leftover.cell {key : Key} {token : AuthedToken} {d : Draws c.time} {call : StoreCall}
    {db' : Db} {lossy : Prop} (conforms : db.Conforms)
    (left : Leftover c key token d db (.store call) db') (faulty : db' ≠ db → lossy) :
    Step String lossy (db.versionOf name secretKey) none (db'.versionOf name secretKey) := by
  by_cases same : db' = db
  · rw [same]
    exact .kept _
  · rcases left with unchanged | ⟨n, k, body, p, nonce, ct, -, checked, rfl⟩
    · exact absurd unchanged same
    · rw [versionOf_put conforms checked.found]
      by_cases here : n = name ∧ k = secretKey
      · obtain ⟨rfl, rfl⟩ := here
        rw [if_pos ⟨rfl, rfl⟩]
        exact .lost _ (faulty same)
      · rw [if_neg here]
        exact .kept _

lemma rekey_cases (current new : String) (draws : RekeyDraws) (faults : List Bool) :
    (rekey c.toCryptoCrates current new draws ⟨db, faults⟩).2.store = db ∨
      ∃ oldKey newKey, Rekeyed c.toCryptoCrates oldKey newKey new db
        (rekey c.toCryptoCrates current new draws ⟨db, faults⟩).2.store := by
  have whole : Triple (fun s => s = db) (rekey c.toCryptoCrates current new draws) _ _ :=
    rekeyWithParams_triple strong_inBounds draws
  rcases whole.elim (s := ⟨db, faults⟩) rfl with
    ⟨n, -, -, -, oldKey, newKey, r, -, rekeyed⟩ | ⟨e, -, same⟩
  · exact .inr ⟨oldKey, newKey, rekeyed⟩
  · exact .inl same

/-- One operation keeps the schema and moves the cell of every key as a versioned cell moves. -/
theorem step_cell (conforms : db.Conforms) (op : VersionOp c) :
    (op.step c db).2.Conforms ∧
      Step String (¬ op.Faultless c) (db.versionOf name secretKey)
        (op.tells c name secretKey (op.step c db).1)
        ((op.step c db).2.versionOf name secretKey) := by
  cases op with
  | call key op faults =>
      obtain ⟨token, call, d⟩ := op
      simp only [VersionOp.step]
      rcases perform_ends key (.store call) token d ⟨db, faults⟩ with
        ⟨response, ok, outcome⟩ | ⟨e, error, left⟩
      · have ok' : (call.perform c key token d ⟨db, faults⟩).1 = .ok response := ok
        rw [ok']
        exact ⟨outcome.conforms conforms, outcome.cell conforms⟩
      · have error' : (call.perform c key token d ⟨db, faults⟩).1 = .error e := error
        rw [error', tells_error]
        constructor
        · exact left.conforms conforms
        · apply left.cell conforms
          rintro changed rfl
          exact changed (perform_failed_nil error)
  | rekey current new draws faults =>
      rcases @rekey_cases _ c db current new draws faults with same | ⟨oldKey, newKey, rekeyed⟩
      · simp only [VersionOp.step]
        rw [same]
        exact ⟨conforms, .kept _⟩
      · simp only [VersionOp.step]
        rw [versionOf_rekeyed rekeyed]
        exact ⟨rekeyed.conforms conforms, .kept _⟩

theorem history_run {lossy : Prop} (ops : List (VersionOp c)) (conforms : db.Conforms)
    (losses : ∀ op ∈ ops, ¬ op.Faultless c → lossy) :
    Run String lossy (db.versionOf name secretKey) (versionHistory c name secretKey db ops) := by
  induction ops generalizing db with
  | nil => exact .nil _
  | cons op ops ih =>
      have loss : ¬ op.Faultless c → lossy := losses op List.mem_cons_self
      have ⟨conforms', step⟩ := @step_cell _ c db name secretKey conforms op
      apply Run.cons (step.mono loss)
      apply ih conforms'
      intro op' mem
      exact losses op' (List.mem_cons_of_mem op mem)

/-- Versions are monotonic where no key is put again after a deletion; without faults, only
there. -/
theorem versions_monotonic (conforms : db.Conforms) (ops : List (VersionOp c))
    (name secretKey : String) :
    (NotRecreated (versionHistory c name secretKey db ops) →
      Monotonic (versionHistory c name secretKey db ops)) ∧
    ((∀ op ∈ ops, op.Faultless c) → Monotonic (versionHistory c name secretKey db ops) →
      NotRecreated (versionHistory c name secretKey db ops)) := by
  constructor
  · intro safe
    have run : Run String True (db.versionOf name secretKey) _ :=
      history_run ops conforms fun _ _ _ => trivial
    have increasing := run.increasing safe
    constructor
    · exact increasing
    · intro value value' version told told'
      exact increasing.one_value told told'
  · intro faultless monotonic
    have run : Run String False (db.versionOf name secretKey) _ :=
      history_run ops conforms fun op mem faulty => faulty (faultless op mem)
    exact run.notRecreated monotonic.increasing

end Runs

/-! ## A key written twice, and a key written again -/

def putKey (value : String) : VersionOp framedServer :=
  .call [7] ⟨⟨"root", none⟩, .putSecret "app" "KEY" (.ok ⟨value⟩), epochDraws ""⟩ []

def deleteKey : VersionOp framedServer :=
  .call [7] ⟨⟨"root", none⟩, .deleteSecret "app" "KEY", epochDraws ""⟩ []

theorem versions_monotonic_overwritten :
    versionHistory framedServer "app" "KEY" projectDb [putKey "v", putKey "w"] =
      [some (.put "v" 1), some (.put "w" 2)] ∧
    Monotonic (versionHistory framedServer "app" "KEY" projectDb [putKey "v", putKey "w"]) := by
  have history : versionHistory framedServer "app" "KEY" projectDb [putKey "v", putKey "w"] =
      [some (.put "v" 1), some (.put "w" 2)] := by decide
  constructor
  · exact history
  · apply (versions_monotonic (by decide) [putKey "v", putKey "w"] "app" "KEY").1
    rw [history]
    intro earlier later split
    have mem : some .deleted ∈ [some (.put "v" 1), some (Notice.put "w" 2)] := by
      rw [split]
      exact List.mem_append_right _ List.mem_cons_self
    simp at mem

/-- The second put is answered with the version of the first, for another value. -/
theorem recreated_key_repeats_version :
    versionHistory framedServer "app" "KEY" projectDb [putKey "v", deleteKey, putKey "w"] =
      [some (.put "v" 1), some .deleted, some (.put "w" 1)] ∧
    ¬ Monotonic
      (versionHistory framedServer "app" "KEY" projectDb [putKey "v", deleteKey, putKey "w"]) := by
  have history : versionHistory framedServer "app" "KEY" projectDb
      [putKey "v", deleteKey, putKey "w"] =
      [some (.put "v" 1), some .deleted, some (.put "w" 1)] := by decide
  constructor
  · exact history
  · rw [history]
    intro monotonic
    have same := monotonic.oneValue "v" "w" 1 (by simp) (by simp)
    exact absurd same (by decide)

end SecretsManager
