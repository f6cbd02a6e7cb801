import SecretsManager.Server.Outcomes
import SecretsManager.Lib.Collect
import Mathlib.Logic.Function.Basic

/-!
# What the store shows

A project as its clients see it: when it was created, and for each key what its
row opens to and its version. Row ids, nonces and ciphertexts are left out. Each
write changes the view of one project at most, and what a request reads of a
project is a function of its view.
-/

namespace SecretsManager

open KeyedTable FaultySession Collect

variable {Key : Type} (c : ServerCrates Key)

/-- What a row gives `get_secrets`: its text or the error it stops with. -/
def SecretRow.reading (key : Key) (project : String) (r : SecretRow) : Except AppError String :=
  match decrypt c.toCryptoCrates key r.nonce r.ciphertext (aadBytes project r.key) with
  | .error _ => .error (.internal "decrypt")
  | .ok plaintext =>
    match fromUtf8 plaintext with
    | none => .error (.internal "non-utf8 secret")
    | some value => .ok value

structure ProjectView where
  createdAt : String
  entries : String → Option (Except AppError String × Nat)

def Db.viewOf (db : Db) (key : Key) (p : ProjectRow) : ProjectView where
  createdAt := p.createdAt
  entries k := (db.secret p.id k).map fun r => (r.reading c key p.name, r.version)

def Db.view (db : Db) (key : Key) (name : String) : Option ProjectView :=
  (db.project name).map (db.viewOf c key)

/-- The entry of a key after a put. -/
def putEntry (value : String) : Option (Except AppError String × Nat) → Except AppError String × Nat
  | none => (.ok value, 1)
  | some (_, version) => (.ok value, version + 1)

def ProjectView.put (v : ProjectView) (key value : String) : ProjectView :=
  { v with entries := Function.update v.entries key (some (putEntry value (v.entries key))) }

def ProjectView.delete (v : ProjectView) (key : String) : ProjectView :=
  { v with entries := Function.update v.entries key none }

variable {c} {db : Db} {key : Key} {name : String}

lemma view_some {v : ProjectView} (h : db.view c key name = some v) :
    ∃ p, db.project name = some p ∧ p.name = name ∧ v = db.viewOf c key p := by
  obtain ⟨p, hp, rfl⟩ := Option.map_eq_some_iff.mp h
  exact ⟨p, hp, (project_mem hp).2, rfl⟩

lemma view_eq {p : ProjectRow} (h : db.project name = some p) :
    db.view c key name = some (db.viewOf c key p) := by
  unfold Db.view
  rw [h]
  rfl

lemma view_none : db.view c key name = none ↔ db.project name = none := Option.map_eq_none_iff

/-! ## Views after a write -/

/-- The view is a function of two tables. -/
lemma view_congr {db' : Db} (projects : db'.projects = db.projects)
    (secrets : db'.secrets = db.secrets) : db'.view c key = db.view c key := by
  unfold Db.view Db.viewOf Db.project Db.secret
  rw [projects, secrets]

/-- Two projects of different names have different ids. -/
lemma project_id_ne (conforms : db.Conforms) {name' : String} {p q : ProjectRow}
    (hp : db.project name = some p) (hq : db.project name' = some q) (other : name' ≠ name) :
    q.id ≠ p.id := by
  intro same
  obtain ⟨memP, nameP⟩ := project_mem hp
  obtain ⟨memQ, nameQ⟩ := project_mem hq
  obtain rfl := conforms.projectIds.eq_of_key memQ memP same
  exact other (nameQ.symm.trans nameP)

lemma view_addProject (conforms : db.Conforms) (fresh : db.project name = none) (text : String) :
    (db.addProject name text).view c key =
      Function.update (db.view c key) name (some ⟨text, fun _ => none⟩) := by
  funext name'
  unfold Db.view
  rw [project_addProject]
  by_cases same : name' = name
  · subst same
    have empty : ∀ k, (db.addProject name' text).secret (nextId ProjectRow.id db.projects) k =
        none := by
      intro k
      apply get_eq_none_iff.mpr
      intro r hr place
      obtain ⟨p, hp, owner⟩ := conforms.owned r hr
      exact nextId_fresh ProjectRow.id hp (owner.trans (congrArg Prod.fst place))
    simp [fresh, Db.viewOf, empty]
  · rw [Function.update_of_ne same, if_neg (Ne.symm same), Option.or_none]
    rfl

lemma view_putSecretRow (ideal : IdealAead.Ideal c.aead) (conforms : db.Conforms)
    {p : ProjectRow} (found : db.project name = some p) {nonce : Nonce} {n ct : Bytes}
    {secretKey value : String}
    (encrypted : encrypt c.toCryptoCrates key nonce (utf8 value) (aadBytes name secretKey) =
      .ok (n, ct)) (text : String) :
    (db.putSecretRow p.id secretKey n ct text).view c key =
      Function.update (db.view c key) name
        (some ((db.viewOf c key p).put secretKey value)) := by
  have named : p.name = name := (project_mem found).2
  funext name'
  by_cases same : name' = name
  · subst same
    have found' : (db.putSecretRow p.id secretKey n ct text).project name' = some p := found
    rw [Function.update_self, view_eq found']
    congr 1
    simp only [Db.viewOf, ProjectView.put, ProjectView.mk.injEq, true_and]
    funext k
    rw [secret_putSecretRow]
    by_cases here : k = secretKey
    · subst here
      have opens := decrypt_encrypt ideal encrypted
      cases old : db.secret p.id k with
      | none => simp [putEntry, SecretRow.reading, named, opens, fromUtf8_utf8]
      | some r =>
        have atKey : r.key = k := (secret_mem old).2.2
        simp [putEntry, SecretRow.reading, SecretRow.overwrite, named, atKey, opens,
          fromUtf8_utf8]
    · simp [here]
  · rw [Function.update_of_ne same]
    unfold Db.view
    rw [putSecretRow_project]
    cases hq : db.project name' with
    | none => rfl
    | some q =>
      have ne := project_id_ne conforms found hq same
      simp [Db.viewOf, secret_putSecretRow, ne]

lemma view_removeSecretRow (conforms : db.Conforms) {p : ProjectRow}
    (found : db.project name = some p) (secretKey : String) :
    (db.removeSecretRow p.id secretKey).view c key =
      Function.update (db.view c key) name (some ((db.viewOf c key p).delete secretKey)) := by
  funext name'
  by_cases same : name' = name
  · subst same
    have found' : (db.removeSecretRow p.id secretKey).project name' = some p := found
    rw [Function.update_self, view_eq found']
    congr 1
    simp only [Db.viewOf, ProjectView.delete, ProjectView.mk.injEq, true_and]
    funext k
    rw [secret_removeSecretRow]
    by_cases here : k = secretKey <;> simp [here]
  · rw [Function.update_of_ne same]
    unfold Db.view
    rw [removeSecretRow_project]
    cases hq : db.project name' with
    | none => rfl
    | some q =>
      have ne := project_id_ne conforms found hq same
      simp [Db.viewOf, secret_removeSecretRow, ne]

/-! ## What a request reads -/

/-- The loop of `get_secrets` collects the readings of the rows. -/
lemma openRows_collect (rows : List SecretRow) (out : Std.ExtTreeMap String String) :
    Handlers.openRows c key name out (rows.map SecretRow.stored) =
      collect out (rows.map fun r => (r.key, r.reading c key name)) := by
  induction rows generalizing out with
  | nil => rfl
  | cons r rows ih =>
    simp only [List.map_cons, SecretRow.stored, Handlers.openRows, SecretRow.reading]
    cases hd : decrypt c.toCryptoCrates key r.nonce r.ciphertext (aadBytes name r.key) with
    | error e => rfl
    | ok m =>
      cases hu : fromUtf8 m with
      | none => simp [hu, collect]
      | some value =>
        simp only [hu, collect]
        exact ih _

lemma secretsOf_keyed (conforms : db.Conforms) (id : Nat) :
    Keyed SecretRow.key (db.secrets.filter fun r => r.projectId = id) := by
  have distinct := List.pairwise_map.mp (conforms.secretKeys.filter fun r => r.projectId = id)
  refine List.pairwise_map.mpr (distinct.imp_of_mem ?_)
  intro r r' hr hr' other same
  have owner : r.projectId = id := by simpa using (List.mem_filter.mp hr).2
  have owner' : r'.projectId = id := by simpa using (List.mem_filter.mp hr').2
  exact other (by simp [SecretRow.at, owner, owner', same])

/-- What a project lists is told by its view. -/
lemma secretsOf_entries (conforms : db.Conforms) {p : ProjectRow} (x : String × Except AppError String) :
    x ∈ (db.secretsOf p.id).map (fun r => (r.key, r.reading c key p.name)) ↔
      ((db.viewOf c key p).entries x.1).map Prod.fst = some x.2 := by
  simp only [Db.secretsOf, List.mem_map, mem_orderBy, List.mem_filter, decide_eq_true_eq,
    Db.viewOf, Option.map_map, Option.map_eq_some_iff, Function.comp_apply]
  constructor
  · rintro ⟨r, ⟨hr, owner⟩, rfl⟩
    exact ⟨r, (secret_iff conforms).mpr ⟨hr, owner, rfl⟩, rfl⟩
  · rintro ⟨r, found, reads⟩
    obtain ⟨hr, owner, atKey⟩ := (secret_iff conforms).mp found
    exact ⟨r, ⟨hr, owner⟩, Prod.ext atKey reads⟩

lemma secretsOf_strict (conforms : db.Conforms) (p : ProjectRow) :
    ((db.secretsOf p.id).map fun r => (r.key, r.reading c key p.name)).Pairwise
      fun x y => x.1 < y.1 :=
  List.pairwise_map.mpr (orderBy_strict (secretsOf_keyed conforms p.id))

end SecretsManager
