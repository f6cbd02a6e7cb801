import SecretsManager.Crypto
import SecretsManager.Lib.KeyedTable
import Mathlib.Data.String.Basic

/-!
# The database

The four tables of the schema. A table is the list of its rows in the order of
insertion, which is the order of row ids. `Conforms` is what the schema asks of
them: its unique columns and the foreign key of a secret.
-/

namespace SecretsManager

open KeyedTable

structure MetaRow where
  key : String
  value : Bytes
  deriving DecidableEq

structure ProjectRow where
  id : Nat
  name : String
  createdAt : String
  deriving DecidableEq

structure SecretRow where
  id : Nat
  projectId : Nat
  key : String
  nonce : Bytes
  ciphertext : Bytes
  version : Nat
  updatedAt : String
  deriving DecidableEq

/-- The pair a secret is unique by. -/
def SecretRow.at (r : SecretRow) : Nat × String := (r.projectId, r.key)

/-- What the `DO UPDATE` of the upsert sets. -/
def SecretRow.overwrite (nonce ciphertext : Bytes) (updatedAt : String) (r : SecretRow) :
    SecretRow :=
  { r with
    nonce := nonce
    ciphertext := ciphertext
    version := r.version + 1
    updatedAt := updatedAt }

structure TokenRow where
  id : Nat
  name : String
  tokenHash : Bytes
  projectScope : Option String
  createdAt : String
  revoked : Bool
  expiresAt : Option String
  deriving DecidableEq

structure Db where
  metaTable : List MetaRow
  projects : List ProjectRow
  secrets : List SecretRow
  tokens : List TokenRow
  deriving DecidableEq

/-- The tables as `migrate` creates them. -/
def Db.empty : Db := ⟨[], [], [], []⟩

structure Db.Conforms (db : Db) : Prop where
  metaKeys : Keyed MetaRow.key db.metaTable
  projectIds : Keyed ProjectRow.id db.projects
  projectNames : Keyed ProjectRow.name db.projects
  secretIds : Keyed SecretRow.id db.secrets
  secretKeys : Keyed SecretRow.at db.secrets
  tokenIds : Keyed TokenRow.id db.tokens
  owned : ∀ r ∈ db.secrets, ∃ p ∈ db.projects, p.id = r.projectId

instance (db : Db) : Decidable db.Conforms :=
  decidable_of_iff
    (Keyed MetaRow.key db.metaTable ∧ Keyed ProjectRow.id db.projects ∧
      Keyed ProjectRow.name db.projects ∧ Keyed SecretRow.id db.secrets ∧
      Keyed SecretRow.at db.secrets ∧ Keyed TokenRow.id db.tokens ∧
      ∀ r ∈ db.secrets, ∃ p ∈ db.projects, p.id = r.projectId)
    ⟨fun ⟨a, b, c, d, e, f, g⟩ => ⟨a, b, c, d, e, f, g⟩,
      fun ⟨a, b, c, d, e, f, g⟩ => ⟨a, b, c, d, e, f, g⟩⟩

theorem Db.empty_conforms : Db.empty.Conforms := by decide

/-! ## Lookups by the unique columns -/

def Db.metaValue (db : Db) (key : String) : Option Bytes :=
  (get MetaRow.key db.metaTable key).map MetaRow.value

def Db.project (db : Db) (name : String) : Option ProjectRow :=
  get ProjectRow.name db.projects name

def Db.secret (db : Db) (projectId : Nat) (key : String) : Option SecretRow :=
  get SecretRow.at db.secrets (projectId, key)

/-! ## What the statements write -/

def Db.setMetaRow (db : Db) (key : String) (value : Bytes) : Db :=
  { db with
    metaTable :=
      if (get MetaRow.key db.metaTable key).isSome then
        modify MetaRow.key key (fun r => ⟨r.key, value⟩) db.metaTable
      else db.metaTable ++ [⟨key, value⟩] }

def Db.addProject (db : Db) (name createdAt : String) : Db :=
  { db with projects := db.projects ++ [⟨nextId ProjectRow.id db.projects, name, createdAt⟩] }

/-- `INSERT … ON CONFLICT(project_id, key) DO UPDATE`. -/
def Db.putSecretRow (db : Db) (projectId : Nat) (key : String) (nonce ciphertext : Bytes)
    (updatedAt : String) : Db :=
  { db with
    secrets :=
      if (db.secret projectId key).isSome then
        modify SecretRow.at (projectId, key) (.overwrite nonce ciphertext updatedAt) db.secrets
      else db.secrets ++
        [⟨nextId SecretRow.id db.secrets, projectId, key, nonce, ciphertext, 1, updatedAt⟩] }

def Db.removeSecretRow (db : Db) (projectId : Nat) (key : String) : Db :=
  { db with secrets := erase SecretRow.at (projectId, key) db.secrets }

/-- The `UPDATE` of the rekey loop. -/
def Db.reencryptRow (db : Db) (id : Nat) (nonce ciphertext : Bytes) : Db :=
  { db with
    secrets := modify SecretRow.id id (fun r => { r with
      nonce := nonce
      ciphertext := ciphertext }) db.secrets }

def Db.addToken (db : Db) (name : String) (tokenHash : Bytes) (scope : Option String)
    (createdAt : String) (expiresAt : Option String) : Db :=
  { db with
    tokens := db.tokens ++
      [⟨nextId TokenRow.id db.tokens, name, tokenHash, scope, createdAt, false, expiresAt⟩] }

/-- The rows `UPDATE tokens SET revoked = 1` matches. -/
def TokenRow.activeAs (name : String) (r : TokenRow) : Bool := r.name = name ∧ r.revoked = false

def Db.revokeTokens (db : Db) (name : String) : Db :=
  { db with
    tokens := db.tokens.map fun r => if r.activeAs name then { r with revoked := true } else r }

section Frames

variable (db : Db) (name key text : String) (id : Nat) (n c : Bytes) (o o' : Option String)

@[simp] theorem setMetaRow_projects : (db.setMetaRow key n).projects = db.projects := rfl
@[simp] theorem setMetaRow_secrets : (db.setMetaRow key n).secrets = db.secrets := rfl
@[simp] theorem setMetaRow_tokens : (db.setMetaRow key n).tokens = db.tokens := rfl
@[simp] theorem addProject_metaTable : (db.addProject name text).metaTable = db.metaTable := rfl
@[simp] theorem addProject_secrets : (db.addProject name text).secrets = db.secrets := rfl
@[simp] theorem addProject_tokens : (db.addProject name text).tokens = db.tokens := rfl
@[simp] theorem putSecretRow_metaTable :
    (db.putSecretRow id key n c text).metaTable = db.metaTable := rfl
@[simp] theorem putSecretRow_projects :
    (db.putSecretRow id key n c text).projects = db.projects := rfl
@[simp] theorem putSecretRow_tokens :
    (db.putSecretRow id key n c text).tokens = db.tokens := rfl
@[simp] theorem removeSecretRow_metaTable :
    (db.removeSecretRow id key).metaTable = db.metaTable := rfl
@[simp] theorem removeSecretRow_projects :
    (db.removeSecretRow id key).projects = db.projects := rfl
@[simp] theorem removeSecretRow_tokens : (db.removeSecretRow id key).tokens = db.tokens := rfl
@[simp] theorem reencryptRow_metaTable :
    (db.reencryptRow id n c).metaTable = db.metaTable := rfl
@[simp] theorem reencryptRow_projects : (db.reencryptRow id n c).projects = db.projects := rfl
@[simp] theorem reencryptRow_tokens : (db.reencryptRow id n c).tokens = db.tokens := rfl
@[simp] theorem addToken_metaTable :
    (db.addToken name n o text o').metaTable = db.metaTable := rfl
@[simp] theorem addToken_projects : (db.addToken name n o text o').projects = db.projects := rfl
@[simp] theorem addToken_secrets : (db.addToken name n o text o').secrets = db.secrets := rfl
@[simp] theorem revokeTokens_metaTable : (db.revokeTokens name).metaTable = db.metaTable := rfl
@[simp] theorem revokeTokens_projects : (db.revokeTokens name).projects = db.projects := rfl
@[simp] theorem revokeTokens_secrets : (db.revokeTokens name).secrets = db.secrets := rfl

end Frames

/-! ## Lookups after a write -/

section Lookups

variable {db : Db} {name name' key key' text : String} {id id' : Nat} {n c : Bytes}

lemma project_mem {p : ProjectRow} (h : db.project name = some p) :
    p ∈ db.projects ∧ p.name = name := mem_of_get h

/-- The foreign key of a row with the id of a project holds. -/
lemma project_owns {p : ProjectRow} (mem : p ∈ db.projects) :
    (db.projects.any fun q => q.id = p.id) = true := List.any_eq_true.mpr ⟨p, mem, by simp⟩

lemma putSecretRow_project : (db.putSecretRow id key n c text).project name = db.project name := rfl

lemma removeSecretRow_project : (db.removeSecretRow id key).project name = db.project name := rfl

lemma secret_mem {r : SecretRow} (h : db.secret id key = some r) :
    r ∈ db.secrets ∧ r.projectId = id ∧ r.key = key := by
  obtain ⟨hr, at_eq⟩ := mem_of_get h
  exact ⟨hr, congrArg Prod.fst at_eq, congrArg Prod.snd at_eq⟩

lemma secret_iff (conforms : db.Conforms) {r : SecretRow} :
    db.secret id key = some r ↔ r ∈ db.secrets ∧ r.projectId = id ∧ r.key = key := by
  unfold Db.secret
  rw [conforms.secretKeys.get_iff]
  simp [SecretRow.at]

lemma project_iff (conforms : db.Conforms) {p : ProjectRow} :
    db.project name = some p ↔ p ∈ db.projects ∧ p.name = name :=
  conforms.projectNames.get_iff

lemma metaValue_setMetaRow :
    (db.setMetaRow key n).metaValue key' = if key' = key then some n else db.metaValue key' := by
  unfold Db.metaValue Db.setMetaRow
  by_cases present : (get MetaRow.key db.metaTable key).isSome
  · obtain ⟨row, hrow⟩ := Option.isSome_iff_exists.mp present
    have keeps : ∀ r : MetaRow, MetaRow.key ⟨r.key, n⟩ = r.key := fun _ => rfl
    simp only [present, if_true]
    rw [get_modify keeps]
    by_cases same : key' = key
    · subst same
      simp [hrow]
    · simp [same]
  · have absent : get MetaRow.key db.metaTable key = none := by simpa using present
    simp only [present, Bool.false_eq_true, if_false]
    rw [get_append]
    by_cases same : key' = key
    · subst same
      simp [absent]
    · simp [same, Ne.symm same]

lemma project_addProject :
    (db.addProject name text).project name' = (db.project name').or
      (if name = name' then some ⟨nextId ProjectRow.id db.projects, name, text⟩ else none) := by
  unfold Db.project Db.addProject
  rw [get_append]

lemma secret_putSecretRow :
    (db.putSecretRow id key n c text).secret id' key' =
      if (id', key') = (id, key) then
        some (match db.secret id key with
          | some r => r.overwrite n c text
          | none => ⟨nextId SecretRow.id db.secrets, id, key, n, c, 1, text⟩)
      else db.secret id' key' := by
  have keeps : ∀ r : SecretRow, (r.overwrite n c text).at = r.at := fun _ => rfl
  by_cases same : (id', key') = (id, key)
  · rw [if_pos same]
    obtain ⟨rfl, rfl⟩ := Prod.mk.inj same
    unfold Db.putSecretRow
    cases found : db.secret id' key' with
    | some r =>
      simp only [Db.secret, Option.isSome_some, if_true] at found ⊢
      rw [get_modify keeps]
      simp [found]
    | none =>
      simp only [Db.secret, Option.isSome_none, Bool.false_eq_true, if_false] at found ⊢
      rw [get_append, found]
      simp [SecretRow.at]
  · rw [if_neg same]
    unfold Db.putSecretRow
    cases found : db.secret id key with
    | some r =>
      simp only [Db.secret, Option.isSome_some, if_true]
      rw [get_modify keeps, if_neg same]
    | none =>
      simp only [Db.secret, Option.isSome_none, Bool.false_eq_true, if_false]
      rw [get_append]
      have : ¬ (id = id' ∧ key = key') := fun h => same (by rw [h.1, h.2])
      simp [SecretRow.at, this]

lemma putSecretRow_secrets (db : Db) (id : Nat) (key : String) (n c : Bytes) (text : String) :
    (∃ old, db.secret id key = some old ∧ (db.putSecretRow id key n c text).secrets =
      modify SecretRow.at (id, key) (.overwrite n c text) db.secrets) ∨
    (db.secret id key = none ∧ (db.putSecretRow id key n c text).secrets =
      db.secrets ++ [⟨nextId SecretRow.id db.secrets, id, key, n, c, 1, text⟩]) := by
  unfold Db.putSecretRow
  cases found : db.secret id key with
  | some old => exact Or.inl ⟨old, rfl, rfl⟩
  | none => exact Or.inr ⟨rfl, rfl⟩

lemma secret_removeSecretRow :
    (db.removeSecretRow id key).secret id' key' =
      if (id', key') = (id, key) then none else db.secret id' key' := get_erase

end Lookups

/-! ## Rows of other projects -/

section Others

variable {db : Db} {key text : String} {id id' : Nat} {n c : Bytes}

lemma putSecretRow_others (other : id' ≠ id) :
    (db.putSecretRow id key n c text).secrets.filter (fun r => r.projectId = id') =
      db.secrets.filter fun r => r.projectId = id' := by
  rcases putSecretRow_secrets db id key n c text with ⟨_, _, eq⟩ | ⟨_, eq⟩ <;> rw [eq]
  · unfold KeyedTable.modify
    rw [List.filter_map]
    have same : ∀ r : SecretRow, ((fun r : SecretRow => decide (r.projectId = id')) ∘
        fun r => if r.at = (id, key) then r.overwrite n c text else r) r =
        decide (r.projectId = id') := by
      intro r
      simp only [Function.comp_apply]
      split <;> rfl
    rw [funext same]
    conv_rhs => rw [← List.map_id (db.secrets.filter _)]
    apply List.map_congr_left
    intro r hr
    have owner : r.projectId = id' := by simpa using (List.mem_filter.mp hr).2
    have : r.at ≠ (id, key) := fun h => other (owner.symm.trans (congrArg Prod.fst h))
    simp [this]
  · rw [List.filter_append]
    simp [Ne.symm other]

lemma removeSecretRow_others (other : id' ≠ id) :
    (db.removeSecretRow id key).secrets.filter (fun r => r.projectId = id') =
      db.secrets.filter fun r => r.projectId = id' := by
  unfold Db.removeSecretRow erase
  rw [List.filter_filter]
  apply List.filter_congr
  intro r _
  by_cases owner : r.projectId = id'
  · have : r.at ≠ (id, key) := fun h => other (owner.symm.trans (congrArg Prod.fst h))
    simp [owner, this]
  · simp [owner]

end Others

/-! ## The schema is kept -/

section Conforms

variable {db : Db} {name key text : String} {id : Nat} {n c : Bytes}

lemma setMetaRow_conforms (h : db.Conforms) : (db.setMetaRow key n).Conforms := by
  refine { h with metaKeys := ?_ }
  unfold Db.setMetaRow
  by_cases present : (get MetaRow.key db.metaTable key).isSome
  · rw [if_pos present]
    exact h.metaKeys.modify fun _ => rfl
  · rw [if_neg present]
    have absent : get MetaRow.key db.metaTable key = none := by simpa using present
    exact h.metaKeys.append fun r hr => get_eq_none_iff.mp absent r hr

lemma addProject_conforms (h : db.Conforms) (fresh : db.project name = none) :
    (db.addProject name text).Conforms :=
  { h with
    projectIds := h.projectIds.append fun _ hr => nextId_fresh ProjectRow.id hr
    projectNames := h.projectNames.append fun r hr => get_eq_none_iff.mp fresh r hr
    owned := by
      intro r hr
      obtain ⟨p, hp, same⟩ := h.owned r hr
      exact ⟨p, List.mem_append_left _ hp, same⟩ }

lemma mem_putSecretRow {r : SecretRow} (hr : r ∈ (db.putSecretRow id key n c text).secrets) :
    (r ∈ db.secrets ∧ r.at ≠ (id, key)) ∨
      (r.at = (id, key) ∧ r.nonce = n ∧ r.ciphertext = c) := by
  rcases putSecretRow_secrets db id key n c text with ⟨_, _, eq⟩ | ⟨absent, eq⟩ <;> rw [eq] at hr
  · rcases mem_modify.mp hr with h | ⟨old, hold, at_eq, rfl⟩
    · exact Or.inl h
    · exact Or.inr ⟨at_eq, rfl, rfl⟩
  · rcases List.mem_append.mp hr with h | h
    · exact Or.inl ⟨h, get_eq_none_iff.mp absent r h⟩
    · rw [List.mem_singleton] at h
      subst h
      exact Or.inr ⟨rfl, rfl, rfl⟩

lemma putSecretRow_conforms (h : db.Conforms) (owner : ∃ p ∈ db.projects, p.id = id) :
    (db.putSecretRow id key n c text).Conforms := by
  have owned : ∀ r ∈ (db.putSecretRow id key n c text).secrets,
      ∃ p ∈ db.projects, p.id = r.projectId := by
    intro r hr
    rcases mem_putSecretRow hr with ⟨old, _⟩ | ⟨at_eq, _⟩
    · exact h.owned r old
    · have : r.projectId = id := congrArg Prod.fst at_eq
      rwa [this]
  rcases putSecretRow_secrets db id key n c text with ⟨_, _, eq⟩ | ⟨absent, eq⟩
  · refine { h with secretIds := ?_, secretKeys := ?_, owned := owned } <;> rw [eq]
    · exact h.secretIds.modify fun _ => rfl
    · exact h.secretKeys.modify fun _ => rfl
  · refine { h with secretIds := ?_, secretKeys := ?_, owned := owned } <;> rw [eq]
    · exact h.secretIds.append fun _ hr => nextId_fresh SecretRow.id hr
    · exact h.secretKeys.append fun r hr => get_eq_none_iff.mp absent r hr

lemma removeSecretRow_conforms (h : db.Conforms) : (db.removeSecretRow id key).Conforms :=
  { h with
    secretIds := h.secretIds.filter _
    secretKeys := h.secretKeys.filter _
    owned := fun r hr => h.owned r (List.mem_filter.mp hr).1 }

lemma addToken_conforms {o o' : Option String} (h : db.Conforms) :
    (db.addToken name n o text o').Conforms :=
  { h with tokenIds := h.tokenIds.append fun _ hr => nextId_fresh TokenRow.id hr }

lemma revokeTokens_conforms (h : db.Conforms) : (db.revokeTokens name).Conforms :=
  { h with tokenIds := h.tokenIds.map fun r => by split <;> rfl }

end Conforms

end SecretsManager
