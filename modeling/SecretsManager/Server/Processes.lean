import SecretsManager.Server.Revocation
import SecretsManager.Server.Rekey
import Mathlib.Logic.Function.Basic

/-!
# Server processes on one database

Any number of `serve` and `rekey` processes take the lock of the database before
they touch its key, `token` commands take none, and each may crash between two
steps. The metadata, the rows and the key that a server keeps in memory stay
together: they all belong to the passphrase committed last.
-/

namespace SecretsManager

open FaultySession KeyedTable Relation

/-- Where a process is; all but an idle one hold the lock. -/
inductive Process (Key : Type) where
  | idle
  | startingServe (passphrase : String)
  | serving (key : Key)
  | startingRekey (current new : String)
  | rekeying (new : String) (draws : RekeyDraws) (oldKey newKey : Key)

/-- `committed` is the passphrase of the last initialization or rekey that went through. -/
structure World (Key : Type) where
  db : Db
  lock : Option Nat
  processes : Nat → Process Key
  committed : Option String

def World.initial {Key : Type} : World Key := ⟨.empty, none, fun _ => .idle, none⟩

variable {Key : Type} (c : ServerCrates Key)

def World.become (w : World Key) (pid : Nat) (p : Process Key) : Nat → Process Key :=
  Function.update w.processes pid p

/-- An exit or a crash: the lock goes with the process that held it. -/
def World.exit (w : World Key) (pid : Nat) : World Key :=
  { w with
    lock := if w.lock = some pid then none else w.lock
    processes := w.become pid .idle }

inductive WorldStep : World Key → World Key → Prop where
  | acquireServe (w : World Key) (pid : Nat) (passphrase : String)
      (idle : w.processes pid = .idle) (free : w.lock = none) :
      WorldStep w { w with
        lock := some pid, processes := w.become pid (.startingServe passphrase) }
  | acquireRekey (w : World Key) (pid : Nat) (current new : String)
      (idle : w.processes pid = .idle) (free : w.lock = none) :
      WorldStep w { w with
        lock := some pid, processes := w.become pid (.startingRekey current new) }
  | unlocked (w : World Key) (pid : Nat) (passphrase : String) (salt : Bytes) (nonce : Nonce)
      (faults : List Bool) (key : Key) (starting : w.processes pid = .startingServe passphrase)
      (ok : (initOrVerify c.toCryptoCrates passphrase salt nonce ⟨w.db, faults⟩).1 = .ok key) :
      WorldStep w
        ⟨(initOrVerify c.toCryptoCrates passphrase salt nonce ⟨w.db, faults⟩).2.store, w.lock,
          w.become pid (.serving key),
          if w.db.metaValue K_SALT = none then some passphrase else w.committed⟩
  | startFailed (w : World Key) (pid : Nat) (passphrase : String) (salt : Bytes) (nonce : Nonce)
      (faults : List Bool) (e : AnyhowError)
      (starting : w.processes pid = .startingServe passphrase)
      (error : (initOrVerify c.toCryptoCrates passphrase salt nonce ⟨w.db, faults⟩).1 = .error e) :
      WorldStep w ({ w with db := (initOrVerify c.toCryptoCrates passphrase salt nonce
        ⟨w.db, faults⟩).2.store }.exit pid)
  /-- The handler of a request, whichever token it carries. -/
  | request (w : World Key) (pid : Nat) (key : Key) (token : AuthedToken) (call : Call)
      (d : Draws c.time) (faults : List Bool) (serving : w.processes pid = .serving key) :
      WorldStep w { w with db := (call.perform c key token d ⟨w.db, faults⟩).2.store }
  | rekeyVerified (w : World Key) (pid : Nat) (current new : String) (draws : RekeyDraws)
      (faults : List Bool) (oldKey newKey : Key)
      (starting : w.processes pid = .startingRekey current new)
      (ok : (rekeyKeys c.toCryptoCrates current new .strong draws.salt ⟨w.db, faults⟩).1 =
        .ok (oldKey, newKey)) :
      WorldStep w { w with processes := w.become pid (.rekeying new draws oldKey newKey) }
  | rekeyCommitted (w : World Key) (pid : Nat) (new : String) (draws : RekeyDraws)
      (oldKey newKey : Key) (faults : List Bool) (n : Nat)
      (rekeying : w.processes pid = .rekeying new draws oldKey newKey)
      (ok : (rekeyTransaction c.toCryptoCrates oldKey newKey .strong draws ⟨w.db, faults⟩).1 =
        .ok n) :
      WorldStep w ({ w with
        db := (rekeyTransaction c.toCryptoCrates oldKey newKey .strong draws
          ⟨w.db, faults⟩).2.store
        committed := some new }.exit pid)
  | rekeyFailed (w : World Key) (pid : Nat) (new : String) (draws : RekeyDraws)
      (oldKey newKey : Key) (faults : List Bool) (e : AnyhowError)
      (rekeying : w.processes pid = .rekeying new draws oldKey newKey)
      (error : (rekeyTransaction c.toCryptoCrates oldKey newKey .strong draws
        ⟨w.db, faults⟩).1 = .error e) :
      WorldStep w ({ w with
        db := (rekeyTransaction c.toCryptoCrates oldKey newKey .strong draws
          ⟨w.db, faults⟩).2.store }.exit pid)
  /-- An exit, a refused passphrase or a crash. -/
  | stop (w : World Key) (pid : Nat) : WorldStep w (w.exit pid)
  | tokenCreate (w : World Key) (name token : String) (scope expiresAt : Option String)
      (now : Reading c.time) (faults : List Bool) :
      WorldStep w { w with
        db := (Repo.insertToken name (hashToken c.toCryptoCrates token) scope expiresAt now.rfc3339
          ⟨w.db, faults⟩).2.store }
  | tokenRevoke (w : World Key) (name : String) (faults : List Bool) :
      WorldStep w { w with db := (Repo.revokeToken name ⟨w.db, faults⟩).2.store }

/-- Every row opens under this key with the names it is stored under. -/
def RowsOpen (c : CryptoCrates Key) (db : Db) (key : Key) : Prop :=
  ∀ s ∈ db.secrets, ∃ p ∈ db.projects, p.id = s.projectId ∧
    ∃ m, decrypt c key s.nonce s.ciphertext (aadBytes p.name s.key) = .ok m

/-- Nothing yet, or everything under the committed passphrase. -/
def KeyedBy (c : CryptoCrates Key) (db : Db) : Option String → Prop
  | none => (∀ k ∈ cryptoKeys, db.metaValue k = none) ∧ db.secrets = []
  | some passphrase => (∀ k ∈ cryptoKeys, (db.metaValue k).isSome) ∧
    ∃ key r, Unlocks c db passphrase key r ∧ RowsOpen c db key

/-- What a process keeps in memory agrees with the database. -/
def Process.Holds (c : CryptoCrates Key) (db : Db) (committed : Option String) :
    Process Key → Prop
  | .serving key => ∃ p r, committed = some p ∧ Unlocks c db p key r
  | .rekeying new draws oldKey newKey => (∃ p r, committed = some p ∧ Unlocks c db p oldKey r) ∧
    deriveKey c new draws.salt .strong = .ok newKey
  | _ => True

structure WorldInv (w : World Key) : Prop where
  exclusive : ∀ pid, w.processes pid ≠ .idle → w.lock = some pid
  conforms : w.db.Conforms
  keyed : KeyedBy c.toCryptoCrates w.db w.committed
  holds : ∀ pid, (w.processes pid).Holds c.toCryptoCrates w.db w.committed

/-- The law of the master key. -/
structure Consistent (w : World Key) : Prop where
  allOrNone : (∀ k ∈ cryptoKeys, w.db.metaValue k = none) ∨
    ∀ k ∈ cryptoKeys, (w.db.metaValue k).isSome
  verifies : ∀ p, Verifies c.toCryptoCrates w.db p ↔ w.committed = some p
  cached : ∀ pid key, w.processes pid = .serving key → ∃ p r, w.committed = some p ∧
    w.db.cryptoMeta = some r ∧ deriveKey c.toCryptoCrates p r.salt r.params = .ok key
  rows : ∀ s ∈ w.db.secrets, ∃ p r key, w.committed = some p ∧ w.db.cryptoMeta = some r ∧
    deriveKey c.toCryptoCrates p r.salt r.params = .ok key ∧
    ∃ project ∈ w.db.projects, project.id = s.projectId ∧
      ∃ m, decrypt c.toCryptoCrates key s.nonce s.ciphertext (aadBytes project.name s.key) = .ok m

variable {c} {w w' : World Key}

/-! ## The lock -/

/-- While one process is at work the others are idle. -/
lemma WorldInv.others_idle (inv : WorldInv c w) {pid pid' : Nat}
    (busy : w.processes pid ≠ .idle) (other : pid' ≠ pid) : w.processes pid' = .idle := by
  by_contra busy'
  have same := (inv.exclusive pid busy).symm.trans (inv.exclusive pid' busy')
  exact other (Option.some.inj same).symm

lemma become_exclusive (inv : WorldInv c w) {pid : Nat} (busy : w.processes pid ≠ .idle)
    (p : Process Key) : ∀ pid', w.become pid p pid' ≠ .idle → w.lock = some pid' := by
  intro pid' busy'
  by_cases same : pid' = pid
  · rw [same]
    exact inv.exclusive pid busy
  · unfold World.become at busy'
    rw [Function.update_of_ne same] at busy'
    exact inv.exclusive pid' busy'

/-- After a step of the one busy process, memory is what that process now keeps. -/
lemma become_holds (inv : WorldInv c w) {pid : Nat} (busy : w.processes pid ≠ .idle)
    {p : Process Key} {db : Db} {committed : Option String}
    (holds : p.Holds c.toCryptoCrates db committed) :
    ∀ pid', (w.become pid p pid').Holds c.toCryptoCrates db committed := by
  intro pid'
  unfold World.become
  by_cases same : pid' = pid
  · rw [same, Function.update_self]
    exact holds
  · rw [Function.update_of_ne same, inv.others_idle busy same]
    trivial

lemma acquired (inv : WorldInv c w) {pid : Nat} (free : w.lock = none) {p : Process Key}
    (holds : p.Holds c.toCryptoCrates w.db w.committed) :
    WorldInv c { w with lock := some pid, processes := w.become pid p } := by
  have idle : ∀ pid', w.processes pid' = .idle := by
    intro pid'
    by_contra busy
    simpa [free] using inv.exclusive pid' busy
  refine ⟨?_, inv.conforms, inv.keyed, ?_⟩
  · intro pid' busy
    by_cases same : pid' = pid
    · rw [same]
    · exact absurd (by simp [World.become, Function.update_of_ne same, idle pid']) busy
  · intro pid'
    by_cases same : pid' = pid
    · simpa [World.become, same] using holds
    · simp [World.become, Function.update_of_ne same, idle pid', Process.Holds]

/-- The database of a busy process may change as long as the key still fits it. -/
lemma exited (inv : WorldInv c w) {pid : Nat} (busy : w.processes pid ≠ .idle) {db : Db}
    {committed : Option String} (conforms : db.Conforms)
    (keyed : KeyedBy c.toCryptoCrates db committed) :
    WorldInv c ({ w with db := db, committed := committed }.exit pid) := by
  refine ⟨?_, conforms, keyed, become_holds inv busy trivial⟩
  intro pid' busy'
  by_cases same : pid' = pid
  · exact absurd (by simp [World.exit, World.become, same]) busy'
  · exact absurd (by simp [World.exit, World.become, Function.update_of_ne same,
      inv.others_idle busy same]) busy'

lemma stopped (inv : WorldInv c w) (pid : Nat) : WorldInv c (w.exit pid) := by
  by_cases busy : w.processes pid = .idle
  · have same : w.become pid .idle = w.processes := by
      unfold World.become
      rw [← busy, Function.update_eq_self]
    refine ⟨?_, inv.conforms, inv.keyed, ?_⟩
    · intro pid' busy'
      simp only [World.exit, same] at busy' ⊢
      have held := inv.exclusive pid' busy'
      have other : pid' ≠ pid := fun h => busy' (h ▸ busy)
      simp [held, other]
    · intro pid'
      simp only [World.exit, same]
      exact inv.holds pid'
  · exact exited inv busy inv.conforms inv.keyed

/-! ## What is written under the committed key -/

variable {db db' : Db} {key : Key} {committed : Option String}

lemma RowsOpen.subset (h : RowsOpen c.toCryptoCrates db key)
    (fewer : ∀ s ∈ db'.secrets, s ∈ db.secrets) (projects : db.projects ⊆ db'.projects) :
    RowsOpen c.toCryptoCrates db' key := by
  intro s hs
  obtain ⟨p, hp, owner, opens⟩ := h s (fewer s hs)
  exact ⟨p, projects hp, owner, opens⟩

lemma PutChecked.rowsOpen (ideal : c.toCryptoCrates.Ideal) {token : AuthedToken}
    {d : Draws c.time} {name secretKey value at_ : String} {p : ProjectRow} {n ct : Bytes}
    (checked : PutChecked c key token d db name secretKey value p n ct)
    (h : RowsOpen c.toCryptoCrates db key) :
    RowsOpen c.toCryptoCrates (db.putSecretRow p.id secretKey n ct at_) key := by
  intro s hs
  rcases mem_putSecretRow hs with ⟨old, _⟩ | ⟨place, hn, hct⟩
  · exact h s old
  · obtain ⟨hp, rfl⟩ := project_mem checked.found
    have names : s.projectId = p.id ∧ s.key = secretKey :=
      ⟨congrArg Prod.fst place, congrArg Prod.snd place⟩
    refine ⟨p, hp, names.1.symm, utf8 value, ?_⟩
    rw [hn, hct, names.2]
    exact decrypt_encrypt ideal.aead checked.encrypted

lemma Outcome.rowsOpen (ideal : c.toCryptoCrates.Ideal) {token : AuthedToken} {d : Draws c.time}
    {call : Call} {response : Response} (outcome : Outcome c key token d db call response db')
    (h : RowsOpen c.toCryptoCrates db key) : RowsOpen c.toCryptoCrates db' key := by
  cases outcome with
  | createProject => exact h.subset (fun _ hs => hs) (List.subset_append_left _ _)
  | putSecret name secretKey body p n ct row checked stored => exact checked.rowsOpen ideal h
  | deleteSecret => exact h.subset (fun _ hs => (List.mem_filter.mp hs).1) fun _ hp => hp
  | listProjects => exact h
  | getSecrets => exact h
  | createToken => exact h.subset (fun _ hs => hs) fun _ hp => hp
  | listTokens => exact h
  | revokeToken => exact h.subset (fun _ hs => hs) fun _ hp => hp

lemma Outcome.metaTable {token : AuthedToken} {d : Draws c.time} {call : Call}
    {response : Response} (outcome : Outcome c key token d db call response db') :
    db'.metaTable = db.metaTable := by cases outcome <;> rfl

/-- A handler with the committed key keeps every row open under it. -/
lemma perform_rowsOpen (ideal : c.toCryptoCrates.Ideal) (call : Call) (token : AuthedToken)
    (d : Draws c.time) (s : Session Db) (h : RowsOpen c.toCryptoCrates s.store key) :
    RowsOpen c.toCryptoCrates (call.perform c key token d s).2.store key ∧
      (call.perform c key token d s).2.store.metaTable = s.store.metaTable := by
  have ends := perform_ends key call token d s
  generalize (call.perform c key token d s).2.store = db' at ends
  rcases ends with ⟨response, _, outcome⟩ | ⟨e, _, rfl | ⟨_, _, _, _, _, _, _, checked, rfl⟩⟩
  · exact ⟨outcome.rowsOpen ideal h, outcome.metaTable⟩
  · exact ⟨h, rfl⟩
  · exact ⟨checked.rowsOpen ideal h, rfl⟩

lemma KeyedBy.congr (h : KeyedBy c.toCryptoCrates db committed)
    (sameMeta : db'.metaTable = db.metaTable) (secrets : db'.secrets = db.secrets)
    (projects : db'.projects = db.projects) : KeyedBy c.toCryptoCrates db' committed := by
  have values : ∀ k, db'.metaValue k = db.metaValue k := by
    intro k
    unfold Db.metaValue
    rw [sameMeta]
  cases committed with
  | none => exact ⟨fun k hk => (values k).trans (h.1 k hk), secrets.trans h.2⟩
  | some p =>
    obtain ⟨present, key, r, unlocks, rows⟩ := h
    refine ⟨fun k hk => by rw [values k]; exact present k hk, key, r, unlocks.congr sameMeta, ?_⟩
    exact rows.subset (fun s hs => secrets ▸ hs) (projects ▸ List.Subset.refl _)

lemma Process.Holds.congr {p : Process Key} (h : p.Holds c.toCryptoCrates db committed)
    (sameMeta : db'.metaTable = db.metaTable) : p.Holds c.toCryptoCrates db' committed := by
  cases p with
  | idle => trivial
  | startingServe => trivial
  | startingRekey => trivial
  | serving key =>
    obtain ⟨p, r, hp, unlocks⟩ := h
    exact ⟨p, r, hp, unlocks.congr sameMeta⟩
  | rekeying new draws oldKey newKey =>
    obtain ⟨⟨p, r, hp, unlocks⟩, derived⟩ := h
    exact ⟨⟨p, r, hp, unlocks.congr sameMeta⟩, derived⟩

/-- A command on the tokens table is nothing to the master key. -/
lemma WorldInv.tokensOnly (inv : WorldInv c w) {db : Db} (conforms : db.Conforms)
    (sameMeta : db.metaTable = w.db.metaTable) (secrets : db.secrets = w.db.secrets)
    (projects : db.projects = w.db.projects) : WorldInv c { w with db := db } :=
  ⟨inv.exclusive, conforms, inv.keyed.congr sameMeta secrets projects,
    fun pid => (inv.holds pid).congr sameMeta⟩

/-! ## Initialization and rekey -/

lemma installed_keyed (ideal : c.toCryptoCrates.Ideal) {p : String} {r : CryptoMeta} {mid : Db}
    (installed : Installed c.toCryptoCrates p key r)
    (rows : RowsOpen c.toCryptoCrates (mid.setCryptoMeta r) key) :
    KeyedBy c.toCryptoCrates (mid.setCryptoMeta r) (some p) :=
  ⟨setCryptoMeta_present mid r, key, r,
    installed.unlocks ideal (cryptoMeta_setCryptoMeta mid r), rows⟩

lemma Rekeyed.keyed (ideal : c.toCryptoCrates.Ideal) {oldKey newKey : Key} {new : String}
    (conforms : db.Conforms) (rekeyed : Rekeyed c.toCryptoCrates oldKey newKey new db db') :
    KeyedBy c.toCryptoCrates db' (some new) := by
  have rows : RowsOpen c.toCryptoCrates db' newKey := by
    intro s' hs'
    obtain ⟨s, hs, progress⟩ := forall₂_mem_left rekeyed.rows.flip hs'
    obtain ⟨p, hp, owner⟩ := conforms.owned s hs
    obtain ⟨m, nonce, _, encrypted⟩ := rekeyed_row conforms hs hp owner progress
    have frame := progress.1
    simp only [SecretRow.frame, Prod.mk.injEq] at frame
    refine ⟨p, by rw [rekeyed.projects]; exact hp, owner.trans frame.2.1.symm, m, ?_⟩
    rw [frame.2.2.1]
    exact decrypt_encrypt ideal.aead encrypted
  obtain ⟨r, mid, installed, _, rfl⟩ := rekeyed.metadata
  exact installed_keyed ideal installed rows

/-- Whoever unlocks the database has the committed passphrase. -/
lemma KeyedBy.committed_eq (ideal : c.toCryptoCrates.Ideal) {p : String} {r : CryptoMeta}
    (keyed : KeyedBy c.toCryptoCrates db committed)
    (unlocks : Unlocks c.toCryptoCrates db p key r) : committed = some p := by
  cases committed with
  | none =>
    have absent := keyed.1 K_SALT (by decide)
    rw [(cryptoMeta_some unlocks.stored).1] at absent
    cases absent
  | some p' =>
    obtain ⟨_, key₀, r₀, unlocks₀, _⟩ := keyed
    rw [unlocks₀.passphrase_unique ideal unlocks]

lemma KeyedBy.rowsOpen {p : String} {r : CryptoMeta}
    (keyed : KeyedBy c.toCryptoCrates db (some p))
    (unlocks : Unlocks c.toCryptoCrates db p key r) : RowsOpen c.toCryptoCrates db key := by
  obtain ⟨_, key₀, r₀, unlocks₀, rows⟩ := keyed
  obtain ⟨rfl, rfl⟩ := unlocks₀.key_unique unlocks
  exact rows

lemma KeyedBy.empty (keyed : KeyedBy c.toCryptoCrates db committed)
    (absent : db.metaValue K_SALT = none) : db.secrets = [] := by
  cases committed with
  | none => exact keyed.2
  | some p => simpa [absent] using keyed.1 K_SALT (by decide)

/-! ## Every step keeps the key and the database together -/

lemma WorldInv.unlocked (ideal : c.toCryptoCrates.Ideal) (inv : WorldInv c w) {pid : Nat}
    {passphrase : String} {salt : Bytes} {nonce : Nonce} {faults : List Bool}
    (busy : w.processes pid ≠ .idle)
    (ok : (initOrVerify c.toCryptoCrates passphrase salt nonce ⟨w.db, faults⟩).1 = .ok key) :
    WorldInv c ⟨(initOrVerify c.toCryptoCrates passphrase salt nonce ⟨w.db, faults⟩).2.store,
      w.lock, w.become pid (.serving key),
      if w.db.metaValue K_SALT = none then some passphrase else w.committed⟩ := by
  have whole : Triple (fun s => s = w.db)
      (initOrVerify c.toCryptoCrates passphrase salt nonce) _ _ := initOrVerify_triple salt nonce
  rcases whole.elim (s := ⟨w.db, faults⟩) rfl with ⟨key', ok', ends⟩ | ⟨e, error, _⟩
  · obtain rfl := Except.ok.inj (ok'.symm.trans ok)
    rcases ends with ⟨same, r, unlocks⟩ | ⟨absent, r, installed, written⟩
    · have present : w.db.metaValue K_SALT ≠ none := by
        rw [(cryptoMeta_some unlocks.stored).1]
        simp
      rw [same, if_neg present]
      have committed := inv.keyed.committed_eq ideal unlocks
      refine ⟨become_exclusive inv busy _, inv.conforms, inv.keyed, ?_⟩
      exact become_holds inv busy ⟨passphrase, r, committed, unlocks⟩
    · rw [written, if_pos absent]
      have rows : RowsOpen c.toCryptoCrates (w.db.setCryptoMeta r) key' := by
        intro s hs
        rw [setCryptoMeta_secrets, inv.keyed.empty absent] at hs
        cases hs
      refine ⟨become_exclusive inv busy _, setCryptoMeta_conforms r inv.conforms,
        installed_keyed ideal installed rows, become_holds inv busy ⟨passphrase, r, rfl, ?_⟩⟩
      exact installed.unlocks ideal (cryptoMeta_setCryptoMeta _ _)
  · exact absurd (error.symm.trans ok) (by simp)

lemma WorldInv.requested (ideal : c.toCryptoCrates.Ideal) (inv : WorldInv c w) {pid : Nat}
    (serving : w.processes pid = .serving key) (token : AuthedToken) (call : Call)
    (d : Draws c.time) (faults : List Bool) :
    WorldInv c { w with db := (call.perform c key token d ⟨w.db, faults⟩).2.store } := by
  have holds := inv.holds pid
  rw [serving] at holds
  obtain ⟨p, r, hp, unlocks⟩ := holds
  have keyed := inv.keyed
  rw [hp] at keyed
  obtain ⟨rows', sameMeta⟩ :=
    perform_rowsOpen ideal call token d ⟨w.db, faults⟩ (keyed.rowsOpen unlocks)
  refine ⟨inv.exclusive, perform_conforms call token d ⟨w.db, faults⟩ inv.conforms, ?_,
    fun pid => (inv.holds pid).congr sameMeta⟩
  simp only [hp]
  refine ⟨fun k hk => ?_, key, r, unlocks.congr sameMeta, rows'⟩
  unfold Db.metaValue
  rw [sameMeta]
  exact keyed.1 k hk

lemma WorldInv.verified (ideal : c.toCryptoCrates.Ideal) (inv : WorldInv c w) {pid : Nat}
    {current new : String} {draws : RekeyDraws} {faults : List Bool} {oldKey newKey : Key}
    (busy : w.processes pid ≠ .idle)
    (ok : (rekeyKeys c.toCryptoCrates current new .strong draws.salt ⟨w.db, faults⟩).1 =
      .ok (oldKey, newKey)) :
    WorldInv c { w with processes := w.become pid (.rekeying new draws oldKey newKey) } := by
  have reads : Reads w.db (rekeyKeys c.toCryptoCrates current new .strong draws.salt) _ :=
    rekeyKeys_reads
  rcases reads.elim (s := ⟨w.db, faults⟩) rfl with ⟨keys, ok', _, _, ⟨r, unlocks⟩, derived⟩ |
    ⟨e, error, _⟩
  · obtain rfl := Except.ok.inj (ok'.symm.trans ok)
    have committed := inv.keyed.committed_eq ideal unlocks
    refine ⟨become_exclusive inv busy _, inv.conforms, inv.keyed, become_holds inv busy ?_⟩
    exact ⟨⟨current, r, committed, unlocks⟩, derived⟩
  · exact absurd (error.symm.trans ok) (by simp)

theorem world_step (ideal : c.toCryptoCrates.Ideal) (inv : WorldInv c w)
    (step : WorldStep c w w') : WorldInv c w' := by
  cases step with
  | acquireServe pid passphrase idle free => exact acquired inv free trivial
  | acquireRekey pid current new idle free => exact acquired inv free trivial
  | unlocked pid passphrase salt nonce faults key starting ok =>
    exact inv.unlocked ideal (by simp [starting]) ok
  | startFailed pid passphrase salt nonce faults e starting error =>
    have busy : w.processes pid ≠ .idle := by simp [starting]
    have whole : Triple (fun s => s = w.db)
        (initOrVerify c.toCryptoCrates passphrase salt nonce) _ _ := initOrVerify_triple salt nonce
    rcases whole.elim (s := ⟨w.db, faults⟩) rfl with ⟨key', ok, _⟩ | ⟨e, _, same⟩
    · exact absurd (ok.symm.trans error) (by simp)
    · rw [same]
      exact exited inv busy inv.conforms inv.keyed
  | request pid key token call d faults serving =>
    exact inv.requested ideal serving token call d faults
  | rekeyVerified pid current new draws faults oldKey newKey starting ok =>
    exact inv.verified ideal (by simp [starting]) ok
  | rekeyCommitted pid new draws oldKey newKey faults n rekeying ok =>
    have busy : w.processes pid ≠ .idle := by simp [rekeying]
    have holds := inv.holds pid
    rw [rekeying] at holds
    have whole : Triple (fun s => s = w.db)
        (rekeyTransaction c.toCryptoCrates oldKey newKey .strong draws) _ _ :=
      rekeyTransaction_triple strong_inBounds holds.2
    rcases whole.elim (s := ⟨w.db, faults⟩) rfl with ⟨n', _, _, rekeyed⟩ | ⟨e, error, _⟩
    · exact exited inv busy (rekeyed.conforms inv.conforms)
        (rekeyed.keyed ideal inv.conforms)
    · exact absurd (error.symm.trans ok) (by simp)
  | rekeyFailed pid new draws oldKey newKey faults e rekeying error =>
    have busy : w.processes pid ≠ .idle := by simp [rekeying]
    have same : (rekeyTransaction c.toCryptoCrates oldKey newKey .strong draws
        ⟨w.db, faults⟩).2.store = w.db := transaction_error error
    rw [same]
    exact exited inv busy inv.conforms inv.keyed
  | stop pid => exact stopped inv pid
  | tokenCreate name token scope expiresAt now faults =>
    rcases insertToken_repo name (hashToken c.toCryptoCrates token) scope expiresAt now.rfc3339
      w.db faults with same | same <;> rw [same]
    · exact inv
    · exact inv.tokensOnly (addToken_conforms inv.conforms) rfl rfl rfl
  | tokenRevoke name faults =>
    rcases revokeToken_repo name w.db faults with ⟨_, _, same⟩ | ⟨_, same⟩ <;> rw [same]
    · exact inv.tokensOnly (revokeTokens_conforms inv.conforms) rfl rfl rfl
    · exact inv

lemma world_initial : WorldInv c World.initial where
  exclusive _ busy := absurd rfl busy
  conforms := Db.empty_conforms
  keyed := ⟨fun _ _ => rfl, rfl⟩
  holds _ := trivial

lemma WorldInv.consistent (ideal : c.toCryptoCrates.Ideal) (inv : WorldInv c w) :
    Consistent c w := by
  have keyed := inv.keyed
  cases hcommitted : w.committed with
  | none =>
    rw [hcommitted] at keyed
    have locked : ∀ p, ¬ Verifies c.toCryptoCrates w.db p := by
      rintro p ⟨salt, _, found, _⟩
      rw [keyed.1 K_SALT (by decide)] at found
      cases found
    refine ⟨Or.inl keyed.1, fun p => ⟨fun h => absurd h (locked p), fun h => ?_⟩, ?_, ?_⟩
    · rw [hcommitted] at h
      cases h
    · intro pid key serving
      have holds := inv.holds pid
      rw [serving, hcommitted] at holds
      obtain ⟨_, _, absurd, _⟩ := holds
      cases absurd
    · intro s hs
      rw [keyed.2] at hs
      cases hs
  | some p =>
    rw [hcommitted] at keyed
    obtain ⟨present, key, r, unlocks, rows⟩ := keyed
    refine ⟨Or.inr present, fun p' => ?_, ?_, ?_⟩
    · rw [verifies_iff, hcommitted]
      constructor
      · rintro ⟨_, _, unlocks'⟩
        rw [unlocks.passphrase_unique ideal unlocks']
      · rintro ⟨⟩
        exact ⟨key, r, unlocks⟩
    · intro pid key' serving
      have holds := inv.holds pid
      rw [serving] at holds
      obtain ⟨p', r', hp', unlocks'⟩ := holds
      exact ⟨p', r', hp', unlocks'.stored, unlocks'.derived⟩
    · intro s hs
      exact ⟨p, r, key, hcommitted, unlocks.stored, unlocks.derived, rows s hs⟩

/-- In every interleaving, with every crash, metadata, rows and cached keys belong to the
passphrase committed last. -/
theorem master_key_consistent (ideal : c.toCryptoCrates.Ideal)
    (run : ReflTransGen (WorldStep c) World.initial w) : Consistent c w :=
  (Transitions.preserved (fun _ _ inv step => world_step ideal inv step) run
    world_initial).consistent ideal

/-! ## One process at a time -/

/-- A process at work, and the others idle. -/
def World.alone (db : Db) (p : Process Key) (committed : Option String) : World Key :=
  ⟨db, some 0, Function.update (fun _ => .idle) 0 p, committed⟩

/-- No process at all. -/
def World.unattended (db : Db) (committed : Option String) : World Key :=
  ⟨db, none, fun _ => .idle, committed⟩

section Alone

variable {db : Db} {key oldKey newKey : Key} {p p' : Process Key} {committed : Option String}

lemma alone_become : (World.alone db p committed).become 0 p' =
    Function.update (fun _ => .idle) 0 p' := Function.update_idem ..

lemma alone_exit : (World.alone db p committed).exit 0 = World.unattended db committed := by
  unfold World.exit
  rw [alone_become, Function.update_eq_self 0 fun _ : Nat => (Process.idle : Process Key)]
  rfl

lemma alone_stops : WorldStep c (World.alone db p committed) (World.unattended db committed) :=
  alone_exit (p := p) ▸ .stop _ 0

lemma alone_serves {passphrase : String} {salt : Bytes} {faults : List Bool}
    (ok : (initOrVerify c.toCryptoCrates passphrase salt .zero ⟨db, faults⟩).1 = .ok key) :
    WorldStep c (World.alone db (.startingServe passphrase) committed)
      (World.alone (initOrVerify c.toCryptoCrates passphrase salt .zero ⟨db, faults⟩).2.store
        (.serving key) (if db.metaValue K_SALT = none then some passphrase else committed)) := by
  have step := WorldStep.unlocked (World.alone db (.startingServe passphrase) committed) 0
    passphrase salt .zero faults key rfl ok
  rwa [alone_become] at step

lemma alone_verifies {current new : String} {draws : RekeyDraws} {faults : List Bool}
    (ok : (rekeyKeys c.toCryptoCrates current new .strong draws.salt ⟨db, faults⟩).1 =
      .ok (oldKey, newKey)) :
    WorldStep c (World.alone db (.startingRekey current new) committed)
      (World.alone db (.rekeying new draws oldKey newKey) committed) := by
  have step := WorldStep.rekeyVerified (World.alone db (.startingRekey current new) committed) 0
    current new draws faults oldKey newKey rfl ok
  rwa [alone_become] at step

lemma alone_commits {new : String} {draws : RekeyDraws} {faults : List Bool} {n : Nat}
    (ok : (rekeyTransaction c.toCryptoCrates oldKey newKey .strong draws ⟨db, faults⟩).1 =
      .ok n) :
    WorldStep c (World.alone db (.rekeying new draws oldKey newKey) committed)
      (World.unattended (rekeyTransaction c.toCryptoCrates oldKey newKey .strong draws
        ⟨db, faults⟩).2.store (some new)) := by
  have step := WorldStep.rekeyCommitted
    (World.alone db (.rekeying new draws oldKey newKey) committed) 0 new draws oldKey newKey
    faults n rfl ok
  exact alone_exit ▸ step

end Alone

/-! ## A secret that outlives a passphrase -/

section Example

def keyUnderOld : Bytes := Framing.frame (utf8 "old") ++ Framing.frame [1]

def keyUnderNew : Bytes := Framing.frame (utf8 "new") ++ Framing.frame [2]

def openedDb : Db := (initOrVerify framedCrypto "old" [1] .zero ⟨.empty, []⟩).2.store

def afterCall (call : StoreCall) (db : Db) : Db :=
  (call.perform framedServer keyUnderOld rootIdentity (epochDraws "") ⟨db, []⟩).2.store

def createApp : StoreCall := .createProject (.ok ⟨"app"⟩)

def putInApp : StoreCall := .putSecret "app" "KEY" (.ok ⟨"v"⟩)

def filledDb : Db := afterCall putInApp (afterCall createApp openedDb)

def toNew : RekeyDraws := ⟨[2], fun _ => .zero⟩

def rekeyedDb : Db :=
  (rekeyTransaction framedCrypto keyUnderOld keyUnderNew .strong toNew ⟨filledDb, []⟩).2.store

lemma old_opens : (initOrVerify framedCrypto "old" [1] .zero ⟨.empty, []⟩).1 = .ok keyUnderOld := by
  decide

lemma old_called (call : StoreCall) (db : Db) :
    WorldStep framedServer (World.alone db (.serving keyUnderOld) (some "old"))
      (World.alone (afterCall call db) (.serving keyUnderOld) (some "old")) :=
  .request _ 0 keyUnderOld rootIdentity (.store call) (epochDraws "") [] rfl

lemma new_verified : (rekeyKeys framedCrypto "old" "new" .strong toNew.salt ⟨filledDb, []⟩).1 =
    .ok (keyUnderOld, keyUnderNew) := by decide

lemma new_rewritten : (rekeyTransaction framedCrypto keyUnderOld keyUnderNew .strong toNew
    ⟨filledDb, []⟩).1 = .ok 1 := by decide

lemma new_opens : (initOrVerify framedCrypto "new" [] .zero ⟨rekeyedDb, []⟩).1 =
    .ok keyUnderNew := by decide

lemma putThenRekey_run : ∃ w : World Bytes,
    ReflTransGen (WorldStep framedServer) World.initial w ∧ w.db.secrets.length = 1 ∧
    w.committed = some "new" ∧ w.processes 0 = .serving keyUnderNew := by
  have opened : ReflTransGen (WorldStep framedServer) World.initial
      (World.alone openedDb (.serving keyUnderOld) (some "old")) :=
    (ReflTransGen.single (.acquireServe _ 0 "old" rfl rfl)).tail (alone_serves old_opens)
  have filled := (opened.tail (old_called createApp _)).tail (old_called putInApp _)
  have rekeying := (filled.tail alone_stops).tail (.acquireRekey _ 0 "old" "new" rfl rfl)
  have rekeyed := (rekeying.tail (alone_verifies new_verified)).tail (alone_commits new_rewritten)
  have served := (rekeyed.tail (.acquireServe _ 0 "new" rfl rfl)).tail (alone_serves new_opens)
  exact ⟨_, served, by decide, by decide, rfl⟩

end Example

/-- A secret is put under one passphrase, and another one is committed. -/
theorem master_key_consistent_putThenRekey : ∃ w : World Bytes,
    ReflTransGen (WorldStep framedServer) World.initial w ∧ w.db.secrets.length = 1 ∧
    w.committed = some "new" ∧ w.processes 0 = .serving keyUnderNew ∧
    Consistent framedServer w := by
  obtain ⟨w, run, one, committed, serving⟩ := putThenRekey_run
  exact ⟨w, run, one, committed, serving, master_key_consistent framedCrypto_ideal run⟩

end SecretsManager
