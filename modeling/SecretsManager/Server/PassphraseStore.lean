import SecretsManager.Server.FaultyCalls
import SecretsManager.Server.Processes
import SecretsManager.Lib.Simulation

/-!
# The store that the processes serve

What the database and its processes are for: one map of secrets that opens with one
passphrase. Servers start and stop on it, requests work on the map, and a rekey changes
the passphrase and nothing that the map holds.
-/

namespace SecretsManager

open FaultySession KeyedTable Relation Simulation

structure PassphraseStore where
  passphrase : Option String
  store : RefStore

namespace PassphraseStore

def empty : PassphraseStore := ⟨none, ∅⟩

inductive Act where
  | initialized (passphrase : String)
  /-- A call, whether a statement of its handler failed, and its answer. -/
  | answered (token : AuthedToken) (now : String) (call : StoreCall) (failed : Bool)
      (response : Response)
  | rekeyed (passphrase : String)

/-- A call whose statements succeed is answered as the map answers. Where one has failed it is
answered 500: the map is as before, or a put has been made. -/
inductive Does : PassphraseStore → Act → PassphraseStore → Prop where
  | initialized (passphrase : String) : Does empty (.initialized passphrase) ⟨some passphrase, ∅⟩
  | answered (p : String) (st : RefStore) (token : AuthedToken) (now : String) (call : StoreCall) :
      Does ⟨some p, st⟩ (.answered token now call false (st.step token now call).1)
        ⟨some p, (st.step token now call).2⟩
  | broken (p : String) (st : RefStore) (token : AuthedToken) (now : String) (call : StoreCall) :
      Does ⟨some p, st⟩ (.answered token now call true (AppError.internal "database").intoResponse)
        ⟨some p, st⟩
  | unreported (p : String) (st : RefStore) (token : AuthedToken) (now name secretKey : String)
      (body : Except AppError SetSecretBody) :
      Does ⟨some p, st⟩ (.answered token now (.putSecret name secretKey body) true
          (AppError.internal "database").intoResponse)
        ⟨some p, (st.step token now (.putSecret name secretKey body)).2⟩
  | rekeyed (p new : String) (st : RefStore) : Does ⟨some p, st⟩ (.rekeyed new) ⟨some new, st⟩

end PassphraseStore

variable {Key : Type} (c : ServerCrates Key)

/-- What a step of the processes is to the store. -/
inductive World.Shows (w w' : World Key) : List PassphraseStore.Act → Prop where
  | initialized (passphrase : String) (salt : Bytes) (nonce : Nonce) (faults : List Bool)
      (key : Key) (absent : w.db.metaValue K_SALT = none)
      (ok : (initOrVerify c.toCryptoCrates passphrase salt nonce ⟨w.db, faults⟩).1 = .ok key)
      (db : w'.db = (initOrVerify c.toCryptoCrates passphrase salt nonce ⟨w.db, faults⟩).2.store)
      (committed : w'.committed = some passphrase) : Shows w w' [.initialized passphrase]
  | answered (pid : Nat) (key : Key) (token : AuthedToken) (call : StoreCall) (d : Draws c.time)
      (faults : List Bool) (response : Response) (serving : w.processes pid = .serving key)
      (replied : reply .get (call.perform c key token d ⟨w.db, faults⟩).1 = some response)
      (db : w'.db = (call.perform c key token d ⟨w.db, faults⟩).2.store)
      (committed : w'.committed = w.committed) :
      Shows w w' [.answered token d.writtenAt.rfc3339 call
        (metFault (call.perform c key token d) ⟨w.db, faults⟩) response]
  | rekeyed (pid : Nat) (new : String) (draws : RekeyDraws) (oldKey newKey : Key)
      (faults : List Bool) (n : Nat)
      (rekeying : w.processes pid = .rekeying new draws oldKey newKey)
      (ok : (rekeyTransaction c.toCryptoCrates oldKey newKey .strong draws ⟨w.db, faults⟩).1 =
        .ok n)
      (db : w'.db = (rekeyTransaction c.toCryptoCrates oldKey newKey .strong draws
        ⟨w.db, faults⟩).2.store)
      (committed : w'.committed = some new) : Shows w w' [.rekeyed new]
  | silent (metaTable : w'.db.metaTable = w.db.metaTable)
      (projects : w'.db.projects = w.db.projects)
      (secrets : w'.db.secrets = w.db.secrets) (committed : w'.committed = w.committed) :
      Shows w w' []

/-- The database and its processes stand for this store. -/
structure StandsFor (w : World Key) (v : PassphraseStore) : Prop where
  inv : WorldInv c w
  passphrase : w.committed = v.passphrase
  store : ∀ p key r, Unlocks c.toCryptoCrates w.db p key r → Refines c key w.db v.store
  unused : v.passphrase = none → w.db.projects = [] ∧ v.store = ∅

variable {c} {w w' : World Key} {v : PassphraseStore} {db db' : Db} {key oldKey newKey : Key}

/-! ## Rekeying keeps the map -/

/-- What the new key reads in a row is what the old one read. -/
lemma rekeyed_viewOf (ideal : IdealAead.Ideal c.aead) {new : String} (conforms : db.Conforms)
    (rekeyed : Rekeyed c.toCryptoCrates oldKey newKey new db db') {p : ProjectRow}
    (hp : p ∈ db.projects) : db'.viewOf c newKey p = db.viewOf c oldKey p := by
  simp only [Db.viewOf, ProjectView.mk.injEq, true_and]
  funext k
  rcases get_forall₂ (k := (p.id, k)) rekeyed.rows (fun _ _ => Progress.at_eq) with
    ⟨before, after⟩ | ⟨s, s', before, after, progress⟩
  · simp [Db.secret, before, after]
  · obtain ⟨hs, owner, rfl⟩ := secret_mem before
    obtain ⟨m, nonce, opened, encrypted⟩ := rekeyed_row conforms hs hp owner.symm progress
    have reopened := decrypt_encrypt ideal encrypted
    have frame := progress.1
    simp only [SecretRow.frame, Prod.mk.injEq] at frame
    simp [Db.secret, before, after, SecretRow.reading, opened, reopened, frame]

lemma Rekeyed.refines (ideal : IdealAead.Ideal c.aead) {new : String}
    (rekeyed : Rekeyed c.toCryptoCrates oldKey newKey new db db') {ref : RefStore}
    (h : Refines c oldKey db ref) : Refines c newKey db' ref := by
  refine ⟨rekeyed.conforms h.conforms, fun name => ?_⟩
  have projects : db'.project name = db.project name := by
    unfold Db.project
    rw [rekeyed.projects]
  rw [← h.views name]
  unfold Db.view
  rw [projects]
  cases hp : db.project name with
  | none => rfl
  | some p => simp [rekeyed_viewOf ideal h.conforms rekeyed (project_mem hp).1]

/-! ## Every step is seen -/

/-- A call about tokens leaves the other tables. -/
lemma perform_tables {call : Call} (other : ∀ s, call ≠ .store s) {token : AuthedToken}
    {d : Draws c.time} (faults : List Bool) :
    (call.perform c key token d ⟨db, faults⟩).2.store.metaTable = db.metaTable ∧
    (call.perform c key token d ⟨db, faults⟩).2.store.projects = db.projects ∧
    (call.perform c key token d ⟨db, faults⟩).2.store.secrets = db.secrets := by
  have ends := perform_ends key call token d ⟨db, faults⟩
  generalize (call.perform c key token d ⟨db, faults⟩).2.store = db' at ends
  rcases ends with ⟨response, _, outcome⟩ | ⟨_, _, rfl | ⟨_, _, _, _, _, _, put, _⟩⟩
  · cases outcome with
    | createToken => exact ⟨rfl, rfl, rfl⟩
    | listTokens => exact ⟨rfl, rfl, rfl⟩
    | revokeToken => exact ⟨rfl, rfl, rfl⟩
    | createProject => exact absurd rfl (other _)
    | listProjects => exact absurd rfl (other _)
    | getSecrets => exact absurd rfl (other _)
    | putSecret => exact absurd rfl (other _)
    | deleteSecret => exact absurd rfl (other _)
  · exact ⟨rfl, rfl, rfl⟩
  · exact absurd put (other _)

lemma World.shows (step : WorldStep c w w') : ∃ acts, w.Shows c w' acts := by
  have same : ∀ (lock : Option Nat) (processes : Nat → Process Key),
      ∃ acts, w.Shows c ⟨w.db, lock, processes, w.committed⟩ acts := by
    intro lock processes
    exact ⟨[], .silent rfl rfl rfl rfl⟩
  cases step with
  | acquireServe => exact same _ _
  | acquireRekey => exact same _ _
  | unlocked pid passphrase salt nonce faults key starting ok =>
    by_cases absent : w.db.metaValue K_SALT = none
    · exact ⟨_, .initialized passphrase salt nonce faults key absent ok rfl (if_pos absent)⟩
    · have whole : Triple (fun s => s = w.db)
          (initOrVerify c.toCryptoCrates passphrase salt nonce) _ _ :=
        initOrVerify_triple salt nonce
      rcases whole.elim (s := ⟨w.db, faults⟩) rfl with
        ⟨_, _, ⟨kept, _⟩ | ⟨fresh, _⟩⟩ | ⟨_, error, _⟩
      · exact ⟨[], .silent (congrArg Db.metaTable kept) (congrArg Db.projects kept)
          (congrArg Db.secrets kept) (if_neg absent)⟩
      · exact absurd fresh absent
      · exact nomatch error.symm.trans ok
  | startFailed pid passphrase salt nonce faults e starting error =>
    have whole : Triple (fun s => s = w.db)
        (initOrVerify c.toCryptoCrates passphrase salt nonce) _ _ := initOrVerify_triple salt nonce
    rcases whole.elim (s := ⟨w.db, faults⟩) rfl with ⟨_, ok, _⟩ | ⟨_, _, kept⟩
    · exact nomatch ok.symm.trans error
    · rw [kept]
      exact same _ _
  | request pid key token call d faults serving =>
    by_cases store : ∃ s, call = .store s
    · obtain ⟨s, rfl⟩ := store
      rcases ran : (s.perform c key token d ⟨w.db, faults⟩).1 with (e | _) | response
      · exact ⟨_, .answered pid key token s d faults _ serving (by rw [ran]; rfl) rfl rfl⟩
      · exact absurd ran (s.answers token d _)
      · exact ⟨_, .answered pid key token s d faults _ serving (by rw [ran]; rfl) rfl rfl⟩
    · push Not at store
      obtain ⟨metaTable, projects, secrets⟩ := perform_tables store faults
      exact ⟨[], .silent metaTable projects secrets rfl⟩
  | rekeyVerified => exact same _ _
  | rekeyCommitted pid new draws oldKey newKey faults n rekeying ok =>
    exact ⟨_, .rekeyed pid new draws oldKey newKey faults n rekeying ok rfl rfl⟩
  | rekeyFailed pid new draws oldKey newKey faults e rekeying error =>
    have kept : (rekeyTransaction c.toCryptoCrates oldKey newKey .strong draws
        ⟨w.db, faults⟩).2.store = w.db := transaction_error error
    rw [kept]
    exact same _ _
  | stop pid => exact same _ _
  | tokenCreate name token scope expiresAt now faults =>
    rcases insertToken_repo name (hashToken c.toCryptoCrates token) scope expiresAt now.rfc3339
      w.db faults with kept | kept <;> rw [kept] <;> exact ⟨[], .silent rfl rfl rfl rfl⟩
  | tokenRevoke name faults =>
    rcases revokeToken_repo name w.db faults with ⟨_, _, kept⟩ | ⟨_, kept⟩ <;> rw [kept] <;>
      exact ⟨[], .silent rfl rfl rfl rfl⟩

/-! ## Every step is a step of the store -/

/-- One key unlocks a database. -/
lemma Unlocks.same_key (ideal : c.toCryptoCrates.Ideal) {p p' : String} {key' : Key}
    {r r' : CryptoMeta} (h : Unlocks c.toCryptoCrates db p key r)
    (h' : Unlocks c.toCryptoCrates db p' key' r') : key = key' := by
  obtain rfl := h.passphrase_unique ideal h'
  exact (h.key_unique h').1

lemma StandsFor.answered (ideal : c.toCryptoCrates.Ideal) (total : IdealAead.Total c.aead)
    (h : StandsFor c w v) (inv' : WorldInv c w') {pid : Nat} {token : AuthedToken}
    {call : StoreCall} {d : Draws c.time} {faults : List Bool} {response : Response}
    (serving : w.processes pid = .serving key)
    (replied : reply .get (call.perform c key token d ⟨w.db, faults⟩).1 = some response)
    (db : w'.db = (call.perform c key token d ⟨w.db, faults⟩).2.store)
    (committed : w'.committed = w.committed) :
    ∃ v', PassphraseStore.Does v (.answered token d.writtenAt.rfc3339 call
        (metFault (call.perform c key token d) ⟨w.db, faults⟩) response) v' ∧
      StandsFor c w' v' := by
  have held := h.inv.holds pid
  rw [serving] at held
  obtain ⟨p, r, hp, unlocks⟩ := held
  obtain ⟨passphrase, st⟩ := v
  obtain rfl : passphrase = some p := h.passphrase.symm.trans hp
  have sameMeta : w'.db.metaTable = w.db.metaTable := by
    have keyed := h.inv.keyed
    rw [hp] at keyed
    rw [db]
    exact (perform_rowsOpen ideal (.store call) token d ⟨w.db, faults⟩ (keyed.rowsOpen unlocks)).2
  have stands : ∀ st', Refines c key (call.perform c key token d ⟨w.db, faults⟩).2.store st' →
      StandsFor c w' ⟨some p, st'⟩ := by
    intro st' refines
    refine ⟨inv', committed.trans h.passphrase, ?_, fun none => nomatch none⟩
    intro p' key' r' unlocks'
    obtain rfl := (unlocks.congr sameMeta).same_key ideal unlocks'
    rw [db]
    exact refines
  rcases perform_faulty ideal.aead total (h.store p key r unlocks) call faults .get with
    ⟨unmet, answers, refines⟩ | ⟨met, stopped, kept | ⟨⟨name, secretKey, body, rfl⟩, refines⟩⟩
  · rw [unmet]
    obtain rfl := Option.some.inj (answers.symm.trans replied)
    exact ⟨_, .answered p st token d.writtenAt.rfc3339 call, stands _ refines⟩
  · rw [met]
    rw [stopped] at replied
    obtain rfl := Option.some.inj replied
    exact ⟨_, .broken p st token d.writtenAt.rfc3339 call, stands _ kept⟩
  · rw [met]
    rw [stopped] at replied
    obtain rfl := Option.some.inj replied
    exact ⟨_, .unreported p st token d.writtenAt.rfc3339 name secretKey body, stands _ refines⟩

lemma StandsFor.initialized (h : StandsFor c w v) (inv' : WorldInv c w') {passphrase : String}
    {salt : Bytes} {nonce : Nonce} {faults : List Bool} (absent : w.db.metaValue K_SALT = none)
    (ok : (initOrVerify c.toCryptoCrates passphrase salt nonce ⟨w.db, faults⟩).1 = .ok key)
    (db : w'.db = (initOrVerify c.toCryptoCrates passphrase salt nonce ⟨w.db, faults⟩).2.store)
    (committed : w'.committed = some passphrase) :
    ∃ v', PassphraseStore.Does v (.initialized passphrase) v' ∧ StandsFor c w' v' := by
  have unused : v.passphrase = none := by
    have keyed := h.inv.keyed
    rw [h.passphrase] at keyed
    cases hp : v.passphrase with
    | none => rfl
    | some p =>
      rw [hp] at keyed
      have present := keyed.1 K_SALT (by decide)
      rw [absent] at present
      cases present
  obtain ⟨projects, store⟩ := h.unused unused
  obtain ⟨p, st⟩ := v
  subst unused store
  refine ⟨_, .initialized passphrase, inv', committed, ?_, fun none => nomatch none⟩
  intro _ _ _ _
  apply refines_empty inv'.conforms
  have whole : Triple (fun s => s = w.db)
      (initOrVerify c.toCryptoCrates passphrase salt nonce) _ _ := initOrVerify_triple salt nonce
  rcases whole.elim (s := ⟨w.db, faults⟩) rfl with
    ⟨_, _, ⟨kept, _⟩ | ⟨_, r, _, written⟩⟩ | ⟨_, error, _⟩
  · rw [db, kept, projects]
  · rw [db, written, setCryptoMeta_projects, projects]
  · exact nomatch error.symm.trans ok

lemma StandsFor.rekeyed (ideal : c.toCryptoCrates.Ideal) (h : StandsFor c w v)
    (inv' : WorldInv c w') {pid : Nat} {new : String} {draws : RekeyDraws} {faults : List Bool}
    {n : Nat} (rekeying : w.processes pid = .rekeying new draws oldKey newKey)
    (ok : (rekeyTransaction c.toCryptoCrates oldKey newKey .strong draws ⟨w.db, faults⟩).1 = .ok n)
    (db : w'.db = (rekeyTransaction c.toCryptoCrates oldKey newKey .strong draws
      ⟨w.db, faults⟩).2.store) (committed : w'.committed = some new) :
    ∃ v', PassphraseStore.Does v (.rekeyed new) v' ∧ StandsFor c w' v' := by
  have held := h.inv.holds pid
  rw [rekeying] at held
  obtain ⟨⟨p, r, hp, unlocks⟩, derived⟩ := held
  obtain ⟨passphrase, st⟩ := v
  obtain rfl : passphrase = some p := h.passphrase.symm.trans hp
  refine ⟨_, .rekeyed p new st, inv', committed, ?_, fun none => nomatch none⟩
  intro p' key' r' unlocks'
  have whole : Triple (fun s => s = w.db)
      (rekeyTransaction c.toCryptoCrates oldKey newKey .strong draws) _ _ :=
    rekeyTransaction_triple strong_inBounds derived
  rcases whole.elim (s := ⟨w.db, faults⟩) rfl with ⟨_, _, _, rekeyed⟩ | ⟨_, error, _⟩
  · rw [← db] at rekeyed
    obtain ⟨r₁, mid, installed, _, written⟩ := rekeyed.metadata
    have opens : Unlocks c.toCryptoCrates w'.db new newKey r₁ := by
      apply installed.unlocks ideal
      rw [written, cryptoMeta_setCryptoMeta]
    obtain rfl := opens.same_key ideal unlocks'
    exact rekeyed.refines ideal.aead (h.store p oldKey r unlocks)
  · exact nomatch error.symm.trans ok

lemma StandsFor.silent (h : StandsFor c w v) (inv' : WorldInv c w')
    (metaTable : w'.db.metaTable = w.db.metaTable) (projects : w'.db.projects = w.db.projects)
    (secrets : w'.db.secrets = w.db.secrets) (committed : w'.committed = w.committed) :
    StandsFor c w' v := by
  refine ⟨inv', committed.trans h.passphrase, ?_, ?_⟩
  · intro p key r unlocks
    exact (h.store p key r (unlocks.congr metaTable.symm)).tokensOnly inv'.conforms projects secrets
  · intro none
    rw [projects]
    exact h.unused none

/-- The store does what a step shows. -/
lemma StandsFor.step (ideal : c.toCryptoCrates.Ideal) (total : IdealAead.Total c.aead)
    (h : StandsFor c w v) (step : WorldStep c w w') {acts : List PassphraseStore.Act}
    (shows : w.Shows c w' acts) : ∃ v', Runs PassphraseStore.Does v acts v' ∧ StandsFor c w' v' := by
  have inv' := world_step ideal h.inv step
  cases shows with
  | initialized passphrase salt nonce faults key absent ok db committed =>
    obtain ⟨v', does, stands⟩ := h.initialized inv' absent ok db committed
    exact ⟨v', .single does, stands⟩
  | answered pid key token call d faults response serving replied db committed =>
    obtain ⟨v', does, stands⟩ := h.answered ideal total inv' serving replied db committed
    exact ⟨v', .single does, stands⟩
  | rekeyed pid new draws oldKey newKey faults n rekeying ok db committed =>
    obtain ⟨v', does, stands⟩ := h.rekeyed ideal inv' rekeying ok db committed
    exact ⟨v', .single does, stands⟩
  | silent metaTable projects secrets committed =>
    exact ⟨v, .refl, h.silent inv' metaTable projects secrets committed⟩

lemma standsFor_initial : StandsFor c World.initial PassphraseStore.empty := by
  refine ⟨world_initial, rfl, ?_, fun _ => ⟨rfl, rfl⟩⟩
  intro _ _ _ _
  exact refines_empty Db.empty_conforms rfl

lemma stands_of_shown (ideal : c.toCryptoCrates.Ideal) (total : IdealAead.Total c.aead)
    {acts : List PassphraseStore.Act}
    (run : Shown (WorldStep c) (World.Shows c) World.initial acts w) :
    ∃ v, Runs PassphraseStore.Does .empty acts v ∧ StandsFor c w v :=
  run.simulated (fun _ _ _ _ related step shows => related.step ideal total step shows)
    standsFor_initial

/-- A server has the key that opens the map. -/
lemma StandsFor.serving (h : StandsFor c w v) {pid : Nat} (serving : w.processes pid = .serving key) :
    Refines c key w.db v.store := by
  have held := h.inv.holds pid
  rw [serving] at held
  obtain ⟨p, r, _, unlocks⟩ := held
  exact h.store p key r unlocks

/-- Servers, rekeys, token commands and crashes in any interleaving are one store: every answer
about projects and secrets is that of its map, a rekey changes its passphrase and not the map,
and whoever opens the database finds the map under the one passphrase. -/
theorem processes_serve_one_store (ideal : c.toCryptoCrates.Ideal)
    (total : IdealAead.Total c.aead) {acts : List PassphraseStore.Act}
    (run : Shown (WorldStep c) (World.Shows c) World.initial acts w) :
    ∃ v, Runs PassphraseStore.Does .empty acts v ∧
      (∀ p, Verifies c.toCryptoCrates w.db p ↔ v.passphrase = some p) ∧
      (∀ p key r, Unlocks c.toCryptoCrates w.db p key r → Refines c key w.db v.store) ∧
      ∀ pid key, w.processes pid = .serving key → Refines c key w.db v.store := by
  obtain ⟨v, runs, stands⟩ := stands_of_shown ideal total run
  refine ⟨v, runs, ?_, stands.store, fun pid key serving => stands.serving serving⟩
  intro p
  rw [← stands.passphrase]
  exact (stands.inv.consistent ideal).verifies p

/-! ## The map outlives a passphrase -/

section Example

def rootActs (call : StoreCall) (response : Response) : PassphraseStore.Act :=
  .answered rootIdentity "1970-01-01T00:00:00Z" call false response

def secretThenRekey : List PassphraseStore.Act :=
  [.initialized "old", rootActs createApp ⟨201, .project "app"⟩,
    rootActs putInApp ⟨200, .version "KEY" 1⟩, .rekeyed "new"]

abbrev WorldRun : List PassphraseStore.Act → World Bytes → Prop :=
  Shown (WorldStep framedServer) (World.Shows framedServer) World.initial

lemma opened_shown : WorldRun [.initialized "old"]
    (World.alone openedDb (.serving keyUnderOld) (some "old")) := by
  have begun : WorldRun [] (World.alone .empty (.startingServe "old") none) :=
    Shown.refl.tail (.acquireServe _ 0 "old" rfl rfl) (.silent rfl rfl rfl rfl)
  exact begun.tail (alone_serves old_opens)
    (.initialized "old" [1] .zero [] keyUnderOld rfl old_opens rfl rfl)

variable {acts : List PassphraseStore.Act}

lemma called_shown {db : Db} {call : StoreCall} (response : Response)
    (replied : reply .get (call.perform framedServer keyUnderOld rootIdentity (epochDraws "")
      ⟨db, []⟩).1 = some response)
    (before : WorldRun acts (World.alone db (.serving keyUnderOld) (some "old"))) :
    WorldRun (acts ++ [rootActs call response])
      (World.alone (afterCall call db) (.serving keyUnderOld) (some "old")) := by
  have shown : World.Shows framedServer (World.alone db (.serving keyUnderOld) (some "old"))
      (World.alone (afterCall call db) (.serving keyUnderOld) (some "old")) _ :=
    .answered 0 keyUnderOld rootIdentity call (epochDraws "") [] response rfl replied rfl rfl
  rw [metFault_nil] at shown
  exact before.tail (old_called call db) shown

lemma rekeyed_shown
    (before : WorldRun acts (World.alone filledDb (.serving keyUnderOld) (some "old"))) :
    WorldRun (acts ++ [.rekeyed "new"]) (World.unattended rekeyedDb (some "new")) := by
  have free : WorldRun acts (World.unattended filledDb (some "old")) :=
    List.append_nil acts ▸ before.tail alone_stops (.silent rfl rfl rfl rfl)
  have acquired := free.tail (.acquireRekey _ 0 "old" "new" rfl rfl) (.silent rfl rfl rfl rfl)
  have keys := acquired.tail (alone_verifies new_verified) (.silent rfl rfl rfl rfl)
  have done := keys.tail (alone_commits new_rewritten)
    (.rekeyed 0 "new" toNew _ _ [] 1 rfl new_rewritten rfl rfl)
  rw [List.append_nil, List.append_nil] at done
  exact done

lemma secretThenRekey_shown :
    WorldRun secretThenRekey (World.unattended rekeyedDb (some "new")) := by
  have created : WorldRun _ (World.alone (afterCall createApp openedDb) _ _) :=
    called_shown ⟨201, .project "app"⟩ rfl opened_shown
  have put : WorldRun _ (World.alone filledDb _ _) :=
    called_shown ⟨200, .version "KEY" 1⟩ rfl created
  exact rekeyed_shown put

end Example

/-- The map with the secret is served under the new passphrase only. -/
theorem processes_serve_one_store_secretThenRekey : ∃ w v,
    WorldRun secretThenRekey w ∧ Runs PassphraseStore.Does .empty secretThenRekey v ∧
    ∀ p, Verifies framedCrypto w.db p ↔ v.passphrase = some p := by
  obtain ⟨v, runs, verifies, _⟩ :=
    processes_serve_one_store framedCrypto_ideal Framing.framedAead_total secretThenRekey_shown
  exact ⟨_, v, secretThenRekey_shown, runs, verifies⟩

end SecretsManager
