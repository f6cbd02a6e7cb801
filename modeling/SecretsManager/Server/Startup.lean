import SecretsManager.Server.Rekey

/-!
# Which databases a start leaves alone

A start verifies the stored key or makes a new one, and only the salt entry
decides which. A database that has its salt is never written; one that lost the
salt alone gets a new key over whatever else it holds. Stored Argon2id costs
reach the derivation only inside the bounds.
-/

namespace SecretsManager

open FaultySession

/-- There is something that a new key would cut off. -/
def Db.InUse (db : Db) : Prop :=
  db.secrets ≠ [] ∨ ∃ k ∈ cryptoKeys, (db.metaValue k).isSome

/-- The bytes of `generate_salt`. -/
def saltLen : Nat := 16

variable {Key : Type}

/-- The key opens the verifier that the database holds. -/
def OpensVerifier (c : CryptoCrates Key) (db : Db) (key : Key) : Prop :=
  ∃ nonce ct m, db.metaValue K_VNONCE = some nonce ∧ db.metaValue K_VCT = some ct ∧
    decrypt c key nonce ct verifierAad = .ok m

/-- Whatever is drawn and whichever statements fail, nothing is written and a key that comes
back is the stored one. -/
def LeftAlone (c : CryptoCrates Key) (db : Db) (passphrase : String) : Prop :=
  ∀ salt nonce faults, salt.length = saltLen →
    (initOrVerify c passphrase salt nonce ⟨db, faults⟩).2.store = db ∧
    ∀ key, (initOrVerify c passphrase salt nonce ⟨db, faults⟩).1 = .ok key →
      OpensVerifier c db key

/-- The same crates but for Argon2id with costs outside the bounds. -/
structure AgreeInBounds (c c' : CryptoCrates Key) : Prop where
  aead : c'.aead = c.aead
  argon2Params : ∀ params, params.inBounds = true →
    c'.argon2Params params = c.argon2Params params
  argon2 : ∀ params, params.inBounds = true → ∀ passphrase salt,
    c'.argon2 passphrase salt params = c.argon2 passphrase salt params

/-- What a start must do for this database and passphrase. -/
structure SafeStart (c : CryptoCrates Key) (db : Db) (passphrase : String) : Prop where
  leftAlone : db.InUse → LeftAlone c db passphrase
  /-- What Argon2id does outside the bounds never shows, so it is not asked there. -/
  bounded : ∀ c', AgreeInBounds c c' → ∀ salt nonce faults,
    initOrVerify c' passphrase salt nonce ⟨db, faults⟩ =
      initOrVerify c passphrase salt nonce ⟨db, faults⟩
  /-- Nor in a rekey, the other reader of the stored costs. -/
  boundedRekey : ∀ c', AgreeInBounds c c' → ∀ faults,
    currentKey c' passphrase ⟨db, faults⟩ = currentKey c passphrase ⟨db, faults⟩

/-- The draws give the passphrase a new key and its verifier. -/
def CanInitialize (c : CryptoCrates Key) (passphrase : String) (salt : Bytes) (nonce : Nonce) :
    Prop :=
  ∃ key sealing, deriveKey c passphrase salt .strong = .ok key ∧
    encrypt c key nonce SENTINEL verifierAad = .ok sealing

/-! ## Derivations -/

section Agree

variable {c c' : CryptoCrates Key} (agree : AgreeInBounds c c')

include agree

lemma AgreeInBounds.deriveKey {params : KdfParams} (inside : params.inBounds = true)
    (passphrase : String) (salt : Bytes) :
    deriveKey c' passphrase salt params = deriveKey c passphrase salt params := by
  simp only [SecretsManager.deriveKey, agree.argon2Params params inside,
    agree.argon2 params inside]

lemma AgreeInBounds.encrypt : encrypt c' = encrypt c := by
  funext key nonce plaintext aad
  simp only [SecretsManager.encrypt, agree.aead]

lemma AgreeInBounds.decrypt : decrypt c' = decrypt c := by
  funext key nonce ciphertext aad
  simp only [SecretsManager.decrypt, agree.aead]

theorem verify_agree (passphrase : String) (salt : Bytes) :
    verify c' passphrase salt = verify c passphrase salt := by
  simp only [verify, agree.decrypt]
  apply bind_congr
  intro bm
  apply bind_congr
  intro m
  apply bind_congr
  intro bt
  apply bind_congr
  intro t
  apply bind_congr
  intro bp
  apply bind_congr
  intro p
  by_cases inside : (⟨m, t, p⟩ : KdfParams).inBounds = true
  · rw [agree.deriveKey inside]
  · simp only [validateKdfParams, if_neg inside, lift_error, fail_bind]

theorem initOrVerify_agree (passphrase : String) (salt : Bytes) (nonce : Nonce) :
    initOrVerify c' passphrase salt nonce = initOrVerify c passphrase salt nonce := by
  unfold initOrVerify
  apply bind_congr
  intro found
  cases found with
  | some stored => exact verify_agree agree passphrase stored
  | none =>
      simp only [initializeWithParams, agree.deriveKey strong_inBounds, agree.encrypt]

theorem currentKey_agree (current : String) : currentKey c' current = currentKey c current := by
  unfold currentKey
  apply bind_congr
  intro found
  cases found with
  | some stored => exact verify_agree agree current stored
  | none => rfl

end Agree

/-! ## Initialization -/

section Initialize

variable {c : CryptoCrates Key} {db : Db} {passphrase : String} {salt : Bytes} {nonce : Nonce}

lemma Unlocks.opensVerifier {key : Key} {r : CryptoMeta} (h : Unlocks c db passphrase key r) :
    OpensVerifier c db key := by
  obtain ⟨-, -, -, -, storedNonce, storedCt⟩ := cryptoMeta_some h.stored
  obtain ⟨m, opened⟩ := h.opened
  exact ⟨r.nonce, r.ct, m, storedNonce, storedCt, opened⟩

/-- A key comes back from draws that can initialize, and from no others. -/
lemma initialize_triple : Triple (fun s => s = db)
    (initializeWithParams c passphrase .strong salt nonce)
    (fun _ _ => CanInitialize c passphrase salt nonce) (fun s => s = db) := by
  unfold initializeWithParams
  refine Reads.then (Reads.lift fun _ h => mapError_ok h) rfl fun key derived => ?_
  refine Reads.then (Reads.lift fun _ h => mapError_ok h) rfl fun sealing encrypted => ?_
  have able : CanInitialize c passphrase salt nonce := ⟨key, sealing, derived, encrypted⟩
  apply Triple.bind (R := fun _ _ => True)
  · apply Triple.transaction (fun _ h => h)
    apply (setCryptoMeta_triple ⟨salt, .strong, sealing.1, sealing.2⟩).conseq
    · exact fun _ h => h
    · exact fun _ _ _ => trivial
    · exact fun _ h => h
  · intro _
    exact Triple.pure fun _ _ => able

/-- With no fault, a database without a salt gets the six entries that the draws make. -/
lemma initOrVerify_nil (missing : db.metaValue K_SALT = none) {key : Key} {n ct : Bytes}
    (derived : deriveKey c passphrase salt .strong = .ok key)
    (encrypted : encrypt c key nonce SENTINEL verifierAad = .ok (n, ct)) :
    initOrVerify c passphrase salt nonce ⟨db, []⟩ =
      (.ok key, ⟨db.setCryptoMeta ⟨salt, .strong, n, ct⟩, []⟩) := by
  have read : initOrVerify c passphrase salt nonce ⟨db, []⟩ =
      initializeWithParams c passphrase .strong salt nonce ⟨db, []⟩ := by
    simp only [initOrVerify, bind_apply, mapError_apply, Repo.getMeta, query_nil, missing]
  rw [read]
  simp only [initializeWithParams, derived, encrypted, Except.mapError, lift_ok, pure_bind']
  rfl

end Initialize

/-! ## The databases that are safe -/

variable {c : CryptoCrates Key} {db : Db} {passphrase : String}

theorem leftAlone_of_salt {stored : Bytes} (found : db.metaValue K_SALT = some stored) :
    LeftAlone c db passphrase := by
  intro salt nonce faults drawn
  have whole : Triple (fun s => s = db) (initOrVerify c passphrase salt nonce) _ _ :=
    initOrVerify_triple salt nonce
  rcases whole.elim (s := ⟨db, faults⟩) rfl with ⟨key, ok, kept⟩ | ⟨e, error, same⟩
  · rcases kept with ⟨same, r, unlocks⟩ | ⟨missing, -⟩
    · constructor
      · exact same
      · intro key' ok'
        obtain rfl := Except.ok.inj (ok.symm.trans ok')
        exact unlocks.opensVerifier
    · exact absurd (found.symm.trans missing) (by simp)
  · constructor
    · exact same
    · intro key ok
      exact absurd (error.symm.trans ok) (by simp)

theorem leftAlone_of_unable
    (unable : ∀ salt nonce, salt.length = saltLen → ¬ CanInitialize c passphrase salt nonce)
    (missing : db.metaValue K_SALT = none) : LeftAlone c db passphrase := by
  intro salt nonce faults drawn
  have whole : Triple (fun s => s = db) (initOrVerify c passphrase salt nonce)
      (fun _ _ => CanInitialize c passphrase salt nonce) (fun s => s = db) := by
    unfold initOrVerify
    refine Reads.then (Reads.mapError (Reads.query rfl)) rfl fun found hfound => ?_
    rw [← hfound, missing]
    exact initialize_triple
  rcases whole.elim (s := ⟨db, faults⟩) rfl with ⟨key, ok, able⟩ | ⟨e, error, same⟩
  · exact absurd able (unable salt nonce drawn)
  · constructor
    · exact same
    · intro key ok
      exact absurd (error.symm.trans ok) (by simp)

/-- A key made over a database that has no salt is written there. -/
theorem not_leftAlone (missing : db.metaValue K_SALT = none) {salt : Bytes} {nonce : Nonce}
    (drawn : salt.length = saltLen) (able : CanInitialize c passphrase salt nonce) :
    ¬ LeftAlone c db passphrase := by
  intro kept
  obtain ⟨key, ⟨n, ct⟩, derived, encrypted⟩ := able
  have same : db.setCryptoMeta ⟨salt, .strong, n, ct⟩ = db := by
    simpa only [initOrVerify_nil missing derived encrypted] using (kept salt nonce [] drawn).1
  have present := setCryptoMeta_present db ⟨salt, .strong, n, ct⟩ K_SALT (by simp [cryptoKeys])
  rw [same, missing] at present
  exact absurd present (by simp)

/-- A start is safe where the salt is there, where there is nothing to lose, and where no draws
make a key. -/
theorem safeStart_iff (c : CryptoCrates Key) (db : Db) (passphrase : String) :
    SafeStart c db passphrase ↔
      (db.metaValue K_SALT).isSome ∨ ¬ db.InUse ∨
        ∀ salt nonce, salt.length = saltLen → ¬ CanInitialize c passphrase salt nonce := by
  have bounded : ∀ c', AgreeInBounds c c' → ∀ salt nonce faults,
      initOrVerify c' passphrase salt nonce ⟨db, faults⟩ =
        initOrVerify c passphrase salt nonce ⟨db, faults⟩ := by
    intro c' agree salt nonce faults
    rw [initOrVerify_agree agree]
  have boundedRekey : ∀ c', AgreeInBounds c c' → ∀ faults,
      currentKey c' passphrase ⟨db, faults⟩ = currentKey c passphrase ⟨db, faults⟩ := by
    intro c' agree faults
    rw [currentKey_agree agree]
  constructor
  · intro safe
    cases found : db.metaValue K_SALT with
    | some stored => exact .inl rfl
    | none =>
        by_cases inUse : db.InUse
        · apply Or.inr
          apply Or.inr
          intro salt nonce drawn able
          exact not_leftAlone found drawn able (safe.leftAlone inUse)
        · exact .inr (.inl inUse)
  · intro condition
    constructor
    · intro inUse
      cases found : db.metaValue K_SALT with
      | some stored => exact leftAlone_of_salt found
      | none =>
          rcases condition with present | unused | unable
          · rw [found] at present
            exact absurd present (by simp)
          · exact absurd inUse unused
          · exact leftAlone_of_unable unable found
    · exact bounded
    · exact boundedRekey

/-! ## A salt lost with the rest in place -/

/-- The database with one secret, its salt entry gone. -/
def saltlessDb : Db :=
  { oneSecretDb with metaTable := oneSecretDb.metaTable.filter fun r => r.key ≠ K_SALT }

def drawnSalt : Bytes := List.replicate saltLen 7

/-- A mistyped passphrase starts a new key over the old metadata, and the secret is lost. -/
theorem lost_salt_replaces_key : saltlessDb.InUse ∧
    ¬ SafeStart framedCrypto saltlessDb "typo" ∧
    (run (initOrVerify framedCrypto "typo" drawnSalt .zero) saltlessDb).1.isOk ∧
    (run (initOrVerify framedCrypto "typo" drawnSalt .zero) saltlessDb).2.metaValue K_SALT =
      some drawnSalt := by
  have inUse : saltlessDb.InUse := .inl (by decide)
  have missing : saltlessDb.metaValue K_SALT = none := by decide
  have able : CanInitialize framedCrypto "typo" drawnSalt .zero := ⟨_, _, rfl, rfl⟩
  constructor
  · exact inUse
  constructor
  · intro safe
    exact not_leftAlone missing rfl able (safe.leftAlone inUse)
  · obtain ⟨key, ⟨n, ct⟩, derived, encrypted⟩ := able
    rw [run, initOrVerify_nil missing derived encrypted]
    constructor
    · rfl
    · simp [metaValue_setCryptoMeta, K_SALT, K_M, K_T, K_P, K_VNONCE, K_VCT]

end SecretsManager
