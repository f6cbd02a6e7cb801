import SecretsManager.Server.Repo

/-!
# The master key

Initialization, verification and rekeying of the database. The six crypto
entries of the meta table carry the salt, the Argon2id costs and the verifier, an
encrypted sentinel.
-/

namespace SecretsManager

open KeyedTable FaultySession

/-- What these functions fail with; `sqlite` carries the context put before it. -/
inductive AnyhowError where
  | message (text : String)
  | sqlite (context : Option String)
  | crypto (e : CryptoError)
  deriving DecidableEq

def SENTINEL : Bytes := utf8 "secrets-manager-verifier-v1"

def K_SALT : String := "kdf_salt"
def K_M : String := "kdf_m_cost_kib"
def K_T : String := "kdf_t_cost"
def K_P : String := "kdf_p_cost"
def K_VNONCE : String := "verifier_nonce"
def K_VCT : String := "verifier_ct"

def cryptoKeys : List String := [K_SALT, K_M, K_T, K_P, K_VNONCE, K_VCT]

def KDF_M_COST_KIB_MIN : UInt32 := 8
def KDF_M_COST_KIB_MAX : UInt32 := 1024 * 1024
def KDF_T_COST_MIN : UInt32 := 1
def KDF_T_COST_MAX : UInt32 := 32
def KDF_P_COST_MIN : UInt32 := 1
def KDF_P_COST_MAX : UInt32 := 8

def KdfParams.inBounds (params : KdfParams) : Bool :=
  (KDF_M_COST_KIB_MIN ≤ params.mCostKib ∧ params.mCostKib ≤ KDF_M_COST_KIB_MAX) ∧
  (KDF_T_COST_MIN ≤ params.tCost ∧ params.tCost ≤ KDF_T_COST_MAX) ∧
  (KDF_P_COST_MIN ≤ params.pCost ∧ params.pCost ≤ KDF_P_COST_MAX)

theorem strong_inBounds : KdfParams.strong.inBounds = true := by decide

def validateKdfParams (params : KdfParams) : Except AnyhowError Unit :=
  if params.inBounds then .ok ()
  else .error (.message
    ("kdf parameters stored in the database are outside the supported range " ++
      s!"(m={params.mCostKib} KiB, t={params.tCost}, p={params.pCost}); " ++
      "refusing to derive a key (possible tampering)"))

/-- Names no project and no key can have. -/
def verifierAad : Bytes := aadBytes "\x00meta" "\x00verifier"

def u32ToLe (v : UInt32) : Bytes := le32 v.toNat

def leToU32 : Bytes → Except AnyhowError UInt32
  | [b0, b1, b2, b3] =>
    .ok (UInt32.ofNat (b0.toNat + b1.toNat * 256 + b2.toNat * 65536 + b3.toNat * 16777216))
  | _ => .error (.message "corrupted kdf parameter in database")

theorem leToU32_u32ToLe (v : UInt32) : leToU32 (u32ToLe v) = .ok v := by
  have bound := v.toNat_lt
  simp only [u32ToLe, le32, leToU32, UInt8.toNat_ofNat', Except.ok.injEq]
  apply UInt32.toNat_inj.mp
  rw [UInt32.toNat_ofNat']
  omega

abbrev CryptoProg (α : Type) : Type := Prog Db AnyhowError α

/-- A statement under `?`. -/
def sql (m : Prog Db SqliteError α) : CryptoProg α := mapError (fun _ => .sqlite none) m

def getRequired (key : String) : CryptoProg Bytes := do
  match ← sql (Repo.getMeta key) with
  | some v => pure v
  | none => fail (.message s!"database is missing required crypto metadata ({key})")

variable {Key : Type} (c : CryptoCrates Key)

def verify (passphrase : String) (salt : Bytes) : CryptoProg Key := do
  let m ← lift (leToU32 (← getRequired K_M))
  let t ← lift (leToU32 (← getRequired K_T))
  let p ← lift (leToU32 (← getRequired K_P))
  let params : KdfParams := ⟨m, t, p⟩
  lift (validateKdfParams params)
  let key ← lift ((deriveKey c passphrase salt params).mapError .crypto)
  let nonce ← getRequired K_VNONCE
  let ct ← getRequired K_VCT
  let _ ← lift ((decrypt c key nonce ct verifierAad).mapError fun _ =>
    .message "passphrase verification failed (wrong passphrase or corrupted database)")
  pure key

/-- The six entries, as both writers persist them. -/
def setCryptoMeta (salt : Bytes) (params : KdfParams) (nonce ct : Bytes) : CryptoProg Unit := do
  sql (Repo.setMeta K_SALT salt)
  sql (Repo.setMeta K_M (u32ToLe params.mCostKib))
  sql (Repo.setMeta K_T (u32ToLe params.tCost))
  sql (Repo.setMeta K_P (u32ToLe params.pCost))
  sql (Repo.setMeta K_VNONCE nonce)
  sql (Repo.setMeta K_VCT ct)

def initializeWithParams (passphrase : String) (params : KdfParams) (salt : Bytes)
    (nonce : Nonce) : CryptoProg Key := do
  let key ← lift ((deriveKey c passphrase salt params).mapError .crypto)
  let (nonce, ct) ← lift ((encrypt c key nonce SENTINEL verifierAad).mapError .crypto)
  transaction (.sqlite none) (setCryptoMeta salt params nonce ct)
  pure key

def initOrVerify (passphrase : String) (salt : Bytes) (nonce : Nonce) : CryptoProg Key := do
  match ← mapError (fun _ => .sqlite (some "reading kdf salt")) (Repo.getMeta K_SALT) with
  | some salt => verify c passphrase salt
  | none => initializeWithParams c passphrase .strong salt nonce

/-! ## Rekey -/

/-- One row of the join. -/
structure JoinedRow where
  id : Nat
  project : String
  key : String
  nonce : Bytes
  ciphertext : Bytes
  deriving DecidableEq

def Db.joined (db : Db) : List JoinedRow :=
  (orderBy SecretRow.id db.secrets).flatMap fun s =>
    (db.projects.filter fun p => p.id = s.projectId).map fun p =>
      ⟨s.id, p.name, s.key, s.nonce, s.ciphertext⟩

/-- What the random generator gives a rekey: the nonce of the `i`-th encryption is `nonces i`. -/
structure RekeyDraws where
  salt : Bytes
  nonces : Nat → Nonce

def rekeyRow (oldKey newKey : Key) (nonce : Nonce) (row : JoinedRow) : CryptoProg Unit := do
  let aad := aadBytes row.project row.key
  let plaintext ← lift ((decrypt c oldKey row.nonce row.ciphertext aad).mapError fun _ =>
    .message "failed to decrypt existing secret during rekey")
  let (newNonce, newCt) ← lift ((encrypt c newKey nonce plaintext aad).mapError .crypto)
  update (.sqlite none) fun db => db.reencryptRow row.id newNonce newCt

def rekeyRows (oldKey newKey : Key) (nonces : Nat → Nonce) : Nat → List JoinedRow → CryptoProg Unit
  | _, [] => pure ()
  | i, row :: rest => do
    rekeyRow c oldKey newKey (nonces i) row
    rekeyRows oldKey newKey nonces (i + 1) rest

/-- What runs between `BEGIN` and `COMMIT`. -/
def rekeyBody (oldKey newKey : Key) (newParams : KdfParams) (draws : RekeyDraws) :
    CryptoProg Nat := do
  let rows ← query (.sqlite none) Db.joined
  let count := rows.length
  rekeyRows c oldKey newKey draws.nonces 0 rows
  let (verifierNonce, verifierCt) ←
    lift ((encrypt c newKey (draws.nonces count) SENTINEL verifierAad).mapError .crypto)
  setCryptoMeta draws.salt newParams verifierNonce verifierCt
  pure count

def currentKey (current : String) : CryptoProg Key := do
  match ← mapError (fun _ => .sqlite (some "reading kdf salt")) (Repo.getMeta K_SALT) with
  | some salt => verify c current salt
  | none => fail (.message "cannot rekey an uninitialized database")

/-- The part of a rekey before its transaction: the key in force and the one to come. -/
def rekeyKeys (current new : String) (newParams : KdfParams) (newSalt : Bytes) :
    CryptoProg (Key × Key) :=
  if current = new then
    fail (.message "new passphrase must differ from the current passphrase")
  else do
    let oldKey ← currentKey c current
    let newKey ← lift ((deriveKey c new newSalt newParams).mapError .crypto)
    pure (oldKey, newKey)

def rekeyTransaction (oldKey newKey : Key) (newParams : KdfParams) (draws : RekeyDraws) :
    CryptoProg Nat :=
  transaction (.sqlite none) (rekeyBody c oldKey newKey newParams draws)

def rekeyWithParams (current new : String) (newParams : KdfParams) (draws : RekeyDraws) :
    CryptoProg Nat := do
  let (oldKey, newKey) ← rekeyKeys c current new newParams draws.salt
  rekeyTransaction c oldKey newKey newParams draws

/-- `rekey` of the command line. -/
def rekey (current new : String) (draws : RekeyDraws) : CryptoProg Nat :=
  rekeyWithParams c current new .strong draws

end SecretsManager
