import SecretsManager.Server.CryptoState

/-!
# What the metadata unlocks

The six entries are read as one record. A passphrase unlocks a database when the
record gives it a key and the verifier opens under that key; `verify` returns
exactly those keys, and writing a fresh record leaves one passphrase that unlocks.
-/

namespace SecretsManager

open FaultySession

structure CryptoMeta where
  salt : Bytes
  params : KdfParams
  nonce : Bytes
  ct : Bytes

/-- The six entries, none missing and the costs of four bytes each. -/
def Db.cryptoMeta (db : Db) : Option CryptoMeta := do
  let salt ← db.metaValue K_SALT
  let m ← (leToU32 (← db.metaValue K_M)).toOption
  let t ← (leToU32 (← db.metaValue K_T)).toOption
  let p ← (leToU32 (← db.metaValue K_P)).toOption
  let nonce ← db.metaValue K_VNONCE
  let ct ← db.metaValue K_VCT
  pure ⟨salt, ⟨m, t, p⟩, nonce, ct⟩

def Db.setCryptoMeta (db : Db) (r : CryptoMeta) : Db :=
  (((((db.setMetaRow K_SALT r.salt).setMetaRow K_M (u32ToLe r.params.mCostKib)).setMetaRow
    K_T (u32ToLe r.params.tCost)).setMetaRow K_P (u32ToLe r.params.pCost)).setMetaRow
    K_VNONCE r.nonce).setMetaRow K_VCT r.ct

variable {Key : Type} (c : CryptoCrates Key)

/-- The passphrase opens the verifier of `db`, under this key. -/
structure Unlocks (db : Db) (passphrase : String) (key : Key) (r : CryptoMeta) : Prop where
  stored : db.cryptoMeta = some r
  inBounds : r.params.inBounds = true
  derived : deriveKey c passphrase r.salt r.params = .ok key
  opened : ∃ m, decrypt c key r.nonce r.ct verifierAad = .ok m

variable {c} {db : Db} {passphrase : String} {key : Key} {r : CryptoMeta}

section Metadata

variable (db r)

@[simp] lemma setCryptoMeta_projects : (db.setCryptoMeta r).projects = db.projects := rfl
@[simp] lemma setCryptoMeta_secrets : (db.setCryptoMeta r).secrets = db.secrets := rfl
@[simp] lemma setCryptoMeta_tokens : (db.setCryptoMeta r).tokens = db.tokens := rfl

lemma setCryptoMeta_conforms {db : Db} (h : db.Conforms) : (db.setCryptoMeta r).Conforms := by
  unfold Db.setCryptoMeta
  iterate 6 apply setMetaRow_conforms
  exact h

lemma metaValue_setCryptoMeta (k : String) :
    (db.setCryptoMeta r).metaValue k =
      if k = K_VCT then some r.ct
      else if k = K_VNONCE then some r.nonce
      else if k = K_P then some (u32ToLe r.params.pCost)
      else if k = K_T then some (u32ToLe r.params.tCost)
      else if k = K_M then some (u32ToLe r.params.mCostKib)
      else if k = K_SALT then some r.salt
      else db.metaValue k := by
  simp only [Db.setCryptoMeta, metaValue_setMetaRow]

lemma cryptoMeta_setCryptoMeta : (db.setCryptoMeta r).cryptoMeta = some r := by
  unfold Db.cryptoMeta
  simp [metaValue_setCryptoMeta, K_SALT, K_M, K_T, K_P, K_VNONCE, K_VCT, leToU32_u32ToLe,
    Except.toOption]

lemma setCryptoMeta_present : ∀ k ∈ cryptoKeys, ((db.setCryptoMeta r).metaValue k).isSome := by
  simp [cryptoKeys, metaValue_setCryptoMeta, K_SALT, K_M, K_T, K_P, K_VNONCE, K_VCT]

lemma cryptoMeta_some {db : Db} {r : CryptoMeta} (h : db.cryptoMeta = some r) :
    db.metaValue K_SALT = some r.salt ∧
    (∃ b, db.metaValue K_M = some b ∧ leToU32 b = .ok r.params.mCostKib) ∧
    (∃ b, db.metaValue K_T = some b ∧ leToU32 b = .ok r.params.tCost) ∧
    (∃ b, db.metaValue K_P = some b ∧ leToU32 b = .ok r.params.pCost) ∧
    db.metaValue K_VNONCE = some r.nonce ∧ db.metaValue K_VCT = some r.ct := by
  have decoded : ∀ (b : Bytes) v, (leToU32 b).toOption = some v → leToU32 b = .ok v := by
    intro b v hv
    cases hb : leToU32 b with
    | ok w =>
      rw [hb] at hv
      exact congrArg _ (Option.some.inj hv)
    | error e =>
      rw [hb] at hv
      cases hv
  simp only [Db.cryptoMeta, Option.pure_def, Option.bind_eq_bind, Option.bind_eq_some_iff,
    Option.some.injEq] at h
  obtain ⟨salt, hsalt, bm, hbm, m, hm, bt, hbt, t, ht, bp, hbp, p, hp, n, hn, ct, hct, rfl⟩ := h
  exact ⟨hsalt, ⟨bm, hbm, decoded _ _ hm⟩, ⟨bt, hbt, decoded _ _ ht⟩, ⟨bp, hbp, decoded _ _ hp⟩,
    hn, hct⟩

/-- The record is a function of the meta table. -/
lemma cryptoMeta_congr {db db' : Db} (same : db'.metaTable = db.metaTable) :
    db'.cryptoMeta = db.cryptoMeta := by
  unfold Db.cryptoMeta Db.metaValue
  rw [same]

end Metadata

lemma Unlocks.congr {db' : Db} (h : Unlocks c db passphrase key r)
    (same : db'.metaTable = db.metaTable) : Unlocks c db' passphrase key r :=
  { h with stored := (cryptoMeta_congr same).trans h.stored }

lemma Unlocks.key_unique {key' : Key} {r' : CryptoMeta} (h : Unlocks c db passphrase key r)
    (h' : Unlocks c db passphrase key' r') : key = key' ∧ r = r' := by
  obtain rfl := Option.some.inj (h.stored.symm.trans h'.stored)
  exact ⟨Except.ok.inj (h.derived.symm.trans h'.derived), rfl⟩

/-- One passphrase unlocks, since another one derives another key. -/
lemma Unlocks.passphrase_unique (ideal : c.Ideal) {other : String} {key' : Key}
    {r' : CryptoMeta} (h : Unlocks c db passphrase key r) (h' : Unlocks c db other key' r') :
    passphrase = other := by
  obtain rfl := Option.some.inj (h.stored.symm.trans h'.stored)
  obtain ⟨m, opens⟩ := h.opened
  obtain ⟨m', opens'⟩ := h'.opened
  by_cases same : key = key'
  · subst same
    exact (ideal.kdf _ _ _ _ _ _ _ h.derived h'.derived).1
  · exact absurd opens' (decrypt_other_key ideal.aead opens same m')

/-! ## The functions -/

lemma getRequired_reads (k : String) :
    Reads db (getRequired k) fun v => db.metaValue k = some v := by
  unfold getRequired
  refine Reads.bind (Reads.mapError (Reads.query rfl)) fun found hfound => ?_
  cases found with
  | none => exact .fail
  | some v => exact .pure hfound

lemma getRequired_nil {k : String} {v : Bytes} (h : db.metaValue k = some v) :
    getRequired k ⟨db, []⟩ = (.ok v, ⟨db, []⟩) := by
  simp [getRequired, sql, Repo.getMeta, bind_apply, mapError_apply, h]

/-- Under any faults, a key that `verify` returns is one the metadata unlocks. -/
theorem verify_reads {salt : Bytes} (found : db.metaValue K_SALT = some salt) :
    Reads db (verify c passphrase salt) fun key => ∃ r, Unlocks c db passphrase key r := by
  unfold verify
  refine (getRequired_reads K_M).bind fun bm hbm => ?_
  refine (Reads.lift fun _ h => h).bind fun m hm => ?_
  refine (getRequired_reads K_T).bind fun bt hbt => ?_
  refine (Reads.lift fun _ h => h).bind fun t ht => ?_
  refine (getRequired_reads K_P).bind fun bp hbp => ?_
  refine (Reads.lift fun _ h => h).bind fun p hp => ?_
  refine (Reads.lift fun _ h => h).bind fun _ valid => ?_
  refine (Reads.lift fun _ h => mapError_ok h).bind fun key derived => ?_
  refine (getRequired_reads K_VNONCE).bind fun nonce hnonce => ?_
  refine (getRequired_reads K_VCT).bind fun ct hct => ?_
  refine (Reads.lift fun _ h => mapError_ok h).bind fun plain opened => ?_
  refine Reads.pure ⟨⟨salt, ⟨m, t, p⟩, nonce, ct⟩, ?_, ?_, derived, plain, opened⟩
  · simp [Db.cryptoMeta, found, hbm, hbt, hbp, hnonce, hct, hm, ht, hp, Except.toOption]
  · by_contra outside
    simp [validateKdfParams, outside] at valid

/-- Without faults, `verify` returns the key that the metadata unlocks. -/
theorem verify_nil (h : Unlocks c db passphrase key r) :
    verify c passphrase r.salt ⟨db, []⟩ = (.ok key, ⟨db, []⟩) := by
  obtain ⟨_, ⟨bm, hbm, hm⟩, ⟨bt, hbt, ht⟩, ⟨bp, hbp, hp⟩, hn, hct⟩ := cryptoMeta_some h.stored
  obtain ⟨m, opened⟩ := h.opened
  simp [verify, bind_apply, getRequired_nil hbm, getRequired_nil hbt, getRequired_nil hbp,
    getRequired_nil hn, getRequired_nil hct, hm, ht, hp, h.derived, opened, validateKdfParams,
    h.inBounds, Except.mapError]

/-- `verify` of the current metadata succeeds, with no fault in its way. -/
def Verifies (c : CryptoCrates Key) (db : Db) (passphrase : String) : Prop :=
  ∃ salt key, db.metaValue K_SALT = some salt ∧ (run (verify c passphrase salt) db).1 = .ok key

theorem verifies_iff : Verifies c db passphrase ↔ ∃ key r, Unlocks c db passphrase key r := by
  constructor
  · rintro ⟨salt, key, found, ok⟩
    have reads : Reads db (verify c passphrase salt) _ := verify_reads found
    rcases reads.elim (s := ⟨db, []⟩) rfl with ⟨key', ok', _, h⟩ | ⟨e, error, _⟩
    · obtain rfl := Except.ok.inj (ok'.symm.trans ok)
      exact ⟨key', h⟩
    · exact absurd (error.symm.trans ok) (by simp)
  · rintro ⟨key, r, h⟩
    refine ⟨r.salt, key, (cryptoMeta_some h.stored).1, ?_⟩
    rw [run, verify_nil h]

lemma setCryptoMeta_triple (r : CryptoMeta) :
    Triple (fun s => s = db) (setCryptoMeta r.salt r.params r.nonce r.ct)
      (fun _ s => s = db.setCryptoMeta r) fun _ => True := by
  have step : ∀ (k : String) (v : Bytes) (before : Db),
      Triple (fun s => s = before) (sql (Repo.setMeta k v))
        (fun _ s => s = before.setMetaRow k v) fun _ => True := by
    intro k v before
    refine Triple.mapError (Triple.update (fun _ _ => trivial) ?_)
    rintro s rfl
    rfl
  unfold setCryptoMeta
  refine (step K_SALT _ db).bind fun _ => ?_
  refine (step K_M _ _).bind fun _ => ?_
  refine (step K_T _ _).bind fun _ => ?_
  refine (step K_P _ _).bind fun _ => ?_
  refine (step K_VNONCE _ _).bind fun _ => ?_
  exact step K_VCT _ _

/-- A record just written: its verifier is sealed under the key it derives. -/
structure Installed (c : CryptoCrates Key) (passphrase : String) (key : Key) (r : CryptoMeta) :
    Prop where
  inBounds : r.params.inBounds = true
  derived : deriveKey c passphrase r.salt r.params = .ok key
  encrypted : ∃ nonce, encrypt c key nonce SENTINEL verifierAad = .ok (r.nonce, r.ct)

lemma Installed.unlocks (ideal : c.Ideal) (h : Installed c passphrase key r)
    (stored : db.cryptoMeta = some r) : Unlocks c db passphrase key r := by
  obtain ⟨nonce, encrypted⟩ := h.encrypted
  exact ⟨stored, h.inBounds, h.derived, SENTINEL, decrypt_encrypt ideal.aead encrypted⟩

/-- An initialization that is not rolled back writes all six entries. -/
theorem initializeWithParams_triple {params : KdfParams} (bounds : params.inBounds = true)
    (salt : Bytes) (nonce : Nonce) :
    Triple (fun s => s = db) (initializeWithParams c passphrase params salt nonce)
      (fun key s => ∃ r, Installed c passphrase key r ∧ s = db.setCryptoMeta r)
      (fun s => s = db) := by
  unfold initializeWithParams
  refine Reads.then (Reads.lift fun _ h => mapError_ok h) rfl fun key derived => ?_
  refine Reads.then (Reads.lift fun _ h => mapError_ok h) rfl fun (n, ct) encrypted => ?_
  have installed : Installed c passphrase key ⟨salt, params, n, ct⟩ :=
    ⟨bounds, derived, nonce, encrypted⟩
  refine Triple.bind (Triple.transaction (fun _ h => h) (setCryptoMeta_triple ⟨salt, params, n, ct⟩))
    fun _ => ?_
  exact Triple.pure fun s hs => ⟨_, installed, hs⟩

/-- Either the metadata was there and unlocked, or its salt was not and it is new. -/
theorem initOrVerify_triple (salt : Bytes) (nonce : Nonce) :
    Triple (fun s => s = db) (initOrVerify c passphrase salt nonce)
      (fun key s => (s = db ∧ ∃ r, Unlocks c db passphrase key r) ∨
        (db.metaValue K_SALT = none ∧
          ∃ r, Installed c passphrase key r ∧ s = db.setCryptoMeta r))
      (fun s => s = db) := by
  unfold initOrVerify
  refine Reads.then (Reads.mapError (Reads.query rfl)) rfl fun found hfound => ?_
  cases found with
  | some stored =>
    exact (verify_reads hfound).conseq (fun _ h => h) (fun _ _ h => Or.inl h) fun _ h => h
  | none =>
    exact (initializeWithParams_triple strong_inBounds salt nonce).conseq (fun _ h => h)
      (fun _ _ h => Or.inr ⟨hfound, h⟩) fun _ h => h

end SecretsManager
