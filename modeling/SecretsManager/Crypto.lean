import SecretsManager.Lib.Framing

/-!
# The crypto core

The pure functions of the `secrets-crypto` crate over its primitives. Argon2id,
XChaCha20-Poly1305 and SHA-256 are parameters; what the random generator gives
(nonces, salts, tokens) is an argument of the function that draws it. Keys are
an abstract type, since the crate never looks inside one.
-/

namespace SecretsManager

open IdealAead Framing

abbrev Bytes := Framing.Bytes

/-! ## Results under `?` -/

lemma except_bind_ok {ε α β : Type} {x : Except ε α} {f : α → Except ε β} {b : β} :
    x >>= f = .ok b ↔ ∃ a, x = .ok a ∧ f a = .ok b := by
  cases x with
  | error e => simp [bind, Except.bind]
  | ok a => simp [bind, Except.bind]

lemma mapError_ok_iff {ε ε' α : Type} {r : Except ε α} {f : ε → ε'} {a : α} :
    r.mapError f = .ok a ↔ r = .ok a := by
  cases r <;> simp [Except.mapError]

/-! ## Texts as bytes -/

/-- The bytes of a Rust `&str`. -/
def utf8 (s : String) : Bytes := s.toUTF8.data.toList

/-- `String::from_utf8`. -/
def fromUtf8 (b : Bytes) : Option String := String.fromUTF8? ⟨b.toArray⟩

theorem utf8_injective {s t : String} (h : utf8 s = utf8 t) : s = t := by
  apply String.toByteArray_inj.mp
  apply ByteArray.ext
  exact Array.toList_inj.mp h

theorem utf8_eq_flatMap (s : String) : utf8 s = s.toList.flatMap String.utf8EncodeChar := by
  have encoded : s.toList.utf8Encode = s.toByteArray := String.utf8Encode_toList
  have same : utf8 s = s.toByteArray.data.toList := rfl
  rw [same, ← encoded]
  simp [List.utf8Encode]

theorem utf8_append (s t : String) : utf8 (s ++ t) = utf8 s ++ utf8 t := by
  simp only [utf8_eq_flatMap, String.toList_append, List.flatMap_append]

/-- The bytes of a character are among those of the string. -/
lemma mem_utf8 {s : String} {ch : Char} (h : ch ∈ s.toList) {b : UInt8}
    (hb : b ∈ String.utf8EncodeChar ch) : b ∈ utf8 s := by
  rw [utf8_eq_flatMap, List.mem_flatMap]
  exact ⟨ch, h, hb⟩

theorem fromUtf8_utf8 (s : String) : fromUtf8 (utf8 s) = some s := by
  unfold fromUtf8 utf8 String.fromUTF8?
  have h : (⟨s.toUTF8.data.toList.toArray⟩ : ByteArray) = s.toByteArray := rfl
  rw [h]
  simp [s.isValidUTF8, String.fromUTF8]

theorem fromUtf8_eq_some_iff (b : Bytes) (s : String) : fromUtf8 b = some s ↔ b = utf8 s := by
  constructor
  · intro h
    unfold fromUtf8 String.fromUTF8? at h
    split at h
    · cases h
      simp [utf8, String.fromUTF8, String.toUTF8]
    · cases h
  · rintro rfl
    exact fromUtf8_utf8 s

/-- `nonce.len()` of the AEAD, in bytes. -/
def nonceLen : Nat := 24

inductive CryptoError where
  | kdf
  | params
  | encrypt
  | decrypt
  | nonceLen
  deriving DecidableEq

/-- Argon2id cost parameters, three `u32`. -/
structure KdfParams where
  mCostKib : UInt32
  tCost : UInt32
  pCost : UInt32
  deriving DecidableEq

/-- Hardened defaults: 256 MiB, four passes, one lane. -/
def KdfParams.strong : KdfParams where
  mCostKib := 256 * 1024
  tCost := 4
  pCost := 1

/-- A nonce as the random generator fills it. -/
structure Nonce where
  bytes : Bytes
  length_eq : bytes.length = nonceLen

/-- The primitives the crate calls. -/
structure CryptoCrates (Key : Type) where
  argon2Params : KdfParams → Bool
  argon2 : Bytes → Bytes → KdfParams → Option Key
  aead : Aead Key Bytes Bytes Bytes Bytes
  sha256 : Bytes → Bytes

variable {Key : Type} (c : CryptoCrates Key)

def deriveKey (passphrase : String) (salt : Bytes) (params : KdfParams) :
    Except CryptoError Key :=
  if c.argon2Params params then
    match c.argon2 (utf8 passphrase) salt params with
    | some key => .ok key
    | none => .error .kdf
  else .error .params

/-- `(n as u32).to_le_bytes()`: each byte is cut to eight bits, the rest is lost. -/
def le32 (n : Nat) : Bytes :=
  [UInt8.ofNat n, UInt8.ofNat (n / 256), UInt8.ofNat (n / 65536), UInt8.ofNat (n / 16777216)]

/-- The associated data bound to a ciphertext, length-prefixed. -/
def aadBytes (project key : String) : Bytes :=
  le32 (utf8 project).length ++ utf8 project ++ le32 (utf8 key).length ++ utf8 key

def encrypt (key : Key) (nonce : Nonce) (plaintext aad : Bytes) :
    Except CryptoError (Bytes × Bytes) :=
  match c.aead.encrypt key nonce.bytes aad plaintext with
  | some ciphertext => .ok (nonce.bytes, ciphertext)
  | none => .error .encrypt

def decrypt (key : Key) (nonce ciphertext aad : Bytes) : Except CryptoError Bytes :=
  if nonce.length ≠ nonceLen then .error .nonceLen
  else match c.aead.decrypt key nonce aad ciphertext with
    | some plaintext => .ok plaintext
    | none => .error .decrypt

def hashToken (token : String) : Bytes := c.sha256 (utf8 token)

/-- `subtle` compares in constant time; the answer is equality. -/
def ctEq (a b : Bytes) : Bool :=
  if a.length ≠ b.length then false else a = b

@[simp] theorem ctEq_iff (a b : Bytes) : ctEq a b = true ↔ a = b := by
  unfold ctEq
  split
  · rename_i h
    exact ⟨fun h' => (Bool.noConfusion h'), fun h' => absurd (congrArg List.length h') h⟩
  · simp

/-! ## The encodings can be read back -/

theorem le32_length (n : Nat) : (le32 n).length = 4 := rfl

/-- The bytes determine the number up to the range of `u32`. -/
theorem le32_eq {m n : Nat} (h : le32 m = le32 n) : m % 2 ^ 32 = n % 2 ^ 32 := by
  have byte : ∀ a b : Nat, UInt8.ofNat a = UInt8.ofNat b → a % 256 = b % 256 := by
    intro a b hab
    simpa using congrArg UInt8.toNat hab
  simp only [le32, List.cons.injEq, and_true] at h
  obtain ⟨h0, h1, h2, h3⟩ := h
  have := byte _ _ h0
  have := byte _ _ h1
  have := byte _ _ h2
  have := byte _ _ h3
  omega

theorem le32_inj {m n : Nat} (hm : m < 2 ^ 32) (hn : n < 2 ^ 32) (h : le32 m = le32 n) :
    m = n := by
  have := le32_eq h
  omega

/-- Project names below the range of `u32` are told apart, and then the keys are. -/
theorem aadBytes_inj {p k p' k' : String} (hp : (utf8 p).length < 2 ^ 32)
    (hp' : (utf8 p').length < 2 ^ 32) (h : aadBytes p k = aadBytes p' k') :
    p = p' ∧ k = k' := by
  simp only [aadBytes, List.append_assoc] at h
  obtain ⟨len, h⟩ := append_inj_of_length (by simp [le32_length]) h
  obtain ⟨name, h⟩ := append_inj_of_length (le32_inj hp hp' len) h
  obtain ⟨_, rest⟩ := append_inj_of_length (by simp [le32_length]) h
  exact ⟨utf8_injective name, utf8_injective rest⟩

/-! ## The laws assumed of the primitives -/

/-- Ideal AEAD, and distinct passphrases or salts give distinct keys. -/
structure CryptoCrates.Ideal : Prop where
  aead : IdealAead.Ideal c.aead
  kdf : ∀ p p' s s' params params' k, deriveKey c p s params = .ok k →
    deriveKey c p' s' params' = .ok k → p = p' ∧ s = s'

theorem encrypt_ok_iff {c : CryptoCrates Key} {key : Key} {nonce : Nonce} {m aad n ct : Bytes} :
    encrypt c key nonce m aad = .ok (n, ct) ↔
      n = nonce.bytes ∧ c.aead.encrypt key nonce.bytes aad m = some ct := by
  unfold encrypt
  cases c.aead.encrypt key nonce.bytes aad m with
  | none => simp
  | some ct' => simp [eq_comm]

theorem decrypt_ok_iff {c : CryptoCrates Key} {key : Key} {n ct aad m : Bytes} :
    decrypt c key n ct aad = .ok m ↔
      n.length = nonceLen ∧ c.aead.decrypt key n aad ct = some m := by
  unfold decrypt
  by_cases h : n.length = nonceLen
  · cases c.aead.decrypt key n aad ct with
    | none => simp [h]
    | some m' => simp [h]
  · simp [h]

/-- Decryption undoes encryption. -/
theorem decrypt_encrypt {c : CryptoCrates Key} (ideal : IdealAead.Ideal c.aead) {key : Key}
    {nonce : Nonce} {m aad n ct : Bytes} (h : encrypt c key nonce m aad = .ok (n, ct)) :
    decrypt c key n ct aad = .ok m := by
  obtain ⟨rfl, hct⟩ := encrypt_ok_iff.mp h
  exact decrypt_ok_iff.mpr ⟨nonce.length_eq, ideal.decrypt_encrypt _ _ _ _ _ hct⟩

theorem encrypt_total {c : CryptoCrates Key} (total : Total c.aead) (key : Key)
    (nonce : Nonce) (m aad : Bytes) :
    ∃ ct, encrypt c key nonce m aad = .ok (nonce.bytes, ct) := by
  obtain ⟨ct, h⟩ := total key nonce.bytes aad m
  exact ⟨ct, encrypt_ok_iff.mpr ⟨rfl, h⟩⟩

/-- What one key opens, another does not open, whatever the associated data. -/
theorem decrypt_other_key {c : CryptoCrates Key} (ideal : IdealAead.Ideal c.aead)
    {key key' : Key} {n ct aad aad' m : Bytes} (opens : decrypt c key n ct aad = .ok m)
    (different : key ≠ key') : ∀ m', decrypt c key' n ct aad' ≠ .ok m' := by
  intro m' opens'
  have first := (decrypt_ok_iff.mp opens).2
  have second := (decrypt_ok_iff.mp opens').2
  exact different (decrypt_unique ideal first second).1

/-! ## Primitives made of frames -/

def Nonce.zero : Nonce := ⟨List.replicate nonceLen 0, by decide⟩

/-- Keys, ciphertexts and digests that show what they were made from. -/
def framedCrypto : CryptoCrates Bytes where
  argon2Params _ := true
  argon2 passphrase salt _ := some (frame passphrase ++ frame salt)
  aead := framedAead
  sha256 := id

/-- The laws assumed of the primitives hold together. -/
theorem framedCrypto_ideal : framedCrypto.Ideal where
  aead := framedAead_ideal
  kdf := by
    intro p p' s s' params params' k first second
    simp only [deriveKey, framedCrypto, if_true, Except.ok.injEq] at first second
    obtain ⟨hp, hs⟩ := frame_prefixFree _ _ _ _ (first.trans second.symm)
    exact ⟨utf8_injective hp, frame_prefixFree.injective hs⟩

end SecretsManager
