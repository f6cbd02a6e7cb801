import SecretsManager.Client.Api
import Std.Data.String.ToNat

/-!
# The offline cache

The cache keeps the last map fetched for a project in a file of its own, named by
a digest of server, token and project and sealed under the cache key. The time of
writing stands in the clear and in the associated data. Files are replaced whole,
so the directory is a map from names to contents.
-/

namespace SecretsManager

def CACHE_VERSION : UInt8 := 2

/-- Seconds an entry lives. -/
def CACHE_TTL : UInt64 := 24 * 60 * 60

def CACHE_AAD_PREFIX : Bytes := utf8 "secrets-manager-client-cache-v2"

def MAX_FUTURE_SKEW_SECS : UInt64 := 120

structure Envelope where
  version : UInt8
  createdAtUnix : UInt64
  nonce : String
  ciphertext : String
  deriving DecidableEq

/-- Seconds since the epoch; a `SystemTime` counts them in an `i64`. -/
structure UnixTime where
  secs : UInt64
  inRange : secs.toNat < 2 ^ 63
  deriving DecidableEq

/-- The crates the client calls; a failure is its text. -/
structure ClientCrates (Key : Type) extends CryptoCrates Key, ClientJson where
  encodeMap : SecretMap → Except String Bytes
  decodeMap : Bytes → Except String SecretMap
  encodeEnvelope : Envelope → Except String Bytes
  decodeEnvelope : Bytes → Except String Envelope
  b64Encode : Bytes → String
  b64Decode : String → Except String Bytes

/-- The contents of the cache directory. -/
abbrev CacheFiles : Type := String → Option Bytes

/-- The cache of one server and token. -/
structure CacheStore (Key : Type) where
  key : Key
  serverUrl : String
  tokenHash : Bytes

/-- What a call draws: its clock reading, a nonce, and how writing the file fails. -/
structure StoreDraws where
  now : Except String UnixTime
  nonce : Nonce
  fault : Option ClientError

/-- `u64::to_le_bytes`. -/
def le64 (n : UInt64) : Bytes := le32 n.toNat ++ le32 (n.toNat / 2 ^ 32)

def cacheError (head : String) (r : Except String α) : Except ClientError α :=
  r.mapError fun e => .cache (head ++ e)

def failIf (bad : Bool) (e : ClientError) : Except ClientError Unit :=
  if bad then .error e else .ok ()

def nowUnix (clock : Except String UnixTime) : Except ClientError UnixTime :=
  cacheError "system clock is before Unix epoch: " clock

def readFile (path : String) (files : CacheFiles) : Except String Bytes :=
  match files path with
  | some data => .ok data
  | none => .error "No such file or directory (os error 2)"

/-- The new contents under the name, or the old ones after a failure. -/
def writePrivateFile (fault : Option ClientError) (path : String) (data : Bytes)
    (files : CacheFiles) : Except ClientError Unit × CacheFiles :=
  match fault with
  | some e => (.error e, files)
  | none => (.ok (), Function.update files path (some data))

variable {Key : Type} (c : ClientCrates Key)

namespace CacheStore

variable (s : CacheStore Key)

def aad (project : String) (createdAtUnix : UInt64) : Bytes :=
  CACHE_AAD_PREFIX ++ le32 (utf8 s.serverUrl).length ++ utf8 s.serverUrl ++ s.tokenHash ++
    le32 (utf8 project).length ++ utf8 project ++ le64 createdAtUnix

/-- What is hashed into the name of a file. -/
def pathInput (project : String) : Bytes :=
  utf8 s.serverUrl ++ [0] ++ s.tokenHash ++ [0] ++ utf8 project

def cachePath (project : String) : String :=
  c.b64Encode (c.sha256 (s.pathInput project)) ++ ".json"

/-- The bytes that `store` writes. -/
def entry (d : StoreDraws) (project : String) (secrets : SecretMap) :
    Except ClientError Bytes := do
  let plaintext ← cacheError "failed to encode cache payload: " (c.encodeMap secrets)
  let createdAt ← nowUnix d.now
  let (nonce, ciphertext) ←
    (encrypt c.toCryptoCrates s.key d.nonce plaintext (s.aad project createdAt.secs)).mapError
      fun _ => .cache "failed to encrypt cache payload"
  cacheError "failed to encode cache envelope: " (c.encodeEnvelope
    ⟨CACHE_VERSION, createdAt.secs, c.b64Encode nonce, c.b64Encode ciphertext⟩)

def store (d : StoreDraws) (project : String) (secrets : SecretMap) (files : CacheFiles) :
    Except ClientError Unit × CacheFiles :=
  match s.entry c d project secrets with
  | .error e => (.error e, files)
  | .ok data => writePrivateFile d.fault (s.cachePath c project) data files

/-- The version and the time of an envelope are accepted at this instant. -/
def checkEnvelope (clock : Except String UnixTime) (envelope : Envelope) :
    Except ClientError Unit := do
  failIf (envelope.version ≠ CACHE_VERSION) (.cache "unsupported cache version")
  let now ← nowUnix clock
  failIf (envelope.createdAtUnix > now.secs + MAX_FUTURE_SKEW_SECS)
    (.cache "cache timestamp is in the future; refusing to use it")
  let age := if envelope.createdAtUnix ≤ now.secs then now.secs - envelope.createdAtUnix else 0
  failIf (age > CACHE_TTL) (.cache "cache expired")

def load (clock : Except String UnixTime) (project : String) (files : CacheFiles) :
    Except ClientError SecretMap := do
  let data ← cacheError "failed to read cache: " (readFile (s.cachePath c project) files)
  let envelope ← cacheError "failed to parse cache envelope: " (c.decodeEnvelope data)
  checkEnvelope clock envelope
  let nonce ← cacheError "invalid base64 in cache: " (c.b64Decode envelope.nonce)
  let ciphertext ← cacheError "invalid base64 in cache: " (c.b64Decode envelope.ciphertext)
  let plaintext ← (decrypt c.toCryptoCrates s.key nonce ciphertext
    (s.aad project envelope.createdAtUnix)).mapError
      fun _ => .cache "failed to decrypt cache payload"
  let raw ← cacheError "failed to parse cache payload: " (c.decodeMap plaintext)
  secretMapFromPlain raw

/-- A removal that fails is passed over. -/
def remove (removed : Bool) (project : String) (files : CacheFiles) : CacheFiles :=
  if removed then Function.update files (s.cachePath c project) none else files

end CacheStore

/-! ## The calls that use it -/

namespace CachedApi

/-- A failed update of the cache is only warned about. -/
def getSecrets (cache : Option (CacheStore Key)) (resp : Except UreqError HttpResponse)
    (d : StoreDraws) (project : String) (files : CacheFiles) :
    Except ClientError SecretMap × CacheFiles :=
  match Api.fetchSecrets c.toClientJson resp with
  | .ok secrets =>
    match cache with
    | some cache => (.ok secrets, (cache.store c d project secrets files).2)
    | none => (.ok secrets, files)
  | .error e =>
    if e.isTransport then
      match cache with
      | some cache =>
        match cache.load c d.now project files with
        | .ok secrets => (.ok secrets, files)
        | .error cacheErr => (.error (.offlineCacheUnavailable e.text cacheErr.text), files)
      | none => (.error e, files)
    else (.error e, files)

def setSecret (cache : Option (CacheStore Key)) (resp : Except UreqError HttpResponse)
    (removed : Bool) (project : String) (files : CacheFiles) :
    Except ClientError Unit × CacheFiles :=
  match Api.setSecret resp with
  | .ok () =>
    match cache with
    | some cache => (.ok (), cache.remove c removed project files)
    | none => (.ok (), files)
  | .error e => (.error e, files)

end CachedApi

/-! ## The encodings can be read back -/

theorem le64_inj {m n : UInt64} (h : le64 m = le64 n) : m = n := by
  obtain ⟨low, high⟩ := Framing.append_inj_of_length (by simp [le32_length]) h
  have low := le32_eq low
  have high := le32_eq high
  have := m.toNat_lt
  have := n.toNat_lt
  apply UInt64.toNat_inj.mp
  omega

section Encodings

variable {s s' : CacheStore Key} {project project' : String}

/-- The associated data tells server, token, project and time apart. -/
theorem aad_inj {t t' : UInt64} (server : (utf8 s.serverUrl).length < 2 ^ 32)
    (server' : (utf8 s'.serverUrl).length < 2 ^ 32) (hash : s.tokenHash.length = s'.tokenHash.length)
    (name : (utf8 project).length < 2 ^ 32) (name' : (utf8 project').length < 2 ^ 32)
    (same : s.aad project t = s'.aad project' t') :
    s.serverUrl = s'.serverUrl ∧ s.tokenHash = s'.tokenHash ∧ project = project' ∧ t = t' := by
  simp only [CacheStore.aad, List.append_assoc] at same
  obtain ⟨_, same⟩ := Framing.append_inj_of_length rfl same
  obtain ⟨len, same⟩ := Framing.append_inj_of_length (by simp [le32_length]) same
  obtain ⟨url, same⟩ := Framing.append_inj_of_length (le32_inj server server' len) same
  obtain ⟨token, same⟩ := Framing.append_inj_of_length hash same
  obtain ⟨len, same⟩ := Framing.append_inj_of_length (by simp [le32_length]) same
  obtain ⟨projects, time⟩ := Framing.append_inj_of_length (le32_inj name name' len) same
  exact ⟨utf8_injective url, token, utf8_injective projects, le64_inj time⟩

/-- No NUL in the server's URL: then what is hashed tells the entries apart. -/
theorem pathInput_inj (server : 0 ∉ utf8 s.serverUrl) (server' : 0 ∉ utf8 s'.serverUrl)
    (hash : s.tokenHash.length = s'.tokenHash.length)
    (same : s.pathInput project = s'.pathInput project') :
    s.serverUrl = s'.serverUrl ∧ s.tokenHash = s'.tokenHash ∧ project = project' := by
  simp only [CacheStore.pathInput, List.append_assoc, List.singleton_append] at same
  obtain ⟨url, same⟩ := Framing.append_inj_of_mark server server' same
  obtain ⟨token, same⟩ := Framing.append_inj_of_length hash same
  exact ⟨utf8_injective url, token, utf8_injective (List.tail_eq_of_cons_eq same)⟩

end Encodings

/-! ## What is assumed of the crates -/

structure ClientCrates.Laws : Prop where
  map : ∀ m b, c.encodeMap m = .ok b → c.decodeMap b = .ok m
  envelope : ∀ e b, c.encodeEnvelope e = .ok b → c.decodeEnvelope b = .ok e
  base64 : ∀ b, c.b64Decode (c.b64Encode b) = .ok b
  opens : ∀ k n a m ct, c.aead.encrypt k n a m = some ct → c.aead.decrypt k n a ct = some m
  hashLength : ∀ b, (c.sha256 b).length = 32

variable {c}

lemma cachePath_inj (laws : c.Laws) {s s' : CacheStore Key} {project project' : String}
    (same : s.cachePath c project = s'.cachePath c project') :
    c.sha256 (s.pathInput project) = c.sha256 (s'.pathInput project') := by
  have encoded : c.b64Encode (c.sha256 (s.pathInput project)) =
      c.b64Encode (c.sha256 (s'.pathInput project')) := String.append_left_inj _ |>.mp same
  have decoded := congrArg c.b64Decode encoded
  rw [laws.base64, laws.base64] at decoded
  exact Except.ok.inj decoded

/-! ## What the operations give -/

lemma cacheError_ok {head : String} {r : Except String α} {a : α} :
    cacheError head r = .ok a ↔ r = .ok a := by
  cases r <;> simp [cacheError, Except.mapError]

lemma failIf_ok {bad : Bool} {e : ClientError} {u : Unit} :
    failIf bad e = .ok u ↔ bad = false := by
  cases bad <;> simp [failIf]

/-- Written at most two minutes ahead and at most a day ago. -/
def Fresh (createdAt : UInt64) (now : UnixTime) : Prop :=
  createdAt.toNat ≤ now.secs.toNat + 120 ∧ now.secs.toNat ≤ createdAt.toNat + 86400

instance (createdAt : UInt64) (now : UnixTime) : Decidable (Fresh createdAt now) :=
  inferInstanceAs (Decidable (_ ∧ _))

lemma fresh_iff {createdAt : UInt64} {now : UnixTime} :
    Fresh createdAt now ↔ ¬ createdAt > now.secs + MAX_FUTURE_SKEW_SECS ∧
      ¬ (if createdAt ≤ now.secs then now.secs - createdAt else 0) > CACHE_TTL := by
  have skew : (now.secs + MAX_FUTURE_SKEW_SECS).toNat = now.secs.toNat + 120 := by
    rw [UInt64.toNat_add]
    have : MAX_FUTURE_SKEW_SECS.toNat = 120 := rfl
    have := now.inRange
    omega
  have ttl : CACHE_TTL.toNat = 86400 := rfl
  have future : createdAt > now.secs + MAX_FUTURE_SKEW_SECS ↔
      now.secs.toNat + 120 < createdAt.toNat := by
    rw [gt_iff_lt, UInt64.lt_iff_toNat_lt, skew]
  have old : (if createdAt ≤ now.secs then now.secs - createdAt else 0) > CACHE_TTL ↔
      createdAt.toNat + 86400 < now.secs.toNat := by
    rw [gt_iff_lt, UInt64.lt_iff_toNat_lt, ttl]
    split
    · rename_i past
      have le := UInt64.le_iff_toNat_le.mp past
      rw [UInt64.toNat_sub_of_le _ _ past]
      omega
    · rename_i ahead
      have lt : ¬ createdAt.toNat ≤ now.secs.toNat :=
        fun le => ahead (UInt64.le_iff_toNat_le.mpr le)
      simp only [UInt64.toNat_zero]
      omega
  rw [future, old, Fresh]
  omega

lemma checkEnvelope_ok {clock : Except String UnixTime} {envelope : Envelope} {u : Unit} :
    CacheStore.checkEnvelope clock envelope = .ok u ↔
      envelope.version = CACHE_VERSION ∧ ∃ now, clock = .ok now ∧
        Fresh envelope.createdAtUnix now := by
  simp only [CacheStore.checkEnvelope, except_bind_ok, failIf_ok, nowUnix, cacheError_ok,
    decide_eq_false_iff_not, not_not, fresh_iff]
  constructor
  · rintro ⟨_, version, now, read, _, ahead, old⟩
    exact ⟨version, now, read, ahead, old⟩
  · rintro ⟨version, now, read, ahead, old⟩
    exact ⟨(), version, now, read, (), ahead, old⟩

section Operations

variable {s : CacheStore Key} {d : StoreDraws} {project : String} {secrets : SecretMap}
variable {data : Bytes} {clock : Except String UnixTime} {files : CacheFiles}

lemma readFile_ok {path : String} : readFile path files = .ok data ↔ files path = some data := by
  unfold readFile
  cases files path <;> simp

/-- What an entry seals, and when. -/
lemma entry_ok : s.entry c d project secrets = .ok data ↔
    ∃ plaintext createdAt ciphertext, c.encodeMap secrets = .ok plaintext ∧
      d.now = .ok createdAt ∧
      c.aead.encrypt s.key d.nonce.bytes (s.aad project createdAt.secs) plaintext =
        some ciphertext ∧
      c.encodeEnvelope ⟨CACHE_VERSION, createdAt.secs, c.b64Encode d.nonce.bytes,
        c.b64Encode ciphertext⟩ = .ok data := by
  simp only [CacheStore.entry, except_bind_ok, cacheError_ok, nowUnix, mapError_ok_iff, Prod.exists,
    encrypt_ok_iff]
  constructor
  · rintro ⟨plaintext, encoded, createdAt, read, nonce, ciphertext, ⟨rfl, sealed⟩, written⟩
    exact ⟨plaintext, createdAt, ciphertext, encoded, read, sealed, written⟩
  · rintro ⟨plaintext, createdAt, ciphertext, encoded, read, sealed, written⟩
    exact ⟨plaintext, encoded, createdAt, read, _, ciphertext, ⟨rfl, sealed⟩, written⟩

/-- What a load checks of the file it reads. -/
lemma load_ok : s.load c clock project files = .ok secrets ↔
    ∃ data envelope now nonce ciphertext plaintext, files (s.cachePath c project) = some data ∧
      c.decodeEnvelope data = .ok envelope ∧ envelope.version = CACHE_VERSION ∧
      clock = .ok now ∧ Fresh envelope.createdAtUnix now ∧
      c.b64Decode envelope.nonce = .ok nonce ∧ c.b64Decode envelope.ciphertext = .ok ciphertext ∧
      nonce.length = nonceLen ∧
      c.aead.decrypt s.key nonce (s.aad project envelope.createdAtUnix) ciphertext =
        some plaintext ∧
      c.decodeMap plaintext = .ok secrets ∧ ∀ k ∈ secrets, validSecretKey k = true := by
  simp only [CacheStore.load, except_bind_ok, cacheError_ok, readFile_ok, checkEnvelope_ok,
    mapError_ok_iff, decrypt_ok_iff, secretMapFromPlain_ok]
  constructor
  · rintro ⟨data, file, envelope, parsed, _, ⟨version, now, read, fresh⟩, nonce, decodedNonce,
      ciphertext, decoded, plaintext, ⟨length, opens⟩, raw, payload, rfl, valid⟩
    exact ⟨data, envelope, now, nonce, ciphertext, plaintext, file, parsed, version, read, fresh,
      decodedNonce, decoded, length, opens, payload, valid⟩
  · rintro ⟨data, envelope, now, nonce, ciphertext, plaintext, file, parsed, version, read, fresh,
      decodedNonce, decoded, length, opens, payload, valid⟩
    exact ⟨data, file, envelope, parsed, ⟨⟩, ⟨version, now, read, fresh⟩, nonce, decodedNonce,
      ciphertext, decoded, plaintext, ⟨length, opens⟩, secrets, payload, rfl, valid⟩

/-- An entry is loaded as what was stored, as long as it is fresh. -/
theorem load_entry (laws : c.Laws) (written : s.entry c d project secrets = .ok data)
    (valid : ∀ k ∈ secrets, validSecretKey k = true)
    (file : files (s.cachePath c project) = some data) {m : SecretMap} :
    s.load c clock project files = .ok m ↔ m = secrets ∧ ∃ createdAt now, d.now = .ok createdAt ∧
      clock = .ok now ∧ Fresh createdAt.secs now := by
  obtain ⟨plaintext, createdAt, ciphertext, encoded, drawn, sealed, enveloped⟩ := entry_ok.mp written
  have parsed := laws.envelope _ _ enveloped
  have opened := laws.opens _ _ _ _ _ sealed
  rw [load_ok]
  constructor
  · rintro ⟨data', envelope, now, nonce, ciphertext', plaintext', file', parsed', version, read,
      fresh, decodedNonce, decoded, length, opens, payload, valid⟩
    obtain rfl : data = data' := Option.some.inj (file.symm.trans file')
    obtain rfl := Except.ok.inj (parsed.symm.trans parsed')
    obtain rfl := Except.ok.inj ((laws.base64 _).symm.trans decodedNonce)
    obtain rfl := Except.ok.inj ((laws.base64 _).symm.trans decoded)
    obtain rfl := Option.some.inj (opened.symm.trans opens)
    exact ⟨Except.ok.inj (payload.symm.trans (laws.map _ _ encoded)), createdAt, now, drawn, read,
      fresh⟩
  · rintro ⟨rfl, createdAt', now, drawn', read, fresh⟩
    obtain rfl := Except.ok.inj (drawn.symm.trans drawn')
    exact ⟨data, _, now, d.nonce.bytes, ciphertext, plaintext, file, parsed, rfl, read, fresh,
      laws.base64 _, laws.base64 _, d.nonce.length_eq, opened, laws.map _ _ encoded, valid⟩

lemma load_absent (absent : files (s.cachePath c project) = none) {m : SecretMap} :
    s.load c clock project files ≠ .ok m := by
  intro loaded
  obtain ⟨data, _, _, _, _, _, file, _⟩ := load_ok.mp loaded
  rw [absent] at file
  cases file

/-- A load looks at no other file. -/
lemma load_congr {files' : CacheFiles}
    (same : files (s.cachePath c project) = files' (s.cachePath c project)) :
    s.load c clock project files = s.load c clock project files' := by
  unfold CacheStore.load readFile
  rw [same]

end Operations

/-! ## Crates made of frames -/

/-- Thirty-two bytes of the number that a string spells in base 257. -/
def spelledDigest (b : Bytes) : Bytes :=
  let n := b.foldl (fun h x => h * 257 + x.toNat + 1) 0
  (List.range 32).map fun i => UInt8.ofNat (n / 256 ^ i)

/-- Each byte as the character of its number. -/
def latin (b : Bytes) : String := String.ofList (b.map fun x => Char.ofNat x.toNat)

def readLatin (s : String) : Bytes := s.toList.map fun ch => UInt8.ofNat ch.toNat

lemma readLatin_latin (b : Bytes) : readLatin (latin b) = b := by
  simp only [readLatin, latin, String.toList_ofList, List.map_map]
  conv_rhs => rw [← List.map_id b]
  apply List.map_congr_left
  intro x _
  have valid : x.toNat.isValidChar := Or.inl (by have := x.toNat_lt; omega)
  have same : (Char.ofNat x.toNat).toNat = x.toNat := by
    rw [Char.ofNat, dif_pos valid]
    rfl
  simp [same]

def envelopeFrames (e : Envelope) : Bytes :=
  Framing.frames [[e.version], utf8 (Nat.repr e.createdAtUnix.toNat), utf8 e.nonce,
    utf8 e.ciphertext]

def envelopeRead (b : Bytes) : Option Envelope :=
  match Framing.readFrames b with
  | some [[version], createdAt, nonce, ciphertext] => do
    let createdAt ← (← fromUtf8 createdAt).toNat?
    some ⟨version, UInt64.ofNat createdAt, ← fromUtf8 nonce, ← fromUtf8 ciphertext⟩
  | _ => none

def orText (r : Option α) : Except String α :=
  match r with
  | some a => .ok a
  | none => .error "malformed"

def framedClient : ClientCrates Bytes where
  toCryptoCrates := { framedCrypto with sha256 := spelledDigest }
  encodeSetBody := utf8
  decodeSecrets := secretMapRead
  decodeRevoked b := (fromUtf8 b).bind String.toNat?
  encodeMap m := .ok (secretMapFrames m)
  decodeMap b := orText (secretMapRead b)
  encodeEnvelope e := .ok (envelopeFrames e)
  decodeEnvelope b := orText (envelopeRead b)
  b64Encode := latin
  b64Decode s := .ok (readLatin s)

/-- The laws assumed of the crates hold together. -/
theorem framedClient_laws : framedClient.Laws where
  map := by
    rintro m _ ⟨⟩
    simp [framedClient, secretMapRead_frames, orText]
  envelope := by
    rintro e _ ⟨⟩
    simp [framedClient, envelopeRead, envelopeFrames, Framing.readFrames_frames, fromUtf8_utf8,
      orText]
  base64 b := congrArg Except.ok (readLatin_latin b)
  opens := Framing.framedAead_ideal.decrypt_encrypt
  hashLength b := by simp [framedClient, spelledDigest]

end SecretsManager
