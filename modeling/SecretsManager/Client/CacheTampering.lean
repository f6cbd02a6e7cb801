import SecretsManager.Client.CacheRuns
import SecretsManager.Lib.Transitions
import Mathlib.Data.Set.Insert

/-!
# A cache that is tampered with

Between the calls of the client somebody without the cache key writes into the
cache directory: any bytes under any name, envelopes moved between projects, tokens
and servers among them. What they cannot write is a nonce and a ciphertext that
open under the cache key and were never sealed. A load then returns only what the
same server and token stored for the same project, at an instant still fresh.
-/

namespace SecretsManager

open IdealAead Relation

/-- A call of `store`, whether it reached the file or not. -/
structure CacheWrite where
  id : Identity
  project : String
  secrets : SecretMap
  draws : StoreDraws

/-- The cache directory and the calls of `store` so far. -/
structure AttackedCache where
  files : CacheFiles
  calls : Set CacheWrite

variable {Key : Type} (c : ClientCrates Key) (key : Key)

/-- What a call of `store` may have sealed. -/
def CacheWrite.seals (call : CacheWrite) : Set (Sealed Key Bytes Bytes Bytes) :=
  {x | x.key = key ∧ ∃ createdAt, call.draws.now = .ok createdAt ∧
    c.encodeMap call.secrets = .ok x.msg ∧
    x.ad = (call.id.cache c key).aad call.project createdAt.secs}

def writeSealings (calls : Set CacheWrite) : Set (Sealed Key Bytes Bytes Bytes) :=
  {x | ∃ call ∈ calls, x ∈ call.seals c key}

/-- Whatever envelope the bytes are read as, it holds nothing that opens but was never sealed. -/
def UnforgedFile (calls : Set CacheWrite) (data : Bytes) : Prop :=
  ∀ envelope nonce ciphertext, c.decodeEnvelope data = .ok envelope →
    c.b64Decode envelope.nonce = .ok nonce → c.b64Decode envelope.ciphertext = .ok ciphertext →
    Unforged c.aead {key} (writeSealings c key calls) nonce ciphertext

inductive CacheAttack : AttackedCache → AttackedCache → Prop where
  | store (st : AttackedCache) (call : CacheWrite) :
      CacheAttack st {
        files := ((call.id.cache c key).store c call.draws call.project call.secrets st.files).2
        calls := insert call st.calls }
  | remove (st : AttackedCache) (id : Identity) (project : String) (removed : Bool) :
      CacheAttack st { st with files := (id.cache c key).remove c removed project st.files }
  /-- Any bytes in any file, or none. -/
  | tamper (st : AttackedCache) (path : String) (content : Option Bytes)
      (unforged : ∀ data, content = some data → UnforgedFile c key st.calls data) :
      CacheAttack st { st with files := Function.update st.files path content }

/-- A run from an empty directory. -/
def CacheAttackRun (st : AttackedCache) : Prop :=
  ReflTransGen (CacheAttack c key) ⟨fun _ => none, ∅⟩ st

/-- Server and project are shorter than four gigabytes. -/
def Fits (id : Identity) (project : String) : Prop :=
  (utf8 id.serverUrl).length < 2 ^ 32 ∧ (utf8 project).length < 2 ^ 32

instance (id : Identity) (project : String) : Decidable (Fits id project) :=
  inferInstanceAs (Decidable (_ ∧ _))

variable {c key}

/-! ## What the files hold -/

lemma writeSealings_mono {calls calls' : Set CacheWrite} (grows : calls ⊆ calls') :
    writeSealings c key calls ⊆ writeSealings c key calls' := by
  rintro x ⟨call, made, sealed⟩
  exact ⟨call, grows made, sealed⟩

lemma UnforgedFile.mono {calls calls' : Set CacheWrite} {data : Bytes}
    (h : UnforgedFile c key calls data) (grows : calls ⊆ calls') :
    UnforgedFile c key calls' data := by
  intro envelope nonce ciphertext parsed decodedNonce decoded
  exact (h envelope nonce ciphertext parsed decodedNonce decoded).mono (writeSealings_mono grows)

/-- The invariant of the directory. -/
def UnforgedFiles (c : ClientCrates Key) (key : Key) (st : AttackedCache) : Prop :=
  ∀ path data, st.files path = some data → UnforgedFile c key st.calls data

/-- An entry just written is unforged once its call is counted. -/
lemma entry_unforged (laws : c.Laws) (ideal : IdealAead.Ideal c.aead) {call : CacheWrite}
    {calls : Set CacheWrite} {data : Bytes} (made : call ∈ calls)
    (written : (call.id.cache c key).entry c call.draws call.project call.secrets = .ok data) :
    UnforgedFile c key calls data := by
  obtain ⟨plaintext, createdAt, sealedText, encoded, drawn, sealed, enveloped⟩ :=
    entry_ok.mp written
  intro envelope nonce ciphertext parsed decodedNonce decoded
  obtain rfl := Except.ok.inj ((laws.envelope _ _ enveloped).symm.trans parsed)
  obtain rfl := Except.ok.inj ((laws.base64 _).symm.trans decodedNonce)
  obtain rfl := Except.ok.inj ((laws.base64 _).symm.trans decoded)
  apply unforged_of_encrypt ideal sealed
  exact ⟨call, made, rfl, createdAt, drawn, encoded, rfl⟩

/-- Writing one file leaves the others as they were. -/
lemma unforgedFiles_update {st : AttackedCache} (inv : UnforgedFiles c key st) {path : String}
    {content : Option Bytes}
    (unforged : ∀ data, content = some data → UnforgedFile c key st.calls data) :
    UnforgedFiles c key { st with files := Function.update st.files path content } := by
  intro path' data file
  by_cases same : path' = path
  · subst same
    simp only [Function.update_self] at file
    exact unforged data file
  · simp only [Function.update_of_ne same] at file
    exact inv path' data file

/-- Every step keeps forgeries out of the files. -/
theorem cacheAttack_unforged (laws : c.Laws) (ideal : IdealAead.Ideal c.aead)
    {st st' : AttackedCache} (inv : UnforgedFiles c key st) (step : CacheAttack c key st st') :
    UnforgedFiles c key st' := by
  cases step with
  | store call =>
    have counted : UnforgedFiles c key { st with calls := insert call st.calls } := by
      intro path data file
      exact (inv path data file).mono (Set.subset_insert _ _)
    rcases store_cases (call.id.cache c key) call.draws call.project call.secrets with
      ⟨data, written, stored⟩ | ⟨e, failed⟩
    · rw [stored]
      apply unforgedFiles_update counted
      rintro _ ⟨⟩
      exact entry_unforged laws ideal (Set.mem_insert _ _) written
    · rw [failed]
      exact counted
  | remove id project removed =>
    cases removed with
    | false => exact inv
    | true =>
      apply unforgedFiles_update inv
      intro data none
      cases none
  | tamper path content unforged => exact unforgedFiles_update inv unforged

theorem cacheAttackRun_unforged (laws : c.Laws) (ideal : IdealAead.Ideal c.aead)
    {st : AttackedCache} (run : CacheAttackRun c key st) : UnforgedFiles c key st := by
  apply Transitions.preserved (P := UnforgedFiles c key) _ run
  · intro path data file
    cases file
  · intro st st' inv step
    exact cacheAttack_unforged laws ideal inv step

/-! ## What a load returns -/

/-- A sealing that opens with the data of a server, token, project and time was made by a call of
`store` with all four. -/
lemma seals_call (laws : c.Laws) {call : CacheWrite} {id : Identity} {project : String}
    {createdAt : UInt64} {nonce plaintext : Bytes} (fits : Fits call.id call.project)
    (fits' : Fits id project)
    (tokens : hashToken c.toCryptoCrates call.id.token = hashToken c.toCryptoCrates id.token →
      call.id.token = id.token)
    (sealed : (⟨key, nonce, (id.cache c key).aad project createdAt, plaintext⟩ :
      Sealed Key Bytes Bytes Bytes) ∈ call.seals c key) :
    call.id = id ∧ call.project = project ∧ c.encodeMap call.secrets = .ok plaintext ∧
      ∃ drawn, call.draws.now = .ok drawn ∧ drawn.secs = createdAt := by
  obtain ⟨_, drawn, read, encoded, same⟩ := sealed
  have hashes : ((call.id.cache c key).tokenHash).length = ((id.cache c key).tokenHash).length := by
    simp only [Identity.cache, hashToken, laws.hashLength]
  obtain ⟨server, hash, rfl, rfl⟩ := aad_inj fits'.1 fits.1 hashes.symm fits'.2 fits.2 same
  have token := tokens hash.symm
  refine ⟨?_, rfl, encoded, drawn, read, rfl⟩
  obtain ⟨callId, callProject, secrets, draws⟩ := call
  obtain ⟨serverUrl, callToken⟩ := callId
  obtain ⟨idServer, idToken⟩ := id
  obtain rfl : idServer = serverUrl := server
  obtain rfl : callToken = idToken := token
  rfl

/-- However the files are tampered with, a load returns a map that the same server and token
stored for the project, at most two minutes ahead of the clock and at most a day behind it. -/
theorem load_was_stored (laws : c.Laws) (ideal : IdealAead.Ideal c.aead) {st : AttackedCache}
    (run : CacheAttackRun c key st) (id : Identity) (project : String) (fits : Fits id project)
    (fit : ∀ call ∈ st.calls, Fits call.id call.project)
    (tokens : ∀ call ∈ st.calls, hashToken c.toCryptoCrates call.id.token =
      hashToken c.toCryptoCrates id.token → call.id.token = id.token)
    (clock : Except String UnixTime) (m : SecretMap)
    (loaded : (id.cache c key).load c clock project st.files = .ok m) :
    ∃ now draws createdAt, clock = .ok now ∧ ⟨id, project, m, draws⟩ ∈ st.calls ∧
      draws.now = .ok createdAt ∧ createdAt.secs.toNat ≤ now.secs.toNat + 120 ∧
      now.secs.toNat - createdAt.secs.toNat ≤ 86400 := by
  obtain ⟨data, envelope, now, nonce, ciphertext, plaintext, file, parsed, _, read, fresh,
    decodedNonce, decoded, _, opens, payload, _⟩ := load_ok.mp loaded
  have unforged := cacheAttackRun_unforged laws ideal run _ data file
  have logged := unforged envelope nonce ciphertext parsed decodedNonce decoded key rfl _ _ opens
  obtain ⟨call, made, sealed⟩ := logged
  obtain ⟨rfl, rfl, encoded, createdAt, drawn, same⟩ :=
    seals_call laws (fit call made) fits (tokens call made) sealed
  obtain rfl : call.secrets = m := Except.ok.inj ((laws.map _ _ encoded).symm.trans payload)
  rw [← same] at fresh
  refine ⟨now, call.draws, createdAt, read, made, drawn, fresh.1, ?_⟩
  have := fresh.2
  omega

/-- A write of project `app` at second 1000. -/
def keptWrite : CacheWrite :=
  ⟨reader "a", "app", .ofList [("KEY", "v")], drawsAt 1000 thousand_inRange⟩

def readerCache (token : String) : CacheStore Bytes := (reader token).cache framedClient [7]

def afterKeptWrite : AttackedCache where
  files := ((readerCache "a").store framedClient keptWrite.draws "app" keptWrite.secrets
    fun _ => none).2
  calls := insert keptWrite ∅

/-- Its file copied to where another token looks. -/
def afterCopy : AttackedCache :=
  { afterKeptWrite with
    files := Function.update afterKeptWrite.files ((readerCache "b").cachePath framedClient "app")
      (afterKeptWrite.files ((readerCache "a").cachePath framedClient "app")) }

lemma afterCopy_run : CacheAttackRun framedClient [7] afterCopy := by
  have start : CacheAttackRun framedClient [7] afterKeptWrite := .single (.store _ keptWrite)
  refine start.tail (.tamper afterKeptWrite _ _ ?_)
  intro data file
  exact cacheAttackRun_unforged framedClient_laws Framing.framedAead_ideal start _ data file

lemma afterCopy_loads : (readerCache "a").load framedClient (drawsAt 2000 (by decide)).now "app"
    afterCopy.files = .ok keptWrite.secrets := by
  have written : ∃ data, (readerCache "a").entry framedClient keptWrite.draws "app"
      keptWrite.secrets = .ok data := ⟨_, entry_ok.mpr ⟨_, _, _, rfl, rfl, rfl, rfl⟩⟩
  obtain ⟨data, written⟩ := written
  have kept : afterKeptWrite.files ((readerCache "a").cachePath framedClient "app") = some data := by
    simp only [afterKeptWrite, CacheStore.store, written]
    simp [writePrivateFile, keptWrite, drawsAt]
  have copied : afterCopy.files ((readerCache "a").cachePath framedClient "app") = some data := by
    simp only [afterCopy, Function.update_apply, kept, ite_self]
  have valid : ∀ k ∈ keptWrite.secrets, validSecretKey k = true := by
    intro k hk
    simp only [keptWrite, Std.ExtTreeMap.mem_ofList] at hk
    obtain rfl : k = "KEY" := by simpa [eq_comm] using hk
    decide
  exact (load_entry framedClient_laws written valid copied).mpr ⟨rfl, _, _, rfl, rfl, by decide⟩

theorem load_was_stored_afterCopy : ∃ now draws createdAt,
    (drawsAt 2000 (by decide)).now = .ok now ∧
    ⟨reader "a", "app", keptWrite.secrets, draws⟩ ∈ afterCopy.calls ∧
    draws.now = .ok createdAt ∧ createdAt.secs.toNat ≤ now.secs.toNat + 120 ∧
    now.secs.toNat - createdAt.secs.toNat ≤ 86400 := by
  have only : ∀ call ∈ afterCopy.calls, call = keptWrite := by
    rintro call (rfl | none)
    · rfl
    · cases none
  refine load_was_stored framedClient_laws Framing.framedAead_ideal afterCopy_run (reader "a")
    "app" (by decide) ?_ ?_ _ keptWrite.secrets afterCopy_loads
  · intro call made
    rw [only call made]
    exact ⟨by decide, by decide⟩
  · intro call made _
    rw [only call made]
    rfl

end SecretsManager
