import SecretsManager.Server.Verifier

/-!
# Rekeying

The loop rewrites rows in place, so its invariant splits the table by the ids
already visited: those rows are sealed anew, the others are as they were. A rekey
that returns has visited every row of a database that keeps its schema; one that
stops anywhere is rolled back.
-/

namespace SecretsManager

open KeyedTable FaultySession

variable {Key : Type} (c : CryptoCrates Key)

/-- The columns a rekey leaves alone. -/
def SecretRow.frame (r : SecretRow) : Nat × Nat × String × Nat × String :=
  (r.id, r.projectId, r.key, r.version, r.updatedAt)

/-- `after` is sealed under the new key with what `row` held under the old one. -/
def Resealed (oldKey newKey : Key) (row : JoinedRow) (after : SecretRow) : Prop :=
  ∃ m nonce, decrypt c oldKey row.nonce row.ciphertext (aadBytes row.project row.key) = .ok m ∧
    encrypt c newKey nonce m (aadBytes row.project row.key) = .ok (after.nonce, after.ciphertext)

/-- A row of the table in the middle of the loop. -/
def Progress (oldKey newKey : Key) (start : Db) (visited : List Nat) (r r' : SecretRow) : Prop :=
  r'.frame = r.frame ∧
    if r.id ∈ visited then ∃ row ∈ start.joined, row.id = r.id ∧ Resealed c oldKey newKey row r'
    else r' = r

structure LoopState (oldKey newKey : Key) (start : Db) (visited : List Nat) (db : Db) : Prop where
  metaTable : db.metaTable = start.metaTable
  projects : db.projects = start.projects
  tokens : db.tokens = start.tokens
  rows : List.Forall₂ (Progress c oldKey newKey start visited) start.secrets db.secrets

/-- What a rekey that returned has done. -/
structure Rekeyed (oldKey newKey : Key) (new : String) (start db : Db) : Prop where
  projects : db.projects = start.projects
  tokens : db.tokens = start.tokens
  rows : List.Forall₂ (Progress c oldKey newKey start (start.joined.map JoinedRow.id))
    start.secrets db.secrets
  metadata : ∃ (r : CryptoMeta) (mid : Db), Installed c new newKey r ∧
    mid.metaTable = start.metaTable ∧ db = mid.setCryptoMeta r

variable {c} {oldKey newKey : Key} {start db : Db} {current new : String}

section Join

lemma mem_joined {row : JoinedRow} : row ∈ db.joined ↔
    ∃ s ∈ db.secrets, ∃ p ∈ db.projects, p.id = s.projectId ∧
      row = ⟨s.id, p.name, s.key, s.nonce, s.ciphertext⟩ := by
  unfold Db.joined
  rw [List.mem_flatMap]
  constructor
  · rintro ⟨s, hs, hrow⟩
    obtain ⟨p, hp, rfl⟩ := List.mem_map.mp hrow
    obtain ⟨hp, same⟩ := List.mem_filter.mp hp
    exact ⟨s, mem_orderBy.mp hs, p, hp, by simpa using same, rfl⟩
  · rintro ⟨s, hs, p, hp, same, rfl⟩
    refine ⟨s, mem_orderBy.mpr hs, List.mem_map.mpr ⟨p, ?_, rfl⟩⟩
    exact List.mem_filter.mpr ⟨hp, by simpa using same⟩

/-- Every row of a database that keeps its schema is joined with its project. -/
lemma joined_covers (conforms : db.Conforms) {s : SecretRow} (hs : s ∈ db.secrets) :
    ∃ row ∈ db.joined, row.id = s.id := by
  obtain ⟨p, hp, same⟩ := conforms.owned s hs
  exact ⟨_, mem_joined.mpr ⟨s, hs, p, hp, same, rfl⟩, rfl⟩

/-- The row joined under this id is that row with the name of its project. -/
lemma joined_unique (conforms : db.Conforms) {s : SecretRow} (hs : s ∈ db.secrets)
    {p : ProjectRow} (hp : p ∈ db.projects) (owner : p.id = s.projectId) {row : JoinedRow}
    (hrow : row ∈ db.joined) (same : row.id = s.id) :
    row = ⟨s.id, p.name, s.key, s.nonce, s.ciphertext⟩ := by
  obtain ⟨s', hs', p', hp', owner', rfl⟩ := mem_joined.mp hrow
  obtain rfl := conforms.secretIds.eq_of_key hs' hs same
  obtain rfl := conforms.projectIds.eq_of_key hp' hp (owner'.trans owner.symm)
  rfl

lemma joined_length (conforms : db.Conforms) : db.joined.length = db.secrets.length := by
  have one : ∀ s ∈ orderBy SecretRow.id db.secrets,
      (db.projects.filter fun p => p.id = s.projectId).length = 1 := by
    intro s hs
    obtain ⟨p, hp, same⟩ := conforms.owned s (mem_orderBy.mp hs)
    have nodup : (db.projects.filter fun p => p.id = s.projectId).Nodup :=
      (List.Nodup.of_map _ conforms.projectIds).filter _
    rw [List.length_eq_one_iff]
    refine ⟨p, List.perm_singleton.mp ?_⟩
    rw [List.perm_ext_iff_of_nodup nodup (List.nodup_singleton p)]
    intro q
    rw [List.mem_filter, List.mem_singleton]
    constructor
    · rintro ⟨hq, owner⟩
      exact conforms.projectIds.eq_of_key hq hp ((by simpa using owner : q.id = _).trans same.symm)
    · rintro rfl
      exact ⟨hp, by simpa using same⟩
  rw [← (orderBy_perm SecretRow.id db.secrets).length_eq]
  unfold Db.joined
  rw [List.length_flatMap]
  simp only [List.length_map]
  rw [List.map_congr_left one]
  simp

end Join

/-! ## The loop -/

lemma loopState_start : LoopState c oldKey newKey start [] start := by
  refine ⟨rfl, rfl, rfl, ?_⟩
  rw [List.forall₂_same]
  intro r _
  exact ⟨rfl, by simp⟩

lemma Progress.visited_congr {visited visited' : List Nat} {r r' : SecretRow}
    (same : ∀ id, id ∈ visited ↔ id ∈ visited')
    (h : Progress c oldKey newKey start visited r r') :
    Progress c oldKey newKey start visited' r r' := by
  unfold Progress at h ⊢
  simpa only [same] using h

/-- One turn of the loop visits one more id. -/
lemma rekeyRow_triple {visited : List Nat} {row : JoinedRow} (hrow : row ∈ start.joined)
    (nonce : Nonce) :
    Triple (LoopState c oldKey newKey start visited) (rekeyRow c oldKey newKey nonce row)
      (fun _ => LoopState c oldKey newKey start (row.id :: visited)) fun _ => True := by
  unfold rekeyRow
  refine Triple.bind (R := fun m s => LoopState c oldKey newKey start visited s ∧
    decrypt c oldKey row.nonce row.ciphertext (aadBytes row.project row.key) = .ok m)
    (.lift (fun m h s hs => ⟨hs, mapError_ok h⟩) fun _ _ _ _ => trivial) fun m => ?_
  refine Triple.bind (R := fun out s => LoopState c oldKey newKey start visited s ∧
    decrypt c oldKey row.nonce row.ciphertext (aadBytes row.project row.key) = .ok m ∧
    encrypt c newKey nonce m (aadBytes row.project row.key) = .ok out)
    (.lift (fun out h s hs => ⟨hs.1, hs.2, mapError_ok h⟩) fun _ _ _ _ => trivial)
    fun (newNonce, newCt) => ?_
  refine Triple.update (fun _ _ => trivial) ?_
  rintro s ⟨loop, opened, encrypted⟩
  refine ⟨loop.metaTable, loop.projects, loop.tokens, ?_⟩
  simp only [Db.reencryptRow, KeyedTable.modify, List.forall₂_map_right_iff]
  refine loop.rows.imp ?_
  rintro r r' ⟨frame, state⟩
  have sameId : r'.id = r.id := congrArg Prod.fst frame
  by_cases here : r.id = row.id
  · rw [if_pos (sameId.trans here)]
    refine ⟨frame, ?_⟩
    rw [if_pos (by simp [here])]
    exact ⟨row, hrow, here.symm, m, nonce, opened, encrypted⟩
  · rw [if_neg (by rw [sameId]; exact here)]
    refine ⟨frame, ?_⟩
    simpa [here] using state

lemma rekeyRows_triple {rows : List JoinedRow} (nonces : Nat → Nonce) (i : Nat)
    (visited : List Nat) (joined : ∀ row ∈ rows, row ∈ start.joined) :
    Triple (LoopState c oldKey newKey start visited) (rekeyRows c oldKey newKey nonces i rows)
      (fun _ => LoopState c oldKey newKey start ((rows.map JoinedRow.id).reverse ++ visited))
      fun _ => True := by
  induction rows generalizing i visited with
  | nil => exact Triple.pure fun s hs => by simpa using hs
  | cons row rest ih =>
    refine Triple.bind (rekeyRow_triple (joined row List.mem_cons_self) (nonces i)) fun _ => ?_
    have tail := ih (i + 1) (row.id :: visited) fun r hr => joined r (List.mem_cons_of_mem _ hr)
    simpa using tail

theorem rekeyBody_triple {params : KdfParams} {draws : RekeyDraws}
    (bounds : params.inBounds = true) (derived : deriveKey c new draws.salt params = .ok newKey) :
    Triple (fun s => s = start) (rekeyBody c oldKey newKey params draws)
      (fun n s => n = start.joined.length ∧ Rekeyed c oldKey newKey new start s)
      fun _ => True := by
  unfold rekeyBody
  refine Reads.then (Reads.query rfl) trivial fun rows hrows => ?_
  subst hrows
  refine Triple.bind (R := fun _ => LoopState c oldKey newKey start
    ((start.joined.map JoinedRow.id).reverse ++ [])) ?_ fun _ => ?_
  · refine (rekeyRows_triple draws.nonces 0 [] fun _ h => h).conseq ?_ (fun _ _ h => h)
      fun _ h => h
    rintro s rfl
    exact loopState_start
  refine Triple.pin fun s loop => ?_
  refine Reads.then (Reads.lift fun _ h => mapError_ok h) trivial fun (n, ct) encrypted => ?_
  refine Triple.bind (setCryptoMeta_triple ⟨draws.salt, params, n, ct⟩) fun _ => Triple.pure ?_
  rintro _ rfl
  have rows : List.Forall₂ (Progress c oldKey newKey start (start.joined.map JoinedRow.id))
      start.secrets s.secrets :=
    loop.rows.imp fun _ _ progress => progress.visited_congr fun id => by simp
  have installed : Installed c new newKey ⟨draws.salt, params, n, ct⟩ :=
    ⟨bounds, derived, _, encrypted⟩
  exact ⟨rfl, loop.projects, loop.tokens, rows, _, s, installed, loop.metaTable, rfl⟩

theorem rekeyTransaction_triple {params : KdfParams} {draws : RekeyDraws}
    (bounds : params.inBounds = true) (derived : deriveKey c new draws.salt params = .ok newKey) :
    Triple (fun s => s = start) (rekeyTransaction c oldKey newKey params draws)
      (fun n s => n = start.joined.length ∧ Rekeyed c oldKey newKey new start s)
      (fun s => s = start) :=
  Triple.transaction (fun _ h => h) (rekeyBody_triple bounds derived)

lemma currentKey_reads :
    Reads db (currentKey c current) fun key => ∃ r, Unlocks c db current key r := by
  unfold currentKey
  refine Reads.bind (Reads.mapError (Reads.query rfl)) fun found hfound => ?_
  cases found with
  | some stored => exact verify_reads hfound
  | none => exact Reads.fail

lemma rekeyKeys_reads {params : KdfParams} {salt : Bytes} :
    Reads db (rekeyKeys c current new params salt) fun keys =>
      current ≠ new ∧ (∃ r, Unlocks c db current keys.1 r) ∧
        deriveKey c new salt params = .ok keys.2 := by
  unfold rekeyKeys
  by_cases same : current = new
  · rw [if_pos same]
    exact Reads.fail
  · rw [if_neg same]
    refine currentKey_reads.bind fun key unlocks => ?_
    refine Reads.bind (Reads.lift fun _ h => mapError_ok h) fun newKey derived => ?_
    exact Reads.pure ⟨same, unlocks, derived⟩

lemma Progress.at_eq {visited : List Nat} {r r' : SecretRow}
    (progress : Progress c oldKey newKey start visited r r') : r'.at = r.at := by
  have frame := progress.1
  simp only [SecretRow.frame, Prod.mk.injEq] at frame
  simp only [SecretRow.at, frame]

lemma Rekeyed.conforms (conforms : start.Conforms)
    (rekeyed : Rekeyed c oldKey newKey new start db) : db.Conforms := by
  have ids : db.secrets.map SecretRow.id = start.secrets.map SecretRow.id :=
    forall₂_map_eq rekeyed.rows fun r r' progress => congrArg Prod.fst progress.1
  have keys : db.secrets.map SecretRow.at = start.secrets.map SecretRow.at :=
    forall₂_map_eq rekeyed.rows fun r r' progress => progress.at_eq
  constructor
  · obtain ⟨r, mid, -, sameMeta, written⟩ := rekeyed.metadata
    have conforms' : ({ start with metaTable := mid.metaTable } : Db).Conforms :=
      { conforms with metaKeys := sameMeta ▸ conforms.metaKeys }
    rw [written]
    exact (setCryptoMeta_conforms r conforms').metaKeys
  · exact rekeyed.projects ▸ conforms.projectIds
  · exact rekeyed.projects ▸ conforms.projectNames
  · unfold Keyed
    rw [ids]
    exact conforms.secretIds
  · unfold Keyed
    rw [keys]
    exact conforms.secretKeys
  · exact rekeyed.tokens ▸ conforms.tokenIds
  · intro s' hs'
    obtain ⟨s, hs, progress⟩ := forall₂_mem_left rekeyed.rows.flip hs'
    obtain ⟨p, hp, owner⟩ := conforms.owned s hs
    have same : s'.projectId = s.projectId := congrArg Prod.fst (Progress.at_eq progress)
    exact ⟨p, by rw [rekeyed.projects]; exact hp, owner.trans same.symm⟩

/-- Under any faults a rekey did all of it or nothing. -/
theorem rekeyWithParams_triple {params : KdfParams} (bounds : params.inBounds = true)
    (draws : RekeyDraws) :
    Triple (fun s => s = start) (rekeyWithParams c current new params draws)
      (fun n s => n = start.joined.length ∧ current ≠ new ∧ ∃ oldKey newKey r,
        Unlocks c start current oldKey r ∧ Rekeyed c oldKey newKey new start s)
      (fun s => s = start) := by
  unfold rekeyWithParams
  refine Reads.then rekeyKeys_reads rfl fun (oldKey, newKey) keys => ?_
  obtain ⟨different, ⟨r, unlocks⟩, derived⟩ := keys
  refine (rekeyTransaction_triple bounds derived).conseq (fun _ h => h) ?_ fun _ h => h
  rintro n s ⟨count, rekeyed⟩
  exact ⟨count, different, oldKey, newKey, r, unlocks, rekeyed⟩

/-! ## Every secret or nothing -/

/-- What a master key reads under a project name and a key. -/
def Db.plaintext (c : CryptoCrates Key) (db : Db) (masterKey : Key) (project key : String) :
    Option Bytes := do
  let p ← db.project project
  let r ← db.secret p.id key
  (decrypt c masterKey r.nonce r.ciphertext (aadBytes project key)).toOption

structure Preserved (c : CryptoCrates Key) (current new : String) (start db : Db) (n : Nat) :
    Prop where
  count : n = start.secrets.length
  frame : db.secrets.map SecretRow.frame = start.secrets.map SecretRow.frame
  projects : db.projects = start.projects
  tokens : db.tokens = start.tokens
  verified : Verifies c start current
  verifies : Verifies c db new
  refuses : ¬ Verifies c db current
  plaintexts : ∀ oldKey r newKey r', Unlocks c start current oldKey r →
    Unlocks c db new newKey r' →
    (∀ project key, db.plaintext c newKey project key = start.plaintext c oldKey project key) ∧
    ∀ p ∈ start.projects, ∀ s ∈ start.secrets, s.projectId = p.id →
      (start.plaintext c oldKey p.name s.key).isSome
  superseded : ∀ r newKey r', start.cryptoMeta = some r → Unlocks c db new newKey r' →
    (∀ s ∈ start.secrets, ∀ aad m, decrypt c newKey s.nonce s.ciphertext aad ≠ .ok m) ∧
    ∀ aad m, decrypt c newKey r.nonce r.ct aad ≠ .ok m

section Preserved

variable {r : CryptoMeta} (ideal : c.Ideal) (conforms : start.Conforms)
variable (rekeyed : Rekeyed c oldKey newKey new start db)

include conforms in
/-- Each row was opened under its own names and sealed under them. -/
lemma rekeyed_row {s s' : SecretRow} {p : ProjectRow} (hs : s ∈ start.secrets)
    (hp : p ∈ start.projects) (owner : p.id = s.projectId)
    (progress : Progress c oldKey newKey start (start.joined.map JoinedRow.id) s s') :
    ∃ m nonce, decrypt c oldKey s.nonce s.ciphertext (aadBytes p.name s.key) = .ok m ∧
      encrypt c newKey nonce m (aadBytes p.name s.key) = .ok (s'.nonce, s'.ciphertext) := by
  obtain ⟨row, hrow, same⟩ := joined_covers conforms hs
  have visited : s.id ∈ start.joined.map JoinedRow.id := List.mem_map.mpr ⟨row, hrow, same⟩
  have state := progress.2
  rw [if_pos visited] at state
  obtain ⟨row', hrow', same', resealed⟩ := state
  rw [joined_unique conforms hs hp owner hrow' same'] at resealed
  exact resealed

include ideal conforms rekeyed in
lemma rekeyed_plaintext (project key : String) :
    db.plaintext c newKey project key = start.plaintext c oldKey project key := by
  unfold Db.plaintext
  have projects : db.project project = start.project project := by
    unfold Db.project
    rw [rekeyed.projects]
  rw [projects]
  cases hp : start.project project with
  | none => rfl
  | some p =>
    obtain ⟨hmem, rfl⟩ := project_mem hp
    rcases get_forall₂ (k := (p.id, key)) rekeyed.rows (fun s s' => Progress.at_eq) with
      ⟨before, after⟩ | ⟨s, s', before, after, progress⟩
    · simp [Db.secret, before, after]
    · obtain ⟨hs, owner, rfl⟩ := secret_mem before
      obtain ⟨m, nonce, opened, encrypted⟩ :=
        rekeyed_row conforms hs hmem owner.symm progress
      have reopened := decrypt_encrypt ideal.aead encrypted
      simp [Db.secret, before, after, opened, reopened]

include conforms rekeyed in
lemma rekeyed_opened {p : ProjectRow} {s : SecretRow} (hp : p ∈ start.projects)
    (hs : s ∈ start.secrets) (owner : s.projectId = p.id) :
    ∃ m, decrypt c oldKey s.nonce s.ciphertext (aadBytes p.name s.key) = .ok m := by
  obtain ⟨s', _, progress⟩ := forall₂_mem_left rekeyed.rows hs
  obtain ⟨m, _, opened, _⟩ := rekeyed_row conforms hs hp owner.symm progress
  exact ⟨m, opened⟩

include ideal conforms rekeyed in
theorem rekeyed_preserved (different : current ≠ new)
    (unlocks : Unlocks c start current oldKey r) :
    Preserved c current new start db start.joined.length := by
  obtain ⟨r', mid, installed, sameMeta, hdb⟩ := rekeyed.metadata
  have stored : db.cryptoMeta = some r' := by rw [hdb, cryptoMeta_setCryptoMeta]
  have unlocks' : Unlocks c db new newKey r' := installed.unlocks ideal stored
  have keysDiffer : oldKey ≠ newKey := by
    intro same
    subst same
    exact different (ideal.kdf _ _ _ _ _ _ _ unlocks.derived unlocks'.derived).1
  refine ⟨joined_length conforms, ?_, rekeyed.projects, rekeyed.tokens,
    verifies_iff.mpr ⟨_, _, unlocks⟩, verifies_iff.mpr ⟨_, _, unlocks'⟩, ?_, ?_, ?_⟩
  · exact forall₂_map_eq rekeyed.rows fun _ _ progress => progress.1
  · intro still
    obtain ⟨_, _, still⟩ := verifies_iff.mp still
    exact different (still.passphrase_unique ideal unlocks')
  · intro oldKey' r₁ newKey' r₂ h₁ h₂
    obtain ⟨rfl, rfl⟩ := unlocks.key_unique h₁
    obtain ⟨rfl, rfl⟩ := unlocks'.key_unique h₂
    refine ⟨rekeyed_plaintext ideal conforms rekeyed, ?_⟩
    intro p hp s hs owner
    obtain ⟨m, opened⟩ := rekeyed_opened conforms rekeyed hp hs owner
    have found : start.project p.name = some p := (project_iff conforms).mpr ⟨hp, rfl⟩
    have row : start.secret p.id s.key = some s := (secret_iff conforms).mpr ⟨hs, owner, rfl⟩
    simp [Db.plaintext, found, row, opened, Except.toOption]
  · intro r₁ newKey' r₂ h₁ h₂
    obtain rfl := Option.some.inj (h₁.symm.trans unlocks.stored)
    obtain ⟨rfl, rfl⟩ := unlocks'.key_unique h₂
    constructor
    · intro s hs aad m
      obtain ⟨p, hp, owner⟩ := conforms.owned s hs
      obtain ⟨m', opened⟩ := rekeyed_opened conforms rekeyed hp hs owner.symm
      exact decrypt_other_key ideal.aead opened keysDiffer m
    · intro aad m
      obtain ⟨m', opened⟩ := unlocks.opened
      exact decrypt_other_key ideal.aead opened keysDiffer m

end Preserved

/-- A rekey that returns has carried every secret over; one that fails, at any statement
or for any other reason, has changed nothing. -/
theorem rekeyWithParams_all_or_nothing (ideal : c.Ideal) {params : KdfParams}
    (bounds : params.inBounds = true) (current new : String) (draws : RekeyDraws)
    (s : Session Db) (conforms : s.store.Conforms) :
    (∀ n, (rekeyWithParams c current new params draws s).1 = .ok n →
      Preserved c current new s.store (rekeyWithParams c current new params draws s).2.store n) ∧
    (∀ e, (rekeyWithParams c current new params draws s).1 = .error e →
      (rekeyWithParams c current new params draws s).2.store = s.store ∧
      ∀ key r, Unlocks c s.store current key r →
        Unlocks c (rekeyWithParams c current new params draws s).2.store current key r ∧
        ∀ project name, (rekeyWithParams c current new params draws s).2.store.plaintext
          c key project name = s.store.plaintext c key project name) := by
  have whole : Triple (fun s' => s' = s.store) (rekeyWithParams c current new params draws) _ _ :=
    rekeyWithParams_triple bounds draws
  rcases whole.elim (s := s) rfl with ⟨n, ok, count, different, oldKey, newKey, r, unlocks,
    rekeyed⟩ | ⟨e, error, same⟩
  · refine ⟨?_, fun e h => absurd (ok.symm.trans h) (by simp)⟩
    intro n' ok'
    obtain rfl := Except.ok.inj (ok.symm.trans ok')
    rw [count]
    exact rekeyed_preserved ideal conforms rekeyed different unlocks
  · refine ⟨fun n h => absurd (error.symm.trans h) (by simp), ?_⟩
    intro _ _
    rw [same]
    exact ⟨rfl, fun key r h => ⟨h, fun _ _ => rfl⟩⟩

/-- A database under the passphrase "old" with one secret. -/
def oneSecretDb : Db :=
  let key := Framing.frame (utf8 "old") ++ Framing.frame [1]
  let secret := Framing.frames [key, Nonce.zero.bytes, aadBytes "app" "KEY"] ++
    Framing.frame (utf8 "value")
  (((run (initOrVerify framedCrypto "old" [1] .zero) .empty).2).addProject "app" "t0").putSecretRow
    1 "KEY" Nonce.zero.bytes secret "t1"

theorem rekeyWithParams_all_or_nothing_oneSecret :
    let s : Session Db := ⟨oneSecretDb, []⟩
    let out := rekeyWithParams framedCrypto "old" "new" .strong ⟨[2], fun _ => .zero⟩ s
    out.1 = .ok 1 ∧ Preserved framedCrypto "old" "new" oneSecretDb out.2.store 1 := by
  have ok : (rekeyWithParams framedCrypto "old" "new" .strong ⟨[2], fun _ => .zero⟩
      ⟨oneSecretDb, []⟩).1 = .ok 1 := by decide
  exact ⟨ok, (rekeyWithParams_all_or_nothing framedCrypto_ideal strong_inBounds "old" "new"
    ⟨[2], fun _ => .zero⟩ ⟨oneSecretDb, []⟩ (by decide)).1 1 ok⟩

end SecretsManager
