import SecretsManager.Server.FailedRequests
import SecretsManager.Server.Rekey
import SecretsManager.Lib.Transitions
import Mathlib.Data.Set.Basic

/-!
# A store that is tampered with

Between the operations of the server an adversary writes what it likes into the
tables, short of a ciphertext that opens under a key of the operators and was never
sealed. The log beside the system holds every sealing; its invariant is that a
sealing carries either the verifier or the project, key and value of a put, and it
survives a rekey because the names a row is sealed under again are the names it
was opened under.
-/

namespace SecretsManager

open KeyedTable FaultySession Relation IdealAead

/-- A put that sealed its value, the outcomes of its statements and what it was answered. -/
structure PutRecord where
  name : String
  key : String
  value : String
  faults : List Bool
  response : Option Response

namespace PutRecord

/-- The put was of this value under these names. -/
def Of (put : PutRecord) (name key value : String) : Prop :=
  put.name = name ∧ put.key = key ∧ put.value = value

def Succeeded (put : PutRecord) : Prop :=
  ∃ response, put.response = some response ∧ response.status = 200

/-- After its token and its project were found, the statement that writes its row failed. -/
def Unwritten (put : PutRecord) : Prop := put.faults.take 3 = [false, false, true]

/-- Its row was written, and the statement that reads the version back failed. -/
def Unread (put : PutRecord) : Prop := put.faults.take 4 = [false, false, false, true]

end PutRecord

abbrev Sealing (Key : Type) : Type := Sealed Key Bytes Bytes Bytes

structure Tampered (Key : Type) where
  db : Db
  serving : Option Key
  log : Set (Sealing Key)
  puts : Set PutRecord

variable {Key : Type} (c : ServerCrates Key) (operators : Set String)

def DerivedFrom (passphrase : String) (key : Key) : Prop :=
  ∃ salt params, deriveKey c.toCryptoCrates passphrase salt params = .ok key

/-- The keys the adversary does not have, whatever salt and costs it plants. -/
def guardedKeys : Set Key := {key | ∃ passphrase ∈ operators, DerivedFrom c passphrase key}

/-- The put of a request, if it is one and gets as far as sealing its value: its token and its
project are found, and it passes its checks. -/
def acceptedPuts (key : Key) (r : Request) (d : Draws c.time) (s : Session Db) : Set PutRecord :=
  {put | ∃ token s' body p n ct,
    r.routed c = .guarded (.ok (.store (.putSecret put.name put.key (.ok body)))) ∧
    extractToken c r.authorization d.authenticatedAt.instant s = (.ok token, s') ∧
    (database (Repo.projectId put.name) s').1 = .ok (some p.id) ∧
    PutChecked c key token d s.store put.name put.key body.value p n ct ∧
    put.value = body.value ∧ put.faults = s.faults ∧ put.response = (answer c key r d s).1}

def requestSealings (key : Key) (r : Request) (d : Draws c.time) (s : Session Db) :
    Set (Sealing Key) :=
  {x | ∃ put ∈ acceptedPuts c key r d s,
    x = ⟨key, d.nonce.bytes, aadBytes put.name put.key, utf8 put.value⟩}

/-- The verifiers that an initialization or a rekey to this passphrase seals. -/
def verifierSealings (passphrase : String) : Set (Sealing Key) :=
  {x | DerivedFrom c passphrase x.key ∧ x.ad = verifierAad ∧ x.msg = SENTINEL}

/-- What the loop of a rekey seals again: a row it has opened. -/
def rekeySealings (current new : String) (db : Db) : Set (Sealing Key) :=
  {x | DerivedFrom c new x.key ∧ ∃ oldKey r, Unlocks c.toCryptoCrates db current oldKey r ∧
    ∃ row ∈ db.joined, x.ad = aadBytes row.project row.key ∧
      decrypt c.toCryptoCrates oldKey row.nonce row.ciphertext x.ad = .ok x.msg}

/-- A column of text holds less than four gigabytes. -/
def NamesFit (db : Db) : Prop := ∀ p ∈ db.projects, (utf8 p.name).length < 2 ^ 32

inductive TamperStep : Tampered Key → Tampered Key → Prop where
  | request (st : Tampered Key) (key : Key) (r : Request) (d : Draws c.time) (faults : List Bool)
      (serving : st.serving = some key) :
      TamperStep st { st with
        db := (answer c key r d ⟨st.db, faults⟩).2.store
        log := st.log ∪ requestSealings c key r d ⟨st.db, faults⟩
        puts := st.puts ∪ acceptedPuts c key r d ⟨st.db, faults⟩ }
  /-- Any rows, as long as nothing in them opens that was never sealed. -/
  | tamper (st : Tampered Key) (db' : Db) (fit : NamesFit db')
      (unforged : ∀ row ∈ db'.secrets,
        Unforged c.aead (guardedKeys c operators) st.log row.nonce row.ciphertext) :
      TamperStep st { st with db := db' }
  | start (st : Tampered Key) (passphrase : String) (operator : passphrase ∈ operators)
      (salt : Bytes) (nonce : Nonce) (faults : List Bool) (stopped : st.serving = none) :
      TamperStep st { st with
        db := (initOrVerify c.toCryptoCrates passphrase salt nonce ⟨st.db, faults⟩).2.store
        serving := (initOrVerify c.toCryptoCrates passphrase salt nonce ⟨st.db, faults⟩).1.toOption
        log := st.log ∪ verifierSealings c passphrase }
  | stop (st : Tampered Key) : TamperStep st { st with serving := none }
  | rekey (st : Tampered Key) (current new : String) (operator : current ∈ operators)
      (operator' : new ∈ operators) (draws : RekeyDraws) (faults : List Bool)
      (stopped : st.serving = none) :
      TamperStep st { st with
        db := (rekey c.toCryptoCrates current new draws ⟨st.db, faults⟩).2.store
        log := st.log ∪ (verifierSealings c new ∪ rekeySealings c current new st.db) }

/-- A run from a database just created. -/
def TamperedRun (st : Tampered Key) : Prop :=
  ReflTransGen (TamperStep c operators) ⟨.empty, none, ∅, ∅⟩ st

/-- A put of this value under these names has sealed it. Where all such puts could read their
version back, one has been answered with a success, or could not write its row. -/
def PutFor (puts : Set PutRecord) (name key value : String) : Prop :=
  (∃ put ∈ puts, put.Of name key value) ∧
    ((∀ put ∈ puts, put.Of name key value → ¬ put.Unread) →
      ∃ put ∈ puts, put.Of name key value ∧ (put.Succeeded ∨ put.Unwritten))

/-- A put of this value under these names has been answered with a success. -/
def SucceededPutFor (puts : Set PutRecord) (name key value : String) : Prop :=
  ∃ put ∈ puts, put.Of name key value ∧ put.Succeeded

/-- What a row may be sealed as: `Stored` says which values are authentic under which names. -/
def ResealedFrom (key key' : Key) (db : Db) (Stored : String → String → Bytes → Prop)
    (row' : SecretRow) : Prop :=
  ∃ row ∈ db.joined, row.id = row'.id ∧ ∃ m nonce,
    decrypt c.toCryptoCrates key row.nonce row.ciphertext (aadBytes row.project row.key) = .ok m ∧
    encrypt c.toCryptoCrates key' nonce m (aadBytes row.project row.key) =
      .ok (row'.nonce, row'.ciphertext) ∧
    Stored row.project row.key m

/-- A rekey fails and changes nothing, or every row it changes holds what `Stored` allows. -/
def RekeyReseals (current new : String) (draws : RekeyDraws) (s : Session Db)
    (Stored : String → String → Bytes → Prop) : Prop :=
  ((∃ e, (rekey c.toCryptoCrates current new draws s).1 = .error e) ∧
    (rekey c.toCryptoCrates current new draws s).2.store = s.store) ∨
  ∃ n key key', (rekey c.toCryptoCrates current new draws s).1 = .ok n ∧
    ∀ row' ∈ (rekey c.toCryptoCrates current new draws s).2.store.secrets,
      row' ∈ s.store.secrets ∨ ResealedFrom c key key' s.store Stored row'

/-- Values under the names they were put under, and the verifier under its own. -/
def Authentic (puts : Set PutRecord) (name key : String) (m : Bytes) : Prop :=
  (name = "\x00meta" ∧ key = "\x00verifier" ∧ m = SENTINEL) ∨
    ∃ value, m = utf8 value ∧ PutFor puts name key value

/-- Whatever `get_secrets` returns has been put successfully. -/
def ReadsSucceededPuts : Prop :=
  ∀ (st : Tampered Key) key r (d : Draws c.time) faults status values,
    TamperedRun c operators st → st.serving = some key →
    (answer c key r d ⟨st.db, faults⟩).1 = some ⟨status, .secrets values⟩ →
    ∃ name, r.routed c = .guarded (.ok (.store (.getSecrets name))) ∧
      ∀ k v, values[k]? = some v → SucceededPutFor st.puts name k v

/-- Whatever a rekey seals again has been put successfully. -/
def RekeysSucceededPuts : Prop :=
  ∀ (st : Tampered Key) current new draws faults, TamperedRun c operators st →
    st.serving = none → current ∈ operators → new ∈ operators →
    RekeyReseals c current new draws ⟨st.db, faults⟩ fun name key m =>
      ∃ value, m = utf8 value ∧ SucceededPutFor st.puts name key value

variable {c} {operators}

/-! ## What the log holds -/

/-- The sealing carries the verifier or a put. -/
def SealedAs (puts : Set PutRecord) (x : Sealing Key) : Prop :=
  (x.ad = verifierAad ∧ x.msg = SENTINEL) ∨
    ∃ put ∈ puts, x.ad = aadBytes put.name put.key ∧ x.msg = utf8 put.value

/-- The put was of a valid project, and was answered unless one of its two last statements
failed. -/
def PutRecord.Checked (put : PutRecord) : Prop :=
  validProject put.name = true ∧ (put.Succeeded ∨ put.Unwritten ∨ put.Unread)

structure TamperInv (c : ServerCrates Key) (operators : Set String) (st : Tampered Key) :
    Prop where
  fit : NamesFit st.db
  rows : ∀ row ∈ st.db.secrets,
    Unforged c.aead (guardedKeys c operators) st.log row.nonce row.ciphertext
  log : ∀ x ∈ st.log, SealedAs st.puts x
  puts : ∀ put ∈ st.puts, put.Checked
  serving : ∀ key, st.serving = some key → key ∈ guardedKeys c operators

lemma validProject_fits {name : String} (valid : validProject name = true) :
    (utf8 name).length < 2 ^ 32 := by
  have := validProject_length valid
  omega

lemma reserved_invalid : validProject "\x00meta" = false := by decide

lemma SealedAs.mono {puts puts' : Set PutRecord} {x : Sealing Key} (h : SealedAs puts x)
    (grows : puts ⊆ puts') : SealedAs puts' x := by
  rcases h with verifier | ⟨put, hput, same⟩
  · exact Or.inl verifier
  · exact Or.inr ⟨put, grows hput, same⟩

/-- A sealing under the data of a project and a key is authentic for them. -/
lemma SealedAs.authentic {puts : Set PutRecord} {name k : String} {m : Bytes} {key : Key}
    {n : Bytes} (h : SealedAs puts ⟨key, n, aadBytes name k, m⟩)
    (checked : ∀ put ∈ puts, put.Checked) (fits : (utf8 name).length < 2 ^ 32) :
    Authentic puts name k m := by
  rcases h with ⟨ad, msg⟩ | ⟨put, hput, ad, msg⟩
  · obtain ⟨same, same'⟩ := aadBytes_inj fits (by decide) ad
    exact Or.inl ⟨same, same', msg⟩
  · obtain ⟨valid, ended⟩ := checked put hput
    obtain ⟨rfl, rfl⟩ := aadBytes_inj fits (validProject_fits valid) ad
    have own : put.Of put.name put.key put.value := ⟨rfl, rfl, rfl⟩
    refine Or.inr ⟨put.value, msg, ⟨put, hput, own⟩, fun readable => ⟨put, hput, own, ?_⟩⟩
    rcases ended with succeeded | unwritten | unread
    · exact Or.inl succeeded
    · exact Or.inr unwritten
    · exact absurd unread (readable put hput own)

/-- Whatever a row opens as under a key of the operators is authentic for its names. -/
lemma TamperInv.opened {st : Tampered Key} (inv : TamperInv c operators st) {row : SecretRow}
    (hrow : row ∈ st.db.secrets) {key : Key} (guarded : key ∈ guardedKeys c operators)
    {name k : String} (fits : (utf8 name).length < 2 ^ 32) {m : Bytes}
    (opens : decrypt c.toCryptoCrates key row.nonce row.ciphertext (aadBytes name k) = .ok m) :
    Authentic st.puts name k m := by
  have logged := inv.rows row hrow key guarded _ m (decrypt_ok_iff.mp opens).2
  exact (inv.log _ logged).authentic inv.puts fits

/-! ## One step -/

section Request

variable {key : Key} {r : Request} {d : Draws c.time}

/-- The project of a put that passes its checks is found unless that statement fails. -/
lemma projectId_found {token : AuthedToken} {db : Db} {name secretKey value : String}
    {p : ProjectRow} {n ct : Bytes}
    (checked : PutChecked c key token d db name secretKey value p n ct) (faults : List Bool) :
    (database (Repo.projectId name) ⟨db, faults⟩).1 = .ok (some p.id) ↔
      faults.head? ≠ some true := by
  rw [Repo.projectId, database_query_faults]
  by_cases fails : faults.head? = some true
  · simp [fails]
  · simp [fails, checked.found]

/-- Past that, a put is answered unless one of its two last statements fails. -/
lemma putSecret_ends {token : AuthedToken} {db : Db} {name secretKey : String}
    {body : SetSecretBody} {p : ProjectRow} {n ct : Bytes} {faults : List Bool}
    (checked : PutChecked c key token d db name secretKey body.value p n ct)
    (found : faults.head? ≠ some true) :
    (∃ version, (Handlers.putSecret c key token name secretKey (.ok body) d ⟨db, faults⟩).1 =
      .ok ⟨200, .version secretKey version⟩) ∨
    faults.tail.head? = some true ∨
      faults.tail.head? ≠ some true ∧ faults.tail.tail.head? = some true := by
  have owner := project_owns (project_mem checked.found).1
  rw [putSecret_checked checked, if_neg found, upsertSecret_faults owner]
  by_cases unwritten : faults.tail.head? = some true
  · exact Or.inr (Or.inl unwritten)
  · by_cases unread : faults.tail.tail.head? = some true
    · exact Or.inr (Or.inr ⟨unwritten, unread⟩)
    · rw [if_neg unwritten, if_neg unread]
      exact Or.inl ⟨_, rfl⟩

/-- The outcomes up to the first failure, when those before it did not fail. -/
lemma take_of_heads {faults : List Bool} (first : faults.head? ≠ some true)
    (second : faults.tail.head? ≠ some true) :
    (faults.tail.tail.head? = some true → faults.take 3 = [false, false, true]) ∧
    (faults.tail.tail.head? ≠ some true → faults.tail.tail.tail.head? = some true →
      faults.take 4 = [false, false, false, true]) := by
  rcases faults with _ | ⟨_ | _, _ | ⟨_ | _, _ | ⟨_ | _, _ | ⟨_ | _, faults⟩⟩⟩⟩ <;> simp_all

lemma acceptedPuts_checked {s : Session Db} {put : PutRecord}
    (hput : put ∈ acceptedPuts c key r d s) : put.Checked := by
  obtain ⟨token, s', body, p, n, ct, routed, extracted, found, checked, _, faults, response⟩ :=
    hput
  obtain ⟨db, outcomes⟩ := s
  obtain rfl : put.faults = outcomes := faults
  obtain ⟨first, rfl, _⟩ := extractToken_ok.mp extracted
  have second := (projectId_found checked _).mp found
  obtain ⟨unwritten, unread⟩ := take_of_heads first second
  have ran : (handle c key r d ⟨db, put.faults⟩).1 = (Handlers.putSecret c key token put.name
      put.key (.ok body) d ⟨db, put.faults.tail⟩).1 := by
    unfold handle
    simp only [routed, bind_apply, extracted, Call.perform, StoreCall.perform]
  refine ⟨checked.validName, ?_⟩
  rcases putSecret_ends checked second with ⟨version, ok⟩ | third | ⟨third, fourth⟩
  · left
    unfold PutRecord.Succeeded
    rw [response]
    unfold answer reply
    rw [ran, ok]
    simp only
    split
    · exact ⟨_, rfl, rfl⟩
    · exact ⟨_, rfl, rfl⟩
  · exact Or.inr (Or.inl (unwritten third))
  · exact Or.inr (Or.inr (unread third fourth))

/-- The rows are as they were, or sealed by one of these puts. -/
structure RowsFrom (c : ServerCrates Key) (key : Key) (d : Draws c.time) (puts : Set PutRecord)
    (db db' : Db) : Prop where
  fit : NamesFit db → NamesFit db'
  rows : ∀ row ∈ db'.secrets, row ∈ db.secrets ∨ ∃ put ∈ puts,
    encrypt c.toCryptoCrates key d.nonce (utf8 put.value) (aadBytes put.name put.key) =
      .ok (row.nonce, row.ciphertext)

variable {puts : Set PutRecord} {token : AuthedToken} {db db' : Db} {call : Call}

lemma RowsFrom.refl : RowsFrom c key d puts db db := ⟨fun h => h, fun _ hrow => Or.inl hrow⟩

/-- The record of the put is among these. -/
def Records (c : ServerCrates Key) (key : Key) (d : Draws c.time) (puts : Set PutRecord)
    (token : AuthedToken) (db : Db) (call : Call) : Prop :=
  ∀ name secretKey body p n ct, call = .store (.putSecret name secretKey (.ok body)) →
    PutChecked c key token d db name secretKey body.value p n ct →
    ∃ put ∈ puts, put.name = name ∧ put.key = secretKey ∧ put.value = body.value

lemma rowsFrom_put {name secretKey : String} {body : SetSecretBody} {p : ProjectRow} {n ct : Bytes}
    (records : Records c key d puts token db (.store (.putSecret name secretKey (.ok body))))
    (checked : PutChecked c key token d db name secretKey body.value p n ct) :
    RowsFrom c key d puts db (db.putSecretRow p.id secretKey n ct d.writtenAt.rfc3339) := by
  refine ⟨fun h => h, fun row hrow => ?_⟩
  rcases mem_putSecretRow hrow with ⟨old, _⟩ | ⟨_, rfl, rfl⟩
  · exact Or.inl old
  · obtain ⟨put, hput, rfl, rfl, same⟩ := records name secretKey body p _ _ rfl checked
    exact Or.inr ⟨put, hput, same ▸ checked.encrypted⟩

lemma Outcome.rowsFrom {response : Response} (records : Records c key d puts token db call)
    (h : Outcome c key token d db call response db') : RowsFrom c key d puts db db' := by
  cases h with
  | createProject body valid inScope fresh =>
    refine ⟨fun fit p hp => ?_, fun row hrow => Or.inl hrow⟩
    rcases List.mem_append.mp hp with old | new
    · exact fit p old
    · rw [List.mem_singleton.mp new]
      exact validProject_fits valid
  | deleteSecret => exact ⟨fun h => h, fun row hrow => Or.inl (List.mem_of_mem_filter hrow)⟩
  | putSecret name secretKey body p n ct row checked stored => exact rowsFrom_put records checked
  | listProjects => exact .refl
  | getSecrets => exact .refl
  | createToken => exact ⟨fun h => h, fun row hrow => Or.inl hrow⟩
  | listTokens => exact .refl
  | revokeToken => exact ⟨fun h => h, fun row hrow => Or.inl hrow⟩

/-- A put that changed the tables found its project, and is recorded. -/
lemma records_accepted {s s' : Session Db} (routed : r.routed c = .guarded (.ok call))
    (extracted : extractToken c r.authorization d.authenticatedAt.instant s = (.ok token, s'))
    (same : s'.store = s.store) (changed : (call.perform c key token d s').2.store ≠ s.store) :
    Records c key d (acceptedPuts c key r d s) token s.store call := by
  rintro name secretKey body p n ct rfl checked
  obtain ⟨db, faults⟩ := s'
  obtain rfl : db = s.store := same
  have unfailed : faults.head? ≠ some true := by
    intro failed
    have kept : (Handlers.putSecret c key token name secretKey (.ok body) d
        ⟨s.store, faults⟩).2.store = s.store := by rw [putSecret_checked checked, if_pos failed]
    exact changed kept
  have found := (projectId_found checked faults).mpr unfailed
  exact ⟨⟨name, secretKey, body.value, s.faults, (answer c key r d s).1⟩,
    ⟨token, _, body, p, n, ct, routed, extracted, found, checked, rfl, rfl, rfl⟩, rfl, rfl, rfl⟩

/-- A request leaves the rows it found and the one its put sealed. -/
lemma answer_rowsFrom (s : Session Db) :
    RowsFrom c key d (acceptedPuts c key r d s) s.store (answer c key r d s).2.store := by
  unfold answer
  have unchanged : ∀ s' : Session Db, s'.store = s.store →
      RowsFrom c key d (acceptedPuts c key r d s) s.store s'.store := fun s' same => same ▸ .refl
  cases routed : r.routed c with
  | answered response =>
    refine unchanged _ ?_
    unfold handle
    rw [routed]
    rfl
  | guarded called =>
    cases called with
    | error _ =>
      have reads : Reads s.store (handle c key r d) fun _ => True := by
        unfold handle
        rw [routed]
        exact Reads.bind extractToken_reads fun _ _ => Reads.pure trivial
      refine unchanged _ ?_
      rcases reads.elim (s := s) rfl with ⟨_, _, same, _⟩ | ⟨_, _, same⟩ <;> exact same
    | ok call =>
      rcases handle_guarded key d routed s with
        ⟨token, s', extracted, same, ran⟩ | ⟨_, same⟩
      · rw [ran]
        by_cases kept : (call.perform c key token d s').2.store = s.store
        · exact unchanged _ kept
        have records := records_accepted routed extracted same kept
        have ends := perform_ends key call token d s'
        rw [same] at ends
        generalize (call.perform c key token d s').2.store = db' at ends ⊢
        rcases ends with ⟨response, _, outcome⟩ | ⟨e, _, rfl | ⟨_, _, _, _, _, _, rfl, checked, rfl⟩⟩
        · exact outcome.rowsFrom records
        · exact .refl
        · exact rowsFrom_put records checked
      · exact unchanged _ same

end Request

section Rekey

variable {st : Tampered Key} {current new : String}

lemma joined_opened (inv : TamperInv c operators st) {row : JoinedRow} (hrow : row ∈ st.db.joined)
    {oldKey : Key} (guarded : oldKey ∈ guardedKeys c operators) {m : Bytes}
    (opens : decrypt c.toCryptoCrates oldKey row.nonce row.ciphertext
      (aadBytes row.project row.key) = .ok m) : Authentic st.puts row.project row.key m := by
  obtain ⟨s, hs, p, hp, _, rfl⟩ := mem_joined.mp hrow
  exact inv.opened hs guarded (inv.fit p hp) opens

lemma Authentic.sealedAs {puts : Set PutRecord} {x : Sealing Key} {name k : String}
    (h : Authentic puts name k x.msg) (ad : x.ad = aadBytes name k) : SealedAs puts x := by
  rcases h with ⟨rfl, rfl, msg⟩ | ⟨value, msg, ⟨put, hput, rfl, rfl, rfl⟩, _⟩
  · exact Or.inl ⟨ad, msg⟩
  · exact Or.inr ⟨put, hput, ad, msg⟩

/-- What a rekey that returned has left, row by row. -/
lemma rekey_rows (inv : TamperInv c operators st) (operator : current ∈ operators)
    {oldKey newKey : Key} {r : CryptoMeta} {db' : Db}
    (unlocks : Unlocks c.toCryptoCrates st.db current oldKey r)
    (rekeyed : Rekeyed c.toCryptoCrates oldKey newKey new st.db db') :
    ∀ row' ∈ db'.secrets, row' ∈ st.db.secrets ∨
      ResealedFrom c oldKey newKey st.db (Authentic st.puts) row' := by
  intro row' hrow'
  obtain ⟨row, hrow, frame, state⟩ := forall₂_mem_left rekeyed.rows.flip hrow'
  split at state
  · obtain ⟨joined, hjoined, sameId, m, nonce, opened, sealed⟩ := state
    have guarded : oldKey ∈ guardedKeys c operators :=
      ⟨current, operator, _, _, unlocks.derived⟩
    exact Or.inr ⟨joined, hjoined, sameId.trans (congrArg Prod.fst frame).symm, m, nonce, opened,
      sealed, joined_opened inv hjoined guarded opened⟩
  · exact Or.inl (state ▸ hrow)

/-- What a rekey seals was sealed before under the same names. -/
lemma rekeySealings_sealedAs (inv : TamperInv c operators st) (operator : current ∈ operators)
    {x : Sealing Key} (resealed : x ∈ rekeySealings c current new st.db) :
    SealedAs st.puts x := by
  obtain ⟨_, oldKey, r, unlocks, row, hrow, ad, opens⟩ := resealed
  rw [ad] at opens
  have guarded : oldKey ∈ guardedKeys c operators := ⟨current, operator, _, _, unlocks.derived⟩
  exact (joined_opened inv hrow guarded opens).sealedAs ad

end Rekey

lemma verifierSealings_sealedAs {puts : Set PutRecord} {passphrase : String} {x : Sealing Key}
    (hx : x ∈ verifierSealings c passphrase) : SealedAs puts x := Or.inl hx.2

/-! ## What a start does -/

section Start

variable {passphrase : String} {salt : Bytes} {nonce : Nonce} {s : Session Db}

lemma initOrVerify_derived {key : Key}
    (ran : (initOrVerify c.toCryptoCrates passphrase salt nonce s).1 = .ok key) :
    DerivedFrom c passphrase key := by
  have whole : Triple (fun t => t = s.store)
    (initOrVerify c.toCryptoCrates passphrase salt nonce) _ _ := initOrVerify_triple salt nonce
  rcases whole.elim (s := s) rfl with ⟨key', ok, state⟩ | ⟨e, error, _⟩
  · obtain rfl := Except.ok.inj (ok.symm.trans ran)
    rcases state with ⟨_, r, unlocks⟩ | ⟨_, r, installed, _⟩
    · exact ⟨_, _, unlocks.derived⟩
    · exact ⟨_, _, installed.derived⟩
  · exact absurd (error.symm.trans ran) (by simp)

lemma initOrVerify_tables :
    (initOrVerify c.toCryptoCrates passphrase salt nonce s).2.store.projects =
        s.store.projects ∧
      (initOrVerify c.toCryptoCrates passphrase salt nonce s).2.store.secrets =
        s.store.secrets := by
  have whole : Triple (fun t => t = s.store)
    (initOrVerify c.toCryptoCrates passphrase salt nonce) _ _ := initOrVerify_triple salt nonce
  rcases whole.elim (s := s) rfl with ⟨_, _, ⟨same, _⟩ | ⟨_, r, _, same⟩⟩ | ⟨_, _, same⟩ <;>
    rw [same] <;> exact ⟨rfl, rfl⟩

end Start

/-! ## Every step keeps the log authentic and the rows in it -/

section Steps

variable {st : Tampered Key}

lemma TamperInv.requested (ideal : IdealAead.Ideal c.aead) (inv : TamperInv c operators st)
    (key : Key) (r : Request) (d : Draws c.time) (faults : List Bool) :
    TamperInv c operators { st with
      db := (answer c key r d ⟨st.db, faults⟩).2.store
      log := st.log ∪ requestSealings c key r d ⟨st.db, faults⟩
      puts := st.puts ∪ acceptedPuts c key r d ⟨st.db, faults⟩ } := by
  have rows : RowsFrom c key d _ st.db _ := answer_rowsFrom (r := r) ⟨st.db, faults⟩
  refine ⟨rows.fit inv.fit, fun row hrow => ?_, ?_, ?_, inv.serving⟩
  · rcases rows.rows row hrow with old | ⟨put, hput, encrypted⟩
    · exact (inv.rows row old).mono Set.subset_union_left
    · obtain ⟨nonce, encrypted⟩ := encrypt_ok_iff.mp encrypted
      rw [nonce]
      exact unforged_of_encrypt ideal encrypted (Or.inr ⟨put, hput, rfl⟩)
  · rintro x (old | ⟨put, hput, rfl⟩)
    · exact (inv.log x old).mono Set.subset_union_left
    · exact Or.inr ⟨put, Or.inr hput, rfl, rfl⟩
  · rintro put (old | new)
    · exact inv.puts put old
    · exact acceptedPuts_checked new

lemma TamperInv.started (inv : TamperInv c operators st) {passphrase : String}
    (operator : passphrase ∈ operators) (salt : Bytes) (nonce : Nonce) (faults : List Bool) :
    TamperInv c operators { st with
      db := (initOrVerify c.toCryptoCrates passphrase salt nonce ⟨st.db, faults⟩).2.store
      serving := (initOrVerify c.toCryptoCrates passphrase salt nonce ⟨st.db, faults⟩).1.toOption
      log := st.log ∪ verifierSealings c passphrase } := by
  obtain ⟨projects, secrets⟩ := @initOrVerify_tables _ c passphrase salt nonce ⟨st.db, faults⟩
  refine ⟨fun p hp => ?_, fun row hrow => ?_, ?_, inv.puts, fun key serving => ?_⟩
  · exact inv.fit p (projects ▸ hp)
  · exact (inv.rows row (secrets ▸ hrow)).mono Set.subset_union_left
  · rintro x (old | verifier)
    · exact inv.log x old
    · exact verifierSealings_sealedAs verifier
  · cases ran : (initOrVerify c.toCryptoCrates passphrase salt nonce ⟨st.db, faults⟩).1 with
    | ok key' =>
      simp only [ran, Except.toOption, Option.some.injEq] at serving
      rw [← serving]
      exact ⟨passphrase, operator, initOrVerify_derived ran⟩
    | error e => simp [ran, Except.toOption] at serving

lemma TamperInv.rekeyed (ideal : IdealAead.Ideal c.aead) (inv : TamperInv c operators st)
    {current new : String} (operator : current ∈ operators) (draws : RekeyDraws)
    (faults : List Bool) :
    TamperInv c operators { st with
      db := (rekey c.toCryptoCrates current new draws ⟨st.db, faults⟩).2.store
      log := st.log ∪ (verifierSealings c new ∪ rekeySealings c current new st.db) } := by
  have log : ∀ x ∈ st.log ∪ (verifierSealings c new ∪ rekeySealings c current new st.db),
      SealedAs st.puts x := by
    rintro x (old | verifier | resealed)
    · exact inv.log x old
    · exact verifierSealings_sealedAs verifier
    · exact rekeySealings_sealedAs inv operator resealed
  have whole : Triple (fun s => s = st.db) (rekey c.toCryptoCrates current new draws) _ _ :=
    rekeyWithParams_triple strong_inBounds draws
  have ends := whole.elim (s := ⟨st.db, faults⟩) rfl
  generalize (rekey c.toCryptoCrates current new draws ⟨st.db, faults⟩).2.store = db' at ends ⊢
  rcases ends with ⟨n, _, _, _, oldKey, newKey, r, unlocks, rekeyed⟩ | ⟨e, _, rfl⟩
  · obtain ⟨_, _, installed, _⟩ := rekeyed.metadata
    refine ⟨?_, fun row' hrow' => ?_, log, inv.puts, inv.serving⟩
    · intro p hp
      exact inv.fit p (rekeyed.projects ▸ hp)
    · rcases rekey_rows inv operator unlocks rekeyed row' hrow' with old | resealed
      · exact (inv.rows row' old).mono Set.subset_union_left
      · obtain ⟨row, hrow, _, m, nonce, opened, sealed, _⟩ := resealed
        obtain ⟨same, sealed⟩ := encrypt_ok_iff.mp sealed
        rw [same]
        refine unforged_of_encrypt ideal sealed (Or.inr (Or.inr ?_))
        exact ⟨⟨_, _, installed.derived⟩, oldKey, r, unlocks, row, hrow, rfl, opened⟩
  · exact ⟨inv.fit, fun row hrow => (inv.rows row hrow).mono Set.subset_union_left, log,
      inv.puts, inv.serving⟩

theorem tamperStep_inv (ideal : IdealAead.Ideal c.aead) {st' : Tampered Key}
    (inv : TamperInv c operators st) (step : TamperStep c operators st st') :
    TamperInv c operators st' := by
  cases step with
  | request key r d faults serving => exact inv.requested ideal key r d faults
  | tamper db' fit unforged => exact ⟨fit, unforged, inv.log, inv.puts, inv.serving⟩
  | start passphrase operator salt nonce faults stopped =>
    exact inv.started operator salt nonce faults
  | stop => exact ⟨inv.fit, inv.rows, inv.log, inv.puts, fun _ h => by cases h⟩
  | rekey current new operator operator' draws faults stopped =>
    exact inv.rekeyed ideal operator draws faults

end Steps

lemma tamperedRun_inv (ideal : IdealAead.Ideal c.aead) {st : Tampered Key}
    (run : TamperedRun c operators st) : TamperInv c operators st := by
  refine Transitions.preserved (P := TamperInv c operators)
    (fun _ _ inv step => tamperStep_inv ideal inv step) run ?_
  refine ⟨?_, ?_, ?_, ?_, ?_⟩ <;> intro x hx <;> cases hx

/-! ## What a read returns -/

/-- Every value collected was opened from a row of the project. -/
lemma openRows_opened {key : Key} {name : String} {rows : List StoredSecret}
    {out values : Std.ExtTreeMap String String}
    (opened : Handlers.openRows c key name out rows = .ok values) {k v : String}
    (found : values[k]? = some v) :
    out[k]? = some v ∨ ∃ row ∈ rows, row.key = k ∧
      decrypt c.toCryptoCrates key row.nonce row.ciphertext (aadBytes name k) = .ok (utf8 v) := by
  induction rows generalizing out with
  | nil =>
    cases opened
    exact Or.inl found
  | cons row rows ih =>
    unfold Handlers.openRows at opened
    split at opened
    · cases opened
    · rename_i m opens
      split at opened
      · cases opened
      · rename_i value text
        rcases ih opened with inserted | ⟨row', hrow', later⟩
        · rw [Std.ExtTreeMap.getElem?_insert] at inserted
          split at inserted
          · rename_i same
            obtain rfl : row.key = k := by simpa using same
            obtain rfl := Option.some.inj inserted
            rw [(fromUtf8_eq_some_iff m value).mp text] at opens
            exact Or.inr ⟨row, List.mem_cons_self, rfl, opens⟩
          · exact Or.inl inserted
        · exact Or.inr ⟨row', List.mem_cons_of_mem _ hrow', later⟩

lemma answer_secrets {key : Key} {r : Request} {d : Draws c.time} {s : Session Db} {status : Nat}
    {values : Std.ExtTreeMap String String}
    (answered : (answer c key r d s).1 = some ⟨status, .secrets values⟩) :
    ∃ name p, r.routed c = .guarded (.ok (.store (.getSecrets name))) ∧
      validProject name = true ∧
      Handlers.openRows c key name ∅ ((s.store.secretsOf p).map SecretRow.stored) = .ok values := by
  have whole : Triple (fun t => t = s.store) (handle c key r d) _ _ := handle_triple r
  have ends := whole.elim (s := s) rfl
  unfold answer at answered
  generalize (handle c key r d s).2.store = db' at ends
  rcases ends with ⟨response, ok, handled⟩ | ⟨e, error, _⟩
  · rw [ok] at answered
    have body : response.body = .secrets values := by
      rcases (reply_ok answered).2 with same | none
      · exact same.symm
      · cases none
    cases handled with
    | answered routed =>
      rcases routed_answered routed with other | other <;> rw [other] at body <;> cases body
    | invalidPath => cases body
    | called token call routed authenticated outcome =>
      cases outcome with
      | getSecrets name p out valid inScope found opened =>
        cases body
        exact ⟨name, p.id, routed, valid, opened⟩
      | createProject => cases body
      | listProjects => cases body
      | putSecret => cases body
      | deleteSecret => cases body
      | createToken => cases body
      | listTokens => cases body
      | revokeToken => cases body
  · rw [error] at answered
    rcases reply_error answered with none | ⟨_, other⟩
    · cases none
    · cases other

/-- However the tables are tampered with, a read returns values under the names they were put
under, and a rekey fails and changes nothing or seals such values again. -/
theorem tampered_values_were_put (ideal : IdealAead.Ideal c.aead) {st : Tampered Key}
    (run : TamperedRun c operators st) :
    (∀ key r (d : Draws c.time) faults status values, st.serving = some key →
      (answer c key r d ⟨st.db, faults⟩).1 = some ⟨status, .secrets values⟩ →
      ∃ name, r.routed c = .guarded (.ok (.store (.getSecrets name))) ∧
        ∀ k v, values[k]? = some v → PutFor st.puts name k v) ∧
    ∀ current new draws faults, st.serving = none → current ∈ operators → new ∈ operators →
      RekeyReseals c current new draws ⟨st.db, faults⟩ (Authentic st.puts) := by
  have inv := tamperedRun_inv ideal run
  constructor
  · intro key r d faults status values serving answered
    obtain ⟨name, p, routed, valid, opened⟩ := answer_secrets answered
    refine ⟨name, routed, fun k v found => ?_⟩
    rcases openRows_opened opened found with none | ⟨stored, hstored, rfl, opens⟩
    · simp at none
    · obtain ⟨row, hrow, rfl⟩ := List.mem_map.mp hstored
      have hrow : row ∈ st.db.secrets := List.mem_of_mem_filter (mem_orderBy.mp hrow)
      rcases inv.opened hrow (inv.serving key serving) (validProject_fits valid) opens with
        ⟨rfl, _⟩ | ⟨value, same, put⟩
      · rw [reserved_invalid] at valid
        cases valid
      · obtain rfl := utf8_injective same
        exact put
  · intro current new draws faults _ operator _
    have whole : Triple (fun s => s = st.db) (rekey c.toCryptoCrates current new draws) _ _ :=
      rekeyWithParams_triple strong_inBounds draws
    rcases whole.elim (s := ⟨st.db, faults⟩) rfl with
      ⟨n, ok, _, _, oldKey, newKey, r, unlocks, rekeyed⟩ | ⟨e, error, same⟩
    · exact Or.inr ⟨n, oldKey, newKey, ok, rekey_rows inv operator unlocks rekeyed⟩
    · exact Or.inl ⟨⟨e, error⟩, same⟩

/-! ## A row that a put could not write, and a copy of the verifier -/

def openDb : Db where
  metaTable := []
  projects := [⟨1, "app", "t"⟩]
  secrets := []
  tokens := [⟨1, "root", utf8 "tok", none, "t", false, none⟩]

def operatorNames : Set String := {"pw", "new"}

def masterKey : Bytes := Framing.frame (utf8 "pw") ++ Framing.frame []

def initialized : Db := (initOrVerify framedCrypto "pw" [] .zero ⟨openDb, []⟩).2.store

def started : Tampered Bytes where
  db := initialized
  serving := some masterKey
  log := ∅ ∪ verifierSealings framedServer "pw"
  puts := ∅

lemma started_run : TamperedRun framedServer operatorNames started := by
  refine .tail (.single (.tamper _ openDb (by unfold NamesFit; decide) ?_))
    (.start _ "pw" (Or.inl rfl) [] .zero [] rfl)
  intro row hrow
  cases hrow

def putRequest : Request :=
  bearerRequest .put "/v1/projects/app/secrets/KEY" "tok" "\x7b\"value\":\"v\"\x7d"

def getRequest : Request := bearerRequest .get "/v1/projects/app/secrets" "tok" ""

/-- The third statement of a put, which writes its row, fails. -/
def writeFails : List Bool := [false, false, true]

/-- After the put under these faults. -/
def afterPut (faults : List Bool) : Tampered Bytes where
  db := (answer framedServer masterKey putRequest (epochDraws "") ⟨initialized, faults⟩).2.store
  serving := some masterKey
  log := started.log ∪ requestSealings framedServer masterKey putRequest (epochDraws "")
    ⟨initialized, faults⟩
  puts := ∅ ∪ acceptedPuts framedServer masterKey putRequest (epochDraws "") ⟨initialized, faults⟩

lemma afterPut_run (faults : List Bool) :
    TamperedRun framedServer operatorNames (afterPut faults) :=
  started_run.tail (.request started masterKey putRequest (epochDraws "") faults rfl)

def ResponseBody.value (key : String) : ResponseBody → Option String
  | .secrets values => values[key]?
  | _ => none

lemma body_value {response : Option Response} {key v : String}
    (h : (response.bind fun r => r.body.value key) = some v) :
    ∃ status values, response = some ⟨status, .secrets values⟩ ∧ values[key]? = some v := by
  obtain ⟨⟨status, body⟩, rfl, h⟩ := Option.bind_eq_some_iff.mp h
  cases body with
  | secrets values => exact ⟨status, values, rfl, h⟩
  | _ => cases h

/-- The row that the put sealed and could not write. -/
def lostDb : Db :=
  { initialized with
    secrets := [⟨1, 1, "KEY", Nonce.zero.bytes,
      Framing.frames [masterKey, Nonce.zero.bytes, aadBytes "app" "KEY"] ++
        Framing.frame (utf8 "v"), 1, "t"⟩] }

def lostPut : Tampered Bytes := { afterPut writeFails with db := lostDb }

/-- The put sealed its value. -/
lemma lostPut_sealed : ⟨masterKey, Nonce.zero.bytes, aadBytes "app" "KEY", utf8 "v"⟩ ∈
    requestSealings framedServer masterKey putRequest (epochDraws "") ⟨initialized, writeFails⟩ := by
  refine ⟨⟨"app", "KEY", "v", writeFails, _⟩, ⟨⟨"root", none⟩, ⟨initialized, [false, true]⟩,
    ⟨"v"⟩, ⟨1, "app", "t"⟩, Nonce.zero.bytes, _, ?_, rfl, rfl,
    ⟨by decide, rfl, by decide, rfl, rfl⟩, rfl, rfl, rfl⟩, rfl⟩
  rfl

lemma lostPut_run : TamperedRun framedServer operatorNames lostPut := by
  refine (afterPut_run writeFails).tail
    (.tamper _ lostDb (by unfold NamesFit; decide) ?_)
  intro row hrow
  rw [List.mem_singleton.mp hrow]
  exact unforged_of_encrypt Framing.framedAead_ideal (k := masterKey) (a := aadBytes "app" "KEY")
    (m := utf8 "v") rfl (Or.inr lostPut_sealed)

lemma lostPut_is_read : ∃ status values,
    (answer framedServer masterKey getRequest (epochDraws "") ⟨lostPut.db, []⟩).1 =
      some ⟨status, .secrets values⟩ ∧ values["KEY"]? = some "v" :=
  body_value (by decide)

lemma lostPut_answer : ((answer framedServer masterKey putRequest (epochDraws "")
    ⟨initialized, writeFails⟩).1.map Response.status) = some 500 := by decide

/-- The verifier's own ciphertext as the row of a key of a project named like its data. -/
def plantedDb : Db :=
  { initialized with
    projects := [⟨1, "\x00meta", "t"⟩]
    secrets := [⟨1, 1, "\x00verifier", Nonce.zero.bytes,
      Framing.frames [masterKey, Nonce.zero.bytes, verifierAad] ++ Framing.frame SENTINEL, 1, "t"⟩] }

def planted : Tampered Bytes where
  db := plantedDb
  serving := none
  log := started.log
  puts := ∅

lemma planted_run : TamperedRun framedServer operatorNames planted := by
  refine (started_run.tail (.stop started)).tail
    (.tamper _ plantedDb (by unfold NamesFit; decide) ?_)
  intro row hrow
  rw [List.mem_singleton.mp hrow]
  exact unforged_of_encrypt Framing.framedAead_ideal (k := masterKey) (a := verifierAad)
    (m := SENTINEL) rfl (Or.inr ⟨⟨[], .strong, rfl⟩, rfl, rfl⟩)

/-- What a rekey to a new salt leaves of the planted row. -/
def rekeyedRows : List SecretRow :=
  (rekey framedCrypto "pw" "new" ⟨[1], fun _ => .zero⟩ ⟨plantedDb, []⟩).2.store.secrets

lemma planted_rekey : ((rekey framedCrypto "pw" "new" ⟨[1], fun _ => .zero⟩
    ⟨plantedDb, []⟩).1.toOption.isSome ∧ ∃ row ∈ rekeyedRows, row ∉ plantedDb.secrets) := by
  decide

/-- A read returns a value whose put stored nothing, and a rekey seals a value that nobody put. -/
theorem tampered_values_beyond_puts : ¬ ReadsSucceededPuts framedServer operatorNames ∧
    ¬ RekeysSucceededPuts framedServer operatorNames := by
  constructor
  · intro reads
    obtain ⟨status, values, answered, found⟩ := lostPut_is_read
    obtain ⟨name, _, succeeded⟩ := reads lostPut masterKey getRequest (epochDraws "") [] status
      values lostPut_run rfl answered
    obtain ⟨put, hput, _, response, answer, ok⟩ := succeeded "KEY" "v" found
    rcases hput with none | ⟨_, _, _, _, _, _, _, _, _, _, _, _, same⟩
    · cases none
    · have failed := lostPut_answer
      rw [← same, answer] at failed
      exact absurd (ok.symm.trans (Option.some.inj failed)) (by decide)
  · intro rekeys
    obtain ⟨ran, row, hrow, changed⟩ := planted_rekey
    rcases rekeys planted "pw" "new" ⟨[1], fun _ => .zero⟩ [] planted_run rfl (Or.inl rfl)
      (Or.inr rfl) with ⟨⟨e, error⟩, _⟩ | ⟨n, key, key', _, rows⟩
    · have failed := congrArg (fun out => out.toOption.isSome) error
      exact absurd (ran.symm.trans failed) (by simp [Except.toOption])
    · rcases rows row hrow with old | ⟨_, _, _, _, _, _, _, _, _, put, none, _⟩
      · exact changed old
      · cases none

/-- A put without faults, read back. -/
theorem tampered_values_were_put_readBack : ∃ name,
    getRequest.routed framedServer = .guarded (.ok (.store (.getSecrets name))) ∧
      PutFor (afterPut []).puts name "KEY" "v" := by
  have ideal : IdealAead.Ideal framedServer.aead := Framing.framedAead_ideal
  have isRead : ∃ status values,
      (answer framedServer masterKey getRequest (epochDraws "") ⟨(afterPut []).db, []⟩).1 =
        some ⟨status, .secrets values⟩ ∧ values["KEY"]? = some "v" := body_value (by decide)
  obtain ⟨status, values, answered, found⟩ := isRead
  obtain ⟨name, routed, puts⟩ := (tampered_values_were_put ideal (afterPut_run [])).1 masterKey
    getRequest (epochDraws "") [] status values rfl answered
  exact ⟨name, routed, puts "KEY" "v" found⟩

end SecretsManager
