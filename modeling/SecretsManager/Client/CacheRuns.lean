import SecretsManager.Client.Cache
import SecretsManager.Lib.LastWrite

/-!
# What reads return

Runs of one client process over all its servers, tokens and projects. Each of them
has one slot: a read that was answered fills it, a write clears it. The files hold
exactly the slots, so a read that no server answered returns the slot while it is
fresh, and nothing else.
-/

namespace SecretsManager

open LastWrite

/-- Server and token of an `Api`. -/
structure Identity where
  serverUrl : String
  token : String
  deriving DecidableEq

/-- How a call of the agent ended: answered with a status, which may have led it elsewhere, or not
at all. -/
inductive CallOutcome where
  | answered (status : Nat) (readToVec : Nat → Option Bytes)
      (elsewhere : Except UreqError HttpResponse)
  | failed (text : String)

def CallOutcome.result : CallOutcome → Except UreqError HttpResponse
  | answered status readToVec elsewhere => callResult status readToVec elsewhere
  | failed text => .error (.other text)

inductive CacheOp where
  | getSecrets (id : Identity) (project : String) (outcome : CallOutcome) (d : StoreDraws)
  | setSecret (id : Identity) (project : String) (outcome : CallOutcome)

variable {Key : Type} (c : ClientCrates Key) (key : Key)

def Identity.cache (id : Identity) : CacheStore Key :=
  ⟨key, id.serverUrl, hashToken c.toCryptoCrates id.token⟩

namespace CacheOp

/-- The slot that the operation is about. -/
def target : CacheOp → Identity × String
  | getSecrets id project .. => (id, project)
  | setSecret id project _ => (id, project)

/-- The files after the operation. -/
def files : CacheOp → CacheFiles → CacheFiles
  | getSecrets id project outcome d, files =>
    (CachedApi.getSecrets c (some (id.cache c key)) outcome.result d project files).2
  | setSecret id project outcome, files =>
    (CachedApi.setSecret c (some (id.cache c key)) outcome.result true project files).2

/-- The map fetched and the time of its storing, when both went well. -/
def stored : CacheOp → Option (SecretMap × UnixTime)
  | getSecrets id project outcome d =>
    match Api.fetchSecrets c.toClientJson outcome.result, d.now with
    | .ok m, .ok now =>
      if ((id.cache c key).store c d project m fun _ => none).1.isOk then some (m, now) else none
    | _, _ => none
  | setSecret .. => none

/-- What the operation does to a slot. -/
def effect (slot : Identity × String) (op : CacheOp) : Effect (SecretMap × UnixTime) :=
  if op.target = slot then
    match op with
    | getSecrets .. =>
      match op.stored c key with
      | some held => .put held
      | none => .keep
    | setSecret _ _ outcome => if (Api.setSecret outcome.result).isOk then .clear else .keep
  else .keep

end CacheOp

/-- The files after a run that began with none. -/
def cacheRun (ops : List CacheOp) : CacheFiles :=
  ops.foldl (fun files op => op.files c key files) fun _ => none

/-- No NUL in a server's URL, and no collision among what is hashed. -/
structure NoCollisions (used : Set (Identity × String)) : Prop where
  noNul : ∀ x ∈ used, 0 ∉ utf8 x.1.serverUrl
  tokens : ∀ x ∈ used, ∀ y ∈ used, hashToken c.toCryptoCrates x.1.token =
    hashToken c.toCryptoCrates y.1.token → x.1.token = y.1.token
  paths : ∀ x ∈ used, ∀ y ∈ used, c.sha256 ((x.1.cache c key).pathInput x.2) =
    c.sha256 ((y.1.cache c key).pathInput y.2) →
      (x.1.cache c key).pathInput x.2 = (y.1.cache c key).pathInput y.2

variable {c key}

lemma cachePath_used {used : Set (Identity × String)} (laws : c.Laws)
    (distinct : NoCollisions c key used) {x y : Identity × String} (hx : x ∈ used) (hy : y ∈ used)
    (same : (x.1.cache c key).cachePath c x.2 = (y.1.cache c key).cachePath c y.2) : x = y := by
  have inputs := distinct.paths x hx y hy (cachePath_inj laws same)
  obtain ⟨server, hash, project⟩ := pathInput_inj (distinct.noNul x hx) (distinct.noNul y hy)
    (by rw [Identity.cache, Identity.cache, hashToken, hashToken, laws.hashLength, laws.hashLength])
    inputs
  obtain ⟨⟨_, _⟩, _⟩ := x
  obtain ⟨⟨_, _⟩, _⟩ := y
  obtain rfl : _ = _ := server
  obtain rfl := distinct.tokens _ hx _ hy hash
  obtain rfl : _ = _ := project
  rfl

/-! ## What one operation does to the files -/

lemma store_cases (s : CacheStore Key) (d : StoreDraws) (project : String) (m : SecretMap) :
    (∃ data, s.entry c d project m = .ok data ∧ ∀ files, s.store c d project m files =
      (.ok (), Function.update files (s.cachePath c project) (some data))) ∨
    ∃ e, ∀ files, s.store c d project m files = (.error e, files) := by
  unfold CacheStore.store
  cases s.entry c d project m with
  | error e => exact Or.inr ⟨e, fun files => rfl⟩
  | ok data =>
    cases fault : d.fault with
    | none => exact Or.inl ⟨data, rfl, fun files => by simp [writePrivateFile]⟩
    | some e => exact Or.inr ⟨e, fun files => by simp [writePrivateFile]⟩

lemma getSecrets_ok {cache : CacheStore Key} {resp : Except UreqError HttpResponse}
    {d : StoreDraws} {project : String} {files : CacheFiles} {m : SecretMap}
    (fetched : Api.fetchSecrets c.toClientJson resp = .ok m) :
    CachedApi.getSecrets c (some cache) resp d project files =
      (.ok m, (cache.store c d project m files).2) := by
  simp [CachedApi.getSecrets, fetched]

lemma getSecrets_error {cache : CacheStore Key} {resp : Except UreqError HttpResponse}
    {d : StoreDraws} {project : String} {files : CacheFiles} {e : ClientError}
    (failed : Api.fetchSecrets c.toClientJson resp = .error e) :
    (CachedApi.getSecrets c (some cache) resp d project files).2 = files := by
  simp only [CachedApi.getSecrets, failed]
  by_cases transport : e.isTransport = true
  · rw [if_pos transport]
    cases cache.load c d.now project files <;> rfl
  · rw [if_neg transport]

/-- An operation changes no file but that of its target. -/
lemma files_cases (op : CacheOp) (files : CacheFiles) : op.files c key files = files ∨ ∃ content,
    op.files c key files =
      Function.update files ((op.target.1.cache c key).cachePath c op.target.2) content := by
  cases op with
  | getSecrets id project outcome d =>
    simp only [CacheOp.files]
    cases fetched : Api.fetchSecrets c.toClientJson outcome.result with
    | error e => exact Or.inl (getSecrets_error fetched)
    | ok m =>
      rw [getSecrets_ok fetched]
      rcases store_cases (id.cache c key) d project m with ⟨data, _, stored⟩ | ⟨e, failed⟩
      · exact Or.inr ⟨some data, by rw [stored]; rfl⟩
      · exact Or.inl (by rw [failed])
  | setSecret id project outcome =>
    simp only [CacheOp.files, CachedApi.setSecret]
    cases Api.setSecret outcome.result with
    | error e => exact Or.inl rfl
    | ok _ => exact Or.inr ⟨none, rfl⟩

variable {used : Set (Identity × String)} {x : Identity × String}

lemma files_other (laws : c.Laws) (distinct : NoCollisions c key used) {op : CacheOp}
    (hop : op.target ∈ used) (hx : x ∈ used) (other : op.target ≠ x) (files : CacheFiles) :
    op.files c key files ((x.1.cache c key).cachePath c x.2) =
      files ((x.1.cache c key).cachePath c x.2) := by
  rcases files_cases op files with same | ⟨content, updated⟩
  · rw [same]
  · rw [updated, Function.update_of_ne]
    intro same
    exact other (cachePath_used laws distinct hop hx same.symm)

variable (c key) in
/-- The file of a slot holds what the slot holds. -/
def Holds (x : Identity × String) (files : CacheFiles) : Option (SecretMap × UnixTime) → Prop
  | none => files ((x.1.cache c key).cachePath c x.2) = none
  | some (m, createdAt) => ∃ d data, (x.1.cache c key).entry c d x.2 m = .ok data ∧
      d.now = .ok createdAt ∧ files ((x.1.cache c key).cachePath c x.2) = some data ∧
      ∀ k ∈ m, validSecretKey k = true

lemma Holds.congr {files files' : CacheFiles} {held : Option (SecretMap × UnixTime)}
    (same : files' ((x.1.cache c key).cachePath c x.2) = files ((x.1.cache c key).cachePath c x.2))
    (h : Holds c key x files held) : Holds c key x files' held := by
  unfold Holds at h ⊢
  rw [same]
  exact h

lemma fetchSecrets_valid {resp : Except UreqError HttpResponse} {m : SecretMap} {json : ClientJson}
    (fetched : Api.fetchSecrets json resp = .ok m) : ∀ k ∈ m, validSecretKey k = true := by
  unfold Api.fetchSecrets at fetched
  split at fetched
  · split at fetched
    · obtain ⟨rfl, valid⟩ := secretMapFromPlain_ok.mp fetched
      exact valid
    · cases fetched
  · cases fetched

/-- One operation: the files follow the slot. -/
theorem holds_step (laws : c.Laws) (distinct : NoCollisions c key used) {op : CacheOp}
    (hop : op.target ∈ used) (hx : x ∈ used) {files : CacheFiles}
    {held : Option (SecretMap × UnixTime)} (h : Holds c key x files held) :
    Holds c key x (op.files c key files) ((op.effect c key x).apply held) := by
  by_cases same : op.target = x
  · subst same
    cases op with
    | getSecrets id project outcome d =>
      simp only [CacheOp.effect, CacheOp.files, if_true, CacheOp.stored]
      cases fetched : Api.fetchSecrets c.toClientJson outcome.result with
      | error e =>
        rw [getSecrets_error fetched]
        exact h
      | ok m =>
        rw [getSecrets_ok fetched]
        rcases store_cases (id.cache c key) d project m with ⟨data, written, stored⟩ | ⟨e, failed⟩
        · obtain ⟨_, createdAt, _, _, drawn, _⟩ := entry_ok.mp written
          rw [drawn]
          dsimp only
          rw [stored, stored]
          exact ⟨d, data, written, drawn, Function.update_self .., fetchSecrets_valid fetched⟩
        · rw [failed]
          cases d.now with
          | error _ => exact h
          | ok now =>
            dsimp only
            rw [failed]
            exact h
    | setSecret id project outcome =>
      simp only [CacheOp.effect, CacheOp.files, CachedApi.setSecret, if_true]
      cases Api.setSecret outcome.result with
      | error e => exact h
      | ok _ => exact Function.update_self ..
  · have kept : op.effect c key x = .keep := by simp [CacheOp.effect, same]
    rw [kept]
    exact h.congr (files_other laws distinct hop hx same files)

/-- A whole run: the files hold the slots. -/
theorem holds_run (laws : c.Laws) (distinct : NoCollisions c key used) (hx : x ∈ used)
    (ops : List CacheOp) (covers : ∀ op ∈ ops, op.target ∈ used) :
    Holds c key x (cacheRun c key ops) (slot (CacheOp.effect c key x) ops) := by
  induction ops using List.reverseRecOn with
  | nil => rfl
  | append_singleton ops op ih =>
    have before := ih fun o ho => covers o (List.mem_append_left _ ho)
    have run : cacheRun c key (ops ++ [op]) = op.files c key (cacheRun c key ops) := by
      simp [cacheRun]
    rw [run, slot_snoc]
    exact holds_step laws distinct (covers op (by simp)) hx before

/-- A load returns the slot while it is fresh. -/
theorem load_slot (laws : c.Laws) {files : CacheFiles} {held : Option (SecretMap × UnixTime)}
    (h : Holds c key x files held) {clock : Except String UnixTime} {m : SecretMap} :
    (x.1.cache c key).load c clock x.2 files = .ok m ↔
      ∃ createdAt now, held = some (m, createdAt) ∧ clock = .ok now ∧
        Fresh createdAt.secs now := by
  cases held with
  | none =>
    have absent : (x.1.cache c key).load c clock x.2 files ≠ .ok m := load_absent h
    simp [absent]
  | some held =>
    obtain ⟨m', createdAt⟩ := held
    obtain ⟨d, data, written, drawn, file, valid⟩ := h
    rw [load_entry laws written valid file]
    constructor
    · rintro ⟨rfl, createdAt', now, drawn', read, fresh⟩
      obtain rfl := Except.ok.inj (drawn.symm.trans drawn')
      exact ⟨createdAt, now, rfl, read, fresh⟩
    · rintro ⟨_, now, ⟨⟩, read, fresh⟩
      exact ⟨rfl, createdAt, now, drawn, read, fresh⟩

/-! ## What a read returns -/

lemma secretMapLoop_error {out : SecretMap} {l : List (String × String)} {e : ClientError}
    (failed : secretMapLoop out l = .error e) : e = .unexpectedResponse := by
  induction l generalizing out with
  | nil => cases failed
  | cons x l ih =>
    unfold secretMapLoop at failed
    split at failed
    · exact ih failed
    · cases failed
      rfl

/-- Only a failure that is no status makes a fetch fall back. -/
lemma fetchSecrets_transport {json : ClientJson} {resp : Except UreqError HttpResponse}
    {e : ClientError} (failed : Api.fetchSecrets json resp = .error e) :
    e.isTransport = true ↔ ∃ text, resp = .error (.other text) := by
  cases resp with
  | error e' =>
    simp only [Api.fetchSecrets, Except.error.injEq] at failed
    subst failed
    simp [mapError_isTransport]
  | ok r =>
    have unexpected : e = .unexpectedResponse := by
      simp only [Api.fetchSecrets, readJson] at failed
      cases read : r.readToVec MAX_RESPONSE_BYTES with
      | none => simpa [read] using failed.symm
      | some buf =>
        cases decoded : json.decodeSecrets buf with
        | none => simpa [read, decoded] using failed.symm
        | some raw =>
          simp only [read, decoded] at failed
          exact secretMapLoop_error failed
    simp [unexpected, ClientError.isTransport]

lemma getSecrets_returns {cache : CacheStore Key} {resp : Except UreqError HttpResponse}
    {d : StoreDraws} {project : String} {files : CacheFiles} {m : SecretMap} :
    (CachedApi.getSecrets c (some cache) resp d project files).1 = .ok m ↔
      Api.fetchSecrets c.toClientJson resp = .ok m ∨
      (∃ text, resp = .error (.other text)) ∧ cache.load c d.now project files = .ok m := by
  cases fetched : Api.fetchSecrets c.toClientJson resp with
  | ok m' =>
    rw [getSecrets_ok fetched]
    have answered : ¬ ∃ text, resp = .error (.other text) := by
      rintro ⟨text, rfl⟩
      cases fetched
    simp [answered]
  | error e =>
    simp only [CachedApi.getSecrets, fetched, ← fetchSecrets_transport fetched]
    by_cases transport : e.isTransport = true
    · simp only [transport, if_true]
      cases cache.load c d.now project files <;> simp
    · simp [transport]

/-- A status that is neither of a success nor of an error. -/
def LeadsElsewhere (status : Nat) : Prop :=
  ¬ (200 ≤ status ∧ status < 300) ∧ ¬ (400 ≤ status ∧ status < 600)

/-- The agent handed this response over: a success, or where another status led it. -/
def CallOutcome.HandsOver (r : HttpResponse) : CallOutcome → Prop
  | answered status readToVec elsewhere =>
    (200 ≤ status ∧ status < 300 ∧ r = ⟨status, readToVec⟩) ∨
      LeadsElsewhere status ∧ elsewhere = .ok r
  | failed _ => False

/-- The call failed with an error that is no status, where a status led it or without any. -/
def CallOutcome.GivesUp : CallOutcome → Prop
  | answered status _ elsewhere =>
    LeadsElsewhere status ∧ ∃ text, elsewhere = .error (.other text)
  | failed _ => True

/-- The response handed over carried exactly this map, with valid keys. -/
def CallOutcome.Carries (json : ClientJson) (m : SecretMap) (outcome : CallOutcome) : Prop :=
  ∃ r, outcome.HandsOver r ∧
    (∃ body, r.readToVec MAX_RESPONSE_BYTES = some body ∧ json.decodeSecrets body = some m) ∧
    ∀ k ∈ m, validSecretKey k = true

lemma result_ok {outcome : CallOutcome} {r : HttpResponse} :
    outcome.result = .ok r ↔ outcome.HandsOver r := by
  cases outcome with
  | failed text => simp [CallOutcome.result, CallOutcome.HandsOver]
  | answered status readToVec elsewhere =>
    unfold CallOutcome.result callResult CallOutcome.HandsOver LeadsElsewhere
    by_cases success : 200 ≤ status ∧ status < 300
    · simp [success, eq_comm]
    · by_cases failure : 400 ≤ status ∧ status < 600
      · simp [success, failure, ← and_assoc]
      · simp [success, failure, ← and_assoc]

lemma result_other {outcome : CallOutcome} :
    (∃ text, outcome.result = .error (.other text)) ↔ outcome.GivesUp := by
  cases outcome with
  | failed text => simp [CallOutcome.result, CallOutcome.GivesUp]
  | answered status readToVec elsewhere =>
    unfold CallOutcome.result callResult CallOutcome.GivesUp LeadsElsewhere
    by_cases success : 200 ≤ status ∧ status < 300
    · simp [success]
    · by_cases failure : 400 ≤ status ∧ status < 600
      · simp [success, failure]
      · simp [success, failure]

lemma fetchSecrets_ok {json : ClientJson} {r : HttpResponse} {m : SecretMap} :
    Api.fetchSecrets json (.ok r) = .ok m ↔
      (∃ body, r.readToVec MAX_RESPONSE_BYTES = some body ∧ json.decodeSecrets body = some m) ∧
        ∀ k ∈ m, validSecretKey k = true := by
  simp only [Api.fetchSecrets, readJson]
  cases r.readToVec MAX_RESPONSE_BYTES with
  | none => simp
  | some body =>
    cases decoded : json.decodeSecrets body with
    | none => simp [decoded]
    | some raw =>
      simp only [decoded, secretMapFromPlain_ok, Option.some.injEq, exists_eq_left']
      constructor
      · rintro ⟨rfl, valid⟩
        exact ⟨rfl, valid⟩
      · rintro ⟨rfl, valid⟩
        exact ⟨rfl, valid⟩

/-- A call that fetched a map ended with a status. -/
lemma fetchSecrets_answered {json : ClientJson} {resp : Except UreqError HttpResponse}
    {m : SecretMap} (fetched : Api.fetchSecrets json resp = .ok m) : noStatus resp = false := by
  cases resp with
  | ok r => rfl
  | error e => cases fetched

lemma fetchSecrets_carries {outcome : CallOutcome} {m : SecretMap} {json : ClientJson} :
    Api.fetchSecrets json outcome.result = .ok m ↔ outcome.Carries json m := by
  constructor
  · intro fetched
    cases ended : outcome.result with
    | error e =>
      rw [ended] at fetched
      cases fetched
    | ok r =>
      rw [ended] at fetched
      exact ⟨r, result_ok.mp ended, fetchSecrets_ok.mp fetched⟩
  · rintro ⟨r, handed, carried⟩
    rw [result_ok.mpr handed]
    exact fetchSecrets_ok.mpr carried

/-- After any run, a read returns what the agent handed over, or, when the agent gave up, the map
last stored for its server, token and project while that is fresh and no write came since. What
the others do changes nothing that is loaded. -/
theorem getSecrets_over_runs (laws : c.Laws) {used : Set (Identity × String)}
    (distinct : NoCollisions c key used) (ops : List CacheOp)
    (covers : ∀ op ∈ ops, op.target ∈ used) (id : Identity) (project : String)
    (named : (id, project) ∈ used) :
    (∀ (outcome : CallOutcome) d m, (CachedApi.getSecrets c (some (id.cache c key)) outcome.result d
        project (cacheRun c key ops)).1 = .ok m ↔
      outcome.Carries c.toClientJson m ∨
      outcome.GivesUp ∧ ∃ createdAt now,
        LastPut (CacheOp.effect c key (id, project)) ops (m, createdAt) ∧ d.now = .ok now ∧
        Fresh createdAt.secs now) ∧
    ∀ op : CacheOp, op.target ∈ used → op.target ≠ (id, project) → ∀ clock,
      (id.cache c key).load c clock project (cacheRun c key (ops ++ [op])) =
        (id.cache c key).load c clock project (cacheRun c key ops) := by
  constructor
  · intro outcome d m
    have holds := holds_run laws distinct named ops covers
    have loads : (id.cache c key).load c d.now project (cacheRun c key ops) = .ok m ↔ _ :=
      load_slot laws holds
    rw [getSecrets_returns, fetchSecrets_carries, result_other]
    simp only [slot_eq_some_iff] at loads
    exact or_congr Iff.rfl (and_congr Iff.rfl loads)
  · intro op hop other clock
    have run : cacheRun c key (ops ++ [op]) = op.files c key (cacheRun c key ops) := by
      simp [cacheRun]
    rw [run]
    exact load_congr (files_other laws distinct hop named other _)

/-- The reader of project `app` at the server `s` under this token. -/
def reader (token : String) : Identity := ⟨"s", token⟩

def drawsAt (secs : UInt64) (inRange : secs.toNat < 2 ^ 63) : StoreDraws :=
  ⟨.ok ⟨secs, inRange⟩, .zero, none⟩

def answerWith (status : Nat) (m : SecretMap) : CallOutcome :=
  .answered status (fun _ => some (secretMapFrames m)) (.error (.other "no redirect"))

lemma thousand_inRange : (1000 : UInt64).toNat < 2 ^ 63 := by decide

/-- Two tokens read; one of them an hour later without the server. -/
def twoReads : List CacheOp :=
  [.getSecrets (reader "a") "app" (answerWith 200 (.ofList [("KEY", "v")]))
      (drawsAt 1000 thousand_inRange),
    .getSecrets (reader "b") "app" (answerWith 200 ∅) (drawsAt 2000 (by decide))]

lemma noCollisions_twoReads :
    NoCollisions framedClient [7] {(reader "a", "app"), (reader "b", "app")} where
  noNul := by
    rintro x (rfl | rfl) <;> decide
  tokens := by
    rintro x (rfl | rfl) y (rfl | rfl) <;> decide
  paths := by
    rintro x (rfl | rfl) y (rfl | rfl) <;> decide

theorem getSecrets_over_twoReads :
    (∀ (outcome : CallOutcome) d m, (CachedApi.getSecrets framedClient
        (some ((reader "a").cache framedClient [7])) outcome.result d "app"
        (cacheRun framedClient [7] twoReads)).1 = .ok m ↔
      outcome.Carries framedClient.toClientJson m ∨
      outcome.GivesUp ∧ ∃ createdAt now,
        LastPut (CacheOp.effect framedClient [7] (reader "a", "app")) twoReads (m, createdAt) ∧
        d.now = .ok now ∧ Fresh createdAt.secs now) ∧
    ∀ op : CacheOp, op.target ∈ ({(reader "a", "app"), (reader "b", "app")} : Set _) →
      op.target ≠ (reader "a", "app") → ∀ clock,
      ((reader "a").cache framedClient [7]).load framedClient clock "app"
          (cacheRun framedClient [7] (twoReads ++ [op])) =
        ((reader "a").cache framedClient [7]).load framedClient clock "app"
          (cacheRun framedClient [7] twoReads) :=
  getSecrets_over_runs framedClient_laws noCollisions_twoReads twoReads
    (by simp [twoReads, CacheOp.target]) (reader "a") "app" (by simp)

/-- A read of no secrets. -/
def emptyRead : CacheOp :=
  .getSecrets (reader "a") "app" (answerWith 200 ∅) (drawsAt 1000 thousand_inRange)

lemma answerWith_fetched {status : Nat} (low : 200 ≤ status) (high : status < 300) :
    Api.fetchSecrets framedClient.toClientJson (answerWith status ∅).result = .ok ∅ :=
  fetchSecrets_carries.mpr ⟨⟨status, fun _ => some (secretMapFrames ∅)⟩, .inl ⟨low, high, rfl⟩,
    ⟨_, rfl, secretMapRead_frames ∅⟩, by simp⟩

lemma emptyRead_slot : slot (CacheOp.effect framedClient [7] (reader "a", "app")) [emptyRead] =
    some (∅, ⟨1000, thousand_inRange⟩) := by
  have fetched := answerWith_fetched (show 200 ≤ 200 by decide) (by decide)
  have stored : emptyRead.stored framedClient [7] = some (∅, ⟨1000, thousand_inRange⟩) := by
    simp only [emptyRead, CacheOp.stored, fetched]
    rfl
  have effect : CacheOp.effect framedClient [7] (reader "a", "app") emptyRead =
      .put (∅, ⟨1000, thousand_inRange⟩) := by
    have target : emptyRead.target = (reader "a", "app") := rfl
    unfold CacheOp.effect
    rw [if_pos target, stored]
    rfl
  simp [slot, effect, Effect.apply]

/-- An answer of status 203 is taken like one of 200, and after a redirect without a target the
cache is read. -/
theorem getSecrets_beyond_200 :
    (¬ ∀ (outcome : CallOutcome) m,
      (CachedApi.getSecrets framedClient (some ((reader "a").cache framedClient [7]))
        outcome.result (drawsAt 1000 thousand_inRange) "app" (cacheRun framedClient [7] [])).1 =
          .ok m →
      (∃ readToVec elsewhere, outcome = .answered 200 readToVec elsewhere) ∨
        ∃ text, outcome = .failed text) ∧
    ¬ ∀ status readToVec elsewhere m,
      (CachedApi.getSecrets framedClient (some ((reader "a").cache framedClient [7]))
        (CallOutcome.answered status readToVec elsewhere).result (drawsAt 1000 thousand_inRange)
        "app" (cacheRun framedClient [7] [emptyRead])).1 = .ok m →
      Api.fetchSecrets framedClient.toClientJson
        (CallOutcome.answered status readToVec elsewhere).result = .ok m := by
  constructor
  · intro only
    have taken := answerWith_fetched (show 200 ≤ 203 by decide) (by decide)
    have returned := only (answerWith 203 ∅) ∅ (by rw [getSecrets_ok taken])
    simp [answerWith] at returned
  · intro never
    have holds : Holds framedClient [7] (reader "a", "app") (cacheRun framedClient [7] [emptyRead])
        (slot (CacheOp.effect framedClient [7] (reader "a", "app")) [emptyRead]) :=
      holds_run framedClient_laws noCollisions_twoReads (by simp) _
        (by simp [emptyRead, CacheOp.target])
    have loaded := (load_slot framedClient_laws holds).mpr
      ⟨_, ⟨1000, thousand_inRange⟩, emptyRead_slot, rfl, by decide⟩
    have returned := never 302 (fun _ => some []) (.error (.other "missing a location header")) ∅
      (getSecrets_returns.mpr (.inr ⟨⟨_, rfl⟩, loaded⟩))
    cases returned

end SecretsManager
