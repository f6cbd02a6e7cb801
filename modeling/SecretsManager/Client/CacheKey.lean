import SecretsManager.Client.PrivateFile

/-!
# The cache key

`load_or_create_cache_key` looks for the key file, and makes one if there is none.
Between the look and the renaming another process may have published a key of its own;
the renaming replaces it, and two processes are left with different keys. Where every
process that renames still finds no key file, all of them have the key in it.
-/

namespace SecretsManager

open AtomicReplace Transitions

structure CacheKey where
  bytes : Bytes
  length_eq : bytes.length = 32
  deriving DecidableEq

def keyFromSlice (bytes : Bytes) : Except ClientError CacheKey :=
  if h : bytes.length = 32 then .ok ⟨bytes, h⟩
  else .error (.cache "invalid cache key length")

/-- Where a call of `load_or_create_cache_key` stands. -/
inductive KeyPhase where
  | checking
  | generating
  | creating (w : Replacer UInt8 String)
  | loading (r : Reader UInt8 String)
  | killed
  deriving DecidableEq

variable {Key P : Type} [DecidableEq P] {c : ClientCrates Key}

/-- First runs on one cache directory: the keys they draw and their different suffixes. -/
structure KeyCallers (c : ClientCrates Key) (P : Type) where
  dir : String
  key : P → CacheKey
  suffix : P → Bytes
  distinct : Function.Injective suffix

structure KeyWorld (P : Type) where
  disk : Disk String UInt8
  phases : P → KeyPhase

/-- An empty directory. -/
def KeyWorld.start : KeyWorld P := ⟨.empty, fun _ => .checking⟩

variable (callers : KeyCallers c P)

def KeyCallers.path : String := callers.dir ++ "/cache-key"

def KeyCallers.tmp (p : P) : String :=
  randomTempSibling c.b64Encode callers.path (callers.suffix p)

namespace KeyWorld

def operation (p : P) (fate : Fate String) (disk : Disk String UInt8) :
    KeyPhase → Option (KeyPhase × Disk String UInt8)
  | .checking =>
    match fate, disk.entry callers.path with
    -- `exists` takes an error for absence
    | .fails _, _ => some (.generating, disk)
    | .goes _, none => some (.generating, disk)
    | .goes _, some _ => some (.loading .opening, disk)
  | .generating => some (.creating .starting, disk)
  | .creating w =>
    (w.step ioErrors callers.path (callers.tmp p) (callers.key p).bytes fate disk).map
      fun (w', disk') => (.creating w', disk')
  | .loading r => (r.step ioErrors callers.path fate disk).map fun r' => (.loading r', disk)
  | .killed => none

def ended : KeyPhase → Bool
  | .creating .finished => true
  | .creating (.failed ..) => true
  | .loading (.finished _) => true
  | .loading (.failed ..) => true
  | .killed => true
  | _ => false

def step (w : KeyWorld P) : P × CallStep → Option (KeyWorld P)
  | (p, .operation fate) =>
    (operation callers p fate w.disk (w.phases p)).map fun (phase, disk) =>
      ⟨disk, Function.update w.phases p phase⟩
  | (p, .kill) =>
    if ended (w.phases p) then none else some ⟨w.disk, Function.update w.phases p .killed⟩

/-- What a call has returned. An opened file that is refused counts as one that was not opened. -/
def returned (p : P) : KeyPhase → Option (Except ClientError CacheKey)
  | .creating .finished => some (.ok (callers.key p))
  | .creating (.failed stage e _) =>
    some (.error (privateFileError callers.dir callers.path (callers.tmp p) stage e))
  | .loading (.finished got) => some (keyFromSlice got)
  | .loading (.failed true e) => some (.error (.cache ("failed to read cache key: " ++ e)))
  | .loading (.failed false e) =>
    some (.error (.cache ("failed to open " ++ callers.path ++ ": " ++ e)))
  | _ => none

/-- Whoever gets to rename a key of its own finds no key file. -/
def FindsNoKey (w : KeyWorld P) : P × CallStep → Prop
  | (p, .operation (.goes _)) =>
    w.phases p = .creating .replacing → w.disk.entry callers.path = none
  | _ => True

instance (w : KeyWorld P) : ∀ s, Decidable (FindsNoKey callers w s)
  | (_, .operation (.goes _)) => inferInstanceAs (Decidable (_ → _))
  | (_, .operation (.fails _)) => .isTrue trivial
  | (_, .kill) => .isTrue trivial

end KeyWorld

/-! ## What one operation can do -/

inductive KeyWorld.Op (p : P) (disk : Disk String UInt8) :
    KeyPhase → KeyPhase → Disk String UInt8 → Prop
  | look (present : Bool) :
      Op p disk .checking (if present then .loading .opening else .generating) disk
  | generate : Op p disk .generating (.creating .starting) disk
  | write (w w' : Replacer UInt8 String) (disk' : Disk String UInt8)
      (op : Replacer.Op callers.path (callers.tmp p) (callers.key p).bytes disk w w' disk') :
      Op p disk (.creating w) (.creating w') disk'
  | read (r r' : Reader UInt8 String) (op : Reader.Op callers.path disk r r') :
      Op p disk (.loading r) (.loading r') disk
  | kill (phase : KeyPhase) : Op p disk phase .killed disk

section Steps

variable {callers} {w w' : KeyWorld P} {p : P} {a : CallStep}

open KeyWorld

/-- A step is one operation; a writer that finishes has been let through. -/
theorem KeyWorld.step_cases (stepped : KeyWorld.step callers w (p, a) = some w')
    (first : FindsNoKey callers w (p, a)) :
    ∃ phase disk, w' = ⟨disk, Function.update w.phases p phase⟩ ∧
      KeyWorld.Op callers p w.disk (w.phases p) phase disk ∧
      (w.phases p = .creating .replacing → phase = .creating .finished →
        w.disk.entry callers.path = none) := by
  cases a with
  | kill =>
      simp only [KeyWorld.step] at stepped
      split at stepped
      · cases stepped
      · cases stepped
        exact ⟨_, _, rfl, .kill _, nofun⟩
  | operation fate =>
      simp only [KeyWorld.step, Option.map_eq_some_iff] at stepped
      obtain ⟨⟨phase, disk⟩, ran, rfl⟩ := stepped
      refine ⟨phase, disk, rfl, ?_, ?_⟩
      · generalize w.phases p = before at ran
        cases before with
        | checking =>
            simp only [operation] at ran
            split at ran
            · cases ran
              exact .look false
            · cases ran
              exact .look false
            · cases ran
              exact .look true
        | generating =>
            cases ran
            exact .generate
        | creating wr =>
            simp only [operation, Option.map_eq_some_iff] at ran
            obtain ⟨⟨wr', disk'⟩, moved, same⟩ := ran
            cases same
            exact .write _ _ _ (Replacer.step_cases moved)
        | loading r =>
            simp only [operation, Option.map_eq_some_iff] at ran
            obtain ⟨r', moved, same⟩ := ran
            cases same
            exact .read _ _ (Reader.step_cases moved)
        | killed => cases ran
      · intro replacing finished
        cases fate with
        | goes n => exact first replacing
        | fails e =>
            rw [replacing, finished] at ran
            cases ran

/-! ## The invariant of a run -/

def KeyPhase.hold (key : Bytes) : KeyPhase → Hold UInt8
  | .creating w => w.hold key
  | .loading r => r.hold
  | _ => .nothing

def KeyWorld.holds (callers : KeyCallers c P) (w : KeyWorld P) (p : P) : Hold UInt8 :=
  (w.phases p).hold (callers.key p).bytes

def KeyCallers.names (callers : KeyCallers c P) (laws : c.Laws) : Names P String :=
  siblingNames c laws callers.path callers.suffix callers.distinct

/-- The bytes of one of the keys drawn. -/
def KeyCallers.Drawn (callers : KeyCallers c P) (b : Bytes) : Prop := ∃ p, b = (callers.key p).bytes

/-- Readers have the published file open, and what was returned stands in it. -/
structure KeyInv (laws : c.Laws) (callers : KeyCallers c P) (w : KeyWorld P) : Prop where
  files : AtomicReplace.Inv (callers.names laws) callers.Drawn w.disk (w.holds callers)
  readers : ∀ p f got, w.phases p = .loading (.reading f got) →
    w.disk.entry callers.path = some f
  published : ∀ p k, returned callers p (w.phases p) = some (.ok k) →
    w.disk.content callers.path = some k.bytes

variable {laws : c.Laws}

omit [DecidableEq P] in
lemma KeyInv.initial : KeyInv laws callers .start := by
  constructor
  · exact Inv.initial (fun b stands => nomatch stands) fun _ => rfl
  · exact fun _ _ _ reading => nomatch reading
  · exact fun _ _ returned => nomatch returned

lemma holds_update (phase : KeyPhase) (disk : Disk String UInt8) :
    KeyWorld.holds callers ⟨disk, Function.update w.phases p phase⟩ =
      Function.update (w.holds callers) p (phase.hold (callers.key p).bytes) := by
  funext q
  by_cases self : q = p
  · subst self
    simp only [KeyWorld.holds, Function.update_self]
  · simp only [KeyWorld.holds, Function.update_of_ne self]

/-- A process moves, and a published key stays where it is. -/
lemma KeyInv.advance (inv : KeyInv laws callers w) {phase : KeyPhase} {disk : Disk String UInt8}
    (files : AtomicReplace.Inv (callers.names laws) callers.Drawn disk
      (Function.update (w.holds callers) p (phase.hold (callers.key p).bytes)))
    (stays : ∀ f, w.disk.entry callers.path = some f →
      disk.entry callers.path = some f ∧ disk.bytes f = w.disk.bytes f)
    (reader : ∀ f got, phase = .loading (.reading f got) → disk.entry callers.path = some f)
    (own : ∀ k, returned callers p phase = some (.ok k) →
      disk.content callers.path = some k.bytes) :
    KeyInv laws callers ⟨disk, Function.update w.phases p phase⟩ := by
  constructor
  · rw [holds_update]
    exact files
  · intro q f got reading
    by_cases self : q = p
    · subst self
      exact reader f got (by simpa only [Function.update_self] using reading)
    · simp only [Function.update_of_ne self] at reading
      exact (stays f (inv.readers q f got reading)).1
  · intro q k ok
    by_cases self : q = p
    · subst self
      exact own k (by simpa only [Function.update_self] using ok)
    · simp only [Function.update_of_ne self] at ok
      have before := inv.published q k ok
      obtain ⟨f, stands, bytes⟩ := Option.map_eq_some_iff.mp before
      obtain ⟨still, same⟩ := stays f stands
      rw [Disk.content, still]
      exact congrArg some (same.trans bytes)

theorem KeyInv.step (inv : KeyInv laws callers w)
    (stepped : KeyWorld.step callers w (p, a) = some w')
    (first : FindsNoKey callers w (p, a)) : KeyInv laws callers w' := by
  obtain ⟨phase, disk, rfl, op, absent⟩ := KeyWorld.step_cases stepped first
  have holds : w.holds callers p = (w.phases p).hold (callers.key p).bytes := rfl
  have readers := inv.readers p
  generalize w.phases p = before at op holds absent readers
  cases op with
  | look present =>
      cases present with
      | true => exact inv.advance inv.files.release (fun _ stands => ⟨stands, rfl⟩) nofun nofun
      | false => exact inv.advance inv.files.release (fun _ stands => ⟨stands, rfl⟩) nofun nofun
  | generate => exact inv.advance inv.files.release (fun _ stands => ⟨stands, rfl⟩) nofun nofun
  | kill => exact inv.advance inv.files.release (fun _ stands => ⟨stands, rfl⟩) nofun nofun
  | write wr wr' _ op =>
      have op : Replacer.Op (callers.names laws).path ((callers.names laws).tmp p)
        (callers.key p).bytes w.disk wr wr' disk := op
      apply inv.advance (op.preserves inv.files ⟨p, rfl⟩ holds)
      · intro f stands
        constructor
        · rcases op.public_entry with ⟨_, same⟩ | ⟨rfl, rfl⟩
          · exact same.trans stands
          · cases (absent rfl rfl).symm.trans stands
        · exact op.bytes holds (inv.files.published f stands).1
      · nofun
      · intro k ok
        cases wr' with
        | finished =>
            cases ok
            rcases op.content inv.files holds with ⟨unfinished, _⟩ | ⟨_, _, now⟩
            · exact absurd rfl unfinished
            · exact now
        | _ => cases ok
  | read r r' op =>
      have op : Reader.Op (callers.names laws).path w.disk r r' := op
      apply inv.advance (op.preserves inv.files holds) fun _ stands => ⟨stands, rfl⟩
      · rintro f got ⟨⟩
        cases op with
        | «open» _ stands => exact stands
        | read _ before _ pre => exact readers f before rfl
      · intro k ok
        cases r' with
        | finished got =>
            obtain ⟨f, _, rfl, whole, _⟩ := op.finished inv.files holds
            have stands := readers f _ rfl
            simp only [returned, keyFromSlice, Option.some.injEq] at ok
            split at ok
            · cases ok
              rw [Disk.content, stands]
              exact congrArg some whole.symm
            · cases ok
        | failed opened e => cases opened <;> cases ok
        | _ => cases ok

theorem KeyInv.run {steps : List (P × CallStep)} (inv : KeyInv laws callers w)
    (first : Allowed (KeyWorld.step callers) (FindsNoKey callers) w steps)
    (ran : Transitions.run (KeyWorld.step callers) w steps = some w') : KeyInv laws callers w' := by
  apply run_preserves _ first ran inv
  rintro s ⟨p, a⟩ t inv ok stepped
  exact inv.step stepped ok

/-- A call that has returned takes no step. -/
lemma KeyWorld.ended_stuck (done : ended (w.phases p) = true) :
    KeyWorld.step callers w (p, a) = none := by
  cases a with
  | kill => simp only [KeyWorld.step, done, if_true]
  | operation fate =>
      have stuck : operation callers p fate w.disk (w.phases p) = none := by
        generalize w.phases p = phase at done
        cases phase with
        | creating wr =>
            cases wr with
            | finished => rfl
            | failed stage e cleaned => rfl
            | _ => cases done
        | loading r =>
            cases r with
            | finished got => rfl
            | failed opened e => rfl
            | _ => cases done
        | killed => rfl
        | _ => cases done
      simp only [KeyWorld.step, stuck, Option.map_none]

lemma KeyWorld.step_other {q : P} (stepped : KeyWorld.step callers w (q, a) = some w')
    (other : p ≠ q) : w'.phases p = w.phases p := by
  cases a with
  | kill =>
      simp only [KeyWorld.step] at stepped
      split at stepped
      · cases stepped
      · cases stepped
        exact Function.update_of_ne other _ _
  | operation fate =>
      simp only [KeyWorld.step, Option.map_eq_some_iff] at stepped
      obtain ⟨_, _, rfl⟩ := stepped
      exact Function.update_of_ne other _ _

lemma KeyWorld.ended_stays {steps : List (P × CallStep)} (done : ended (w.phases p) = true)
    (ran : Transitions.run (KeyWorld.step callers) w steps = some w') :
    w'.phases p = w.phases p := by
  apply run_ended Prod.fst KeyWorld.phases (fun phase => ended phase = true) _ _ done ran
  · exact fun u ⟨q, a⟩ done => ended_stuck done
  · exact fun u ⟨q, a⟩ v p stepped other => step_other stepped other

omit [DecidableEq P] in
lemma returned_ended {phase : KeyPhase} {r : Except ClientError CacheKey}
    (ok : returned callers p phase = some r) : ended phase = true := by
  cases phase with
  | creating wr =>
      cases wr with
      | finished => rfl
      | failed stage e cleaned => rfl
      | _ => cases ok
  | loading r =>
      cases r with
      | finished got => rfl
      | failed opened e => rfl
      | _ => cases ok
  | _ => cases ok

end Steps

variable {callers}

/-- Where nobody renames a key over another's, every call that succeeds has the key that stands in
the file from then on, and what one of them stores the others load until it expires. -/
theorem cache_key_agreed (laws : c.Laws) {steps : List (P × CallStep)} {w : KeyWorld P}
    (first : Allowed (KeyWorld.step callers) (KeyWorld.FindsNoKey callers) .start steps)
    (ran : run (KeyWorld.step callers) .start steps = some w) :
    (∀ before after u p k, steps = before ++ after →
      run (KeyWorld.step callers) .start before = some u →
      KeyWorld.returned callers p (u.phases p) = some (.ok k) →
      w.disk.content callers.path = some k.bytes) ∧
    ∀ p q k k', KeyWorld.returned callers p (w.phases p) = some (.ok k) →
      KeyWorld.returned callers q (w.phases q) = some (.ok k') →
      k = k' ∧ ∀ (fromBytes : CacheKey → Key) (id : Identity) d project secrets data files clock m,
        (id.cache c (fromBytes k)).entry c d project secrets = .ok data →
        (∀ key ∈ secrets, validSecretKey key = true) →
        files ((id.cache c (fromBytes k)).cachePath c project) = some data →
        ((id.cache c (fromBytes k')).load c clock project files = .ok m ↔
          m = secrets ∧ ∃ createdAt now, d.now = .ok createdAt ∧ clock = .ok now ∧
            Fresh createdAt.secs now) := by
  have inv : KeyInv laws callers w := KeyInv.initial.run first ran
  constructor
  · rintro before after u p k rfl reached ok
    rw [run_append, reached] at ran
    apply inv.published p
    rw [KeyWorld.ended_stays (returned_ended ok) ran]
    exact ok
  · intro p q k k' ok ok'
    have same : k = k' := by
      have stands := inv.published p k ok
      have bytes : k.bytes = k'.bytes := Option.some.inj (stands.symm.trans (inv.published q k' ok'))
      cases k
      cases k'
      cases bytes
      rfl
    subst same
    refine ⟨rfl, ?_⟩
    intro fromBytes id d project secrets data files clock m written valid file
    exact load_entry laws written valid file

/-! ## Two first runs -/

/-- Each draws thirty-two times its own byte. -/
def twoCallers : KeyCallers framedClient Bool where
  dir := "cache"
  key b := ⟨List.replicate 32 (if b then 1 else 0), by simp⟩
  suffix b := [if b then 1 else 0]
  distinct := oneByte_injective

/-- One after the other. -/
def firstThenSecond : List (Bool × CallStep) :=
  List.replicate 8 (true, .operation (.goes 100)) ++ List.replicate 4 (false, .operation (.goes 100))

/-- Both look before either publishes. -/
def bothFirst : List (Bool × CallStep) :=
  [(true, .operation (.goes 0)), (false, .operation (.goes 0))] ++
    List.replicate 7 (true, .operation (.goes 100)) ++ List.replicate 7 (false, .operation (.goes 100))

theorem cache_key_agreed_firstThenSecond :
    ∃ w, run (KeyWorld.step twoCallers) .start firstThenSecond = some w ∧
      KeyWorld.returned twoCallers true (w.phases true) = some (.ok (twoCallers.key true)) ∧
      KeyWorld.returned twoCallers false (w.phases false) = some (.ok (twoCallers.key true)) ∧
      w.disk.content twoCallers.path = some (twoCallers.key true).bytes := by
  have ends : (run (KeyWorld.step twoCallers) .start firstThenSecond).map (fun w =>
      (KeyWorld.returned twoCallers true (w.phases true),
        KeyWorld.returned twoCallers false (w.phases false))) =
      some (some (.ok (twoCallers.key true)), some (.ok (twoCallers.key true))) := by
    decide +kernel
  have first : Allowed (KeyWorld.step twoCallers) (KeyWorld.FindsNoKey twoCallers) .start
      firstThenSecond := by
    apply allowed_of_allows
    decide +kernel
  obtain ⟨w, ran, same⟩ := Option.map_eq_some_iff.mp ends
  obtain ⟨ok, ok'⟩ := Prod.mk.inj same
  refine ⟨w, ran, ok, ok', ?_⟩
  exact (cache_key_agreed framedClient_laws first ran).1 firstThenSecond [] w true _
    (List.append_nil _).symm ran ok

theorem racing_first_runs_disagree :
    ∃ w, run (KeyWorld.step twoCallers) .start bothFirst = some w ∧
      KeyWorld.returned twoCallers true (w.phases true) = some (.ok (twoCallers.key true)) ∧
      KeyWorld.returned twoCallers false (w.phases false) = some (.ok (twoCallers.key false)) ∧
      twoCallers.key true ≠ twoCallers.key false ∧
      w.disk.content twoCallers.path = some (twoCallers.key false).bytes := by
  have ends : (run (KeyWorld.step twoCallers) .start bothFirst).map (fun w =>
      (KeyWorld.returned twoCallers true (w.phases true),
        KeyWorld.returned twoCallers false (w.phases false), w.disk.content twoCallers.path)) =
      some (some (.ok (twoCallers.key true)), some (.ok (twoCallers.key false)),
        some (twoCallers.key false).bytes) := by
    decide +kernel
  obtain ⟨w, ran, same⟩ := Option.map_eq_some_iff.mp ends
  obtain ⟨ok, rest⟩ := Prod.mk.inj same
  obtain ⟨ok', content⟩ := Prod.mk.inj rest
  exact ⟨w, ran, ok, ok', by decide, content⟩

end SecretsManager
