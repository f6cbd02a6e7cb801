import SecretsManager.Lib.AtomicReplace
import SecretsManager.Lib.Transitions
import SecretsManager.Client.CacheRuns

/-!
# Private files

`write_private_file` operation by operation, and the calls on one cache entry that
any number of processes make at once. Every operation may fail and every process may
be killed between two of them. The entry is absent or holds the bytes of one store,
and a store that fails has not touched it.
-/

namespace SecretsManager

open AtomicReplace Transitions

/-! ## The operations -/

/-- Nobody else's, as long as the suffixes drawn are different. -/
def randomTempSibling (b64Encode : Bytes → String) (path : String) (suffix : Bytes) : String :=
  path ++ ("." ++ b64Encode suffix ++ ".tmp")

def ioErrors : NameErrors String where
  taken := "File exists (os error 17)"
  absent := "No such file or directory (os error 2)"

/-- The error of a `write_private_file` that fails at this operation. -/
def privateFileError (dir path tmp : String) : Stage → String → ClientError
  | .directory, e => .cache ("failed to create directory at " ++ dir ++ ": " ++ e)
  | .opening, e => .cache ("failed to open " ++ tmp ++ ": " ++ e)
  | .writing, e => .cache ("failed to write " ++ tmp ++ ": " ++ e)
  | .flushing, e => .cache ("failed to flush " ++ tmp ++ ": " ++ e)
  | .replacing, e => .cache ("failed to replace " ++ path ++ ": " ++ e)

variable {Key P : Type} (c : ClientCrates Key)

/-- One file of the cache directory and its temporary siblings. -/
def siblingNames (laws : c.Laws) (path : String) (suffix : P → Bytes)
    (distinct : Function.Injective suffix) : Names P String where
  path := path
  tmp p := randomTempSibling c.b64Encode path (suffix p)
  distinct := by
    intro p q same
    have encoded : c.b64Encode (suffix p) = c.b64Encode (suffix q) := by
      simpa only [randomTempSibling, String.append_right_inj, String.append_left_inj] using same
    have decoded := congrArg c.b64Decode encoded
    rw [laws.base64, laws.base64] at decoded
    exact distinct (Except.ok.inj decoded)
  apart := by
    intro p same
    have lengths := congrArg String.length same
    simp only [randomTempSibling, String.length_append] at lengths
    have dot : ".".length = 1 := rfl
    omega

/-! ## Calls on one entry -/

/-- One call of one process, with what it draws. -/
inductive EntryCall (Key : Type) where
  | store (cache : CacheStore Key) (project : String) (secrets : SecretMap) (d : StoreDraws)
  | load (cache : CacheStore Key) (project : String) (clock : Except String UnixTime)
  | remove (cache : CacheStore Key) (project : String)

/-- The file in the cache directory that the call is about. -/
def EntryCall.path (dir : String) : EntryCall Key → String
  | store cache project _ _ => dir ++ "/" ++ cache.cachePath c project
  | load cache project _ => dir ++ "/" ++ cache.cachePath c project
  | remove cache project => dir ++ "/" ++ cache.cachePath c project

/-- Where a call stands. A store that cannot make its bytes does not get to the file. -/
inductive CallPhase where
  | ready
  | refused (e : ClientError)
  | storing (data : Bytes) (w : Replacer UInt8 String)
  | loading (r : Reader UInt8 String)
  | removed
  | killed

/-- Calls on one entry that run at once, their random suffixes all different. -/
structure EntryCalls (P : Type) where
  dir : String
  path : String
  call : P → EntryCall Key
  suffix : P → Bytes
  same : ∀ p, (call p).path c dir = path
  distinct : Function.Injective suffix

structure EntryWorld (P : Type) where
  disk : Disk String UInt8
  phases : P → CallPhase

inductive CallStep where
  | operation (fate : Fate String)
  | kill

variable [DecidableEq P] {c} (calls : EntryCalls c P)

def EntryCalls.tmp (p : P) : String := randomTempSibling c.b64Encode calls.path (calls.suffix p)

namespace EntryWorld

/-- One operation of a call, if it has not ended. -/
def operation (p : P) (fate : Fate String) (disk : Disk String UInt8) :
    CallPhase → Option (CallPhase × Disk String UInt8)
  | .ready =>
    match calls.call p with
    | .store cache project secrets d =>
      match cache.entry c d project secrets with
      | .error e => some (.refused e, disk)
      | .ok data => some (.storing data .starting, disk)
    | .load .. => some (.loading .opening, disk)
    | .remove .. =>
      match fate with
      | .fails _ => some (.removed, disk)
      | .goes _ => some (.removed, disk.remove calls.path)
  | .storing data w =>
    (w.step ioErrors calls.path (calls.tmp p) data fate disk).map fun (w', disk') =>
      (.storing data w', disk')
  | .loading r => (r.step ioErrors calls.path fate disk).map fun r' => (.loading r', disk)
  | _ => none

/-- The call has returned, or its process is gone. -/
def ended : CallPhase → Bool
  | .ready => false
  | .refused _ => true
  | .storing _ .finished => true
  | .storing _ (.failed ..) => true
  | .storing _ _ => false
  | .loading (.finished _) => true
  | .loading (.failed ..) => true
  | .loading _ => false
  | .removed => true
  | .killed => true

def step (w : EntryWorld P) : P × CallStep → Option (EntryWorld P)
  | (p, .operation fate) => (operation calls p fate w.disk (w.phases p)).map fun (phase, disk) =>
      ⟨disk, Function.update w.phases p phase⟩
  | (p, .kill) =>
    if ended (w.phases p) then none else some ⟨w.disk, Function.update w.phases p .killed⟩

/-- What a store has returned. -/
def stored (w : EntryWorld P) (p : P) : Option (Except ClientError Unit) :=
  match w.phases p with
  | .refused e => some (.error e)
  | .storing _ .finished => some (.ok ())
  | .storing _ (.failed stage e _) =>
    some (.error (privateFileError calls.dir calls.path (calls.tmp p) stage e))
  | _ => none

/-- What a load has returned. -/
def loaded (w : EntryWorld P) (p : P) : Option (Except ClientError SecretMap) :=
  match calls.call p, w.phases p with
  | .load cache project clock, .loading (.finished got) =>
    some (cache.load c clock project fun _ => some got)
  | .load .., .loading (.failed _ e) => some (.error (.cache ("failed to read cache: " ++ e)))
  | _, _ => none

/-- The store failed, and then its cleanup did. -/
def leftBehind (w : EntryWorld P) (p : P) : Prop :=
  ∃ data stage e, w.phases p = .storing data (.failed stage e false)

end EntryWorld

/-! ## What one operation can do -/

/-- The bytes that the store of this call writes. -/
def EntryCalls.Writes (p : P) (data : Bytes) : Prop :=
  ∃ cache project secrets d, calls.call p = .store cache project secrets d ∧
    cache.entry c d project secrets = .ok data

inductive EntryWorld.Op (p : P) (disk : Disk String UInt8) :
    CallPhase → CallPhase → Disk String UInt8 → Prop
  | refuse (e : ClientError) : Op p disk .ready (.refused e) disk
  | start (data : Bytes) (own : calls.Writes p data) :
      Op p disk .ready (.storing data .starting) disk
  | write (data : Bytes) (w w' : Replacer UInt8 String) (disk' : Disk String UInt8)
      (op : Replacer.Op calls.path (calls.tmp p) data disk w w' disk') :
      Op p disk (.storing data w) (.storing data w') disk'
  | open : Op p disk .ready (.loading .opening) disk
  | read (r r' : Reader UInt8 String) (op : Reader.Op calls.path disk r r') :
      Op p disk (.loading r) (.loading r') disk
  | remove : Op p disk .ready .removed (disk.remove calls.path)
  | keep : Op p disk .ready .removed disk
  | kill (phase : CallPhase) (running : EntryWorld.ended phase = false) :
      Op p disk phase .killed disk

section Steps

variable {calls} {laws : c.Laws} {d₀ : Disk String UInt8} {w w' : EntryWorld P} {p : P}
  {a : CallStep}

open EntryWorld

theorem EntryWorld.step_cases (stepped : step calls w (p, a) = some w') :
    ∃ phase disk, w' = ⟨disk, Function.update w.phases p phase⟩ ∧
      EntryWorld.Op calls p w.disk (w.phases p) phase disk := by
  cases a with
  | kill =>
      simp only [step] at stepped
      split at stepped
      · cases stepped
      · rename_i running
        cases stepped
        exact ⟨_, _, rfl, .kill _ (eq_false_of_ne_true running)⟩
  | operation fate =>
      simp only [step, Option.map_eq_some_iff] at stepped
      obtain ⟨⟨phase, disk⟩, ran, rfl⟩ := stepped
      refine ⟨phase, disk, rfl, ?_⟩
      cases before : w.phases p with
      | ready =>
          simp only [before, operation] at ran
          cases called : calls.call p with
          | store cache project secrets d =>
              simp only [called] at ran
              cases entry : cache.entry c d project secrets with
              | error e =>
                  simp only [entry] at ran
                  cases ran
                  exact .refuse e
              | ok data =>
                  simp only [entry] at ran
                  cases ran
                  exact .start data ⟨_, _, _, _, called, entry⟩
          | load cache project clock =>
              simp only [called] at ran
              cases ran
              exact .open
          | remove cache project =>
              simp only [called] at ran
              cases fate with
              | fails e =>
                  cases ran
                  exact .keep
              | goes n =>
                  cases ran
                  exact .remove
      | storing data wr =>
          simp only [before, operation, Option.map_eq_some_iff] at ran
          obtain ⟨⟨wr', disk'⟩, moved, same⟩ := ran
          cases same
          exact .write _ _ _ _ (Replacer.step_cases moved)
      | loading r =>
          simp only [before, operation, Option.map_eq_some_iff] at ran
          obtain ⟨r', moved, same⟩ := ran
          cases same
          exact .read _ _ (Reader.step_cases moved)
      | refused e => cases before ▸ ran
      | removed => cases before ▸ ran
      | killed => cases before ▸ ran

/-! ## The invariant of a run -/

def CallPhase.hold : CallPhase → Hold UInt8
  | .storing data w => w.hold data
  | .loading r => r.hold
  | _ => .nothing

/-- What stood at the entry before, or the bytes of one of the stores. -/
def EntryCalls.Complete (calls : EntryCalls c P) (d₀ : Disk String UInt8) (b : Bytes) : Prop :=
  d₀.content calls.path = some b ∨ ∃ p, calls.Writes p b

/-- What stands under the temporary name, in terms of what stood there before. -/
def Tidy (before now : Option Nat) : CallPhase → Prop
  | .ready => now = before
  | .refused _ => now = before
  | .storing _ .starting => now = before
  | .storing _ .opening => now = before
  | .storing _ .finished => now = none
  | .storing _ (.failed _ _ true) => now = none ∨ now = before
  | _ => True

structure EntryInv (laws : c.Laws) (calls : EntryCalls c P) (d₀ : Disk String UInt8)
    (w : EntryWorld P) : Prop where
  files : AtomicReplace.Inv (siblingNames c laws calls.path calls.suffix calls.distinct)
    (calls.Complete d₀) w.disk (CallPhase.hold ∘ w.phases)
  own : ∀ p data wr, w.phases p = .storing data wr → calls.Writes p data
  reads : ∀ p got, w.phases p = .loading (.finished got) → calls.Complete d₀ got
  tidy : ∀ p, Tidy (d₀.entry (calls.tmp p)) (w.disk.entry (calls.tmp p)) (w.phases p)

omit [DecidableEq P] in
lemma EntryInv.initial : EntryInv laws calls d₀ ⟨d₀, fun _ => .ready⟩ := by
  constructor
  · exact Inv.initial (fun b stands => Or.inl stands) fun _ => rfl
  · exact fun _ _ _ busy => nomatch busy
  · exact fun _ _ busy => nomatch busy
  · exact fun _ => rfl

/-- A call that moves and touches no temporary name but its own. -/
lemma EntryInv.advance (inv : EntryInv laws calls d₀ w) {phase : CallPhase}
    {disk : Disk String UInt8}
    (files : AtomicReplace.Inv (siblingNames c laws calls.path calls.suffix calls.distinct)
      (calls.Complete d₀) disk (Function.update (CallPhase.hold ∘ w.phases) p phase.hold))
    (own : ∀ data wr, phase = .storing data wr → calls.Writes p data)
    (reads : ∀ got, phase = .loading (.finished got) → calls.Complete d₀ got)
    (tidy : Tidy (d₀.entry (calls.tmp p)) (disk.entry (calls.tmp p)) phase)
    (others : ∀ q, q ≠ p → disk.entry (calls.tmp q) = w.disk.entry (calls.tmp q)) :
    EntryInv laws calls d₀ ⟨disk, Function.update w.phases p phase⟩ := by
  constructor
  · simp only [Function.comp_update]
    exact files
  · intro q data wr busy
    by_cases self : q = p
    · subst self
      exact own data wr (by simpa only [Function.update_self] using busy)
    · exact inv.own q data wr (by simpa only [Function.update_of_ne self] using busy)
  · intro q got ended
    by_cases self : q = p
    · subst self
      exact reads got (by simpa only [Function.update_self] using ended)
    · exact inv.reads q got (by simpa only [Function.update_of_ne self] using ended)
  · intro q
    by_cases self : q = p
    · subst self
      simpa only [Function.update_self] using tidy
    · simp only [Function.update_of_ne self, others q self]
      exact inv.tidy q

lemma Replacer.tidy {data : Bytes} {wr wr' : Replacer UInt8 String} {d d' : Disk String UInt8}
    {path tmp : String} {before : Option Nat} (op : Replacer.Op path tmp data d wr wr' d')
    (tidy : Tidy before (d.entry tmp) (.storing data wr)) :
    Tidy before (d'.entry tmp) (.storing data wr') := by
  cases op with
  | begin => exact tidy
  | refuse e => exact Or.inr tidy
  | create absent => trivial
  | append f chunk rest => trivial
  | settle f => trivial
  | flush => trivial
  | publish => exact Function.update_self ..
  | spoil _ stage e => trivial
  | clean stage e => exact Or.inl (Function.update_self ..)
  | leave stage e => trivial

theorem EntryInv.step (inv : EntryInv laws calls d₀ w) (stepped : step calls w (p, a) = some w') :
    EntryInv laws calls d₀ w' := by
  obtain ⟨phase, disk, rfl, op⟩ := step_cases stepped
  have tidy := inv.tidy p
  have holds : (CallPhase.hold ∘ w.phases) p = (w.phases p).hold := rfl
  have own := inv.own p
  have distinct : ∀ q, q ≠ p → calls.tmp q ≠ calls.tmp p := by
    intro q other same
    exact other ((siblingNames c laws calls.path calls.suffix calls.distinct).distinct same)
  have apart : ∀ q, calls.tmp q ≠ calls.path := by
    intro q same
    exact (siblingNames c laws calls.path calls.suffix calls.distinct).apart q same.symm
  generalize w.phases p = before at op tidy holds own
  cases op with
  | refuse e => exact inv.advance inv.files.release nofun nofun tidy fun _ _ => rfl
  | start data mine =>
      apply inv.advance inv.files.release
      · rintro _ _ ⟨⟩
        exact mine
      · nofun
      · exact tidy
      · exact fun _ _ => rfl
  | write data wr wr' _ op =>
      have mine := own data wr rfl
      apply inv.advance (op.preserves inv.files (Or.inr ⟨p, mine⟩) holds)
      · rintro _ _ ⟨⟩
        exact mine
      · nofun
      · exact Replacer.tidy op tidy
      · exact fun q other => op.entry (apart q) (distinct q other)
  | «open» => exact inv.advance inv.files.release nofun nofun trivial fun _ _ => rfl
  | read r r' op =>
      apply inv.advance (op.preserves inv.files holds)
      · nofun
      · rintro got ⟨⟩
        obtain ⟨_, _, _, _, complete⟩ := op.finished inv.files holds
        exact complete
      · trivial
      · exact fun _ _ => rfl
  | remove =>
      apply inv.advance (inv.files.remove (Or.inl rfl))
      · nofun
      · nofun
      · trivial
      · exact fun q _ => Function.update_of_ne (apart q) _ _
  | keep => exact inv.advance inv.files.release nofun nofun trivial fun _ _ => rfl
  | kill => exact inv.advance inv.files.release nofun nofun trivial fun _ _ => rfl

theorem EntryInv.run {steps : List (P × CallStep)} (inv : EntryInv laws calls d₀ w)
    (ran : Transitions.run (EntryWorld.step calls) w steps = some w') :
    EntryInv laws calls d₀ w' := by
  apply run_always _ ran inv
  rintro s ⟨p, a⟩ t inv stepped
  exact inv.step stepped

/-! ## Who changes the entry -/

/-- A step changes the entry to all the bytes of the store that ends with it, or removes it. -/
theorem EntryInv.content (inv : EntryInv laws calls d₀ w)
    (stepped : EntryWorld.step calls w (p, a) = some w') :
    w'.disk.content calls.path = w.disk.content calls.path ∨
      (∃ data, calls.Writes p data ∧ w'.phases p = .storing data .finished ∧
        w'.disk.content calls.path = some data) ∨
      w'.phases p = .removed ∧ w'.disk.content calls.path = none := by
  obtain ⟨phase, disk, rfl, op⟩ := step_cases stepped
  have holds : (CallPhase.hold ∘ w.phases) p = (w.phases p).hold := rfl
  have own := inv.own p
  simp only [Function.update_self]
  generalize w.phases p = before at op holds own
  cases op with
  | write data wr wr' _ op =>
      have mine := own data wr rfl
      rcases op.content inv.files holds with ⟨_, same⟩ | ⟨rfl, rfl, now⟩
      · exact Or.inl same
      · exact Or.inr (Or.inl ⟨data, mine, rfl, now⟩)
  | remove =>
      apply Or.inr
      apply Or.inr
      constructor
      · rfl
      · simp only [Disk.content, Disk.remove, Function.update_self, Option.map_none]
  | refuse e => exact Or.inl rfl
  | start data mine => exact Or.inl rfl
  | «open» => exact Or.inl rfl
  | read r r' op => exact Or.inl rfl
  | keep => exact Or.inl rfl
  | kill => exact Or.inl rfl

/-- A call that has ended takes no step. -/
lemma EntryWorld.ended_stuck (done : ended (w.phases p) = true) :
    EntryWorld.step calls w (p, a) = none := by
  cases a with
  | kill => simp only [EntryWorld.step, done, if_true]
  | operation fate =>
      have stuck : operation calls p fate w.disk (w.phases p) = none := by
        generalize w.phases p = phase at done
        cases phase with
        | ready => cases done
        | storing data wr =>
            cases wr with
            | finished => rfl
            | failed stage e cleaned => rfl
            | _ => cases done
        | loading r =>
            cases r with
            | finished got => rfl
            | failed opened e => rfl
            | _ => cases done
        | _ => rfl
      simp only [EntryWorld.step, stuck, Option.map_none]

lemma EntryWorld.ended_stays {steps : List (P × CallStep)} (done : ended (w.phases p) = true)
    (ran : Transitions.run (EntryWorld.step calls) w steps = some w') :
    w'.phases p = w.phases p := by
  apply run_ended Prod.fst EntryWorld.phases (fun phase => ended phase = true) _ _ done ran
  · exact fun u ⟨q, a⟩ done => ended_stuck done
  · rintro u ⟨q, a⟩ v p stepped other
    obtain ⟨phase, disk, rfl, _⟩ := step_cases stepped
    exact Function.update_of_ne other _ _

/-- The operations of a store that fails leave the entry as they find it. -/
lemma EntryInv.failed_content (inv : EntryInv laws calls d₀ w) {steps : List (P × CallStep)}
    {v : EntryWorld P} {e : ClientError} (stepped : EntryWorld.step calls w (p, a) = some v)
    (ran : Transitions.run (EntryWorld.step calls) v steps = some w')
    (failed : w'.stored calls p = some (.error e)) :
    v.disk.content calls.path = w.disk.content calls.path := by
  rcases inv.content stepped with same | ⟨data, _, finished, _⟩ | ⟨removed, _⟩
  · exact same
  · have last : w'.phases p = .storing data .finished := by
      rw [← finished]
      apply ended_stays _ ran
      rw [finished]
      rfl
    simp only [stored, last] at failed
    cases failed
  · have last : w'.phases p = .removed := by
      rw [← removed]
      apply ended_stays _ ran
      rw [removed]
      rfl
    simp only [stored, last] at failed
    cases failed

omit [DecidableEq P] in
/-- A store that failed and cleaned up leaves nothing of its own. -/
lemma EntryInv.failed_tidy (inv : EntryInv laws calls d₀ w) {e : ClientError}
    (failed : w.stored calls p = some (.error e)) (cleaned : ¬ w.leftBehind p) :
    w.disk.entry (calls.tmp p) = none ∨
      w.disk.entry (calls.tmp p) = d₀.entry (calls.tmp p) := by
  have tidy := inv.tidy p
  unfold stored at failed
  unfold leftBehind at cleaned
  generalize w.phases p = phase at tidy failed cleaned
  cases phase with
  | refused e => exact Or.inr tidy
  | storing data wr =>
      cases wr with
      | failed stage e ok =>
          cases ok with
          | true => exact tidy
          | false => exact absurd ⟨data, stage, e, rfl⟩ cleaned
      | _ => cases failed
  | _ => cases failed

end Steps

/-- The calls on one entry, in any order of their operations and whatever fails: the entry holds
all of one store or nothing, a load gets all of one store, and a store that fails has not touched
the entry and leaves no file unless its cleanup failed as well. -/
theorem entry_all_or_nothing (laws : c.Laws) (calls : EntryCalls c P) (d₀ : Disk String UInt8)
    (steps : List (P × CallStep)) (w : EntryWorld P)
    (ran : run (EntryWorld.step calls) ⟨d₀, fun _ => .ready⟩ steps = some w) :
    (∀ b, w.disk.content calls.path = some b → calls.Complete d₀ b) ∧
    (∀ p m, w.loaded calls p = some (.ok m) → ∃ b cache project clock, calls.Complete d₀ b ∧
      calls.call p = .load cache project clock ∧
      cache.load c clock project (fun _ => some b) = .ok m) ∧
    (∀ p e, w.stored calls p = some (.error e) →
      (∀ before a after u v, steps = before ++ (p, a) :: after →
        run (EntryWorld.step calls) ⟨d₀, fun _ => .ready⟩ before = some u →
        EntryWorld.step calls u (p, a) = some v →
        v.disk.content calls.path = u.disk.content calls.path) ∧
      (¬ w.leftBehind p → w.disk.entry (calls.tmp p) = none ∨
        w.disk.entry (calls.tmp p) = d₀.entry (calls.tmp p))) := by
  have start : EntryInv laws calls d₀ ⟨d₀, fun _ => .ready⟩ := .initial
  have inv := start.run ran
  refine ⟨?_, ?_, ?_⟩
  · intro b stands
    cases entry : w.disk.entry calls.path with
    | none =>
        rw [Disk.content, entry] at stands
        cases stands
    | some f =>
        rw [Disk.content, entry] at stands
        cases stands
        exact (inv.files.published f entry).2
  · intro p m returned
    unfold EntryWorld.loaded at returned
    split at returned
    · rename_i cache project clock got call ended
      exact ⟨got, cache, project, clock, inv.reads p got ended, call, Option.some.inj returned⟩
    · cases returned
    · cases returned
  · intro p e failed
    constructor
    · rintro before a after u v rfl reached stepped
      obtain ⟨u', v', reached', stepped', rest⟩ := run_split ran
      cases reached.symm.trans reached'
      cases stepped.symm.trans stepped'
      exact (start.run reached).failed_content stepped rest failed
    · exact inv.failed_tidy failed

lemma oneByte_injective : Function.Injective fun b : Bool => [if b then (1 : UInt8) else 0] := by
  decide

/-- Two stores of one entry. -/
def twoStores : EntryCalls framedClient Bool where
  dir := "cache"
  path := "cache/" ++ ((reader "tok").cache framedClient [7]).cachePath framedClient "app"
  call b := .store ((reader "tok").cache framedClient [7]) "app" (.ofList [("KEY", toString b)])
    (drawsAt 1000 thousand_inRange)
  suffix b := [if b then 1 else 0]
  same _ := rfl
  distinct := oneByte_injective

/-- One of them publishes; the other one fails at the renaming and cleans up. -/
def failedStore : List (Bool × CallStep) :=
  List.replicate 7 (true, .operation (.goes 1000)) ++
    List.replicate 6 (false, .operation (.goes 1000)) ++
    [(false, .operation (.fails "Operation not permitted (os error 1)")),
      (false, .operation (.goes 0))]

/-- The call failed at the renaming, and its cleanup did not. -/
def CallPhase.cleanedUp : CallPhase → Bool
  | .storing _ (.failed .replacing _ true) => true
  | _ => false

lemma CallPhase.cleanedUp_iff {phase : CallPhase} : phase.cleanedUp = true ↔
    ∃ data e, phase = .storing data (.failed .replacing e true) := by
  constructor
  · intro cleaned
    unfold CallPhase.cleanedUp at cleaned
    split at cleaned
    · exact ⟨_, _, rfl⟩
    · cases cleaned
  · rintro ⟨data, e, rfl⟩
    rfl

theorem entry_all_or_nothing_failedStore :
    ∃ w, run (EntryWorld.step twoStores) ⟨.empty, fun _ => .ready⟩ failedStore = some w ∧
      (∃ e, w.stored twoStores false = some (.error e)) ∧
      (∃ b, w.disk.content twoStores.path = some b ∧ twoStores.Complete .empty b) ∧
      w.disk.entry (twoStores.tmp false) = none := by
  have ends : ((run (EntryWorld.step twoStores) ⟨.empty, fun _ => .ready⟩ failedStore).map
      fun w => (w.disk.content twoStores.path).isSome && (w.phases false).cleanedUp) =
        some true := by
    decide +kernel
  obtain ⟨w, ran, both⟩ := Option.map_eq_some_iff.mp ends
  obtain ⟨stands, cleaned⟩ := Bool.and_eq_true_iff.mp both
  obtain ⟨b, stands⟩ := Option.isSome_iff_exists.mp stands
  obtain ⟨data, e, phase⟩ := CallPhase.cleanedUp_iff.mp cleaned
  obtain ⟨whole, _, failed⟩ :=
    entry_all_or_nothing framedClient_laws twoStores .empty failedStore w ran
  have error : w.stored twoStores false = some (.error (privateFileError "cache" twoStores.path
      (twoStores.tmp false) .replacing e)) := by
    simp only [EntryWorld.stored, phase]
    rfl
  refine ⟨w, ran, ⟨_, error⟩, ⟨b, stands, whole b stands⟩, ?_⟩
  have tidy := (failed false _ error).2
  have clean : ¬ w.leftBehind false := by
    rintro ⟨_, _, _, other⟩
    cases phase.symm.trans other
  rcases tidy clean with gone | before
  · exact gone
  · exact before

end SecretsManager
