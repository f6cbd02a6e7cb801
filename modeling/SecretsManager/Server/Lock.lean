import SecretsManager.Lib.FileTree
import SecretsManager.Lib.Transitions
import Mathlib.Logic.Function.Basic

/-!
# The lock file beside the database

`serve` and `rekey` lock a file whose name is made from the text of the database
path. Two paths to one database lock one file when they name one entry of one
directory; links above the last component do no harm, a link as the last one
does.
-/

namespace SecretsManager

open FileTree Relation

/-- `cfg.db_path`, from `SECRETS_DB_PATH`. -/
def configuredDbPath (setting : Option Path) : Path :=
  setting.getD ⟨false, [.normal "secrets.db"]⟩

def lockName (name : String) : String := name ++ ".lock"

def lockPath (dbPath : Path) : Path :=
  dbPath.withFileName (lockName (dbPath.fileName.getD "secrets.db"))

inductive LockingCommand where
  | serve
  | rekey

def LockingCommand.holderHint : LockingCommand → String
  | .serve => "another secrets-server appears to be running on this database"
  | .rekey => "stop the running secrets-server before rekeying"

/-- Where a process was started, and its database path. -/
structure Invocation (Dir : Type) where
  cwd : Dir
  dbPath : Path

variable {Dir : Type}

namespace Invocation

variable (fs : FileSystem Dir) (i : Invocation Dir)

def OpensDb (file : Location Dir) : Prop := fs.Opens i.cwd i.dbPath file

def OpensLock (file : Location Dir) : Prop := fs.Opens i.cwd (lockPath i.dbPath) file

/-- The entry that the database path names, before the entry itself is followed. -/
def NamesDb (d : Dir) (name : String) : Prop := fs.Names i.cwd i.dbPath d name

end Invocation

/-- A process past `acquire`: its `DbLock` is held until it ends. -/
structure LockedProcess (Dir : Type) where
  command : LockingCommand
  invocation : Invocation Dir
  lockFile : Location Dir

structure LockHost (Dir : Type) where
  fs : FileSystem Dir
  running : Nat → Option (LockedProcess Dir)

namespace LockHost

def idle (fs : FileSystem Dir) : LockHost Dir := ⟨fs, fun _ => none⟩

def Held (host : LockHost Dir) (file : Location Dir) : Prop :=
  ∃ pid p, host.running pid = some p ∧ p.lockFile = file

def Runs (host : LockHost Dir) (command : LockingCommand) (i : Invocation Dir) : Prop :=
  ∃ pid file, host.running pid = some ⟨command, i, file⟩

end LockHost

/-- What `acquire` returns; `BEGIN EXCLUSIVE` succeeds when no other process holds the file. -/
inductive Acquire (host : LockHost Dir) (i : Invocation Dir) (holderHint : String) :
    Except String (Location Dir) → Prop where
  | unopened (nowhere : ∀ file, ¬ i.OpensLock host.fs file) :
      Acquire host i holderHint
        (.error ("failed to open lock file " ++ (lockPath i.dbPath).display))
  | locked {file : Location Dir} (opened : i.OpensLock host.fs file) (held : host.Held file) :
      Acquire host i holderHint
        (.error ("database " ++ i.dbPath.display ++ " is locked by another process — "
          ++ holderHint))
  | acquired {file : Location Dir} (opened : i.OpensLock host.fs file)
      (free : ¬ host.Held file) : Acquire host i holderHint (.ok file)

theorem acquire_total (host : LockHost Dir) (i : Invocation Dir) (holderHint : String) :
    ∃ outcome, Acquire host i holderHint outcome := by
  by_cases opened : ∃ file, i.OpensLock host.fs file
  · obtain ⟨file, opened⟩ := opened
    by_cases held : host.Held file
    · exact ⟨_, .locked opened held⟩
    · exact ⟨_, .acquired opened held⟩
  · exact ⟨_, .unopened fun file h => opened ⟨file, h⟩⟩

/-! ## One database, one lock file -/

def SameDatabase (fs : FileSystem Dir) (i i' : Invocation Dir) : Prop :=
  ∃ file, i.OpensDb fs file ∧ i'.OpensDb fs file

/-- The paths name one entry, or a lock name is a link or a directory and the two do not
part. -/
def SharedEntry (fs : FileSystem Dir) (i i' : Invocation Dir) : Prop :=
  ∀ d name d' name', i.NamesDb fs d name → i'.NamesDb fs d' name' →
    (d = d' ∧ name = name') ∨
    (¬ (fs.Plain d (lockName name) ∧ fs.Plain d' (lockName name')) ∧
      ∀ file file', fs.LeadsTo d (lockName name) file → fs.LeadsTo d' (lockName name') file' →
        file = file')

lemma lockName_injective {name name' : String} (same : lockName name = lockName name') :
    name = name' := by
  have chars : name.toList ++ ".lock".toList = name'.toList ++ ".lock".toList := by
    simpa only [lockName, String.toList_append] using congrArg String.toList same
  exact String.toList_inj.mp (List.append_cancel_right chars)

/-- The lock lies beside the entry that the database path names. -/
theorem opensLock_iff {fs : FileSystem Dir} {i : Invocation Dir} {d : Dir} {name : String}
    {file : Location Dir} (named : i.NamesDb fs d name) :
    i.OpensLock fs file ↔ fs.LeadsTo d (lockName name) file := by
  apply FileSystem.opens_iff_leadsTo
  have fileName : i.dbPath.fileName = some name := by
    obtain ⟨dirs, parts, -⟩ := named
    exact Path.fileName_snoc parts
  simp only [lockPath, fileName, Option.getD_some]
  exact named.withFileName (lockName name)

theorem sameFile_iff {fs : FileSystem Dir} {i i' : Invocation Dir}
    (same : SameDatabase fs i i') :
    (∀ file file', i.OpensLock fs file → i'.OpensLock fs file' → file = file') ↔
      SharedEntry fs i i' := by
  constructor
  · intro one d name d' name' named named'
    have meet : ∀ file file', fs.LeadsTo d (lockName name) file →
        fs.LeadsTo d' (lockName name') file' → file = file' := by
      intro file file' leads leads'
      exact one file file' ((opensLock_iff named).mpr leads) ((opensLock_iff named').mpr leads')
    by_cases plain : fs.Plain d (lockName name) ∧ fs.Plain d' (lockName name')
    · have files := meet _ _ (.plain plain.1) (.plain plain.2)
      simp only [Prod.mk.injEq] at files
      exact .inl ⟨files.1, lockName_injective files.2⟩
    · exact .inr ⟨plain, meet⟩
  · intro shared file file' opened opened'
    obtain ⟨-, ⟨d, name, named, -⟩, ⟨d', name', named', -⟩⟩ := same
    have leads := (opensLock_iff named).mp opened
    have leads' := (opensLock_iff named').mp opened'
    rcases shared d name d' name' named named' with ⟨rfl, rfl⟩ | ⟨-, meet⟩
    · exact leads.unique leads'
    · exact meet file file' leads leads'

/-! ## Runs of processes -/

/-- The lock files are the ones the paths open on the first tree, each held once. -/
structure LockHost.Sound (fs : FileSystem Dir) (host : LockHost Dir) : Prop where
  alike : fs.Alike host.fs
  opened : ∀ pid p, host.running pid = some p → p.invocation.OpensLock fs p.lockFile
  apart : ∀ pid pid' p p', host.running pid = some p → host.running pid' = some p' →
    p.lockFile = p'.lockFile → pid = pid'

theorem LockHost.sound_idle (fs : FileSystem Dir) : (LockHost.idle fs).Sound fs where
  alike := .refl fs
  opened _ _ running := nomatch running
  apart _ _ _ _ running := nomatch running

section Steps

variable [DecidableEq Dir]

/-- Processes lock and end; any of them may create a file, the database or a journal. -/
inductive LockStep : LockHost Dir → LockHost Dir → Prop where
  | acquire {host : LockHost Dir} {pid : Nat} {command : LockingCommand} {i : Invocation Dir}
      {file : Location Dir} (idle : host.running pid = none)
      (acquired : Acquire host i command.holderHint (.ok file)) :
      LockStep host
        ⟨host.fs.touch file, Function.update host.running pid (some ⟨command, i, file⟩)⟩
  | create {host : LockHost Dir} {file : Location Dir}
      (here : host.fs.Plain file.1 file.2) :
      LockStep host { host with fs := host.fs.touch file }
  | exit {host : LockHost Dir} (pid : Nat) :
      LockStep host { host with running := Function.update host.running pid none }

theorem LockStep.sound {fs : FileSystem Dir} (host host' : LockHost Dir) (sound : host.Sound fs)
    (step : LockStep host host') : host'.Sound fs := by
  cases step with
  | @acquire pid command i file idle acquired =>
      cases acquired with
      | acquired opened free =>
          have place : host.fs.Plain file.1 file.2 := opened.plain_end
          constructor
          · exact sound.alike.trans (host.fs.alike_touch place)
          · intro other p running
            rcases Transitions.updated running with ⟨-, taken⟩ | ⟨-, running⟩
            · cases taken
              exact (FileSystem.opens_alike sound.alike).mp opened
            · exact sound.opened other p running
          · intro first second p p' running running' files
            rcases Transitions.updated running with ⟨here, taken⟩ | ⟨-, running⟩ <;>
              rcases Transitions.updated running' with ⟨here', taken'⟩ | ⟨-, running'⟩
            · rw [here, here']
            · cases taken
              exact absurd ⟨second, p', running', files.symm⟩ free
            · cases taken'
              exact absurd ⟨first, p, running, files⟩ free
            · exact sound.apart first second p p' running running' files
  | create here =>
      exact ⟨sound.alike.trans (host.fs.alike_touch here), sound.opened, sound.apart⟩
  | exit pid =>
      have stays : ∀ other p, Function.update host.running pid none other = some p →
          host.running other = some p := by
        intro other p running
        rcases Transitions.updated running with ⟨-, taken⟩ | ⟨-, running⟩
        · exact nomatch taken
        · exact running
      constructor
      · exact sound.alike
      · intro other p running
        exact sound.opened other p (stays other p running)
      · intro first second p p' running running' files
        exact sound.apart first second p p' (stays _ _ running) (stays _ _ running') files

theorem run_sound {fs : FileSystem Dir} {host : LockHost Dir}
    (run : ReflTransGen LockStep (.idle fs) host) : host.Sound fs :=
  Transitions.preserved (fun s t => LockStep.sound s t) run (LockHost.sound_idle fs)

/-- One lock file for both paths, and so no `rekey` through one beside a `serve` through the other. -/
structure Protects (fs : FileSystem Dir) (i i' : Invocation Dir) : Prop where
  sameFile : ∀ file file', i.OpensLock fs file → i'.OpensLock fs file' → file = file'
  excludes : ∀ host, ReflTransGen LockStep (.idle fs) host → host.Runs .serve i →
    ∀ file, ¬ Acquire host i' LockingCommand.rekey.holderHint (.ok file)

/-- A held lock file keeps out every later `acquire` that opens it. -/
theorem rekey_kept_out {fs : FileSystem Dir} {i i' : Invocation Dir}
    (one : ∀ file file', i.OpensLock fs file → i'.OpensLock fs file' → file = file')
    {host : LockHost Dir} (run : ReflTransGen LockStep (.idle fs) host)
    (serving : host.Runs .serve i) (file : Location Dir) :
    ¬ Acquire host i' LockingCommand.rekey.holderHint (.ok file) := by
  intro acquired
  obtain ⟨pid, held, running⟩ := serving
  have sound := run_sound run
  have opened : i.OpensLock fs held := sound.opened pid _ running
  cases acquired with
  | acquired opened' free =>
      have opened' : i'.OpensLock fs file := (FileSystem.opens_alike sound.alike).mp opened'
      exact free ⟨pid, _, running, one held file opened opened'⟩

/-- Of two paths to one database, the lock protects it when they share the entry. -/
theorem lock_protects_iff {fs : FileSystem Dir} {i i' : Invocation Dir}
    (same : SameDatabase fs i i') : Protects fs i i' ↔ SharedEntry fs i i' := by
  constructor
  · intro protects
    exact (sameFile_iff same).mp protects.sameFile
  · intro shared
    have one := (sameFile_iff same).mpr shared
    constructor
    · exact one
    · intro host run serving
      exact rekey_kept_out one run serving

/-- Two processes on one database never run together when their paths share the entry. -/
theorem one_process {fs : FileSystem Dir} {host : LockHost Dir}
    (run : ReflTransGen LockStep (.idle fs) host) {pid pid' : Nat} {p p' : LockedProcess Dir}
    (running : host.running pid = some p) (running' : host.running pid' = some p')
    (same : SameDatabase fs p.invocation p'.invocation)
    (shared : SharedEntry fs p.invocation p'.invocation) : pid = pid' := by
  have sound := run_sound run
  apply sound.apart pid pid' p p' running running'
  exact (sameFile_iff same).mpr shared _ _ (sound.opened pid p running)
    (sound.opened pid' p' running')

end Steps

/-! ## A linked directory and a linked file -/

inductive LinkedDir where
  | top
  | data
  deriving DecidableEq

/-- `/data/secrets.db`, with the links `/alias` to `/data` and `/link.db` to the file. -/
def linkedTree : FileSystem LinkedDir where
  root := .top
  parent _ := .top
  entry
    | .top, "data" => some (.dir .data)
    | .top, "alias" => some (.link ⟨false, [.normal "data"]⟩)
    | .top, "link.db" => some (.link ⟨false, [.normal "data", .normal "secrets.db"]⟩)
    | .data, "secrets.db" => some .file
    | _, _ => none

def directStart : Invocation LinkedDir := ⟨.top, ⟨true, [.normal "data", .normal "secrets.db"]⟩⟩

def aliasStart : Invocation LinkedDir := ⟨.top, ⟨true, [.normal "alias", .normal "secrets.db"]⟩⟩

def linkStart : Invocation LinkedDir := ⟨.top, ⟨true, [.normal "link.db"]⟩⟩

lemma directStart_names : directStart.NamesDb linkedTree .data "secrets.db" :=
  ⟨[.normal "data"], rfl, .enter rfl (.done _)⟩

lemma aliasStart_names : aliasStart.NamesDb linkedTree .data "secrets.db" :=
  ⟨[.normal "alias"], rfl, .link rfl (.enter rfl (.done _)) (.done _)⟩

lemma linkStart_names : linkStart.NamesDb linkedTree .top "link.db" :=
  ⟨[], rfl, .done _⟩

lemma secretsDb_plain : linkedTree.Plain .data "secrets.db" := .inr rfl

lemma directStart_opens : directStart.OpensDb linkedTree (.data, "secrets.db") :=
  ⟨_, _, directStart_names, .plain secretsDb_plain⟩

lemma linkStart_opens : linkStart.OpensDb linkedTree (.data, "secrets.db") :=
  ⟨_, _, linkStart_names,
    .link rfl ⟨[.normal "data"], rfl, .enter rfl (.done _)⟩ (.plain secretsDb_plain)⟩

theorem lock_protects_iff_alias : SameDatabase linkedTree directStart aliasStart ∧
    Protects linkedTree directStart aliasStart := by
  have same : SameDatabase linkedTree directStart aliasStart :=
    ⟨_, directStart_opens, _, _, aliasStart_names, .plain secretsDb_plain⟩
  constructor
  · exact same
  · apply (lock_protects_iff same).mpr
    intro d name d' name' named named'
    obtain ⟨rfl, rfl⟩ := named.unique directStart_names
    obtain ⟨rfl, rfl⟩ := named'.unique aliasStart_names
    exact .inl ⟨rfl, rfl⟩

lemma directStart_locks : directStart.OpensLock linkedTree (.data, "secrets.db.lock") :=
  (opensLock_iff directStart_names).mpr (.plain (.inl rfl))

lemma linkStart_locks : linkStart.OpensLock linkedTree (.top, "link.db.lock") :=
  (opensLock_iff linkStart_names).mpr (.plain (.inl rfl))

/-- The server started directly, and nothing else. -/
def directHost : LockHost LinkedDir :=
  ⟨linkedTree.touch (.data, "secrets.db.lock"),
    Function.update (fun _ => none) 0 (some ⟨.serve, directStart, (.data, "secrets.db.lock")⟩)⟩

lemma directHost_reached : ReflTransGen LockStep (.idle linkedTree) directHost := by
  have free : ¬ (LockHost.idle linkedTree).Held (.data, "secrets.db.lock") := by
    rintro ⟨pid, p, running, -⟩
    exact nomatch running
  exact .single (.acquire rfl (.acquired directStart_locks free))

/-- Started through the linked file, a rekey locks `/link.db.lock` beside the server. -/
theorem linked_database_escapes_lock : SameDatabase linkedTree directStart linkStart ∧
    ¬ Protects linkedTree directStart linkStart ∧
    ∃ host, ReflTransGen LockStep (.idle linkedTree) host ∧ host.Runs .serve directStart ∧
      Acquire host linkStart LockingCommand.rekey.holderHint (.ok (.top, "link.db.lock")) := by
  constructor
  · exact ⟨_, directStart_opens, linkStart_opens⟩
  constructor
  · intro protects
    exact nomatch protects.sameFile _ _ directStart_locks linkStart_locks
  · have opened : linkStart.OpensLock directHost.fs (.top, "link.db.lock") :=
      (FileSystem.opens_alike (run_sound directHost_reached).alike).mpr linkStart_locks
    have free : ¬ directHost.Held (.top, "link.db.lock") := by
      rintro ⟨pid, p, running, file⟩
      simp only [directHost] at running
      rcases Transitions.updated running with ⟨-, taken⟩ | ⟨-, running⟩
      · cases taken
        exact nomatch file
      · exact nomatch running
    exact ⟨directHost, directHost_reached, ⟨0, _, rfl⟩, .acquired opened free⟩

end SecretsManager
