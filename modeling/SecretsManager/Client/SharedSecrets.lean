import SecretsManager.Client.CacheRuns
import SecretsManager.Client.CommandLine
import SecretsManager.Lib.Simulation

/-!
# What the commands are for

One store that everybody shares, and for each reader and project what was last seen of
it. A command shows what is stored, or what its reader saw while that is fresh; a value
that is set is stored, and what its reader saw before is forgotten. Names are those the
server takes the typed ones for.
-/

namespace SecretsManager

open Simulation

structure SharedSecrets where
  store : RefStore
  seen : Identity × String → Option (SecretMap × UnixTime)

namespace SharedSecrets

inductive Act (Key : Type) where
  /-- A command, whether its call was left unanswered, and what it printed. -/
  | ran (id : Identity) (io : Io Key) (line : Command) (unanswered : Bool) (out : Ended)
  /-- A call of somebody else, and whether a statement of its handler failed. -/
  | asked (token : AuthedToken) (now : String) (call : StoreCall) (failed : Bool)

/-- The answer of the store to a read of all secrets of a project. -/
def ReadsAs (store : RefStore) (project : String) (values : SecretMap) : Prop :=
  ∃ token now, (store.step token now (.getSecrets project)).1 = ⟨200, .secrets values⟩

/-- A put that the store accepts, and the store after it. -/
def Puts (store : RefStore) (project key value : String) (store' : RefStore) : Prop :=
  ∃ token now version,
    (store.step token now (.putSecret project key (.ok ⟨value⟩))).1 = ⟨200, .version key version⟩ ∧
    (store.step token now (.putSecret project key (.ok ⟨value⟩))).2 = store'

/-- The answer to a read of the project that the server takes the typed one for. -/
def ReadsTyped (store : RefStore) (typed : String) (values : SecretMap) : Prop :=
  ∃ project, TakenProject typed project ∧ ReadsAs store project values

/-- A put under the names that the server takes the typed ones for. -/
def PutsTyped (store : RefStore) (typed typedKey value : String) (store' : RefStore) : Prop :=
  ∃ project key, TakenSecret typed typedKey project key ∧ Puts store project key value store'

/-- The cache is open and its file can be removed. -/
def forgets (io : Io Key) : Bool := io.opened.isOk && io.removed

inductive Does {Key : Type} : SharedSecrets → Act Key → SharedSecrets → Prop where
  | readNow (s : SharedSecrets) (id : Identity) (io : Io Key) (project : String) (noCache : Bool)
      (cmd : ReadCmd) (values : SecretMap)
      (seen : Identity × String → Option (SecretMap × UnixTime))
      (stored : ReadsTyped s.store project values)
      (kept : seen = s.seen ∨ noCache = false ∧ ∃ now, io.draws.now = .ok now ∧
        seen = Function.update s.seen (id, project) (some (values, now))) :
      Does s (.ran id io (.read project noCache cmd) false (cmd.shows io (.ok values)))
        ⟨s.store, seen⟩
  | readOffline (s : SharedSecrets) (id : Identity) (io : Io Key) (project : String)
      (cmd : ReadCmd) (values : SecretMap) (seenAt now : UnixTime)
      (held : s.seen (id, project) = some (values, seenAt)) (clock : io.draws.now = .ok now)
      (fresh : Fresh seenAt.secs now) :
      Does s (.ran id io (.read project false cmd) true (cmd.shows io (.ok values))) s
  | set (s : SharedSecrets) (id : Identity) (io : Io Key) (project key value : String)
      (store : RefStore) (entered : ClientCommands.readSecretValue io.stdin = .ok value)
      (puts : PutsTyped s.store project key value store) :
      Does s (.ran id io (.set project key) false (.returned (.ok ⟨[], 0⟩)))
        ⟨store, if forgets io then Function.update s.seen (id, project) none else s.seen⟩
  /-- The value was stored, but the answer did not come or was a failure. -/
  | setUnnoticed (s : SharedSecrets) (id : Identity) (io : Io Key) (project key value : String)
      (store : RefStore) (e : CliError)
      (entered : ClientCommands.readSecretValue io.stdin = .ok value)
      (puts : PutsTyped s.store project key value store) :
      Does s (.ran id io (.set project key) false (.returned (.error e))) ⟨store, s.seen⟩
  | failed (s : SharedSecrets) (id : Identity) (io : Io Key) (line : Command) (unanswered : Bool)
      (e : CliError) : Does s (.ran id io line unanswered (.returned (.error e))) s
  | token (s : SharedSecrets) (id : Identity) (io : Io Key) (cmd : TokenCmd) (out : Ended) :
      Does s (.ran id io (.token cmd) false out) s
  | asked (s : SharedSecrets) (token : AuthedToken) (now : String) (call : StoreCall) :
      Does s (.asked token now call false) ⟨(s.store.step token now call).2, s.seen⟩
  | broken (s : SharedSecrets) (token : AuthedToken) (now : String) (call : StoreCall) :
      Does s (.asked token now call true) s
  | unreported (s : SharedSecrets) (token : AuthedToken) (now project key : String)
      (body : Except AppError SetSecretBody) :
      Does s (.asked token now (.putSecret project key body) true)
        ⟨(s.store.step token now (.putSecret project key body)).2, s.seen⟩

/-! ## Values that nobody writes -/

/-- The act may write this secret. -/
def Act.Writes {Key : Type} (project key : String) : Act Key → Prop
  | ran _ _ (.set typed typedKey) _ _ => TakenSecret typed typedKey project key
  | asked _ _ (.putSecret project' key' _) _ => project' = project ∧ key' = key
  | asked _ _ (.deleteSecret project' key') _ => project' = project ∧ key' = key
  | _ => False

end SharedSecrets

end SecretsManager
