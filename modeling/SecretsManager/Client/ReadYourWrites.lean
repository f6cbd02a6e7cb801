import SecretsManager.Client.CacheRuns
import SecretsManager.Lib.Transitions

/-!
# Writes and later reads

Several processes of one server, token and cache directory. A read is a fetch and
then a store, or a failed fetch and then a load; a write is a put and then a
removal. The steps of the processes interleave. A map fetched before a put may be
stored after the removal and is then loaded long after the write.
-/

namespace SecretsManager

open Transitions

/-- Where a process stands in its call, and since when. -/
inductive Phase where
  | idle
  | fetched (project : String) (secrets : SecretMap) (since : Nat)
  | unreachable (project : String)
  | written (project key value : String) (since : Nat)

structure CacheWorld where
  /-- What the server would answer for a project. -/
  server : String → SecretMap
  files : CacheFiles
  phases : Nat → Phase
  clock : Nat
  /-- Of the puts whose removal is done, when the last one of the project was. -/
  invalidated : String → Nat

inductive ClientStep where
  /-- The server answers a read. -/
  | fetch (project : String)
  /-- A read finds the server unreachable. -/
  | disconnect (project : String)
  /-- The read stores what it fetched and returns it. -/
  | store (d : StoreDraws)
  /-- The read returns what it loads. -/
  | load (clock : Except String UnixTime)
  /-- The server accepts a write. -/
  | put (project key value : String)
  /-- The write removes the entry and returns. -/
  | remove (gone : Bool)

inductive CacheStep where
  | client (i : Nat) (step : ClientStep)
  /-- Another write to the server: by no cache, or one whose answer was lost. -/
  | rewrite (project key : String) (value : Option String)

variable {Key : Type} (c : ClientCrates Key) (cache : CacheStore Key)

namespace CacheWorld

def setValue (server : String → SecretMap) (project key : String) (value : Option String) :
    String → SecretMap :=
  Function.update server project (match value with
    | some v => (server project).insert key v
    | none => (server project).erase key)

/-- The world after a step of one process, if it is one that comes next. -/
def client (w : CacheWorld) (i : Nat) (step : ClientStep) : Option CacheWorld :=
  match step, w.phases i with
  | .fetch project, .idle =>
    if (w.server project).keys.all validSecretKey then
      some { w with
        phases := Function.update w.phases i (.fetched project (w.server project) w.clock) }
    else none
  | .disconnect project, .idle =>
    some { w with phases := Function.update w.phases i (.unreachable project) }
  | .store d, .fetched project secrets _ =>
    some { w with
      files := (cache.store c d project secrets w.files).2
      phases := Function.update w.phases i .idle }
  | .load _, .unreachable _ => some { w with phases := Function.update w.phases i .idle }
  | .put project key value, .idle =>
    some { w with
      server := setValue w.server project key (some value)
      phases := Function.update w.phases i (.written project key value w.clock) }
  | .remove gone, .written project _ _ since =>
    some { w with
      files := cache.remove c gone project w.files
      phases := Function.update w.phases i .idle
      invalidated := Function.update w.invalidated project (max (w.invalidated project) since) }
  | _, _ => none

def move (w : CacheWorld) : CacheStep → Option CacheWorld
  | .client i step => w.client c cache i step
  | .rewrite project key value =>
    some { w with server := setValue w.server project key value }

def step (w : CacheWorld) (s : CacheStep) : Option CacheWorld :=
  (w.move c cache s).map fun (w' : CacheWorld) => { w' with clock := w.clock + 1 }

/-- What a read returns at its last step. -/
def returned (w : CacheWorld) (i : Nat) (step : ClientStep) : Option (Except ClientError SecretMap) :=
  match step, w.phases i with
  | .store _, .fetched _ secrets _ => some (.ok secrets)
  | .load clock, .unreachable project => some (cache.load c clock project w.files)
  | _, _ => none

end CacheWorld

/-- The step writes this key of the project at the server. -/
def CacheStep.writes (project key : String) : CacheStep → Prop
  | .client _ (.put p k _) => p = project ∧ k = key
  | .rewrite p k _ => p = project ∧ k = key
  | _ => False

def CacheStep.isBy (i : Nat) : CacheStep → Prop
  | .client j _ => j = i
  | .rewrite .. => False

/-- The projects that the step names are among these. -/
def CacheStep.within (used : Set String) : CacheStep → Prop
  | .client _ (.fetch p) => p ∈ used
  | .client _ (.disconnect p) => p ∈ used
  | .client _ (.put p _ _) => p ∈ used
  | _ => True

/-- Before the step: a removal succeeds, and no map is stored that was fetched before a put whose
removal is done. -/
def Careful (w : CacheWorld) : CacheStep → Prop
  | .client _ (.remove gone) => gone = true
  | .client i (.store _) => ∀ project secrets since,
    w.phases i = .fetched project secrets since → w.invalidated project ≤ since
  | _ => True

/-! ## What one step does -/

/-- The steps with the world each one leaves. -/
inductive Moves (w : CacheWorld) : CacheStep → CacheWorld → Prop where
  | fetch (i : Nat) (project : String) (valid : ∀ k ∈ w.server project, validSecretKey k = true) :
      Moves w (.client i (.fetch project)) ⟨w.server, w.files,
        Function.update w.phases i (.fetched project (w.server project) w.clock), w.clock + 1,
        w.invalidated⟩
  | disconnect (i : Nat) (project : String) :
      Moves w (.client i (.disconnect project)) ⟨w.server, w.files,
        Function.update w.phases i (.unreachable project), w.clock + 1, w.invalidated⟩
  | store (i : Nat) (d : StoreDraws) (project : String) (secrets : SecretMap) (since : Nat)
      (held : w.phases i = .fetched project secrets since) :
      Moves w (.client i (.store d)) ⟨w.server, (cache.store c d project secrets w.files).2,
        Function.update w.phases i .idle, w.clock + 1, w.invalidated⟩
  | load (i : Nat) (clock : Except String UnixTime) :
      Moves w (.client i (.load clock)) ⟨w.server, w.files, Function.update w.phases i .idle,
        w.clock + 1, w.invalidated⟩
  | put (i : Nat) (project key value : String) :
      Moves w (.client i (.put project key value))
        ⟨CacheWorld.setValue w.server project key (some value), w.files,
          Function.update w.phases i (.written project key value w.clock), w.clock + 1,
          w.invalidated⟩
  | remove (i : Nat) (gone : Bool) (project key value : String) (since : Nat)
      (held : w.phases i = .written project key value since) :
      Moves w (.client i (.remove gone)) ⟨w.server, cache.remove c gone project w.files,
        Function.update w.phases i .idle, w.clock + 1,
        Function.update w.invalidated project (max (w.invalidated project) since)⟩
  | rewrite (project key : String) (value : Option String) :
      Moves w (.rewrite project key value) ⟨CacheWorld.setValue w.server project key value, w.files,
        w.phases, w.clock + 1, w.invalidated⟩

variable {c cache}

variable {w w' : CacheWorld} {s : CacheStep} {project key value : String}

lemma Moves.clock_eq (h : Moves c cache w s w') : w'.clock = w.clock + 1 := by
  cases h <;> rfl

lemma Moves.phase_other (h : Moves c cache w s w') {i : Nat} (other : ¬ s.isBy i) :
    w'.phases i = w.phases i := by
  cases h with
  | rewrite => rfl
  | _ => exact Function.update_of_ne (Ne.symm other) ..

/-- A map in flight was in flight before, or has just been fetched. -/
lemma Moves.fetched (h : Moves c cache w s w') {j : Nat} {m : SecretMap} {since : Nat}
    (held : w'.phases j = .fetched project m since) :
    w.phases j = .fetched project m since ∨ s = .client j (.fetch project) ∧
      since = w.clock ∧ m = w.server project ∧ ∀ k ∈ m, validSecretKey k = true := by
  by_cases own : s.isBy j
  · cases h with
    | rewrite => exact Or.inl held
    | fetch i p valid =>
      obtain rfl : i = j := own
      simp only [Function.update_self] at held
      cases held
      exact Or.inr ⟨rfl, rfl, rfl, valid⟩
    | _ =>
      obtain rfl : _ = j := own
      simp only [Function.update_self] at held
      cases held
  · rw [h.phase_other own] at held
    exact Or.inl held

lemma Moves.server_eq (h : Moves c cache w s w') (unwritten : ¬ s.writes project key) :
    (w'.server project)[key]? = (w.server project)[key]? := by
  have kept : ∀ p k v, ¬ (p = project ∧ k = key) →
      (CacheWorld.setValue w.server p k v project)[key]? = (w.server project)[key]? := by
    intro p k v other
    unfold CacheWorld.setValue
    by_cases same : project = p
    · subst same
      have differs : ¬ k = key := fun e => other ⟨rfl, e⟩
      rw [Function.update_self]
      cases v with
      | some v => simp [Std.ExtTreeMap.getElem?_insert, differs]
      | none => simp [Std.ExtTreeMap.getElem?_erase, differs]
    · rw [Function.update_of_ne same]
  cases h with
  | put i p k v => exact kept p k (some v) unwritten
  | rewrite p k v => exact kept p k v unwritten
  | _ => rfl

lemma Moves.invalidated_le (h : Moves c cache w s w') :
    w.invalidated project ≤ w'.invalidated project := by
  cases h with
  | remove i gone p k v since held =>
    by_cases same : project = p
    · subst same
      simp
    · simp [Function.update_of_ne same]
  | _ => exact le_rfl

/-- Maps in flight were fetched before now, and what is named is among the projects of the run. -/
structure Sound (used : Set String) (w : CacheWorld) : Prop where
  fetched : ∀ j p m since, w.phases j = .fetched p m since →
    since < w.clock ∧ p ∈ used ∧ ∀ k ∈ m, validSecretKey k = true
  written : ∀ i p k v since, w.phases i = .written p k v since → p ∈ used

lemma Moves.sound {used : Set String} (h : Moves c cache w s w') (named : s.within used)
    (sound : Sound used w) : Sound used w' := by
  constructor
  · intro j p m since held
    rw [h.clock_eq]
    rcases h.fetched held with before | ⟨rfl, rfl, _, valid⟩
    · obtain ⟨earlier, among, valid⟩ := sound.fetched j p m since before
      exact ⟨by omega, among, valid⟩
    · exact ⟨by omega, named, valid⟩
  · intro i p k v since held
    by_cases own : s.isBy i
    · cases h with
      | rewrite => exact sound.written i p k v since held
      | put i' p' k' v' =>
        obtain rfl : i' = i := own
        simp only [Function.update_self] at held
        cases held
        exact named
      | _ =>
        obtain rfl : _ = i := own
        simp only [Function.update_self] at held
        cases held
    · rw [h.phase_other own] at held
      exact sound.written i p k v since held

variable (c cache) in
/-- Entries of these projects do not share a file. -/
def Apart (used : Set String) : Prop :=
  ∀ p ∈ used, ∀ q ∈ used, c.sha256 (cache.pathInput p) = c.sha256 (cache.pathInput q) →
    cache.pathInput p = cache.pathInput q

lemma cachePath_apart {used : Set String} (laws : c.Laws) (apart : Apart c cache used) {p q : String}
    (hp : p ∈ used) (hq : q ∈ used) (same : cache.cachePath c p = cache.cachePath c q) : p = q := by
  have input := apart p hp q hq (cachePath_inj laws same)
  simp only [CacheStore.pathInput, List.append_cancel_left_eq] at input
  exact utf8_injective input

/-- What happens to the file of a project. -/
lemma Moves.file {used : Set String} (laws : c.Laws) (apart : Apart c cache used)
    (h : Moves c cache w s w') (sound : Sound used w) (among : project ∈ used) :
    w'.files (cache.cachePath c project) = w.files (cache.cachePath c project) ∨
    w'.files (cache.cachePath c project) = none ∨
    ∃ i d m since data, s = .client i (.store d) ∧ w.phases i = .fetched project m since ∧
      cache.entry c d project m = .ok data ∧
      w'.files (cache.cachePath c project) = some data := by
  cases h with
  | store i d p m since held =>
    rcases store_cases cache d p m with ⟨data, written, stored⟩ | ⟨e, failed⟩
    · rw [stored]
      by_cases same : project = p
      · subst same
        exact Or.inr (Or.inr ⟨i, d, m, since, data, rfl, held, written, Function.update_self ..⟩)
      · left
        apply Function.update_of_ne
        intro path
        exact same (cachePath_apart laws apart among (sound.fetched i p m since held).2.1 path)
    · rw [failed]
      exact Or.inl rfl
  | remove i gone p k v since held =>
    cases gone with
    | false => exact Or.inl rfl
    | true =>
      by_cases same : cache.cachePath c project = cache.cachePath c p
      · exact Or.inr (Or.inl (by simp [CacheStore.remove, same]))
      · exact Or.inl (by simp [CacheStore.remove, Function.update_of_ne same])
  | _ => exact Or.inl rfl

/-! ## From the put to the removal, and from there to the read -/

variable (c cache) in
/-- The server and the file hold the value, and what does not hold it is not stored any more. -/
structure Kept (project key value : String) (w : CacheWorld) : Prop where
  server : (w.server project)[key]? = some value
  file : ∀ data, w.files (cache.cachePath c project) = some data →
    ∃ d m, cache.entry c d project m = .ok data ∧ m[key]? = some value ∧
      ∀ k ∈ m, validSecretKey k = true
  flying : ∀ j m n, w.phases j = .fetched project m n →
    m[key]? = some value ∨ n < w.invalidated project

lemma Moves.kept {used : Set String} (laws : c.Laws) (apart : Apart c cache used)
    (h : Moves c cache w s w') (careful : Careful w s) (sound : Sound used w)
    (among : project ∈ used) (unwritten : ¬ s.writes project key)
    (kept : Kept c cache project key value w) : Kept c cache project key value w' := by
  refine ⟨by rw [h.server_eq unwritten, kept.server], ?_, ?_⟩
  · intro data stored
    rcases h.file laws apart sound among with same | none | ⟨i, d, m, n, data', rfl, held, entry, now⟩
    · exact kept.file data (same ▸ stored)
    · rw [none] at stored
      cases stored
    · obtain rfl : data' = data := Option.some.inj (now.symm.trans stored)
      have holds : m[key]? = some value := by
        rcases kept.flying i m n held with holds | stale
        · exact holds
        · have := careful project m n held
          omega
      exact ⟨d, m, entry, holds, (sound.fetched i project m n held).2.2⟩
  · intro j m n held
    have later : w.invalidated project ≤ w'.invalidated project := h.invalidated_le
    rcases h.fetched held with before | ⟨_, _, rfl, _⟩
    · rcases kept.flying j m n before with holds | stale
      · exact Or.inl holds
      · exact Or.inr (by omega)
    · exact Or.inl kept.server

section Segments

variable {used : Set String} {segment : List CacheStep}

end Segments

end SecretsManager
