import SecretsManager.Server.FaultyCalls
import SecretsManager.Lib.Linearizable
import SecretsManager.Lib.Simulation

/-!
# Concurrent requests on the store

Requests come in, authenticate, act and are answered in any interleaving, with
commands of the command line between them and statements that fail. What the clients
see of the requests on projects and secrets could have come from the plain map, with
the requests made one after another: each takes effect at the one moment when its
handler holds the lock.
-/

namespace SecretsManager

open FaultySession KeyedTable Relation Linearizable Simulation

variable {Key : Type} (c : ServerCrates Key) (key : Key)

/-- A request on the plain map, with the identity that it acts under. It is answered 500 where a
statement failed on a database that stands for the map; then the map is as before, or a put has
been made. -/
inductive RefStore.Served (st : RefStore) (r : Arrival) : AuthedToken × Response → RefStore → Prop
  where
  | answered (call : StoreCall) (token : AuthedToken) (d : Draws c.time) (out : Response)
      (routed : r.routed c = .guarded (.ok (.store call)))
      (replied : reply r.method (.ok (st.step token d.writtenAt.rfc3339 call).1) = some out) :
      Served st r (token, out) (st.step token d.writtenAt.rfc3339 call).2
  | broken (call : StoreCall) (token : AuthedToken) (d : Draws c.time) (out : Response)
      (after : RefStore) (routed : r.routed c = .guarded (.ok (.store call)))
      (replied : reply r.method (.error brokenStatement) = some out) (db : Db)
      (faults : List Bool) (stands : Refines c key db st)
      (failed : metFault (call.perform c key token d) ⟨db, faults⟩ = true)
      (stopped : (call.perform c key token d ⟨db, faults⟩).1 = .error brokenStatement)
      (left : Refines c key (call.perform c key token d ⟨db, faults⟩).2.store after)
      (made : after = st ∨ (∃ name key body, call = .putSecret name key body) ∧
        after = (st.step token d.writtenAt.rfc3339 call).2) :
      Served st r (token, out) after

abbrev StoreEvent : Type := Linearizable.Event Arrival (AuthedToken × Response)

/-- What a step shows the clients of the requests on the store. -/
inductive Seen (st st' : AuditedServer) : List StoreEvent → Prop where
  | arrival (a : Attended) (call : StoreCall) (new : st'.next = st.next + 1)
      (found : st'.requests st.next = some a)
      (routed : a.arrival.routed c = .guarded (.ok (.store call))) :
      Seen st st' [.invoked st.next a.arrival]
  | response (n : Nat) (a : Attended) (call : StoreCall) (token : AuthedToken)
      (response : Response) (written : Bool) (found : st.requests n = some a)
      (answered : a.stage = .answered (some token) response)
      (recorded : st'.requests n =
        some { a with stage := .recorded (some token) response written })
      (routed : a.arrival.routed c = .guarded (.ok (.store call))) :
      Seen st st' [.returned n (token, response)]
  | silent
      (noArrival : ∀ a call, st'.next = st.next + 1 → st'.requests st.next = some a →
        a.arrival.routed c ≠ .guarded (.ok (.store call)))
      (noResponse : ∀ n a call token response written, st.requests n = some a →
        a.stage = .answered (some token) response →
        st'.requests n = some { a with stage := .recorded (some token) response written } →
        a.arrival.routed c ≠ .guarded (.ok (.store call))) :
      Seen st st' []

/-- A run with its history. -/
abbrev Observed (key : Key) : AuditedServer → List StoreEvent → AuditedServer → Prop :=
  Shown (AuditedStep c key) (Seen c)

variable {c key}

/-- Every run has a history. -/
theorem observed_of_run {start st : AuditedServer}
    (run : ReflTransGen (AuditedStep c key) start st) : ∃ h, Observed c key start h st := by
  refine Shown.of_run ?_ run
  intro st st' _
  by_contra none
  refine none ⟨[], .silent ?_ ?_⟩
  · intro a call new found routed
    exact none ⟨_, .arrival a call new found routed⟩
  · intro n a call token response written found answered recorded routed
    exact none ⟨_, .response n a call token response written found answered recorded routed⟩

/-! ## One handler -/

/-- One handler of the store under its lock is one request on the map. -/
lemma perform_served (ideal : IdealAead.Ideal c.aead) (total : IdealAead.Total c.aead)
    {token : AuthedToken} {d : Draws c.time} {db : Db} {ref : RefStore}
    (h : Refines c key db ref) {r : Arrival} {call : StoreCall} {faults : List Bool}
    {out : Response} (routed : r.routed c = .guarded (.ok (.store call)))
    (replied : reply r.method (call.perform c key token d ⟨db, faults⟩).1 = some out) :
    ∃ ref', ref.Served c key r (token, out) ref' ∧
      Refines c key (call.perform c key token d ⟨db, faults⟩).2.store ref' := by
  rcases @perform_faulty _ c key token d db ref ideal total h call faults r.method with
    ⟨_, answers, refines⟩ | ⟨failed, stopped, kept | ⟨put, refines⟩⟩
  · rw [answers] at replied
    exact ⟨_, .answered call token d out routed replied, refines⟩
  · rw [stopped] at replied
    exact ⟨ref, .broken call token d out ref routed replied db faults h failed stopped kept
      (.inl rfl), kept⟩
  · rw [stopped] at replied
    exact ⟨_, .broken call token d out _ routed replied db faults h failed stopped refines
      (.inr ⟨put, rfl⟩), refines⟩

/-! ## Runs -/

/-- The request has authenticated or not, but its handler has not run. -/
def Stage.isOpen : Stage → Prop
  | .arrived => True
  | .authenticated _ _ => True
  | _ => False

variable (c key) in
/-- The operations that took effect, in this order, account for the history and the database. -/
structure Accounts (ref₀ : RefStore) (h : List StoreEvent)
    (order : List (Commit Arrival (AuthedToken × Response))) (ref : RefStore)
    (st : AuditedServer) : Prop where
  commits : Commits (RefStore.Served c key) ref₀ h order ref
  refines : Refines c key st.db ref
  fresh : ∀ n, st.next ≤ n → st.requests n = none ∧ ∀ r, .invoked n r ∉ h
  invoked : ∀ n a call, st.requests n = some a →
    a.arrival.routed c = .guarded (.ok (.store call)) → .invoked n a.arrival ∈ h
  authenticated : ∀ n a token call, st.requests n = some a →
    a.stage = .authenticated token call → a.arrival.routed c = .guarded call
  waiting : ∀ n a, st.requests n = some a → a.stage.isOpen → n ∉ order.map Commit.id
  done : ∀ n a token response call, st.requests n = some a →
    a.stage = .answered (some token) response →
    a.arrival.routed c = .guarded (.ok (.store call)) → ⟨n, a.arrival, token, response⟩ ∈ order

section Accounts

variable {ref₀ ref : RefStore} {h : List StoreEvent}
  {order : List (Commit Arrival (AuthedToken × Response))} {st st' : AuditedServer}

lemma Accounts.start {db : Db} {clock : Int} (refines : Refines c key db ref) :
    Accounts c key ref [] [] ref (.start db clock) where
  commits := .start
  refines := refines
  fresh _ _ := ⟨rfl, nofun⟩
  invoked _ _ _ found := nomatch found
  authenticated _ _ _ _ found := nomatch found
  waiting _ _ found := nomatch found
  done _ _ _ _ _ found := nomatch found

/-- A step without a request of its own. -/
lemma Accounts.aside (acc : Accounts c key ref₀ h order ref st) {db : Db} {clock : Int}
    (refines : Refines c key db ref) :
    Accounts c key ref₀ h order ref { st with db := db, clock := clock } :=
  ⟨acc.commits, refines, acc.fresh, acc.invoked, acc.authenticated, acc.waiting, acc.done⟩

/-- One request moves on: it may take effect or return, and the others are as they were. -/
lemma Accounts.moves (acc : Accounts c key ref₀ h order ref st) {n : Nat} {a : Attended}
    (found : st.requests n = some a) {stage : Stage} {db : Db} {log : List (Nat × Entry)}
    {h' : List StoreEvent} {order' : List (Commit Arrival (AuthedToken × Response))}
    {ref' : RefStore} (commits : Commits (RefStore.Served c key) ref₀ h' order' ref')
    (refines : Refines c key db ref') (sameCalls : ∀ m r, .invoked m r ∈ h' ↔ .invoked m r ∈ h)
    (grows : ∀ x ∈ order, x ∈ order')
    (own : ∀ m ∈ order'.map Commit.id, m ∈ order.map Commit.id ∨ m = n)
    (authenticated : ∀ token call, stage = .authenticated token call →
      a.arrival.routed c = .guarded call)
    (waiting : stage.isOpen → n ∉ order'.map Commit.id)
    (done : ∀ token response call, stage = .answered (some token) response →
      a.arrival.routed c = .guarded (.ok (.store call)) →
      ⟨n, a.arrival, token, response⟩ ∈ order') :
    Accounts c key ref₀ h' order' ref' { st with
      db := db
      requests := Function.update st.requests n (some { a with stage := stage })
      log := log } where
  commits := commits
  refines := refines
  fresh m later := by
    have other : m ≠ n := by
      rintro rfl
      exact nomatch (acc.fresh m later).1.symm.trans found
    refine ⟨(Function.update_of_ne other ..).trans (acc.fresh m later).1, ?_⟩
    intro r seen
    exact (acc.fresh m later).2 r ((sameCalls m r).mp seen)
  invoked m b call hb routed := by
    rcases update_some hb with ⟨rfl, rfl⟩ | ⟨_, hb⟩
    · exact (sameCalls m _).mpr (acc.invoked m a call found routed)
    · exact (sameCalls m _).mpr (acc.invoked m b call hb routed)
  authenticated m b token call hb at_ := by
    rcases update_some hb with ⟨rfl, rfl⟩ | ⟨_, hb⟩
    · exact authenticated token call at_
    · exact acc.authenticated m b token call hb at_
  waiting m b hb at_ := by
    rcases update_some hb with ⟨rfl, rfl⟩ | ⟨other, hb⟩
    · exact waiting at_
    · intro made
      rcases own m made with old | same
      · exact acc.waiting m b hb at_ old
      · exact other same
  done m b token response call hb at_ routed := by
    rcases update_some hb with ⟨rfl, rfl⟩ | ⟨_, hb⟩
    · exact done token response call at_ routed
    · exact grows _ (acc.done m b token response call hb at_ routed)

/-- A request moves on and nothing takes effect. -/
lemma Accounts.still (acc : Accounts c key ref₀ h order ref st) {n : Nat} {a : Attended}
    (found : st.requests n = some a) {stage : Stage} {db : Db} (refines : Refines c key db ref)
    (authenticated : ∀ token call, stage = .authenticated token call →
      a.arrival.routed c = .guarded call)
    (waiting : stage.isOpen → a.stage.isOpen)
    (done : ∀ token response call, stage = .answered (some token) response →
      a.arrival.routed c ≠ .guarded (.ok (.store call))) :
    Accounts c key ref₀ h order ref { st with
      db := db
      requests := Function.update st.requests n (some { a with stage := stage }) } := by
  refine acc.moves found acc.commits refines (fun _ _ => Iff.rfl) (fun _ hx => hx)
    (fun _ hm => .inl hm) authenticated ?_ ?_
  · intro open'
    exact acc.waiting n a found (waiting open')
  · intro token response call at_ routed
    exact absurd routed (done token response call at_)

/-- The handler has run: a request on the store takes effect, another one does not. -/
lemma Accounts.acts (ideal : IdealAead.Ideal c.aead) (total : IdealAead.Total c.aead)
    (acc : Accounts c key ref₀ h order ref st) {n : Nat} {a : Attended}
    (found : st.requests n = some a) {token : AuthedToken} {call : Except Unit Call}
    (at_ : a.stage = .authenticated token call) (d : Draws c.time) (faults : List Bool)
    {out : Option Response} {stage : Stage}
    (replied : reply a.arrival.method (handleCall c key token call d ⟨st.db, faults⟩).1 = out)
    (moved : stage = .dropped ∧ out = none ∨ ∃ response, out = some response ∧
      stage = .answered (some token) response) :
    ∃ order' ref', Accounts c key ref₀ h order' ref' { st with
      db := (handleCall c key token call d ⟨st.db, faults⟩).2.store
      requests := Function.update st.requests n (some { a with stage := stage }) } := by
  have routed := acc.authenticated n a token call found at_
  have closed : ¬ stage.isOpen := by
    rcases moved with ⟨rfl, _⟩ | ⟨response, _, rfl⟩ <;> exact id
  have noToken : ∀ token' call', stage ≠ .authenticated token' call' := by
    rintro token' call' rfl
    exact closed trivial
  have aside : ∀ db, Refines c key db ref →
      (∀ call, a.arrival.routed c ≠ .guarded (.ok (.store call))) →
      Accounts c key ref₀ h order ref { st with
        db := db
        requests := Function.update st.requests n (some { a with stage := stage }) } := by
    intro db refines other
    apply acc.still found refines
    · exact fun token' call' same => absurd same (noToken token' call')
    · exact fun open' => absurd open' closed
    · exact fun _ _ call _ => other call
  cases call with
  | error _ =>
    refine ⟨order, ref, aside _ acc.refines ?_⟩
    intro call same
    rw [routed] at same
    cases same
  | ok call =>
    by_cases store : ∃ s, call = .store s
    · obtain ⟨s, rfl⟩ := store
      have answers : ∃ response, reply a.arrival.method
          (s.perform c key token d ⟨st.db, faults⟩).1 = some response := by
        rcases ran : (s.perform c key token d ⟨st.db, faults⟩).1 with (e | _) | response
        · exact ⟨_, rfl⟩
        · exact absurd ran (s.answers token d _)
        · exact ⟨_, rfl⟩
      obtain ⟨response, answered⟩ := answers
      obtain rfl : stage = .answered (some token) response := by
        have same : out = some response := replied.symm.trans answered
        rcases moved with ⟨_, none⟩ | ⟨response', some', rfl⟩
        · exact nomatch none.symm.trans same
        · cases some'.symm.trans same
          rfl
      obtain ⟨ref', served, refines⟩ := perform_served ideal total acc.refines routed answered
      have first := acc.waiting n a found (by rw [at_]; trivial)
      refine ⟨_, ref', acc.moves found
        (acc.commits.commit n a.arrival (token, response) (acc.invoked n a s found routed) first
          served) refines (fun _ _ => Iff.rfl) (fun _ hx => List.mem_append_left _ hx) ?_ ?_
        (fun open' => absurd open' closed) ?_⟩
      · intro m hm
        simpa using hm
      · exact fun token' call' same => absurd same (noToken token' call')
      · intro token' response' call' same _
        cases same
        exact List.mem_append_right _ List.mem_cons_self
    · push Not at store
      refine ⟨order, ref, aside _ (perform_tokensOnly acc.refines store faults) ?_⟩
      intro s same
      rw [routed] at same
      cases same
      exact store s rfl

/-- A request comes in; it is seen if it is one on the store. -/
lemma Accounts.arrives (acc : Accounts c key ref₀ h order ref st) {a : Attended}
    (at_ : a.stage = .arrived) {events : List StoreEvent}
    (seen : events = [.invoked st.next a.arrival] ∨
      events = [] ∧ ∀ call, a.arrival.routed c ≠ .guarded (.ok (.store call))) :
    Accounts c key ref₀ (h ++ events) order ref { st with
      requests := Function.update st.requests st.next (some a)
      next := st.next + 1 } := by
  have unseen : ∀ r, .invoked st.next r ∉ h := (acc.fresh st.next le_rfl).2
  have only : ∀ n r, .invoked n r ∈ h ++ events → .invoked n r ∈ h ∨ n = st.next := by
    intro n r mem
    rcases List.mem_append.mp mem with old | new
    · exact .inl old
    · rcases seen with rfl | ⟨rfl, _⟩
      · cases List.mem_singleton.mp new
        exact .inr rfl
      · cases new
  have unmade : st.next ∉ order.map Commit.id := by
    intro mem
    obtain ⟨x, hx, same⟩ := List.mem_map.mp mem
    exact unseen x.op (same ▸ acc.commits.linearizes.invoked x hx)
  constructor
  · rcases seen with rfl | ⟨rfl, _⟩
    · exact acc.commits.invoke st.next a.arrival unseen
    · rw [List.append_nil]
      exact acc.commits
  · exact acc.refines
  · intro n later
    have later : st.next + 1 ≤ n := later
    have other : n ≠ st.next := by omega
    refine ⟨(Function.update_of_ne other ..).trans (acc.fresh n (by omega)).1, ?_⟩
    intro r mem
    rcases only n r mem with old | same
    · exact (acc.fresh n (by omega)).2 r old
    · exact other same
  · intro n b call hb routed
    rcases update_some hb with ⟨rfl, rfl⟩ | ⟨_, hb⟩
    · rcases seen with rfl | ⟨_, other⟩
      · exact List.mem_append_right _ List.mem_cons_self
      · exact absurd routed (other call)
    · exact List.mem_append_left _ (acc.invoked n b call hb routed)
  · intro n b token call hb stage
    rcases update_some hb with ⟨rfl, rfl⟩ | ⟨_, hb⟩
    · exact nomatch at_.symm.trans stage
    · exact acc.authenticated n b token call hb stage
  · intro n b hb stage
    rcases update_some hb with ⟨rfl, rfl⟩ | ⟨_, hb⟩
    · exact unmade
    · exact acc.waiting n b hb stage
  · intro n b token response call hb stage routed
    rcases update_some hb with ⟨rfl, rfl⟩ | ⟨_, hb⟩
    · exact nomatch at_.symm.trans stage
    · exact acc.done n b token response call hb stage routed

lemma recorded_ne {a : Attended} {i : Option AuthedToken} {response : Response} {w : Bool}
    (at_ : a.stage = .answered i response) :
    some a ≠ some { a with stage := .recorded i response w } := by
  intro same
  have stages := congrArg Attended.stage (Option.some.inj same)
  exact nomatch at_.symm.trans stages

/-- Where no request comes in and none is recorded, the clients see nothing. -/
lemma Seen.quiet {events : List StoreEvent} (seen : Seen c st st' events)
    (next : st'.next = st.next)
    (unrecorded : ∀ n a i response w, st'.requests n = some a →
      a.stage = .recorded i response w → st.requests n = some a) : events = [] := by
  cases seen with
  | silent => rfl
  | arrival a call new => omega
  | response n a call token response written found answered recorded =>
    have same := unrecorded n _ _ _ _ recorded rfl
    exact absurd (found.symm.trans same) (recorded_ne answered)

/-- A request that is turned away or dropped. -/
lemma Accounts.ends (acc : Accounts c key ref₀ h order ref st) {n : Nat} {a : Attended}
    (found : st.requests n = some a) {stage : Stage}
    (noToken : ∀ token call, stage ≠ .authenticated token call) (closed : ¬ stage.isOpen)
    (unanswered : ∀ token response, stage ≠ .answered (some token) response) :
    Accounts c key ref₀ h order ref { st with
      requests := Function.update st.requests n (some { a with stage := stage }) } := by
  apply acc.still found acc.refines
  · exact fun token call same => absurd same (noToken token call)
  · exact fun open' => absurd open' closed
  · exact fun token response _ same => absurd same (unanswered token response)

/-- A request moves to its next stage; its handler may run. -/
lemma Accounts.advances (ideal : IdealAead.Ideal c.aead) (total : IdealAead.Total c.aead)
    (acc : Accounts c key ref₀ h order ref st) {n : Nat} {a : Attended} {stage : Stage} {db : Db}
    (found : st.requests n = some a)
    (moves : StageStep c key st.clock a.arrival st.db a.stage db stage) :
    ∃ order' ref', Accounts c key ref₀ h order' ref' { st with
      db := db
      requests := Function.update st.requests n (some { a with stage := stage }) } := by
  generalize at_ : a.stage = was at moves
  cases moves with
  | route response out routed replied =>
    refine ⟨order, ref, acc.ends found ?_ id ?_⟩
    · intro _ _ same
      cases same
    · intro _ _ same
      cases same
  | refuse faults call e out routed extracted replied =>
    refine ⟨order, ref, acc.ends found ?_ id ?_⟩
    · intro _ _ same
      cases same
    · intro _ _ same
      cases same
  | drop _ open' =>
    refine ⟨order, ref, acc.ends found ?_ id ?_⟩
    · intro _ _ same
      cases same
    · intro _ _ same
      cases same
  | authenticate faults token call routed extracted =>
    refine ⟨order, ref, acc.still found acc.refines ?_ ?_ ?_⟩
    · intro token' call' same
      cases same
      exact routed
    · intro _
      rw [at_]
      trivial
    · intro _ _ _ same
      cases same
  | act faults token call d out replied =>
    exact acc.acts ideal total found at_ d faults replied (.inr ⟨out, rfl, rfl⟩)
  | panic faults token call d panics =>
    exact acc.acts ideal total found at_ d faults panics (.inl ⟨rfl, rfl⟩)

/-- A request is recorded; its answer is seen if it was one on the store. -/
lemma Accounts.records (acc : Accounts c key ref₀ h order ref st) {n : Nat} {a : Attended}
    {identity : Option AuthedToken} {response : Response} {written : Bool}
    {log : List (Nat × Entry)} (found : st.requests n = some a)
    (answered : a.stage = .answered identity response) (after : st' = { st with
      requests := Function.update st.requests n
        (some { a with stage := .recorded identity response written })
      log := log })
    {events : List StoreEvent} (seen : Seen c st st' events) :
    Accounts c key ref₀ (h ++ events) order ref st' := by
  have recorded : ∀ h', (∀ m r, .invoked m r ∈ h' ↔ .invoked m r ∈ h) →
      Commits (RefStore.Served c key) ref₀ h' order ref →
      Accounts c key ref₀ h' order ref st' := by
    intro h' sameCalls commits
    rw [after]
    apply acc.moves found commits acc.refines sameCalls (fun _ hx => hx) fun _ hm => .inl hm
    · intro _ _ same
      cases same
    · exact False.elim
    · intro _ _ _ same
      cases same
  cases seen with
  | arrival b call new =>
    subst after
    exact absurd new (Nat.succ_ne_self _).symm
  | response m b call token out w found' answered' recorded' routed =>
    obtain ⟨rfl, rfl, _⟩ : m = n ∧ a = b ∧ identity = some token := by
      subst after
      rcases update_some recorded' with ⟨rfl, _⟩ | ⟨_, same⟩
      · cases found.symm.trans found'
        refine ⟨rfl, rfl, ?_⟩
        cases answered.symm.trans answered'
        rfl
      · exact absurd (found'.symm.trans same) (recorded_ne answered')
    refine recorded _ ?_ ?_
    · intro m' r
      simp
    · exact acc.commits.return ⟨m, a.arrival, token, out⟩
        (acc.done m a token out call found answered' routed)
  | silent =>
    rw [List.append_nil]
    exact recorded h (fun _ _ => Iff.rfl) acc.commits

lemma Accounts.step (ideal : IdealAead.Ideal c.aead) (total : IdealAead.Total c.aead)
    (acc : Accounts c key ref₀ h order ref st) (moved : AuditedStep c key st st')
    {events : List StoreEvent} (seen : Seen c st st' events) :
    ∃ order' ref', Accounts c key ref₀ (h ++ events) order' ref' st' := by
  cases moved with
  | arrive r faults =>
    refine ⟨order, ref, acc.arrives rfl ?_⟩
    cases seen with
    | arrival a call new found routed =>
      rcases update_some found with ⟨_, rfl⟩ | ⟨other, _⟩
      · exact .inl rfl
      · exact absurd rfl other
    | response n a call token response written found answered recorded routed =>
      rcases update_some recorded with ⟨rfl, _⟩ | ⟨_, same⟩
      · exact nomatch (acc.fresh st.next le_rfl).1.symm.trans found
      · exact absurd (found.symm.trans same) (recorded_ne answered)
    | silent noArrival _ =>
      right
      refine ⟨rfl, ?_⟩
      intro call
      exact noArrival _ call rfl (Function.update_self ..)
  | advance n a stage db found moves =>
    obtain rfl : events = [] := by
      apply seen.quiet rfl
      intro m b i response w hb recorded
      rcases update_some hb with ⟨rfl, rfl⟩ | ⟨_, hb⟩
      · exact absurd recorded (stageStep_open moves i response w).2
      · exact hb
    rw [List.append_nil]
    exact acc.advances ideal total found moves
  | record n a identity response now written found answered =>
    exact ⟨order, ref, acc.records found answered rfl seen⟩
  | command db ran =>
    obtain rfl : events = [] := seen.quiet rfl fun _ _ _ _ _ hb _ => hb
    rw [List.append_nil]
    exact ⟨order, ref, acc.aside (commandStep_refines acc.refines ran)⟩
  | tick clock later =>
    obtain rfl : events = [] := seen.quiet rfl fun _ _ _ _ _ hb _ => hb
    rw [List.append_nil]
    exact ⟨order, ref, acc.aside acc.refines⟩

lemma Accounts.run (ideal : IdealAead.Ideal c.aead) (total : IdealAead.Total c.aead) {db : Db}
    {clock : Int} (refines : Refines c key db ref₀)
    (run : Observed c key (.start db clock) h st) :
    ∃ order ref, Accounts c key ref₀ h order ref st := by
  induction run with
  | refl => exact ⟨[], ref₀, .start refines⟩
  | tail _ moved seen ih =>
    obtain ⟨order, ref, acc⟩ := ih
    exact acc.step ideal total moved seen

end Accounts

/-- Whatever runs at the same time and whatever statements fail, the requests on the store are
linearizable: the plain map, asked one request after another, gives every answer. -/
theorem concurrent_requests_linearize (ideal : IdealAead.Ideal c.aead)
    (total : IdealAead.Total c.aead) {db : Db} {clock : Int} {ref₀ : RefStore}
    (refines : Refines c key db ref₀) {h : List StoreEvent} {st : AuditedServer}
    (run : Observed c key (.start db clock) h st) :
    ∃ order ref, Linearizes (RefStore.Served c key) ref₀ h order ref ∧ Refines c key st.db ref := by
  obtain ⟨order, ref, acc⟩ := Accounts.run ideal total refines run
  exact ⟨order, ref, acc.commits.linearizes, acc.refines⟩

/-! ## Puts on one key -/

variable (c) in
/-- The request puts this value. -/
def Arrival.Puts (r : Arrival) (name secretKey value : String) : Prop :=
  r.routed c = .guarded (.ok (.store (.putSecret name secretKey (.ok ⟨value⟩))))

variable (c) in
/-- The put that took effect was answered with this version. -/
structure PutAt (name secretKey value : String) (version : Nat)
    (x : Commit Arrival (AuthedToken × Response)) : Prop where
  puts : x.op.Puts c name secretKey value
  answer : x.ret.2 = ⟨200, .version secretKey version⟩

/-- The version after the one that is stored. -/
def RefStore.nextVersion (st : RefStore) (name secretKey : String) : Nat :=
  ((st.entry name secretKey).map fun entry => entry.2 + 1).getD 1

section Puts

variable {ref ref' : RefStore} {name secretKey : String}

lemma step_put {token : AuthedToken} {now k : String} {body : Except AppError SetSecretBody}
    {version : Nat} (answered : (ref.step token now (.putSecret name secretKey body)).1 =
      ⟨200, .version k version⟩) :
    k = secretKey ∧ version = ref.nextVersion name secretKey := by
  unfold RefStore.step at answered
  cases hr : ref.call token now (.putSecret name secretKey body) with
  | error e =>
    rw [hr] at answered
    cases e <;> cases answered
  | ok out =>
    rw [hr] at answered
    obtain ⟨request, sent, hr⟩ := except_bind_ok.mp hr
    obtain ⟨_, _, hr⟩ := except_bind_ok.mp hr
    obtain ⟨_, _, hr⟩ := except_bind_ok.mp hr
    obtain ⟨_, _, hr⟩ := except_bind_ok.mp hr
    obtain ⟨p, hp, hr⟩ := except_bind_ok.mp hr
    cases hr
    cases answered
    refine ⟨rfl, ?_⟩
    unfold RefStore.nextVersion RefStore.entry
    rw [project_ok hp]
    rfl

/-- A call that does not delete the key leaves its entry, or is a put of the next version. -/
lemma step_entry (call : StoreCall) (token : AuthedToken) (d : Draws c.time)
    (kept : call ≠ .deleteSecret name secretKey) :
    (ref.step token d.writtenAt.rfc3339 call).2.entry name secretKey = ref.entry name secretKey ∨
    ∃ body, call = .putSecret name secretKey (.ok body) ∧
      (ref.step token d.writtenAt.rfc3339 call).1 =
        ⟨200, .version secretKey (ref.nextVersion name secretKey)⟩ ∧
      (ref.step token d.writtenAt.rfc3339 call).2.entry name secretKey =
        some (body.value, ref.nextVersion name secretKey) := by
  have tells : (ref.step token d.writtenAt.rfc3339 call).2.entry name secretKey = _ :=
    step_told (⟨token, call, d⟩ : StoreOp c) name secretKey
  simp only at tells
  generalize answer : (ref.step token d.writtenAt.rfc3339 call).1 = response at tells ⊢
  unfold told at tells
  split at tells
  · rename_i n k body v v' version same
    obtain ⟨op, answered⟩ := Prod.mk.inj same
    cases op
    cases answered
    by_cases here : n = name ∧ k = secretKey
    · obtain ⟨rfl, rfl⟩ := here
      rw [if_pos ⟨rfl, rfl⟩] at tells
      obtain ⟨rfl, rfl⟩ := step_put answer
      exact .inr ⟨body, rfl, rfl, tells⟩
    · rw [if_neg here] at tells
      exact .inl tells
  · rename_i n k v b same
    obtain ⟨op, _⟩ := Prod.mk.inj same
    cases op
    have elsewhere : ¬ (n = name ∧ k = secretKey) := by
      rintro ⟨rfl, rfl⟩
      exact kept rfl
    rw [if_neg elsewhere] at tells
    exact .inl tells
  · exact .inl tells

lemma reply_version {m : Method} {response : Response} {status version : Nat} {k : String}
    (replied : reply m (.ok response) = some ⟨status, .version k version⟩) :
    response = ⟨status, .version k version⟩ := by
  simp only [reply] at replied
  split at replied
  · cases congrArg Response.body (Option.some.inj replied)
  · exact Option.some.inj replied

/-- A put answered with a version stored its value at the next one. -/
lemma served_put {r : Arrival} {value : String} {version : Nat} {token : AuthedToken}
    (puts : r.Puts c name secretKey value)
    (served : ref.Served c key r (token, ⟨200, .version secretKey version⟩) ref') :
    version = ref.nextVersion name secretKey ∧
      ref'.entry name secretKey = some (value, version) := by
  cases served with
  | answered call token d out routed replied =>
    obtain rfl : call = .putSecret name secretKey (.ok ⟨value⟩) := by
      cases puts.symm.trans routed
      rfl
    have answered := reply_version replied
    obtain ⟨_, next⟩ := step_put answered
    have tells : (ref.step token d.writtenAt.rfc3339
        (.putSecret name secretKey (.ok ⟨value⟩))).2.entry name secretKey = _ :=
      step_told (⟨token, .putSecret name secretKey (.ok ⟨value⟩), d⟩ : StoreOp c) name secretKey
    rw [answered] at tells
    refine ⟨next, tells.trans ?_⟩
    exact if_pos ⟨rfl, rfl⟩
  | broken call token d out after routed replied =>
    unfold reply brokenStatement at replied
    have status := congrArg Response.status (Option.some.inj replied)
    split at status <;> cases status

lemma served_entry {r : Arrival} {ret : AuthedToken × Response}
    (kept : r.routed c ≠ .guarded (.ok (.store (.deleteSecret name secretKey))))
    (served : ref.Served c key r ret ref') :
    ref'.entry name secretKey = ref.entry name secretKey ∨
      ∃ value, ref'.entry name secretKey = some (value, ref.nextVersion name secretKey) := by
  have stepped : ∀ (call : StoreCall) (token : AuthedToken) (d : Draws c.time),
      r.routed c = .guarded (.ok (.store call)) →
      (ref.step token d.writtenAt.rfc3339 call).2.entry name secretKey = ref.entry name secretKey ∨
      ∃ value, (ref.step token d.writtenAt.rfc3339 call).2.entry name secretKey =
        some (value, ref.nextVersion name secretKey) := by
    intro call token d routed
    have other : call ≠ .deleteSecret name secretKey := by
      rintro rfl
      exact kept routed
    rcases step_entry call token d other with same | ⟨body, _, _, put⟩
    · exact .inl same
    · exact .inr ⟨body.value, put⟩
  cases served with
  | answered call token d out routed => exact stepped call token d routed
  | broken call token d out after routed _ _ _ _ _ _ _ made =>
    rcases made with rfl | ⟨_, rfl⟩
    · exact .inl rfl
    · exact stepped call token d routed

variable (c) in
/-- The versions of the answered puts rise, and the last of them or a later put is stored. -/
structure Counted (name secretKey : String)
    (order : List (Commit Arrival (AuthedToken × Response))) (ref : RefStore) : Prop where
  rises : ∀ a b value value' v v', List.Sublist [a, b] order →
    PutAt c name secretKey value v a → PutAt c name secretKey value' v' b → v < v'
  stored : ∀ a value v, a ∈ order → PutAt c name secretKey value v a → ∃ value' latest,
    ref.entry name secretKey = some (value', latest) ∧ v ≤ latest ∧ (v = latest → value' = value)

lemma Counted.snoc {order : List (Commit Arrival (AuthedToken × Response))}
    {x : Commit Arrival (AuthedToken × Response)} (counted : Counted c name secretKey order ref)
    (kept : x.op.routed c ≠ .guarded (.ok (.store (.deleteSecret name secretKey))))
    (served : ref.Served c key x.op x.ret ref') :
    Counted c name secretKey (order ++ [x]) ref' := by
  -- a version that was answered lies below the next one
  have below : ∀ a value v, a ∈ order → PutAt c name secretKey value v a →
      v < ref.nextVersion name secretKey := by
    intro a value v ha put
    obtain ⟨_, latest, entry, le, _⟩ := counted.stored a value v ha put
    unfold RefStore.nextVersion
    rw [entry]
    exact Nat.lt_succ_of_le le
  have last : ∀ value v, PutAt c name secretKey value v x →
      v = ref.nextVersion name secretKey ∧ ref'.entry name secretKey = some (value, v) := by
    intro value v put
    obtain ⟨id, op, token, response⟩ := x
    obtain rfl : response = ⟨200, .version secretKey v⟩ := put.answer
    exact served_put put.puts served
  constructor
  · intro a b value value' v v' inOrder put put'
    rcases pair_sublist_concat.mp inOrder with old | ⟨ha, rfl⟩
    · exact counted.rises a b value value' v v' old put put'
    · rw [(last value' v' put').1]
      exact below a value v ha put
  · intro a value v ha put
    rcases List.mem_append.mp ha with old | new
    · obtain ⟨value', latest, entry, le, same⟩ := counted.stored a value v old put
      rcases served_entry kept served with unchanged | ⟨value'', next⟩
      · exact ⟨value', latest, unchanged.trans entry, le, same⟩
      · have less := below a value v old put
        exact ⟨value'', _, next, less.le, fun equal => absurd equal less.ne⟩
    · obtain rfl := List.mem_singleton.mp new
      exact ⟨value, v, (last value v put).2, le_rfl, fun _ => rfl⟩

end Puts

variable (c) in
/-- A put that was answered with a version. -/
structure AnsweredPut (h : List StoreEvent) (name secretKey : String) (n : Nat) (r : Arrival)
    (value : String) (token : AuthedToken) (version : Nat) : Prop where
  invoked : .invoked n r ∈ h
  puts : r.Puts c name secretKey value
  returned : .returned n (token, ⟨200, .version secretKey version⟩) ∈ h

lemma AnsweredPut.commit {ref₀ ref : RefStore} {h : List StoreEvent}
    {order : List (Commit Arrival (AuthedToken × Response))} {name secretKey value : String}
    {n version : Nat} {r : Arrival} {token : AuthedToken}
    (put : AnsweredPut c h name secretKey n r value token version)
    (commits : Commits (RefStore.Served c key) ref₀ h order ref) :
    ∃ x ∈ order, x.id = n ∧ x.op = r ∧ PutAt c name secretKey value version x := by
  obtain ⟨x, hx, rfl, ret⟩ := commits.linearizes.returned _ _ put.returned
  have same : x.op = r :=
    commits.invoked_unique (commits.linearizes.invoked x hx) put.invoked
  refine ⟨x, hx, rfl, same, ?_, ?_⟩
  · rw [same]
    exact put.puts
  · rw [ret]

section Steps

variable {start st : AuditedServer} {h : List StoreEvent} {a : Attended}

lemma seen_arrive {call : StoreCall} (routed : a.arrival.routed c = .guarded (.ok (.store call))) :
    Seen c st { st with
      requests := Function.update st.requests st.next (some a)
      next := st.next + 1 } [.invoked st.next a.arrival] :=
  .arrival a call rfl (Function.update_self ..) routed

lemma Observed.arrive (before : Observed c key start h st) {r : Arrival} (faults : List Bool)
    {call : StoreCall} (routed : r.routed c = .guarded (.ok (.store call))) :
    Observed c key start (h ++ [.invoked st.next r]) { st with
      requests := Function.update st.requests st.next (some
        ⟨r, (resolveTokenName c r.authorization st.clock ⟨st.db, faults⟩).1,
          faults.head? ≠ some true, st.db.tokens, st.clock, .arrived⟩)
      next := st.next + 1 } := by
  exact before.tail (.arrive st r faults) (seen_arrive routed)

lemma Observed.advance (before : Observed c key start h st) {n : Nat} {stage : Stage} {db : Db}
    (found : st.requests n = some a)
    (moves : StageStep c key st.clock a.arrival st.db a.stage db stage) :
    Observed c key start h { st with
      db := db
      requests := Function.update st.requests n (some { a with stage := stage }) } := by
  have quiet : Seen c st { st with
      db := db
      requests := Function.update st.requests n (some { a with stage := stage }) } [] := by
    constructor
    · intro _ _ new
      exact absurd new (Nat.succ_ne_self _).symm
    · intro m b call token response written found answered recorded
      rcases update_some recorded with ⟨rfl, same⟩ | ⟨_, same⟩
      · exact absurd (congrArg Attended.stage same) (stageStep_open moves _ _ _).2
      · exact absurd (found.symm.trans same) (recorded_ne answered)
  have next := before.tail (.advance st n a stage db found moves) quiet
  rwa [List.append_nil] at next

lemma Observed.record (before : Observed c key start h st) {n : Nat} {token : AuthedToken}
    {response : Response} (now : Reading c.time) (written : Bool) {call : StoreCall}
    (found : st.requests n = some a) (answered : a.stage = .answered (some token) response)
    (routed : a.arrival.routed c = .guarded (.ok (.store call))) :
    Observed c key start (h ++ [.returned n (token, response)]) { st with
      requests := Function.update st.requests n
        (some { a with stage := .recorded (some token) response written })
      log := if written then
          st.log ++ [(n, auditEntry c a.arrival a.tokenName now response.status)]
        else st.log } :=
  before.tail (.record st n a _ response now written found answered)
    (.response n a call token response written found answered (Function.update_self ..) routed)

end Steps

def putArrival : Arrival :=
  ⟨bearerRequest .put "/v1/projects/app/secrets/KEY" "tok" "\x7b\"value\":\"v\"\x7d", ""⟩

/-- The request that came in later is the first to act. -/
def overlappingPuts : List StoreEvent :=
  [.invoked 0 putArrival, .invoked 1 putArrival,
    .returned 0 (rootIdentity, ⟨200, .version "KEY" 2⟩),
    .returned 1 (rootIdentity, ⟨200, .version "KEY" 1⟩)]

lemma putArrival_puts : putArrival.Puts framedServer "app" "KEY" "v" := by
  have found : matchRoute (pathSegments putArrival.path) = some (.secret "app" "KEY") := by decide
  apply routed_of_call found (by simp)
  rfl

def appRef : RefStore :=
  ((∅ : RefStore).step rootIdentity (epochDraws "").writtenAt.rfc3339
    (.createProject (.ok ⟨"app"⟩))).2

lemma projectDb_refines : Refines framedServer [7] projectDb appRef :=
  (serve_refines Framing.framedAead_ideal Framing.framedAead_total
    (refines_empty (by decide : rootDb.Conforms) rfl)
    ⟨rootIdentity, .createProject (.ok ⟨"app"⟩), epochDraws ""⟩).2

def attendedPut (stage : Stage) : Attended :=
  ⟨putArrival, (resolveTokenName framedServer putArrival.authorization 0 ⟨projectDb, []⟩).1, true,
    projectDb.tokens, 0, stage⟩

def putCall : Except Unit Call := .ok (.store (.putSecret "app" "KEY" (.ok ⟨"v"⟩)))

def dbAfterPut (db : Db) : Db :=
  (handleCall framedServer [7] rootIdentity putCall (epochDraws "") ⟨db, []⟩).2.store

/-- The put of a server with the project is let in. -/
lemma put_authenticates : StageStep framedServer [7] 0 putArrival projectDb .arrived projectDb
    (.authenticated rootIdentity putCall) :=
  .authenticate projectDb [] rootIdentity putCall putArrival_puts (by decide)

lemma put_acts {db : Db} (version : Nat)
    (served : (handleCall framedServer [7] rootIdentity putCall (epochDraws "") ⟨db, []⟩).1 =
      .ok ⟨200, .version "KEY" version⟩) :
    StageStep framedServer [7] 0 putArrival db (.authenticated rootIdentity putCall) (dbAfterPut db)
      (.answered (some rootIdentity) ⟨200, .version "KEY" version⟩) := by
  apply StageStep.act db [] rootIdentity putCall (epochDraws "")
  rw [served]
  rfl

lemma overlappingPuts_observed :
    ∃ st, Observed framedServer [7] (.start projectDb 0) overlappingPuts st := by
  have begun : Observed framedServer [7] (.start projectDb 0) [] (.start projectDb 0) := .refl
  have arrived := (begun.arrive [] putArrival_puts).arrive [] putArrival_puts
  have first := arrived.advance (n := 0) (a := attendedPut .arrived) rfl put_authenticates
  have both := first.advance (n := 1) (a := attendedPut .arrived) rfl put_authenticates
  have later := both.advance (n := 1)
    (a := attendedPut (.authenticated rootIdentity putCall)) rfl (put_acts 1 rfl)
  have earlier := later.advance (n := 0)
    (a := attendedPut (.authenticated rootIdentity putCall)) rfl (put_acts 2 rfl)
  have answered := earlier.record (n := 0)
    (a := attendedPut (.answered (some rootIdentity) ⟨200, .version "KEY" 2⟩)) epoch true rfl rfl
    putArrival_puts
  exact ⟨_, answered.record (n := 1)
    (a := attendedPut (.answered (some rootIdentity) ⟨200, .version "KEY" 1⟩)) epoch true rfl rfl
    putArrival_puts⟩

theorem concurrent_requests_linearize_overlappingPuts : ∃ st order ref,
    Observed framedServer [7] (.start projectDb 0) overlappingPuts st ∧
    Linearizes (RefStore.Served framedServer [7]) appRef overlappingPuts order ref ∧
    Refines framedServer [7] st.db ref := by
  obtain ⟨st, run⟩ := overlappingPuts_observed
  obtain ⟨order, ref, both⟩ := concurrent_requests_linearize Framing.framedAead_ideal
    Framing.framedAead_total projectDb_refines run
  exact ⟨st, order, ref, run, both⟩

end SecretsManager
