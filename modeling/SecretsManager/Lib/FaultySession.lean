import Mathlib.Tactic

/-!
# Sessions of statements that may fail

A program issues statements against a store. The session carries the outcome of
every statement still to come: a failed statement leaves the store alone and
ends the program, and past the end of the list every statement goes through.
A transaction gives back the store it began with unless its commit, itself a
statement, goes through. Nothing here says what the store is.
-/

namespace FaultySession

variable {σ ε ε' α β γ : Type}

structure Session (σ : Type) where
  store : σ
  faults : List Bool

def Prog (σ ε α : Type) : Type := Session σ → Except ε α × Session σ

instance : Monad (Prog σ ε) where
  pure a := fun s => (.ok a, s)
  bind m f := fun s =>
    match m s with
    | (.ok a, s') => f a s'
    | (.error e, s') => (.error e, s')

def fail (e : ε) : Prog σ ε α := fun s => (.error e, s)

def lift (r : Except ε α) : Prog σ ε α := fun s => (r, s)

/-- One statement: it fails with `e` when its fault says so, and otherwise
computes `f`, which may refuse (a constraint) and then changes nothing. -/
def statement (e : ε) (f : σ → Except ε (α × σ)) : Prog σ ε α := fun s =>
  match s.faults with
  | true :: rest => (.error e, ⟨s.store, rest⟩)
  | faults =>
    match f s.store with
    | .ok (a, store) => (.ok a, ⟨store, faults.tail⟩)
    | .error e' => (.error e', ⟨s.store, faults.tail⟩)

def query (e : ε) (f : σ → α) : Prog σ ε α := statement e fun s => .ok (f s, s)

def update (e : ε) (f : σ → σ) : Prog σ ε Unit := statement e fun s => .ok ((), f s)

/-- Begin, the body, commit: the first and the last are statements too. -/
def bracketed (e : ε) (body : Prog σ ε α) : Prog σ ε α := do
  update e id
  let a ← body
  update e id
  pure a

/-- On any error the store is the one the transaction began with. -/
def transaction (e : ε) (body : Prog σ ε α) : Prog σ ε α := fun s =>
  match bracketed e body s with
  | (.ok a, s') => (.ok a, s')
  | (.error e', s') => (.error e', ⟨s.store, s'.faults⟩)

def mapError (f : ε → ε') (m : Prog σ ε α) : Prog σ ε' α := fun s =>
  match m s with
  | (.ok a, s') => (.ok a, s')
  | (.error e, s') => (.error (f e), s')

/-- Run to the end with no fault at all. -/
def run (m : Prog σ ε α) (store : σ) : Except ε α × σ :=
  ((m ⟨store, []⟩).1, (m ⟨store, []⟩).2.store)

/-! ## Running a program whose statements all go through -/

@[simp] theorem pure_apply (a : α) (s : Session σ) :
    (pure a : Prog σ ε α) s = (.ok a, s) := rfl

@[simp] theorem fail_apply (e : ε) (s : Session σ) :
    (fail e : Prog σ ε α) s = (.error e, s) := rfl

@[simp] theorem lift_ok (a : α) : (lift (.ok a) : Prog σ ε α) = pure a := rfl

@[simp] theorem lift_error (e : ε) : (lift (.error e) : Prog σ ε α) = fail e := rfl

theorem bind_apply (m : Prog σ ε α) (f : α → Prog σ ε β) (s : Session σ) :
    (m >>= f) s = match m s with
      | (.ok a, s') => f a s'
      | (.error e, s') => (.error e, s') := rfl

@[simp] theorem pure_bind' (a : α) (f : α → Prog σ ε β) : (pure a >>= f) = f a := rfl

@[simp] theorem fail_bind (e : ε) (f : α → Prog σ ε β) : (fail e >>= f) = fail e := rfl

@[simp] theorem mapError_pure (f : ε → ε') (a : α) :
    mapError f (pure a : Prog σ ε α) = pure a := rfl

@[simp] theorem mapError_fail (f : ε → ε') (e : ε) :
    mapError f (fail e : Prog σ ε α) = fail (f e) := rfl

@[simp] theorem query_nil (e : ε) (f : σ → α) (store : σ) :
    query e f ⟨store, []⟩ = (.ok (f store), ⟨store, []⟩) := rfl

@[simp] theorem update_nil (e : ε) (f : σ → σ) (store : σ) :
    update e f ⟨store, []⟩ = (.ok (), ⟨f store, []⟩) := rfl

theorem statement_nil (e : ε) (f : σ → Except ε (α × σ)) (store : σ) :
    statement e f ⟨store, []⟩ = match f store with
      | .ok (a, store') => (.ok a, ⟨store', []⟩)
      | .error e' => (.error e', ⟨store, []⟩) := rfl

theorem mapError_apply (f : ε → ε') (m : Prog σ ε α) (s : Session σ) :
    mapError f m s = match m s with
      | (.ok a, s') => (.ok a, s')
      | (.error e, s') => (.error (f e), s') := rfl

theorem mapError_ok {f : ε → ε'} {r : Except ε α} {a : α} (h : r.mapError f = .ok a) :
    r = .ok a := by
  cases r with
  | ok b => exact congrArg _ (Except.ok.inj h)
  | error e => cases h

/-! ## Triples: what holds after a program, wherever it stops

`E` is what is left behind by an error, so every statement asks for it of the
store it starts from: the statement may fail before it does anything. -/

def Triple (P : σ → Prop) (m : Prog σ ε α) (Q : α → σ → Prop) (E : σ → Prop) : Prop :=
  ∀ s, P s.store →
    match m s with
    | (.ok a, s') => Q a s'.store
    | (.error _, s') => E s'.store

variable {P P' E E' : σ → Prop} {Q Q' : α → σ → Prop}

theorem Triple.pure {a : α} (h : ∀ s, P s → Q a s) :
    Triple P (Pure.pure a : Prog σ ε α) Q E := fun s hs => h s.store hs

theorem Triple.fail {e : ε} (h : ∀ s, P s → E s) :
    Triple P (FaultySession.fail e : Prog σ ε α) Q E := fun s hs => h s.store hs

theorem Triple.lift {r : Except ε α} (ok : ∀ a, r = .ok a → ∀ s, P s → Q a s)
    (error : ∀ e, r = .error e → ∀ s, P s → E s) :
    Triple P (FaultySession.lift r : Prog σ ε α) Q E := by
  intro s hs
  cases r with
  | ok a => exact ok a rfl s.store hs
  | error e => exact error e rfl s.store hs

theorem Triple.bind {m : Prog σ ε α} {f : α → Prog σ ε β} {R : α → σ → Prop}
    {Q : β → σ → Prop} (first : Triple P m R E) (next : ∀ a, Triple (R a) (f a) Q E) :
    Triple P (m >>= f) Q E := by
  intro s hs
  have hm := first s hs
  rw [bind_apply]
  rcases hr : m s with ⟨_ | a, s'⟩
  · simpa only [hr] using hm
  · rw [hr] at hm
    exact next a s' hm

theorem Triple.conseq {m : Prog σ ε α} (h : Triple P m Q E) (pre : ∀ s, P' s → P s)
    (post : ∀ a s, Q a s → Q' a s) (err : ∀ s, E s → E' s) : Triple P' m Q' E' := by
  intro s hs
  have hm := h s (pre s.store hs)
  rcases hr : m s with ⟨_ | a, s'⟩
  · rw [hr] at hm
    exact err _ hm
  · rw [hr] at hm
    exact post a _ hm

/-- A precondition is met by one store at a time. -/
theorem Triple.pin {m : Prog σ ε α} (h : ∀ s, P s → Triple (fun s' => s' = s) m Q E) :
    Triple P m Q E := fun s hs => h s.store hs s rfl

theorem Triple.statement {e : ε} {f : σ → Except ε (α × σ)} (stays : ∀ s, P s → E s)
    (moves : ∀ s a s', P s → f s = .ok (a, s') → Q a s') :
    Triple P (FaultySession.statement e f) Q E := by
  intro s hs
  rcases s with ⟨store, faults⟩
  have done : ∀ rest, match (match f store with
      | .ok (a, store') => (Except.ok a, (⟨store', rest⟩ : Session σ))
      | .error e' => (.error e', ⟨store, rest⟩)) with
      | (.ok a, s') => Q a s'.store
      | (.error _, s') => E s'.store := by
    intro rest
    cases hf : f store with
    | ok r => exact moves store r.1 r.2 hs hf
    | error e' => exact stays store hs
  match faults with
  | [] => exact done _
  | true :: rest => exact stays store hs
  | false :: rest => exact done _

theorem Triple.query {e : ε} {f : σ → α} (stays : ∀ s, P s → E s)
    (reads : ∀ s, P s → Q (f s) s) : Triple P (FaultySession.query e f) Q E := by
  refine Triple.statement stays ?_
  intro s a s' hs hf
  cases hf
  exact reads s hs

theorem Triple.update {e : ε} {f : σ → σ} {Q : Unit → σ → Prop} (stays : ∀ s, P s → E s)
    (moves : ∀ s, P s → Q () (f s)) : Triple P (FaultySession.update e f) Q E := by
  refine Triple.statement stays ?_
  intro s a s' hs hf
  cases hf
  exact moves s hs

theorem Triple.mapError {f : ε → ε'} {m : Prog σ ε α} (h : Triple P m Q E) :
    Triple P (FaultySession.mapError f m) Q E := by
  intro s hs
  have hm := h s hs
  rw [mapError_apply]
  rcases hr : m s with ⟨_ | a, s'⟩ <;> simpa only [hr] using hm

theorem transaction_apply (e : ε) (body : Prog σ ε α) (s : Session σ) :
    transaction e body s = match bracketed e body s with
      | (.ok a, s') => (.ok a, s')
      | (.error e', s') => (.error e', ⟨s.store, s'.faults⟩) := rfl

/-- A transaction's error leaves the store as it was found. -/
theorem transaction_error {e e' : ε} {body : Prog σ ε α} {s : Session σ}
    (h : (transaction e body s).1 = .error e') :
    (transaction e body s).2.store = s.store := by
  rw [transaction_apply] at h ⊢
  rcases hr : bracketed e body s with ⟨e'' | a, s'⟩
  · rfl
  · rw [hr] at h
    cases h

theorem Triple.bracketed {e : ε} {body : Prog σ ε α} (stays : ∀ s, P s → E s)
    (whole : Triple P body Q E) (commits : ∀ a s, Q a s → E s) :
    Triple P (FaultySession.bracketed e body) Q E := by
  unfold FaultySession.bracketed
  refine Triple.bind (R := fun _ => P) (.update stays fun _ h => h) fun _ => ?_
  refine Triple.bind whole fun a => ?_
  exact Triple.bind (R := fun _ => Q a) (.update (commits a) fun _ h => h)
    fun _ => .pure fun _ h => h

/-- The body of a transaction owes nothing where it stops early. -/
theorem Triple.transaction {e : ε} {body : Prog σ ε α} (stays : ∀ s, P s → E s)
    (whole : Triple P body Q fun _ => True) :
    Triple P (FaultySession.transaction e body) Q E := by
  intro s hs
  have hm := Triple.bracketed (e := e) (fun _ _ => trivial) whole (fun _ _ _ => trivial) s hs
  rw [transaction_apply]
  rcases hr : FaultySession.bracketed e body s with ⟨e' | a, s'⟩
  · exact stays s.store hs
  · simpa only [hr] using hm

/-! ## Programs that only read -/

/-- From this store, the program leaves it as it is and returns what `Q` allows. -/
def Reads (store : σ) (m : Prog σ ε α) (Q : α → Prop) : Prop :=
  Triple (fun s => s = store) m (fun a s => s = store ∧ Q a) (fun s => s = store)

section Reads

variable {store : σ} {Q Q' : α → Prop}

theorem Reads.pure {a : α} (h : Q a) : Reads store (Pure.pure a : Prog σ ε α) Q :=
  Triple.pure fun _ hs => ⟨hs, h⟩

theorem Reads.fail {e : ε} : Reads store (FaultySession.fail e : Prog σ ε α) Q :=
  Triple.fail fun _ hs => hs

theorem Reads.lift {r : Except ε α} (h : ∀ a, r = .ok a → Q a) :
    Reads store (FaultySession.lift r : Prog σ ε α) Q :=
  Triple.lift (fun a ha _ hs => ⟨hs, h a ha⟩) fun _ _ _ hs => hs

theorem Reads.query {e : ε} {f : σ → α} (h : Q (f store)) :
    Reads store (FaultySession.query e f) Q :=
  Triple.query (fun _ hs => hs) fun _ hs => ⟨hs, hs ▸ h⟩

theorem Reads.mapError {f : ε → ε'} {m : Prog σ ε α} (h : Reads store m Q) :
    Reads store (FaultySession.mapError f m) Q :=
  Triple.mapError h

theorem Reads.mono {m : Prog σ ε α} (h : Reads store m Q) (weaker : ∀ a, Q a → Q' a) :
    Reads store m Q' :=
  h.conseq (fun _ hs => hs) (fun a _ hs => ⟨hs.1, weaker a hs.2⟩) fun _ hs => hs

/-- What comes after a read starts from the same store. -/
theorem Reads.then {m : Prog σ ε α} {f : α → Prog σ ε β} {Q' : β → σ → Prop} {E : σ → Prop}
    (first : Reads store m Q) (stays : E store)
    (next : ∀ a, Q a → Triple (fun s => s = store) (f a) Q' E) :
    Triple (fun s => s = store) (m >>= f) Q' E := by
  refine Triple.bind (first.conseq (fun _ hs => hs) (fun _ _ h => h) ?_) fun a => ?_
  · rintro s rfl
    exact stays
  · rintro s ⟨hs, ha⟩
    exact next a ha s hs

theorem Reads.bind {m : Prog σ ε α} {f : α → Prog σ ε β} {Q' : β → Prop}
    (first : Reads store m Q) (next : ∀ a, Q a → Reads store (f a) Q') :
    Reads store (m >>= f) Q' :=
  first.then rfl next

end Reads

/-- What a triple says of one run. -/
theorem Triple.elim {m : Prog σ ε α} (h : Triple P m Q E) {s : Session σ} (hs : P s.store) :
    (∃ a, (m s).1 = .ok a ∧ Q a (m s).2.store) ∨
      (∃ e, (m s).1 = .error e ∧ E (m s).2.store) := by
  have hm := h s hs
  rcases hr : m s with ⟨e | a, s'⟩
  · rw [hr] at hm
    exact Or.inr ⟨e, rfl, hm⟩
  · rw [hr] at hm
    exact Or.inl ⟨a, rfl, hm⟩

/-! ## What a program can stop with -/

/-- From this session, any error the program stops with satisfies `P`. -/
def Stops (s : Session σ) (m : Prog σ ε α) (P : ε → Prop) : Prop :=
  ∀ e, (m s).1 = .error e → P e

section Stops

variable {s : Session σ} {P : ε → Prop}

theorem Stops.pure {a : α} : Stops s (Pure.pure a : Prog σ ε α) P := by
  intro e stopped
  cases stopped

theorem Stops.fail {e : ε} (h : P e) : Stops s (FaultySession.fail e : Prog σ ε α) P := by
  intro e' stopped
  cases stopped
  exact h

theorem Stops.lift_bind {r : Except ε α} {f : α → Prog σ ε β} (error : ∀ e, r = .error e → P e)
    (next : ∀ a, r = .ok a → Stops s (f a) P) : Stops s (FaultySession.lift r >>= f) P := by
  cases r with
  | ok a => exact next a rfl
  | error e => exact Stops.fail (error e rfl)

theorem Stops.bind {m : Prog σ ε α} {f : α → Prog σ ε β} (first : Stops s m P)
    (next : ∀ a s', Stops s' (f a) P) : Stops s (m >>= f) P := by
  intro e stopped
  rw [bind_apply] at stopped
  rcases ran : m s with ⟨e' | a, s'⟩ <;> rw [ran] at stopped
  · cases stopped
    exact first e (by rw [ran])
  · exact next a s' e stopped

/-- Errors that are all made into one. -/
theorem Stops.mapError {m : Prog σ ε' α} {g : ε' → ε} (h : ∀ e, P (g e)) :
    Stops s (FaultySession.mapError g m) P := by
  intro e stopped
  rw [mapError_apply] at stopped
  rcases ran : m s with ⟨e' | a, s'⟩ <;> rw [ran] at stopped <;> cases stopped
  exact h e'

/-- A statement that the store cannot refuse only stops at a fault. -/
theorem Stops.update_pure {e : ε'} {f : σ → σ} {g : ε' → ε} {a : α}
    (faulty : s.faults ≠ [] → P (g e)) :
    Stops s (FaultySession.mapError g (FaultySession.update e f) >>= fun _ => Pure.pure a) P := by
  intro e' stopped
  rcases s with ⟨store, faults⟩
  match faults with
  | [] => cases stopped
  | true :: rest =>
      cases stopped
      exact faulty (List.cons_ne_nil _ _)
  | false :: rest => cases stopped

end Stops

/-! ## What faults can change -/

/-- The outcomes that the statements of a run came to, as far as they were listed. -/
def outcomes (m : Prog σ ε α) (s : Session σ) : List Bool :=
  s.faults.take (s.faults.length - (m s).2.faults.length)

/-- A statement of the run failed. -/
def metFault (m : Prog σ ε α) (s : Session σ) : Bool := (outcomes m s).contains true

theorem outcomes_split {m : Prog σ ε α} {s : Session σ} {spent rest : List Bool}
    (listed : s.faults = spent ++ rest) (left : (m s).2.faults = rest) :
    outcomes m s = spent := by
  simp [outcomes, listed, left]

theorem metFault_split {m : Prog σ ε α} {s : Session σ} {spent rest : List Bool}
    (listed : s.faults = spent ++ rest) (left : (m s).2.faults = rest) :
    metFault m s = spent.contains true := by
  rw [metFault, outcomes_split listed left]

theorem metFault_nil (m : Prog σ ε α) (store : σ) : metFault m ⟨store, []⟩ = false := by
  simp [metFault, outcomes]

/-- A run under faults ends as it does without them, or at one of them. -/
inductive Cut (m : Prog σ ε α) (broken : ε → Prop) (store : σ) (faults : List Bool) : Prop where
  | whole (spent rest : List Bool) (listed : faults = spent ++ rest) (clean : true ∉ spent)
      (same : m ⟨store, faults⟩ = ((m ⟨store, []⟩).1, ⟨(m ⟨store, []⟩).2.store, rest⟩))
  | short (spent rest : List Bool) (listed : faults = spent ++ rest) (faulty : true ∈ spent)
      (e : ε) (left : σ) (breaks : broken e)
      (stopped : m ⟨store, faults⟩ = (.error e, ⟨left, rest⟩))

/-- Faults only cut the program short. -/
def Degrades (m : Prog σ ε α) (broken : ε → Prop) : Prop :=
  ∀ store faults, (m ⟨store, []⟩).2.faults = [] ∧ Cut m broken store faults

section Degrades

variable {broken : ε → Prop}

/-- A program that issues no statement. -/
theorem Degrades.idle {m : Prog σ ε α} {r : Except ε α} (h : ∀ s, m s = (r, s)) :
    Degrades m broken := by
  intro store faults
  simp only [h]
  exact ⟨trivial, .whole [] faults rfl (by simp) (by simp only [h])⟩

theorem Degrades.pure {a : α} : Degrades (Pure.pure a : Prog σ ε α) broken :=
  .idle fun _ => rfl

theorem Degrades.fail {e : ε} : Degrades (FaultySession.fail e : Prog σ ε α) broken :=
  .idle fun _ => rfl

theorem Degrades.lift {r : Except ε α} : Degrades (FaultySession.lift r : Prog σ ε α) broken :=
  .idle fun _ => rfl

theorem Degrades.statement {e : ε} {f : σ → Except ε (α × σ)} (h : broken e) :
    Degrades (FaultySession.statement e f) broken := by
  intro store faults
  constructor
  · rw [statement_nil]
    cases f store <;> rfl
  · match faults with
    | [] =>
      refine .whole [] [] rfl (by simp) ?_
      rw [statement_nil]
      cases f store <;> rfl
    | true :: rest => exact .short [true] rest rfl (by simp) e store h rfl
    | false :: rest =>
      refine .whole [false] rest rfl (by simp) ?_
      rw [statement_nil]
      simp only [FaultySession.statement]
      cases f store <;> rfl

theorem Degrades.query {e : ε} {f : σ → α} (h : broken e) :
    Degrades (FaultySession.query e f) broken := .statement h

theorem Degrades.bind {m : Prog σ ε α} {f : α → Prog σ ε β} (first : Degrades m broken)
    (next : ∀ a, Degrades (f a) broken) : Degrades (m >>= f) broken := by
  intro store faults
  obtain ⟨clean, cut⟩ := first store faults
  rcases ran : m ⟨store, []⟩ with ⟨e | a, s, left⟩
  · rw [ran] at clean
    have alone : (m >>= f) ⟨store, []⟩ = (.error e, ⟨s, left⟩) := by rw [bind_apply, ran]
    refine ⟨by rw [alone]; exact clean, ?_⟩
    cases cut with
    | whole spent rest listed clean same =>
      refine .whole spent rest listed clean ?_
      rw [alone, bind_apply, same, ran]
    | short spent rest listed faulty e' after breaks stopped =>
      exact .short spent rest listed faulty e' after breaks (by rw [bind_apply, stopped])
  · rw [ran] at clean
    obtain rfl : left = [] := clean
    have alone : (m >>= f) ⟨store, []⟩ = f a ⟨s, []⟩ := by rw [bind_apply, ran]
    refine ⟨by rw [alone]; exact (next a s []).1, ?_⟩
    cases cut with
    | whole spent rest listed clean same =>
      have on : (m >>= f) ⟨store, faults⟩ = f a ⟨s, rest⟩ := by rw [bind_apply, same, ran]
      cases (next a s rest).2 with
      | whole spent' rest' listed' clean' same' =>
        refine .whole (spent ++ spent') rest' ?_ ?_ (by rw [on, alone, same'])
        · rw [listed, listed', List.append_assoc]
        · exact fun mem => (List.mem_append.mp mem).elim clean clean'
      | short spent' rest' listed' faulty e' after breaks stopped =>
        refine .short (spent ++ spent') rest' ?_ (List.mem_append_right _ faulty) e' after breaks
          (by rw [on, stopped])
        rw [listed, listed', List.append_assoc]
    | short spent rest listed faulty e' after breaks stopped =>
      exact .short spent rest listed faulty e' after breaks (by rw [bind_apply, stopped])

theorem Degrades.mapError {g : ε → ε'} {m : Prog σ ε α} {broken' : ε' → Prop}
    (h : Degrades m broken) (maps : ∀ e, broken e → broken' (g e)) :
    Degrades (FaultySession.mapError g m) broken' := by
  intro store faults
  obtain ⟨clean, cut⟩ := h store faults
  have alone : ∀ s, (FaultySession.mapError g m s).2 = (m s).2 := by
    intro s
    rw [mapError_apply]
    rcases m s with ⟨e | a, s'⟩ <;> rfl
  refine ⟨by rw [alone]; exact clean, ?_⟩
  cases cut with
  | whole spent rest listed clean same =>
    refine .whole spent rest listed clean ?_
    rw [alone, mapError_apply, mapError_apply, same]
    rcases m ⟨store, []⟩ with ⟨e | a, s⟩ <;> rfl
  | short spent rest listed faulty e left breaks stopped =>
    refine .short spent rest listed faulty (g e) left (maps e breaks) ?_
    rw [mapError_apply, stopped]

/-- Where no statement fails a run ends as it does without faults; where one does, broken. -/
theorem Degrades.ends {m : Prog σ ε α} (h : Degrades m broken) (store : σ) (faults : List Bool) :
    (metFault m ⟨store, faults⟩ = false ∧ (m ⟨store, faults⟩).1 = (m ⟨store, []⟩).1 ∧
      (m ⟨store, faults⟩).2.store = (m ⟨store, []⟩).2.store) ∨
    (metFault m ⟨store, faults⟩ = true ∧ ∃ e, broken e ∧ (m ⟨store, faults⟩).1 = .error e) := by
  cases (h store faults).2 with
  | whole spent rest listed clean same =>
    refine .inl ⟨?_, by rw [same], by rw [same]⟩
    rw [metFault_split listed (by rw [same])]
    simpa using clean
  | short spent rest listed faulty e left breaks stopped =>
    refine .inr ⟨?_, e, breaks, by rw [stopped]⟩
    rw [metFault_split listed (by rw [stopped])]
    simpa using faulty

end Degrades

end FaultySession
