import SecretsManager.Lib.FaultySession

/-!
# Two runs side by side

Two programs run without faults, each from its own store. They are paired when
they end alike, with related values and stores or with the same error. They are in
lockstep when the same holds for any faults, given to both. The rules follow the
shape of the programs, so two runs of one program are taken through it together.
-/

namespace FaultySession

variable {σ ε ε' α α' β β' : Type}

/-- From these stores both programs return, `Q` holding of what they leave, or both stop
with the same error, `E` holding of the stores. -/
def Paired (store store' : σ) (m : Prog σ ε α) (m' : Prog σ ε α') (Q : α → α' → σ → σ → Prop)
    (E : σ → σ → Prop) : Prop :=
  match m ⟨store, []⟩, m' ⟨store', []⟩ with
  | (.ok a, ⟨s, []⟩), (.ok a', ⟨s', []⟩) => Q a a' s s'
  | (.error e, ⟨s, []⟩), (.error e', ⟨s', []⟩) => e = e' ∧ E s s'
  | _, _ => False

section Rules

variable {store store' : σ} {m : Prog σ ε α} {m' : Prog σ ε α'}
  {Q : α → α' → σ → σ → Prop} {E : σ → σ → Prop}

theorem Paired.pure {a : α} {a' : α'} (h : Q a a' store store') :
    Paired store store' (Pure.pure a : Prog σ ε α) (Pure.pure a') Q E := h

theorem Paired.fail {e : ε} (h : E store store') :
    Paired store store' (FaultySession.fail e : Prog σ ε α) (FaultySession.fail e) Q E := ⟨rfl, h⟩

/-- What the two runs of a pair are. -/
theorem Paired.cases (h : Paired store store' m m' Q E) :
    (∃ a a' s s', m ⟨store, []⟩ = (.ok a, ⟨s, []⟩) ∧ m' ⟨store', []⟩ = (.ok a', ⟨s', []⟩) ∧
      Q a a' s s') ∨
    ∃ e s s', m ⟨store, []⟩ = (.error e, ⟨s, []⟩) ∧ m' ⟨store', []⟩ = (.error e, ⟨s', []⟩) ∧
      E s s' := by
  unfold Paired at h
  split at h
  · rename_i a s a' s' ran ran'
    exact Or.inl ⟨a, a', s, s', ran, ran', h⟩
  · rename_i e s e' s' ran ran'
    obtain ⟨rfl, h⟩ := h
    exact Or.inr ⟨e, s, s', ran, ran', h⟩
  · exact h.elim

theorem Paired.of_ok {a : α} {a' : α'} {s s' : σ} (ran : m ⟨store, []⟩ = (.ok a, ⟨s, []⟩))
    (ran' : m' ⟨store', []⟩ = (.ok a', ⟨s', []⟩)) (h : Q a a' s s') :
    Paired store store' m m' Q E := by
  unfold Paired
  rw [ran, ran']
  exact h

theorem Paired.of_error {e : ε} {s s' : σ} (ran : m ⟨store, []⟩ = (.error e, ⟨s, []⟩))
    (ran' : m' ⟨store', []⟩ = (.error e, ⟨s', []⟩)) (h : E s s') :
    Paired store store' m m' Q E := by
  unfold Paired
  rw [ran, ran']
  exact ⟨rfl, h⟩

theorem Paired.bind {f : α → Prog σ ε β} {f' : α' → Prog σ ε β'} {R : α → α' → σ → σ → Prop}
    {Q : β → β' → σ → σ → Prop} (first : Paired store store' m m' R E)
    (next : ∀ a a' s s', R a a' s s' → Paired s s' (f a) (f' a') Q E) :
    Paired store store' (m >>= f) (m' >>= f') Q E := by
  rcases first.cases with ⟨a, a', s, s', ran, ran', related⟩ | ⟨e, s, s', ran, ran', related⟩
  · have later := next a a' s s' related
    unfold Paired at later ⊢
    rw [bind_apply, bind_apply, ran, ran']
    exact later
  · exact .of_error (by rw [bind_apply, ran]) (by rw [bind_apply, ran']) related

theorem Paired.mapError {f : ε → ε'} (h : Paired store store' m m' Q E) :
    Paired store store' (FaultySession.mapError f m) (FaultySession.mapError f m') Q E := by
  rcases h.cases with ⟨a, a', s, s', ran, ran', related⟩ | ⟨e, s, s', ran, ran', related⟩
  · exact .of_ok (by rw [mapError_apply, ran]) (by rw [mapError_apply, ran']) related
  · exact .of_error (by rw [mapError_apply, ran]) (by rw [mapError_apply, ran']) related

/-- One statement that goes through in both runs. -/
theorem Paired.statement {e : ε} {f : σ → Except ε (α × σ)} {f' : σ → Except ε (α' × σ)}
    {a : α} {a' : α'} {s s' : σ} (moves : f store = .ok (a, s)) (moves' : f' store' = .ok (a', s'))
    (h : Q a a' s s') :
    Paired store store' (FaultySession.statement e f) (FaultySession.statement e f') Q E := by
  exact .of_ok (by rw [statement_nil, moves]) (by rw [statement_nil, moves']) h

theorem Paired.query {e : ε} {q : σ → α} {q' : σ → α'} (h : Q (q store) (q' store') store store') :
    Paired store store' (FaultySession.query e q) (FaultySession.query e q') Q E :=
  .statement rfl rfl h

/-- The same pure result in both runs. -/
theorem Paired.lift_then {r : Except ε α} {f : α → Prog σ ε β} {f' : α → Prog σ ε β'}
    {Q : β → β' → σ → σ → Prop} (stays : E store store')
    (next : ∀ a, r = .ok a → Paired store store' (f a) (f' a) Q E) :
    Paired store store' (FaultySession.lift r >>= f) (FaultySession.lift r >>= f') Q E := by
  cases r with
  | ok a => exact next a rfl
  | error e => exact ⟨rfl, stays⟩

/-- Two reads, each of its own store. -/
theorem Paired.query_then {e : ε'} {g : ε' → ε} {q q' : σ → α} {f f' : α → Prog σ ε β}
    {Q : β → β → σ → σ → Prop} (next : Paired store store' (f (q store)) (f' (q' store')) Q E) :
    Paired store store' (FaultySession.mapError g (FaultySession.query e q) >>= f)
      (FaultySession.mapError g (FaultySession.query e q') >>= f') Q E := next

/-- Programs that are paired on equal values end with the same result. -/
theorem Paired.run_eq {m m' : Prog σ ε α}
    (h : Paired store store' m m' (fun a a' s s' => a = a' ∧ E s s') E) :
    (run m store).1 = (run m' store').1 ∧ E (run m store).2 (run m' store').2 := by
  unfold run
  rcases h.cases with ⟨a, a', s, s', ran, ran', rfl, related⟩ | ⟨e, s, s', ran, ran', related⟩ <;>
    rw [ran, ran'] <;> exact ⟨rfl, related⟩

end Rules

/-! ## Runs that meet the same faults -/

/-- With the same faults to come both programs return, `Q` holding of what they leave, or both stop
with the same error, `E` holding of the stores; as many statements have been issued. -/
def Lockstep (store store' : σ) (m : Prog σ ε α) (m' : Prog σ ε α')
    (Q : α → α' → σ → σ → Prop) (E : σ → σ → Prop) : Prop :=
  ∀ faults, match m ⟨store, faults⟩, m' ⟨store', faults⟩ with
    | (.ok a, s), (.ok a', s') => s.faults = s'.faults ∧ Q a a' s.store s'.store
    | (.error e, s), (.error e', s') => s.faults = s'.faults ∧ e = e' ∧ E s.store s'.store
    | _, _ => False

section LockstepRules

variable {store store' : σ} {m : Prog σ ε α} {m' : Prog σ ε α'}
  {Q : α → α' → σ → σ → Prop} {E : σ → σ → Prop}

theorem Lockstep.pure {a : α} {a' : α'} (h : Q a a' store store') :
    Lockstep store store' (Pure.pure a : Prog σ ε α) (Pure.pure a') Q E := fun _ => ⟨rfl, h⟩

theorem Lockstep.fail {e : ε} (h : E store store') :
    Lockstep store store' (FaultySession.fail e : Prog σ ε α) (FaultySession.fail e : Prog σ ε α')
      Q E :=
  fun _ => ⟨rfl, rfl, h⟩

theorem Lockstep.cases (h : Lockstep store store' m m' Q E) (faults : List Bool) :
    (∃ a a' s s' rest, m ⟨store, faults⟩ = (.ok a, ⟨s, rest⟩) ∧
      m' ⟨store', faults⟩ = (.ok a', ⟨s', rest⟩) ∧ Q a a' s s') ∨
    ∃ e s s' rest, m ⟨store, faults⟩ = (.error e, ⟨s, rest⟩) ∧
      m' ⟨store', faults⟩ = (.error e, ⟨s', rest⟩) ∧ E s s' := by
  have both := h faults
  rcases ran : m ⟨store, faults⟩ with ⟨_ | _, s, rest⟩ <;>
    rcases ran' : m' ⟨store', faults⟩ with ⟨_ | _, s', rest'⟩ <;> rw [ran, ran'] at both
  · obtain ⟨rfl, rfl, related⟩ := both
    exact Or.inr ⟨_, s, s', rest, rfl, rfl, related⟩
  · exact both.elim
  · exact both.elim
  · obtain ⟨rfl, related⟩ := both
    exact Or.inl ⟨_, _, s, s', rest, rfl, rfl, related⟩

theorem Lockstep.conseq {Q' : α → α' → σ → σ → Prop} (h : Lockstep store store' m m' Q E)
    (weaker : ∀ a a' s s', Q a a' s s' → Q' a a' s s') : Lockstep store store' m m' Q' E := by
  intro faults
  rcases h.cases faults with
    ⟨a, a', s, s', rest, ran, ran', related⟩ | ⟨e, s, s', rest, ran, ran', related⟩
  · rw [ran, ran']
    exact ⟨rfl, weaker a a' s s' related⟩
  · rw [ran, ran']
    exact ⟨rfl, rfl, related⟩

theorem Lockstep.bind {f : α → Prog σ ε β} {f' : α' → Prog σ ε β'} {R : α → α' → σ → σ → Prop}
    {Q : β → β' → σ → σ → Prop} (first : Lockstep store store' m m' R E)
    (next : ∀ a a' s s', R a a' s s' → Lockstep s s' (f a) (f' a') Q E) :
    Lockstep store store' (m >>= f) (m' >>= f') Q E := by
  intro faults
  rcases first.cases faults with
    ⟨a, a', s, s', rest, ran, ran', related⟩ | ⟨e, s, s', rest, ran, ran', related⟩
  · have later := next a a' s s' related rest
    rw [bind_apply, bind_apply, ran, ran']
    exact later
  · rw [bind_apply, bind_apply, ran, ran']
    exact ⟨rfl, rfl, related⟩

theorem Lockstep.mapError {g : ε → ε'} (h : Lockstep store store' m m' Q E) :
    Lockstep store store' (FaultySession.mapError g m) (FaultySession.mapError g m') Q E := by
  intro faults
  rcases h.cases faults with
    ⟨a, a', s, s', rest, ran, ran', related⟩ | ⟨e, s, s', rest, ran, ran', related⟩
  · rw [mapError_apply, mapError_apply, ran, ran']
    exact ⟨rfl, related⟩
  · rw [mapError_apply, mapError_apply, ran, ran']
    exact ⟨rfl, rfl, related⟩

/-- One statement that goes through in both runs, or fails in both. -/
theorem Lockstep.statement {e : ε} {f : σ → Except ε (α × σ)} {f' : σ → Except ε (α' × σ)}
    {a : α} {a' : α'} {s s' : σ} (stays : E store store') (moves : f store = .ok (a, s))
    (moves' : f' store' = .ok (a', s')) (h : Q a a' s s') :
    Lockstep store store' (FaultySession.statement e f) (FaultySession.statement e f') Q E := by
  rintro (_ | ⟨_ | _, faults⟩)
  · simp only [FaultySession.statement, moves, moves']
    exact ⟨trivial, h⟩
  · simp only [FaultySession.statement, moves, moves']
    exact ⟨trivial, h⟩
  · exact ⟨rfl, rfl, stays⟩

theorem Lockstep.query {e : ε} {q : σ → α} {q' : σ → α'} (stays : E store store')
    (h : Q (q store) (q' store') store store') :
    Lockstep store store' (FaultySession.query e q) (FaultySession.query e q') Q E :=
  .statement stays rfl rfl h

theorem Lockstep.update {e : ε} {f f' : σ → σ} {Q : Unit → Unit → σ → σ → Prop}
    (stays : E store store') (h : Q () () (f store) (f' store')) :
    Lockstep store store' (FaultySession.update e f) (FaultySession.update e f') Q E :=
  .statement stays rfl rfl h

/-- The same pure result in both runs. -/
theorem Lockstep.lift_then {r : Except ε α} {f : α → Prog σ ε β} {f' : α → Prog σ ε β'}
    {Q : β → β' → σ → σ → Prop} (stays : E store store')
    (next : ∀ a, r = .ok a → Lockstep store store' (f a) (f' a) Q E) :
    Lockstep store store' (FaultySession.lift r >>= f) (FaultySession.lift r >>= f') Q E := by
  cases r with
  | ok a => exact next a rfl
  | error e => exact .fail stays

end LockstepRules

end FaultySession
