import Mathlib.Logic.Relation
import Mathlib.Tactic

/-!
# Runs of a step relation

A run is a finite sequence of steps, the reflexive and transitive closure of the
step relation. What every step preserves, a run preserves.
-/

namespace Transitions

open Relation

variable {σ τ : Type} {step : σ → σ → Prop} {s t : σ}

/-- An invariant of the steps is an invariant of the runs. -/
theorem preserved {P : σ → Prop} (preserves : ∀ s t, P s → step s t → P t)
    (run : ReflTransGen step s t) (start : P s) : P t := by
  induction run with
  | refl => exact start
  | tail _ last ih => exact preserves _ _ ih last

/-- A state with a part for each actor, one of them changed: the new part or an old one. -/
theorem updated {P V : Type*} [DecidableEq P] {f : P → Option V} {p q : P} {v : Option V} {w : V}
    (found : Function.update f p v q = some w) : (q = p ∧ v = some w) ∨ (q ≠ p ∧ f q = some w) := by
  by_cases same : q = p
  · subst same
    rw [Function.update_self] at found
    exact .inl ⟨rfl, found⟩
  · rw [Function.update_of_ne same] at found
    exact .inr ⟨same, found⟩

/-! ## Runs of given actions -/

section Actions

variable {α : Type} (act : σ → α → Option σ)

/-- The state after a list of actions, if every one of them can be taken. -/
def run : σ → List α → Option σ
  | s, [] => some s
  | s, a :: rest => (act s a).bind fun s => run s rest

variable {act}

theorem run_append {s : σ} {first rest : List α} :
    run act s (first ++ rest) = (run act s first).bind fun s => run act s rest := by
  induction first generalizing s with
  | nil => rfl
  | cons a first ih =>
    simp only [List.cons_append, run]
    cases act s a with
    | none => rfl
    | some s => exact ih

/-- A run up to an action, the action, and the run after it. -/
theorem run_split {s t : σ} {first rest : List α} {a : α}
    (ran : run act s (first ++ a :: rest) = some t) :
    ∃ u v, run act s first = some u ∧ act u a = some v ∧ run act v rest = some t := by
  rw [run_append] at ran
  obtain ⟨u, reached, ran⟩ := Option.bind_eq_some_iff.mp ran
  obtain ⟨v, acted, ran⟩ := Option.bind_eq_some_iff.mp ran
  exact ⟨u, v, reached, acted, ran⟩

/-- Every action of the run is allowed where it is taken. -/
def Allowed (act : σ → α → Option σ) (ok : σ → α → Prop) (s : σ) (actions : List α) : Prop :=
  ∀ first a rest, actions = first ++ a :: rest → ∀ u, run act s first = some u → ok u a

theorem Allowed.here {ok : σ → α → Prop} {s u : σ} {first rest : List α} {a : α}
    (allowed : Allowed act ok s (first ++ a :: rest)) (reached : run act s first = some u) :
    ok u a := allowed first a rest rfl u reached

theorem Allowed.before {ok : σ → α → Prop} {s : σ} {first rest : List α}
    (allowed : Allowed act ok s (first ++ rest)) : Allowed act ok s first := by
  intro first' a rest' split u reached
  refine allowed first' a (rest' ++ rest) ?_ u reached
  rw [split]
  simp

theorem Allowed.after {ok : σ → α → Prop} {s u v : σ} {first rest : List α} {a : α}
    (allowed : Allowed act ok s (first ++ a :: rest)) (reached : run act s first = some u)
    (acted : act u a = some v) : Allowed act ok v rest := by
  intro first' b rest' split x reached'
  refine allowed (first ++ a :: first') b rest' ?_ x ?_
  · rw [split]
    simp
  · rw [run_append, reached]
    simp only [Option.bind_some, run, acted]
    exact reached'

/-- What every allowed action preserves, a run of allowed actions preserves. -/
theorem run_preserves {P : σ → Prop} {ok : σ → α → Prop}
    (preserves : ∀ s a t, P s → ok s a → act s a = some t → P t) {actions : List α} {s t : σ}
    (allowed : Allowed act ok s actions) (ran : run act s actions = some t) (start : P s) :
    P t := by
  induction actions generalizing s with
  | nil =>
    cases ran
    exact start
  | cons a rest ih =>
    obtain ⟨u, step, ran⟩ := Option.bind_eq_some_iff.mp ran
    have first : ok s a := allowed [] a rest rfl s rfl
    have later : Allowed act ok s ([] ++ a :: rest) := allowed
    have none : run act s [] = some s := rfl
    exact ih (later.after none step) ran (preserves s a u start first step)

/-- What every action preserves, a run preserves. -/
theorem run_always {P : σ → Prop} (preserves : ∀ s a t, P s → act s a = some t → P t)
    {actions : List α} {s t : σ} (ran : run act s actions = some t) (start : P s) : P t := by
  have allowed : Allowed act (fun _ _ => True) s actions := fun _ _ _ _ _ _ => trivial
  exact run_preserves (fun s a t holds _ acted => preserves s a t holds acted) allowed ran start

/-- Where every action is one actor's, an actor that can do no more keeps its phase. -/
theorem run_ended {P F : Type} (actor : α → P) (phase : σ → P → F) (done : F → Prop)
    (stuck : ∀ s a, done (phase s (actor a)) → act s a = none)
    (others : ∀ s a t p, act s a = some t → p ≠ actor a → phase t p = phase s p)
    {actions : List α} {s t : σ} {p : P} (ended : done (phase s p))
    (ran : run act s actions = some t) : phase t p = phase s p := by
  apply run_always (P := fun u => phase u p = phase s p) _ ran rfl
  intro u a v same acted
  rw [← same] at ended ⊢
  by_cases own : p = actor a
  · subst own
    cases (stuck u a ended).symm.trans acted
  · exact others u a v p acted own

/-- Tries the actions one after the other. -/
def allows (act : σ → α → Option σ) (ok : σ → α → Prop) [∀ s a, Decidable (ok s a)] :
    σ → List α → Bool
  | _, [] => true
  | s, a :: rest =>
    decide (ok s a) && match act s a with
      | some t => allows act ok t rest
      | none => true

theorem allowed_of_allows {ok : σ → α → Prop} [∀ s a, Decidable (ok s a)] {s : σ}
    {actions : List α} (checked : allows act ok s actions = true) : Allowed act ok s actions := by
  induction actions generalizing s with
  | nil =>
    intro first a rest split
    cases first <;> cases split
  | cons b actions ih =>
    obtain ⟨here, later⟩ := Bool.and_eq_true_iff.mp checked
    intro first a rest split u reached
    cases first with
    | nil =>
      cases split
      cases reached
      exact of_decide_eq_true here
    | cons b' first =>
      obtain ⟨rfl, tail⟩ := List.cons.inj split
      obtain ⟨t, acted, reached⟩ := Option.bind_eq_some_iff.mp reached
      rw [acted] at later
      exact ih later first a rest tail u reached

end Actions

end Transitions
