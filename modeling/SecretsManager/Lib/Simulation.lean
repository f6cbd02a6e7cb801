import Mathlib.Logic.Relation
import Mathlib.Tactic

/-!
# Simulation of a system by a specification

A system takes steps, and each step shows some events. A specification does one event
after another. The system is simulated if the specification can do whatever the system
shows, along a relation of their states.
-/

namespace Simulation

open Relation

variable {σ τ α : Type*}

/-- A run of the specification, with the events that it does. -/
inductive Runs (does : τ → α → τ → Prop) (start : τ) : List α → τ → Prop where
  | refl : Runs does start [] start
  | tail {events : List α} {a : α} {t u : τ} (before : Runs does start events t)
      (last : does t a u) : Runs does start (events ++ [a]) u

/-- A run of the system, with the events that its steps show. -/
inductive Shown (step : σ → σ → Prop) (shows : σ → σ → List α → Prop) (start : σ) :
    List α → σ → Prop where
  | refl : Shown step shows start [] start
  | tail {events more : List α} {s t : σ} (before : Shown step shows start events s)
      (last : step s t) (seen : shows s t more) : Shown step shows start (events ++ more) t

section Runs

variable {does : τ → α → τ → Prop} {t u v : τ} {events more : List α}

theorem Runs.single {a : α} (h : does t a u) : Runs does t [a] u := .tail .refl h

theorem Runs.append (first : Runs does t events u) (rest : Runs does u more v) :
    Runs does t (events ++ more) v := by
  induction rest with
  | refl => rwa [List.append_nil]
  | tail _ last ih =>
    rw [← List.append_assoc]
    exact ih.tail last

/-- The run up to some event, and the run from there. -/
theorem Runs.split (run : Runs does t (events ++ more) v) :
    ∃ u, Runs does t events u ∧ Runs does u more v := by
  generalize whole : events ++ more = all at run
  induction run generalizing more with
  | refl =>
    obtain ⟨rfl, rfl⟩ := List.append_eq_nil_iff.mp whole
    exact ⟨t, .refl, .refl⟩
  | tail before last ih =>
    rcases List.eq_nil_or_concat more with rfl | ⟨more, b, rfl⟩
    · rw [List.append_nil] at whole
      exact ⟨_, whole ▸ before.tail last, .refl⟩
    · rw [List.concat_eq_append] at whole ⊢
      rw [← List.append_assoc] at whole
      obtain ⟨same, one⟩ := List.append_inj' whole rfl
      obtain rfl := List.head_eq_of_cons_eq one
      obtain ⟨u, first, rest⟩ := ih same
      exact ⟨u, first, rest.tail last⟩

theorem Runs.head {a : α} (run : Runs does t (a :: more) v) :
    ∃ u, does t a u ∧ Runs does u more v := by
  have cut : Runs does t ([a] ++ more) v := run
  obtain ⟨u, first, rest⟩ := cut.split
  generalize one : [a] = events at first
  cases first with
  | refl => cases one
  | tail before last =>
    obtain ⟨none, same⟩ := List.append_inj' (show [] ++ [a] = _ from one) rfl
    obtain rfl := List.head_eq_of_cons_eq same
    subst none
    generalize nothing : ([] : List α) = empty at before
    cases before with
    | refl => exact ⟨u, last, rest⟩
    | tail _ _ => simp at nothing

/-- What every event of a run keeps, the run keeps. -/
theorem Runs.preserves {P : τ → Prop} (run : Runs does t events u)
    (keeps : ∀ t a u, a ∈ events → does t a u → P t → P u) (start : P t) : P u := by
  induction run with
  | refl => exact start
  | tail _ last ih =>
    apply keeps _ _ _ (by simp) last
    exact ih fun t a u ha => keeps t a u (List.mem_append_left _ ha)

end Runs

section Shown

variable {step : σ → σ → Prop} {shows : σ → σ → List α → Prop} {s t : σ} {events : List α}

/-- Where every step shows something, every run does. -/
theorem Shown.of_run (total : ∀ s t, step s t → ∃ events, shows s t events)
    (run : ReflTransGen step s t) : ∃ events, Shown step shows s events t := by
  induction run with
  | refl => exact ⟨[], .refl⟩
  | tail _ last ih =>
    obtain ⟨events, before⟩ := ih
    obtain ⟨more, seen⟩ := total _ _ last
    exact ⟨events ++ more, before.tail last seen⟩

/-- If each step of the system is matched by the events that it shows, each run is. -/
theorem Shown.simulated {does : τ → α → τ → Prop} {R : σ → τ → Prop}
    (matched : ∀ s s' t more, R s t → step s s' → shows s s' more →
      ∃ t', Runs does t more t' ∧ R s' t')
    {u : τ} (h : Shown step shows s events t) (start : R s u) :
    ∃ v, Runs does u events v ∧ R t v := by
  induction h with
  | refl => exact ⟨u, .refl, start⟩
  | tail _ last seen ih =>
    obtain ⟨v, before, related⟩ := ih
    obtain ⟨v', after, related'⟩ := matched _ _ _ _ related last seen
    exact ⟨v', before.append after, related'⟩

end Shown

end Simulation
