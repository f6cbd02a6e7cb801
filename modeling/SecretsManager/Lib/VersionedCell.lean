import Mathlib.Tactic

/-!
# The version of a cell that can be deleted

A cell counts how often it was written, from one, and forgets the count when it
is deleted. The writer is told the count, unless the answer is lost. The counts told
increase when no deletion lies between two answered writes, and where no answer is
lost they increase only then.
-/

namespace VersionedCell

inductive Notice (V : Type) where
  | put (value : V) (version : Nat)
  | deleted
  deriving DecidableEq

variable {V : Type}

/-- The version that a write gives a cell. -/
def next (cell : Option Nat) : Nat := cell.getD 0 + 1

/-- One step of a cell and what is told of it; answers may be lost where `lossy` holds. -/
inductive Step (V : Type) (lossy : Prop) : Option Nat → Option (Notice V) → Option Nat → Prop where
  | put (cell : Option Nat) (value : V) :
      Step V lossy cell (some (.put value (next cell))) (some (next cell))
  | lost (cell : Option Nat) (may : lossy) : Step V lossy cell none (some (next cell))
  | deleted (version : Nat) : Step V lossy (some version) (some .deleted) none
  | kept (cell : Option Nat) : Step V lossy cell none cell

lemma Step.mono {lossy lossy' : Prop} {cell cell' : Option Nat} {told : Option (Notice V)}
    (weaker : lossy → lossy') (step : Step V lossy cell told cell') :
    Step V lossy' cell told cell' := by
  cases step with
  | put _ value => exact .put _ value
  | lost _ may => exact .lost _ (weaker may)
  | deleted _ => exact .deleted _
  | kept _ => exact .kept _

inductive Run (V : Type) (lossy : Prop) : Option Nat → List (Option (Notice V)) → Prop where
  | nil (cell : Option Nat) : Run V lossy cell []
  | cons {cell cell' : Option Nat} {told : Option (Notice V)} {rest : List (Option (Notice V))}
      (step : Step V lossy cell told cell') (run : Run V lossy cell' rest) :
      Run V lossy cell (told :: rest)

def Notice.version? : Notice V → Option Nat
  | .put _ version => some version
  | .deleted => none

/-- The notices given, the steps that told nothing left out. -/
def notices (history : List (Option (Notice V))) : List (Notice V) := history.filterMap id

def versions (history : List (Option (Notice V))) : List Nat :=
  (notices history).filterMap Notice.version?

/-- A deletion that went through comes before every answered write or after every one. -/
def NotRecreated (history : List (Option (Notice V))) : Prop :=
  ∀ earlier later, history = earlier ++ some .deleted :: later →
    versions earlier = [] ∨ versions later = []

/-- The versions told increase. -/
def Increasing (history : List (Option (Notice V))) : Prop :=
  (versions history).Pairwise (· < ·)

section Versions

variable {history first rest : List (Option (Notice V))} {value : V} {version : Nat}

@[simp] theorem versions_nil : versions ([] : List (Option (Notice V))) = [] := rfl

@[simp] theorem versions_none : versions (none :: rest) = versions rest := rfl

@[simp] theorem versions_deleted : versions (some .deleted :: rest) = versions rest := rfl

@[simp] theorem versions_put :
    versions (some (.put value version) :: rest) = version :: versions rest := rfl

@[simp] theorem versions_append : versions (first ++ rest) = versions first ++ versions rest := by
  simp [versions, notices]

theorem mem_versions :
    version ∈ versions history ↔ ∃ value, some (.put value version) ∈ history := by
  simp only [versions, notices, List.mem_filterMap, id_eq, exists_eq_right]
  constructor
  · rintro ⟨notice, told, tells⟩
    cases notice with
    | put value version' =>
        cases tells
        exact ⟨value, told⟩
    | deleted => exact nomatch tells
  · rintro ⟨value, told⟩
    exact ⟨.put value version, told, rfl⟩

lemma NotRecreated.tail {told : Option (Notice V)} (h : NotRecreated (told :: rest)) :
    NotRecreated rest := by
  intro earlier later split
  rcases h (told :: earlier) later (by rw [split, List.cons_append]) with before | after
  · apply Or.inl
    rw [← List.singleton_append, versions_append] at before
    exact (List.append_eq_nil_iff.mp before).2
  · exact .inr after

/-- After an answered write no deletion is followed by another. -/
lemma NotRecreated.after_put (h : NotRecreated (some (.put value version) :: rest)) :
    ∀ earlier later, rest = earlier ++ some .deleted :: later → versions later = [] := by
  intro earlier later split
  rcases h (some (.put value version) :: earlier) later (by rw [split, List.cons_append]) with
    before | after
  · simp at before
  · exact after

end Versions

/-! ## Enough: no deletion in between -/

variable {lossy : Prop} {cell : Option Nat} {history : List (Option (Notice V))}

/-- Where no deletion is followed by an answered write, the versions pass the cell's and increase. -/
lemma Run.increasing_from (run : Run V lossy cell history)
    (final : ∀ earlier later, history = earlier ++ some .deleted :: later → versions later = []) :
    (∀ version ∈ versions history, cell.getD 0 < version) ∧ Increasing history := by
  induction run with
  | nil cell => exact ⟨by simp, .nil⟩
  | @cons cell cell' told rest step run ih =>
      have finalRest : ∀ earlier later, rest = earlier ++ some .deleted :: later →
          versions later = [] := by
        intro earlier later split
        exact final (told :: earlier) later (by rw [split, List.cons_append])
      obtain ⟨above, increasing⟩ := ih finalRest
      cases step with
      | put _ value =>
          simp only [Option.getD_some] at above
          constructor
          · intro version mem
            rcases List.mem_cons.mp mem with rfl | mem
            · exact Nat.lt_succ_self _
            · exact Nat.lt_of_succ_lt (above version mem)
          · exact .cons above increasing
      | lost _ _ =>
          simp only [Option.getD_some] at above
          constructor
          · intro version mem
            exact Nat.lt_of_succ_lt (above version mem)
          · exact increasing
      | deleted version =>
          have none_left : versions rest = [] := final [] rest rfl
          constructor
          · simp [none_left]
          · simp [Increasing, none_left]
      | kept _ => exact ⟨above, increasing⟩

theorem Run.increasing (run : Run V lossy cell history) (safe : NotRecreated history) :
    Increasing history := by
  induction run with
  | nil cell => exact .nil
  | @cons cell cell' told rest step run ih =>
      have increasing := ih safe.tail
      cases step with
      | put _ value =>
          obtain ⟨above, _⟩ := run.increasing_from safe.after_put
          exact .cons above increasing
      | lost _ _ => exact increasing
      | deleted version => exact increasing
      | kept _ => exact increasing

/-! ## Needed: a written cell starts again -/

lemma Run.version_pos (run : Run V lossy cell history) :
    ∀ version ∈ versions history, 0 < version := by
  induction run with
  | nil cell => simp
  | cons step run ih =>
      cases step with
      | put cell value =>
          intro version mem
          rcases List.mem_cons.mp mem with rfl | mem
          · exact Nat.succ_pos _
          · exact ih version mem
      | lost _ _ => exact ih
      | deleted _ => exact ih
      | kept _ => exact ih

lemma Run.split {first rest : List (Option (Notice V))}
    (run : Run V lossy cell (first ++ rest)) :
    Run V lossy cell first ∧ ∃ cell', Run V lossy cell' rest := by
  induction first generalizing cell with
  | nil => exact ⟨.nil cell, cell, run⟩
  | cons told first ih =>
      cases run with
      | cons step run =>
          obtain ⟨before, after⟩ := ih run
          exact ⟨.cons step before, after⟩

/-- The first answered write after a deletion is told the version one. -/
lemma Run.one_first (run : Run V False none history) (written : versions history ≠ []) :
    1 ∈ versions history := by
  generalize start : (none : Option Nat) = cell at run
  induction run with
  | nil cell => exact absurd rfl written
  | cons step run ih =>
      subst start
      cases step with
      | put _ value => exact List.mem_cons_self
      | lost _ impossible => exact impossible.elim
      | kept _ => exact ih written rfl

theorem Run.notRecreated (run : Run V False cell history) (increasing : Increasing history) :
    NotRecreated history := by
  rintro earlier later rfl
  by_contra both
  rw [not_or] at both
  obtain ⟨before, after⟩ := both
  obtain ⟨runEarlier, cell', runRest⟩ := run.split
  obtain ⟨version, mem⟩ := List.exists_mem_of_ne_nil _ before
  have positive := runEarlier.version_pos version mem
  cases runRest with
  | cons step runLater =>
      cases step with
      | deleted _ =>
          have one := runLater.one_first after
          simp only [Increasing, versions_append, versions_deleted] at increasing
          have less := (List.pairwise_append.mp increasing).2.2 version mem 1 one
          omega

/-- A version is told once, so it stands for one value. -/
theorem Increasing.one_value (increasing : Increasing history) {value value' : V} {version : Nat}
    (told : some (.put value version) ∈ history) (told' : some (.put value' version) ∈ history) :
    value = value' := by
  induction history with
  | nil => exact absurd told List.not_mem_nil
  | cons head rest ih =>
      obtain ⟨least, increasingRest⟩ :
          (∀ a ∈ versions [head], ∀ b ∈ versions rest, a < b) ∧ Increasing rest := by
        have whole : (versions ([head] ++ rest)).Pairwise (· < ·) := increasing
        rw [versions_append, List.pairwise_append] at whole
        exact ⟨whole.2.2, whole.2.1⟩
      rcases List.mem_cons.mp told with first | inRest <;>
        rcases List.mem_cons.mp told' with first' | inRest'
      · rw [← first'] at first
        cases first
        rfl
      · subst first
        exact absurd (least version (by simp) version (mem_versions.mpr ⟨_, inRest'⟩)) (by simp)
      · subst first'
        exact absurd (least version (by simp) version (mem_versions.mpr ⟨_, inRest⟩)) (by simp)
      · exact ih increasingRest inRest inRest'

end VersionedCell
