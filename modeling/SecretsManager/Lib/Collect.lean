import Std.Data.ExtTreeMap
import Mathlib.Tactic

/-!
# Collecting readings into a map

A loop that inserts what each key reads as and stops at the first error. When no
reading is an error and no key comes twice, the map it builds holds the list.
-/

namespace Collect

variable {K V ε : Type} [Ord K] [Std.TransOrd K]

def collect : Std.ExtTreeMap K V → List (K × Except ε V) → Except ε (Std.ExtTreeMap K V)
  | out, [] => .ok out
  | _, (_, .error e) :: _ => .error e
  | out, (key, .ok value) :: rest => collect (out.insert key value) rest

/-- A collection that ended met no error. -/
theorem collect_values {l : List (K × Except ε V)} {out out' : Std.ExtTreeMap K V}
    (collected : collect out l = .ok out') : ∀ x ∈ l, ∃ v, x.2 = .ok v := by
  induction l generalizing out with
  | nil =>
    intro x hx
    cases hx
  | cons x l ih =>
    obtain ⟨k, e | v⟩ := x
    · cases collected
    · intro y hy
      rcases List.mem_cons.mp hy with rfl | later
      · exact ⟨v, rfl⟩
      · exact ih collected y later

variable [Std.LawfulEqOrd K]

/-- Readings that are all values are collected into the map of them. -/
theorem collect_ok {l : List (K × Except ε V)} (values : ∀ x ∈ l, ∃ v, x.2 = .ok v)
    (distinct : l.Pairwise fun x y => x.1 ≠ y.1) (out : Std.ExtTreeMap K V) :
    ∃ out', collect out l = .ok out' ∧ ∀ k v, out'[k]? = some v ↔
      (k, .ok v) ∈ l ∨ ((∀ x ∈ l, x.1 ≠ k) ∧ out[k]? = some v) := by
  induction l generalizing out with
  | nil => exact ⟨out, rfl, fun k v => by simp⟩
  | cons x l ih =>
    obtain ⟨value, hvalue⟩ := values x List.mem_cons_self
    obtain ⟨k₀, r₀⟩ := x
    obtain rfl : r₀ = .ok value := hvalue
    obtain ⟨others, distinct⟩ := List.pairwise_cons.mp distinct
    obtain ⟨out', collected, spec⟩ := ih (fun y hy => values y (List.mem_cons_of_mem _ hy)) distinct
      (out.insert k₀ value)
    refine ⟨out', collected, fun k v => ?_⟩
    rw [spec, Std.ExtTreeMap.getElem?_insert]
    by_cases same : k₀ = k
    · subst same
      have later : ∀ y ∈ l, y.1 ≠ k₀ := fun y hy => (others y hy).symm
      have absent : (k₀, .ok v) ∉ l := fun hr => later _ hr rfl
      have self : compare k₀ k₀ = .eq := Std.compare_self
      constructor
      · rintro (here | ⟨_, inserted⟩)
        · exact absurd here absent
        · rw [if_pos self] at inserted
          rw [Option.some.inj inserted]
          exact Or.inl List.mem_cons_self
      · rintro (here | ⟨apart, _⟩)
        · rcases List.mem_cons.mp here with first | here
          · obtain ⟨_, same⟩ := Prod.mk.inj first
            exact Or.inr ⟨later, by rw [if_pos self, Except.ok.inj same]⟩
          · exact absurd here absent
        · exact absurd rfl (apart _ List.mem_cons_self)
    · have ne : compare k₀ k ≠ .eq := by simpa using same
      have other : ∀ v', ((k, .ok v') : K × Except ε V) ≠ (k₀, .ok value) :=
        fun v' e => same (congrArg Prod.fst e).symm
      simp [ne, other, same]

/-- The entries of a map, collected, are the map. -/
theorem collect_toList (m : Std.ExtTreeMap K V) :
    collect ∅ (m.toList.map fun x => (x.1, (.ok x.2 : Except ε V))) = .ok m := by
  have values : ∀ x ∈ m.toList.map fun x => (x.1, (.ok x.2 : Except ε V)), ∃ v, x.2 = .ok v := by
    intro x hx
    obtain ⟨y, _, rfl⟩ := List.mem_map.mp hx
    exact ⟨y.2, rfl⟩
  have distinct : (m.toList.map fun x => (x.1, (.ok x.2 : Except ε V))).Pairwise
      fun x y => x.1 ≠ y.1 := by
    refine List.pairwise_map.mpr ((Std.ExtTreeMap.ordered_keys_toList).imp ?_)
    intro x y less same
    rw [same, Std.compare_self] at less
    cases less
  obtain ⟨out, collected, spec⟩ := collect_ok values distinct ∅
  rw [collected]
  congr 1
  apply Std.ExtTreeMap.ext_getElem?
  intro k
  apply Option.ext
  intro v
  rw [spec]
  simp [Std.ExtTreeMap.mem_toList_iff_getElem?_eq_some]

end Collect
