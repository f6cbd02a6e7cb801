import Mathlib.Tactic

/-!
# The last write of a history

A slot is written, cleared or left alone by each operation of a history. What it
holds afterwards is what the last operation wrote that did not leave it alone.
-/

namespace LastWrite

inductive Effect (V : Type) where
  | keep
  | put (v : V)
  | clear

variable {Op V : Type}

def Effect.apply : Effect V → Option V → Option V
  | .keep, slot => slot
  | .put v, _ => some v
  | .clear, _ => none

/-- The slot after a history that began with nothing in it. -/
def slot (effect : Op → Effect V) (ops : List Op) : Option V :=
  ops.foldl (fun held op => (effect op).apply held) none

/-- The value was written in the history, and the slot left alone since. -/
def LastPut (effect : Op → Effect V) (ops : List Op) (v : V) : Prop :=
  ∃ earlier op later, ops = earlier ++ op :: later ∧ effect op = .put v ∧
    ∀ o ∈ later, effect o = .keep

variable {effect : Op → Effect V}

@[simp] theorem slot_nil : slot effect [] = none := rfl

theorem slot_snoc (ops : List Op) (op : Op) :
    slot effect (ops ++ [op]) = (effect op).apply (slot effect ops) := by
  simp [slot]

lemma not_lastPut_nil {v : V} : ¬ LastPut effect [] v := by
  rintro ⟨earlier, op, later, split, _⟩
  simp at split

lemma lastPut_snoc {ops : List Op} {op : Op} {v : V} :
    LastPut effect (ops ++ [op]) v ↔
      effect op = .put v ∨ effect op = .keep ∧ LastPut effect ops v := by
  constructor
  · rintro ⟨earlier, o, later, split, wrote, kept⟩
    rcases List.eq_nil_or_concat later with rfl | ⟨later, last, rfl⟩
    · obtain ⟨_, same⟩ := List.append_inj' split rfl
      rw [List.head_eq_of_cons_eq same]
      exact Or.inl wrote
    · have split : ops ++ [op] = (earlier ++ o :: later) ++ [last] := by simpa using split
      obtain ⟨rfl, same⟩ := List.append_inj' split rfl
      obtain rfl := List.head_eq_of_cons_eq same
      refine Or.inr ⟨kept op (by simp), earlier, o, later, rfl, wrote, ?_⟩
      intro o' ho'
      exact kept o' (by simp [ho'])
  · rintro (wrote | ⟨keeps, earlier, o, later, rfl, wrote, kept⟩)
    · exact ⟨ops, op, [], rfl, wrote, by simp⟩
    · refine ⟨earlier, o, later ++ [op], by simp, wrote, ?_⟩
      intro o' ho'
      rcases List.mem_append.mp ho' with h | h
      · exact kept o' h
      · rw [List.mem_singleton.mp h]
        exact keeps

theorem slot_eq_some_iff {ops : List Op} {v : V} :
    slot effect ops = some v ↔ LastPut effect ops v := by
  induction ops using List.reverseRecOn with
  | nil => simp [not_lastPut_nil]
  | append_singleton ops op ih =>
    rw [slot_snoc, lastPut_snoc, ← ih]
    cases effect op with
    | keep => simp [Effect.apply]
    | put w => simp [Effect.apply]
    | clear => simp [Effect.apply]

end LastWrite
