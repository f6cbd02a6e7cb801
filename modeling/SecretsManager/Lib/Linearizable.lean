import Mathlib.Tactic

/-!
# Linearizable histories

Operations on one object are invoked, take effect and return. Clients see the
invocations and the returns. A history is linearizable if some order of the
operations that took effect explains every return by the sequential object and never
puts an operation before one that had returned when it was invoked.

The sequential object is a relation, so an operation may have several results.
-/

namespace Linearizable

open List

variable {S Op Ret : Type}

inductive Event (Op Ret : Type) where
  | invoked (n : Nat) (op : Op)
  | returned (n : Nat) (ret : Ret)

/-- An operation that took effect, with what it will return. -/
structure Commit (Op Ret : Type) where
  id : Nat
  op : Op
  ret : Ret

variable (object : S → Op → Ret → S → Prop)

/-- The operations one after another on the sequential object. -/
inductive Legal (s : S) : List (Commit Op Ret) → S → Prop where
  | nil : Legal s [] s
  | snoc {order : List (Commit Op Ret)} {t u : S} {c : Commit Op Ret} (before : Legal s order t)
      (step : object t c.op c.ret u) : Legal s (order ++ [c]) u

structure Linearizes (s : S) (h : List (Event Op Ret)) (order : List (Commit Op Ret)) (t : S) :
    Prop where
  legal : Legal object s order t
  once : (order.map Commit.id).Nodup
  invoked : ∀ c ∈ order, .invoked c.id c.op ∈ h
  returned : ∀ n ret, .returned n ret ∈ h → ∃ c ∈ order, c.id = n ∧ c.ret = ret
  /-- `[x, y]` is a sublist where `x` comes before `y`. -/
  realTime : ∀ a ∈ order, ∀ b ∈ order, ∀ ret op,
    [Event.returned a.id ret, .invoked b.id op] <+ h → [a, b] <+ order

/-- Each operation takes effect at one moment between its invocation and its return. -/
inductive Commits (s : S) : List (Event Op Ret) → List (Commit Op Ret) → S → Prop where
  | start : Commits s [] [] s
  | invoke {h : List (Event Op Ret)} {order : List (Commit Op Ret)} {t : S}
      (before : Commits s h order t) (n : Nat) (op : Op) (fresh : ∀ op', .invoked n op' ∉ h) :
      Commits s (h ++ [.invoked n op]) order t
  | commit {h : List (Event Op Ret)} {order : List (Commit Op Ret)} {t u : S}
      (before : Commits s h order t) (n : Nat) (op : Op) (ret : Ret) (invoked : .invoked n op ∈ h)
      (once : n ∉ order.map Commit.id) (step : object t op ret u) :
      Commits s h (order ++ [⟨n, op, ret⟩]) u
  | return {h : List (Event Op Ret)} {order : List (Commit Op Ret)} {t : S}
      (before : Commits s h order t) (c : Commit Op Ret) (committed : c ∈ order) :
      Commits s (h ++ [.returned c.id c.ret]) order t

variable {object} {s t : S} {h : List (Event Op Ret)} {order : List (Commit Op Ret)}

/-- Two in order, the later of them in front of the last or the last. -/
theorem pair_sublist_concat {α : Type} {x y z : α} {l : List α} :
    [x, y] <+ l ++ [z] ↔ [x, y] <+ l ∨ x ∈ l ∧ y = z := by
  rw [sublist_append_iff]
  constructor
  · rintro ⟨front, back, split, inFront, inBack⟩
    cases back with
    | nil =>
      rw [append_nil] at split
      exact .inl (split ▸ inFront)
    | cons b back =>
      obtain ⟨rfl, rfl⟩ : b = z ∧ back = [] := by
        have short := inBack.length_le
        have none : back = [] := by
          apply eq_nil_of_length_eq_zero
          simp only [length_cons, length_nil] at short
          omega
        subst none
        exact ⟨by simpa using inBack, rfl⟩
      obtain ⟨rfl, rfl⟩ : front = [x] ∧ b = y := by
        rcases front with _ | ⟨f, _ | ⟨g, front⟩⟩
        · simp at split
        · simpa [eq_comm] using split
        · simp at split
      exact .inr ⟨singleton_sublist.mp inFront, rfl⟩
  · rintro (inside | ⟨mem, rfl⟩)
    · exact ⟨[x, y], [], by simp, inside, nil_sublist _⟩
    · exact ⟨[x], [y], rfl, singleton_sublist.mpr mem, Sublist.refl _⟩

/-- An operation is invoked once. -/
theorem Commits.invoked_unique (run : Commits object s h order t) {n : Nat} {op op' : Op}
    (seen : .invoked n op ∈ h) (seen' : .invoked n op' ∈ h) : op = op' := by
  induction run with
  | start => cases seen
  | commit _ _ _ _ _ _ _ ih => exact ih seen seen'
  | invoke before m op'' fresh ih =>
    rcases mem_append.mp seen with old | new
    · rcases mem_append.mp seen' with old' | new'
      · exact ih old old'
      · cases mem_singleton.mp new'
        exact absurd old (fresh op)
    · cases mem_singleton.mp new
      rcases mem_append.mp seen' with old' | new'
      · exact absurd old' (fresh op')
      · cases mem_singleton.mp new'
        rfl
  | «return» before c committed ih =>
    rcases mem_append.mp seen with old | new
    · rcases mem_append.mp seen' with old' | new'
      · exact ih old old'
      · cases mem_singleton.mp new'
    · cases mem_singleton.mp new

/-- A history of operations that take effect one by one is linearizable. -/
theorem Commits.linearizes (run : Commits object s h order t) :
    Linearizes object s h order t := by
  induction run with
  | start =>
    exact ⟨.nil, nodup_nil, nofun, nofun, nofun⟩
  | invoke before n op fresh ih =>
    refine ⟨ih.legal, ih.once, ?_, ?_, ?_⟩
    · intro c hc
      exact mem_append_left _ (ih.invoked c hc)
    · intro m ret seen
      rcases mem_append.mp seen with old | new
      · exact ih.returned m ret old
      · cases mem_singleton.mp new
    · intro a ha b hb ret op' pair
      rcases pair_sublist_concat.mp pair with old | ⟨_, last⟩
      · exact ih.realTime a ha b hb ret op' old
      · cases last
        exact absurd (ih.invoked b hb) (fresh _)
  | @commit h order t u before n op ret invoked once step ih =>
    refine ⟨ih.legal.snoc step, ?_, ?_, ?_, ?_⟩
    · rw [map_append, nodup_append']
      exact ⟨ih.once, nodup_singleton _, by simpa using once⟩
    · intro c hc
      rcases mem_append.mp hc with old | new
      · exact ih.invoked c old
      · obtain rfl := mem_singleton.mp new
        exact invoked
    · intro m ret' seen
      obtain ⟨c, hc, same⟩ := ih.returned m ret' seen
      exact ⟨c, mem_append_left _ hc, same⟩
    · intro a ha b hb ret' op' pair
      have earlier : a ∈ order := by
        rcases mem_append.mp ha with old | new
        · exact old
        · obtain rfl := mem_singleton.mp new
          -- an operation that has returned took effect before
          obtain ⟨c, hc, same, _⟩ := ih.returned n ret' (pair.subset mem_cons_self)
          exact absurd (mem_map.mpr ⟨c, hc, same⟩) once
      rcases mem_append.mp hb with old | new
      · exact (ih.realTime a earlier b old ret' op' pair).trans (sublist_append_left _ _)
      · exact pair_sublist_concat.mpr (.inr ⟨earlier, mem_singleton.mp new⟩)
  | «return» before c committed ih =>
    refine ⟨ih.legal, ih.once, ?_, ?_, ?_⟩
    · intro c' hc'
      exact mem_append_left _ (ih.invoked c' hc')
    · intro m ret seen
      rcases mem_append.mp seen with old | new
      · exact ih.returned m ret old
      · cases mem_singleton.mp new
        exact ⟨c, committed, rfl, rfl⟩
    · intro a ha b hb ret op pair
      rcases pair_sublist_concat.mp pair with old | ⟨_, last⟩
      · exact ih.realTime a ha b hb ret op old
      · cases last

end Linearizable
