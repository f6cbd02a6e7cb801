import Mathlib.Data.List.Sort
import Mathlib.Tactic

/-!
# Tables with unique keys

A table is a list of rows, and a column of it is a function of the row. A
column is a key when no two rows share its value. Lookups, in-place updates,
deletions and appends are described by what they do to lookups; the order in
which a query lists rows is a stable sort of the table.
-/

namespace KeyedTable

variable {Row K : Type}

lemma forall₂_mem_left {Row' : Type} {R : Row → Row' → Prop} {table : List Row}
    {table' : List Row'} {r : Row}
    (related : List.Forall₂ R table table') (hr : r ∈ table) : ∃ r' ∈ table', R r r' := by
  induction related with
  | nil => cases hr
  | cons head _ ih =>
    rcases List.mem_cons.mp hr with rfl | hr
    · exact ⟨_, List.mem_cons_self, head⟩
    · obtain ⟨r', hr', pair⟩ := ih hr
      exact ⟨r', List.mem_cons_of_mem _ hr', pair⟩

lemma forall₂_map_eq {R : Row → Row → Prop} {f : Row → K} {table table' : List Row}
    (related : List.Forall₂ R table table') (same : ∀ r r', R r r' → f r' = f r) :
    table'.map f = table.map f := by
  induction related with
  | nil => rfl
  | cons head _ ih => rw [List.map_cons, List.map_cons, same _ _ head, ih]

def Keyed (key : Row → K) (table : List Row) : Prop := (table.map key).Nodup

instance [DecidableEq K] (key : Row → K) (table : List Row) : Decidable (Keyed key table) :=
  inferInstanceAs (Decidable (table.map key).Nodup)

/-- The number after the largest one in the column, or 1 for an empty table. -/
def nextId (id : Row → Nat) (table : List Row) : Nat :=
  table.foldr (fun r top => max (id r) top) 0 + 1

lemma lt_nextId (id : Row → Nat) {table : List Row} {r : Row} (hr : r ∈ table) :
    id r < nextId id table := by
  have bound : ∀ l : List Row, r ∈ l → id r ≤ l.foldr (fun r top => max (id r) top) 0 := by
    intro l
    induction l with
    | nil => intro h; cases h
    | cons a l ih =>
      intro h
      rcases List.mem_cons.mp h with rfl | h
      · exact le_max_left _ _
      · exact le_trans (ih h) (le_max_right _ _)
  have := bound table hr
  unfold nextId
  omega

lemma nextId_fresh (id : Row → Nat) {table : List Row} {r : Row} (hr : r ∈ table) :
    id r ≠ nextId id table := Nat.ne_of_lt (lt_nextId id hr)

lemma Keyed.eq_of_key {key : Row → K} {table : List Row} (keyed : Keyed key table)
    {r r' : Row} (hr : r ∈ table) (hr' : r' ∈ table) (same : key r = key r') : r = r' :=
  List.inj_on_of_nodup_map keyed hr hr' same

lemma Keyed.append {key : Row → K} {table : List Row} (keyed : Keyed key table) {row : Row}
    (fresh : ∀ r ∈ table, key r ≠ key row) : Keyed key (table ++ [row]) := by
  unfold Keyed at keyed ⊢
  rw [List.map_append, List.map_singleton, List.nodup_append]
  refine ⟨keyed, List.nodup_singleton _, ?_⟩
  rintro _ ha _ hb rfl
  obtain ⟨r, hr, same⟩ := List.mem_map.mp ha
  exact fresh r hr (same.trans (List.mem_singleton.mp hb))

lemma Keyed.filter {key : Row → K} {table : List Row} (keyed : Keyed key table)
    (p : Row → Bool) : Keyed key (table.filter p) :=
  List.Nodup.sublist (List.Sublist.map key List.filter_sublist) keyed

lemma Keyed.map {key : Row → K} {table : List Row} (keyed : Keyed key table)
    {f : Row → Row} (keeps : ∀ r, key (f r) = key r) : Keyed key (table.map f) := by
  unfold Keyed
  rw [List.map_map]
  rwa [show key ∘ f = key from funext keeps]

section Lookup

variable [DecidableEq K]

def get (key : Row → K) (table : List Row) (k : K) : Option Row :=
  table.find? fun r => key r = k

/-- Change the rows with this key in place. -/
def modify (key : Row → K) (k : K) (f : Row → Row) (table : List Row) : List Row :=
  table.map fun r => if key r = k then f r else r

def erase (key : Row → K) (k : K) (table : List Row) : List Row :=
  table.filter fun r => ¬ key r = k

variable {key : Row → K} {table : List Row} {k k' : K} {r : Row}

lemma mem_of_get (h : get key table k = some r) : r ∈ table ∧ key r = k :=
  ⟨List.mem_of_find?_eq_some h, by simpa using List.find?_some h⟩

lemma get_eq_none_iff : get key table k = none ↔ ∀ r ∈ table, key r ≠ k := by
  simp [get]

lemma Keyed.get_iff (keyed : Keyed key table) :
    get key table k = some r ↔ r ∈ table ∧ key r = k := by
  constructor
  · exact mem_of_get
  · rintro ⟨hr, rfl⟩
    cases h : get key table (key r) with
    | none => exact absurd rfl (get_eq_none_iff.mp h r hr)
    | some r' =>
      obtain ⟨hr', same⟩ := mem_of_get h
      rw [keyed.eq_of_key hr' hr same]

lemma get_append (row : Row) :
    get key (table ++ [row]) k = (get key table k).or (if key row = k then some row else none) := by
  by_cases h : key row = k <;> simp [get, List.find?_append, h]

lemma get_modify {f : Row → Row} (keeps : ∀ r, key (f r) = key r) :
    get key (modify key k f table) k' =
      if k' = k then (get key table k').map f else get key table k' := by
  unfold get modify
  induction table with
  | nil => simp
  | cons r table ih =>
    by_cases hk : key r = k
    · by_cases hk' : key r = k'
      · simp [← hk, ← hk', keeps]
      · have hne : k' ≠ k := fun h => hk' (h ▸ hk)
        simp [hk, keeps, hne.symm, hne, ih]
    · by_cases hk' : key r = k'
      · have hne : k' ≠ k := fun h => hk (h ▸ hk')
        simp [hk', hne]
      · simp [hk, hk', ih]

lemma get_erase : get key (erase key k table) k' = if k' = k then none else get key table k' := by
  unfold get erase
  induction table with
  | nil => simp
  | cons r table ih =>
    by_cases hk : key r = k
    · simp only [hk, not_true_eq_false, decide_false, Bool.false_eq_true, not_false_eq_true,
        List.filter_cons_of_neg, ih, List.find?_cons]
      by_cases hk' : k' = k
      · simp [hk']
      · have hne : ¬ k = k' := fun h => hk' h.symm
        simp [hk', hne]
    · simp only [hk, not_false_eq_true, decide_true, List.filter_cons_of_pos, ih, List.find?_cons]
      by_cases hk' : key r = k'
      · have hne : ¬ k' = k := fun h => hk (hk'.trans h)
        simp [hk', hne]
      · simp [hk']

lemma mem_modify {f : Row → Row} :
    r ∈ modify key k f table ↔
      (r ∈ table ∧ key r ≠ k) ∨ ∃ old ∈ table, key old = k ∧ r = f old := by
  unfold modify
  rw [List.mem_map]
  constructor
  · rintro ⟨old, hold, h⟩
    by_cases hk : key old = k
    · exact Or.inr ⟨old, hold, hk, by rw [← h, if_pos hk]⟩
    · rw [if_neg hk] at h
      subst h
      exact Or.inl ⟨hold, hk⟩
  · rintro (⟨hr, hk⟩ | ⟨old, hold, hk, rfl⟩)
    · exact ⟨r, hr, if_neg hk⟩
    · exact ⟨old, hold, if_pos hk⟩

lemma Keyed.modify {L : Type} {other : Row → L} (keyed : Keyed other table) {f : Row → Row}
    (keeps : ∀ r, other (f r) = other r) : Keyed other (KeyedTable.modify key k f table) :=
  keyed.map fun r => by by_cases h : key r = k <;> simp [h, keeps]

end Lookup

/-! ## Two tables row by row -/

section Related

variable {Row' : Type} {R : Row → Row' → Prop} {table : List Row} {table' : List Row'}

lemma nextId_related {id : Row → Nat} {id' : Row' → Nat} (related : List.Forall₂ R table table')
    (same : ∀ r r', R r r' → id' r' = id r) : nextId id' table' = nextId id table := by
  unfold nextId
  induction related with
  | nil => rfl
  | cons head _ ih =>
    simp only [List.foldr_cons, same _ _ head]
    omega

variable {K' : Type} [DecidableEq K] [DecidableEq K'] {key : Row → K} {key' : Row' → K'} {k : K}
  {k' : K'}

/-- Tables that agree row by row on who has the key find related rows or none. -/
lemma get_related (related : List.Forall₂ R table table')
    (agree : ∀ r r', R r r' → (key r = k ↔ key' r' = k')) :
    (get key table k = none ∧ get key' table' k' = none) ∨
      ∃ r r', get key table k = some r ∧ get key' table' k' = some r' ∧ R r r' := by
  unfold get
  induction related with
  | nil => exact Or.inl ⟨rfl, rfl⟩
  | @cons r r' rows rows' head rest ih =>
    have same := agree r r' head
    by_cases hk : key r = k
    · exact Or.inr ⟨r, r', by simp [hk], by simp [same.mp hk], head⟩
    · have hk' : ¬ key' r' = k' := fun h => hk (same.mpr h)
      simpa [hk, hk'] using ih

lemma modify_related (related : List.Forall₂ R table table')
    (agree : ∀ r r', R r r' → (key r = k ↔ key' r' = k')) {f : Row → Row} {f' : Row' → Row'}
    (changed : ∀ r r', R r r' → key r = k → R (f r) (f' r')) :
    List.Forall₂ R (modify key k f table) (modify key' k' f' table') := by
  unfold modify
  induction related with
  | nil => exact .nil
  | @cons r r' rows rows' head rest ih =>
    have same := agree r r' head
    refine .cons ?_ ih
    by_cases hk : key r = k
    · simpa only [if_pos hk, if_pos (same.mp hk)] using changed r r' head hk
    · have hk' : ¬ key' r' = k' := fun h => hk (same.mpr h)
      simpa only [if_neg hk, if_neg hk'] using head

lemma erase_related (related : List.Forall₂ R table table')
    (agree : ∀ r r', R r r' → (key r = k ↔ key' r' = k')) :
    List.Forall₂ R (erase key k table) (erase key' k' table') := by
  unfold erase
  induction related with
  | nil => exact .nil
  | @cons r r' rows rows' head rest ih =>
    have same := agree r r' head
    by_cases hk : key r = k
    · simpa [hk, same.mp hk] using ih
    · have hk' : ¬ key' r' = k' := fun h => hk (same.mpr h)
      simpa [hk, hk', head] using ih

end Related

/-- Two tables that agree row by row on the key find related rows or none. -/
lemma get_forall₂ [DecidableEq K] {key : Row → K} {k : K} {R : Row → Row → Prop}
    {table table' : List Row} (related : List.Forall₂ R table table')
    (keeps : ∀ r r', R r r' → key r' = key r) :
    (get key table k = none ∧ get key table' k = none) ∨
      ∃ r r', get key table k = some r ∧ get key table' k = some r' ∧ R r r' :=
  get_related related fun r r' hr => by rw [keeps r r' hr]

section Order

variable [LinearOrder K]

/-- `ORDER BY` this column. -/
def orderBy (key : Row → K) (table : List Row) : List Row :=
  table.insertionSort fun r r' => key r ≤ key r'

lemma mem_orderBy {key : Row → K} {table : List Row} {r : Row} :
    r ∈ orderBy key table ↔ r ∈ table := List.mem_insertionSort _

lemma orderBy_perm (key : Row → K) (table : List Row) : (orderBy key table).Perm table :=
  List.perm_insertionSort _ _

lemma orderBy_keyed {L : Type} {key : Row → K} {other : Row → L} {table : List Row}
    (keyed : Keyed other table) : Keyed other (orderBy key table) :=
  ((orderBy_perm key table).map other).nodup_iff.mpr keyed

lemma orderBy_sorted (key : Row → K) (table : List Row) :
    (orderBy key table).Pairwise fun r r' => key r ≤ key r' :=
  List.pairwise_insertionSort (r := fun r r' => key r ≤ key r') table

/-- A key column comes out of the sort strictly increasing. -/
lemma orderBy_strict {key : Row → K} {table : List Row} (keyed : Keyed key table) :
    (orderBy key table).Pairwise fun r r' => key r < key r' := by
  have distinct : (orderBy key table).Pairwise fun r r' => key r ≠ key r' :=
    List.pairwise_map.mp (orderBy_keyed keyed)
  exact ((orderBy_sorted key table).and distinct).imp fun h => lt_of_le_of_ne h.1 h.2

variable {X Row' : Type}

/-- A listing in the order of insertion: its sort column increases as it is. -/
lemma orderBy_map_eq_iff (key : Row → K) (f : Row → X) (column : X → K)
    (reads : ∀ r, column (f r) = key r) (table : List Row) :
    (orderBy key table).map f = table.map f ↔
      (table.map f).Pairwise fun x y => column x ≤ column y := by
  constructor
  · intro same
    rw [← same, List.pairwise_map]
    simp only [reads]
    exact orderBy_sorted key table
  · intro sorted
    simp only [List.pairwise_map, reads] at sorted
    rw [orderBy, List.Pairwise.insertionSort_eq sorted]

/-- Lists of pairs that increase strictly in the first component are told by their members. -/
lemma eq_of_strict {l l' : List (K × X)} (strict : l.Pairwise fun x y => x.1 < y.1)
    (strict' : l'.Pairwise fun x y => x.1 < y.1) (same : ∀ x, x ∈ l ↔ x ∈ l') : l = l' := by
  have irrefl : Std.Irrefl fun x y : K × X => x.1 < y.1 := ⟨fun x => lt_irrefl x.1⟩
  have antisymm : Std.Antisymm fun x y : K × X => x.1 < y.1 :=
    ⟨fun _ _ h h' => absurd (lt_trans h h') (lt_irrefl _)⟩
  exact strict.eq_of_mem_iff strict' same

end Order

end KeyedTable
