import Mathlib.Logic.Function.Basic
import Mathlib.Data.List.Forall2
import Mathlib.Tactic

/-!
# Tables with named columns

A table has distinct columns and rows with one cell for each of them, and a
catalog finds tables by name. Creating a missing table and adding a column never
touch a cell that is there: what a query over the old columns selects stays.
-/

namespace ColumnTables

variable {Cell : Type}

structure ColumnTable (Cell : Type) where
  columns : List String
  rows : List (List Cell)
  distinct : columns.Nodup
  shaped : ∀ row ∈ rows, row.length = columns.length

namespace ColumnTable

/-- The table of a `CREATE TABLE`. -/
def empty (columns : List String) (distinct : columns.Nodup) : ColumnTable Cell where
  columns := columns
  rows := []
  distinct := distinct
  shaped := by simp

/-- `ALTER TABLE … ADD COLUMN`, for a column that the table does not have. -/
def addColumn (t : ColumnTable Cell) (column : String) (default : Cell)
    (new : column ∉ t.columns) : ColumnTable Cell where
  columns := t.columns ++ [column]
  rows := t.rows.map (· ++ [default])
  distinct := by
    rw [List.nodup_append]
    refine ⟨t.distinct, List.nodup_singleton _, ?_⟩
    rintro old mem _ last rfl
    exact new (List.mem_singleton.mp last ▸ mem)
  shaped := by
    intro row mem
    obtain ⟨old, here, rfl⟩ := List.mem_map.mp mem
    simp [t.shaped old here]

def cell (t : ColumnTable Cell) (row : List Cell) (column : String) : Option Cell :=
  row[t.columns.idxOf column]?

/-- `SELECT … FROM`, the rows in the order of the table. -/
def select (t : ColumnTable Cell) (columns : List String) : List (List (Option Cell)) :=
  t.rows.map fun row => columns.map (t.cell row)

/-- The second table has the first one's rows, with further cells at their ends. -/
structure Extends (t t' : ColumnTable Cell) : Prop where
  columns : t.columns <+: t'.columns
  rows : List.Forall₂ (· <+: ·) t.rows t'.rows

theorem Extends.refl (t : ColumnTable Cell) : t.Extends t where
  columns := List.prefix_refl _
  rows := List.forall₂_same.mpr fun row _ => List.prefix_refl row

theorem Extends.trans {t t' t'' : ColumnTable Cell} (first : t.Extends t')
    (second : t'.Extends t'') : t.Extends t'' where
  columns := first.columns.trans second.columns
  rows := by
    have all := first.rows
    have later := second.rows
    generalize t'.rows = middle at all later
    generalize t.rows = start at all
    generalize t''.rows = last at later
    induction all generalizing last with
    | nil =>
      cases later
      exact .nil
    | cons head _ ih =>
      cases later with
      | cons head' later => exact .cons (head.trans head') (ih _ later)

theorem addColumn_extends (t : ColumnTable Cell) (column : String) (default : Cell)
    (new : column ∉ t.columns) : t.Extends (t.addColumn column default new) where
  columns := List.prefix_append _ _
  rows := by
    apply List.forall₂_map_right_iff.mpr
    exact List.forall₂_same.mpr fun row _ => List.prefix_append _ _

lemma Extends.cell {t t' : ColumnTable Cell} (longer : t.Extends t') {row row' : List Cell}
    {column : String} (here : column ∈ t.columns) (shaped : row.length = t.columns.length)
    (same : row <+: row') : t'.cell row' column = t.cell row column := by
  have position : t'.columns.idxOf column = t.columns.idxOf column := by
    obtain ⟨added, split⟩ := longer.columns
    rw [← split, List.idxOf_append_of_mem here]
  have inside : t.columns.idxOf column < row.length := by
    rw [shaped]
    exact List.idxOf_lt_length_of_mem here
  obtain ⟨cells, rfl⟩ := same
  simp only [ColumnTable.cell, position]
  exact List.getElem?_append_left inside

/-- Whoever asks for the old columns sees the old rows. -/
theorem Extends.select {t t' : ColumnTable Cell} (longer : t.Extends t') {columns : List String}
    (known : ∀ column ∈ columns, column ∈ t.columns) : t'.select columns = t.select columns := by
  have shaped := t.shaped
  have related := longer.rows
  unfold ColumnTable.select
  generalize t'.rows = rows' at related
  generalize t.rows = rows at shaped related
  induction related with
  | nil => rfl
  | @cons row row' rows rows' same _ ih =>
    have first : columns.map (t'.cell row') = columns.map (t.cell row) := by
      apply List.map_congr_left
      intro column asked
      exact longer.cell (known column asked) (shaped row List.mem_cons_self) same
    have rest := ih fun row mem => shaped row (List.mem_cons_of_mem _ mem)
    rw [List.map_cons, List.map_cons, first, rest]

/-- The new column reads as its default in every row. -/
theorem addColumn_select (t : ColumnTable Cell) {columns : List String} {column : String}
    {default : Cell} (new : column ∉ t.columns) (known : ∀ c ∈ columns, c ∈ t.columns) :
    (t.addColumn column default new).select (columns ++ [column]) =
      (t.select columns).map (· ++ [some default]) := by
  have longer := t.addColumn_extends column default new
  unfold select
  simp only [List.map_map]
  rw [show (t.addColumn column default new).rows = t.rows.map (· ++ [default]) from rfl,
    List.map_map]
  apply List.map_congr_left
  intro row mem
  have old : columns.map ((t.addColumn column default new).cell (row ++ [default])) =
      columns.map (t.cell row) := by
    apply List.map_congr_left
    intro asked known'
    exact longer.cell (known asked known') (t.shaped row mem) (List.prefix_append _ _)
  have last : (t.addColumn column default new).cell (row ++ [default]) column = some default := by
    simp [cell, addColumn, List.idxOf_append_of_notMem new, t.shaped row mem]
  simp only [Function.comp_apply, List.map_append, List.map_cons, List.map_nil, old, last]

end ColumnTable

/-! ## Catalogs -/

abbrev Catalog (Cell : Type) : Type := String → Option (ColumnTable Cell)

inductive AlterError where
  | noSuchTable
  | duplicateColumn
  deriving DecidableEq

namespace Catalog

/-- `CREATE TABLE IF NOT EXISTS`. -/
def createIfAbsent (c : Catalog Cell) (name : String) (t : ColumnTable Cell) : Catalog Cell :=
  if (c name).isSome then c else Function.update c name (some t)

/-- Whether `pragma_table_info` of the table lists the column. -/
def hasColumn (c : Catalog Cell) (name column : String) : Bool :=
  (c name).any fun t => column ∈ t.columns

def addColumn (c : Catalog Cell) (name column : String) (default : Cell) :
    Except AlterError (Catalog Cell) :=
  match c name with
  | none => .error .noSuchTable
  | some t =>
    if new : column ∈ t.columns then .error .duplicateColumn
    else .ok (Function.update c name (some (t.addColumn column default new)))

/-- Every table of the first catalog is in the second one, with its cells. -/
def Keeps (c c' : Catalog Cell) : Prop :=
  ∀ name t, c name = some t → ∃ t', c' name = some t' ∧ t.Extends t'

theorem Keeps.refl (c : Catalog Cell) : c.Keeps c := fun _ t found => ⟨t, found, .refl t⟩

theorem Keeps.trans {c c' c'' : Catalog Cell} (first : c.Keeps c') (second : c'.Keeps c'') :
    c.Keeps c'' := by
  intro name t found
  obtain ⟨t', found', longer⟩ := first name t found
  obtain ⟨t'', found'', longer'⟩ := second name t' found'
  exact ⟨t'', found'', longer.trans longer'⟩

variable {c c' : Catalog Cell} {name column : String} {t : ColumnTable Cell} {default : Cell}

/-- Creating tables leaves those that are there alone. -/
theorem createIfAbsent_found (found : c name = some t) (other : String)
    (t' : ColumnTable Cell) : c.createIfAbsent other t' name = some t := by
  unfold createIfAbsent
  split
  · exact found
  · next missing =>
    by_cases same : name = other
    · subst same
      simp [found] at missing
    · rw [Function.update_of_ne same]
      exact found

theorem createIfAbsent_keeps (other : String) (t' : ColumnTable Cell) :
    c.Keeps (c.createIfAbsent other t') := by
  intro name t found
  exact ⟨t, createIfAbsent_found found other t', .refl t⟩

theorem addColumn_ok (added : c.addColumn name column default = .ok c') :
    ∃ t, c name = some t ∧ ∃ new : column ∉ t.columns,
      c' = Function.update c name (some (t.addColumn column default new)) := by
  unfold addColumn at added
  cases found : c name with
  | none => simp [found] at added
  | some t =>
    simp only [found] at added
    split at added
    · cases added
    · next new => exact ⟨t, rfl, new, (Except.ok.inj added).symm⟩

theorem addColumn_keeps (added : c.addColumn name column default = .ok c') : c.Keeps c' := by
  obtain ⟨t, found, new, rfl⟩ := addColumn_ok added
  intro other t' found'
  by_cases same : other = name
  · subst same
    cases found.symm.trans found'
    exact ⟨_, Function.update_self _ _ _, t.addColumn_extends column default new⟩
  · exact ⟨t', (Function.update_of_ne same _ _).trans found', .refl t'⟩

theorem addColumn_hasColumn (added : c.addColumn name column default = .ok c') :
    c'.hasColumn name column = true := by
  obtain ⟨t, -, new, rfl⟩ := addColumn_ok added
  simp [hasColumn, ColumnTable.addColumn]

/-- A missing column of a table can be added. -/
theorem addColumn_missing (found : c name = some t) (missing : c.hasColumn name column = false) :
    ∃ c', c.addColumn name column default = .ok c' := by
  have new : column ∉ t.columns := by simpa [hasColumn, found] using missing
  exact ⟨_, by simp only [addColumn, found, dif_neg new]; rfl⟩

/-- A column cannot be added twice. -/
theorem addColumn_again (there : c.hasColumn name column = true) :
    c.addColumn name column default = .error .duplicateColumn := by
  unfold hasColumn at there
  unfold addColumn
  cases found : c name with
  | none => simp [found] at there
  | some t =>
    have here : column ∈ t.columns := by simpa [found] using there
    simp [here]

theorem Keeps.hasColumn (keeps : c.Keeps c') (there : c.hasColumn name column = true) :
    c'.hasColumn name column = true := by
  unfold Catalog.hasColumn at there ⊢
  cases found : c name with
  | none => simp [found] at there
  | some t =>
    have here : column ∈ t.columns := by simpa [found] using there
    obtain ⟨t', found', longer⟩ := keeps name t found
    simp [found', longer.columns.subset here]

end Catalog

end ColumnTables
