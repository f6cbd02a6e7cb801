import Mathlib.Data.List.Basic

/-!
# File names that lead to files

A file tree of directories, regular files and symbolic links. A path walks
through directories and names an entry of the last one; the entry leads to a
file, at once or through links. Every directory has one name in its parent and
a file is its place: there are no hard links. A walk may follow any number of
links, and a loop of links leads nowhere.
-/

namespace FileTree

inductive Component where
  | parentDir
  | normal (name : String)
  deriving DecidableEq, Repr

/-- A path without its separators; `.` stands for nothing and is left out. -/
structure Path where
  absolute : Bool
  components : List Component
  deriving DecidableEq, Repr

def Component.text : Component → String
  | .parentDir => ".."
  | .normal name => name

namespace Path

def display (p : Path) : String :=
  (if p.absolute then "/" else "") ++ "/".intercalate (p.components.map Component.text)

def fileName (p : Path) : Option String :=
  match p.components.getLast? with
  | some (.normal name) => some name
  | _ => none

/-- The last component is replaced where it is a file name; elsewhere the name is added. -/
def withFileName (p : Path) (name : String) : Path :=
  match p.fileName with
  | some _ => { p with components := p.components.dropLast ++ [.normal name] }
  | none => { p with components := p.components ++ [.normal name] }

end Path

/-- What a name stands for in a directory. -/
inductive Entry (Dir : Type) where
  | dir (target : Dir)
  | file
  | link (target : Path)

/-- Directories are abstract; `entry` is `none` where a directory lacks the name. -/
structure FileSystem (Dir : Type) where
  root : Dir
  parent : Dir → Dir
  entry : Dir → String → Option (Entry Dir)

/-- A file, present or to be created: its directory and its name there. -/
abbrev Location (Dir : Type) := Dir × String

namespace FileSystem

variable {Dir : Type} (fs : FileSystem Dir)

def start (cwd : Dir) (p : Path) : Dir := if p.absolute then fs.root else cwd

/-- No directory and no link: opening the name opens or creates the file right here. -/
def Plain (d : Dir) (name : String) : Prop :=
  fs.entry d name = none ∨ fs.entry d name = some .file

/-- From a directory through the components, links followed. -/
inductive Walk : Dir → List Component → Dir → Prop where
  | done (d : Dir) : Walk d [] d
  | parent {d e : Dir} {rest : List Component} (next : Walk (fs.parent d) rest e) :
      Walk d (.parentDir :: rest) e
  | enter {d m e : Dir} {name : String} {rest : List Component}
      (found : fs.entry d name = some (.dir m)) (next : Walk m rest e) :
      Walk d (.normal name :: rest) e
  | link {d m e : Dir} {name : String} {target : Path} {rest : List Component}
      (found : fs.entry d name = some (.link target))
      (followed : Walk (fs.start d target) target.components m) (next : Walk m rest e) :
      Walk d (.normal name :: rest) e

/-- The path names this entry of this directory, all but its last component followed. -/
def Names (cwd : Dir) (p : Path) (d : Dir) (name : String) : Prop :=
  ∃ dirs, p.components = dirs ++ [.normal name] ∧ fs.Walk (fs.start cwd p) dirs d

/-- The entry is the file, or a link whose target names an entry that leads to the file. -/
inductive LeadsTo : Dir → String → Location Dir → Prop where
  | plain {d : Dir} {name : String} (here : fs.Plain d name) : LeadsTo d name (d, name)
  | link {d m : Dir} {name final : String} {target : Path} {file : Location Dir}
      (found : fs.entry d name = some (.link target)) (named : fs.Names d target m final)
      (onward : LeadsTo m final file) : LeadsTo d name file

/-- Opening the path opens, or creates, this file. -/
def Opens (cwd : Dir) (p : Path) (file : Location Dir) : Prop :=
  ∃ d name, fs.Names cwd p d name ∧ fs.LeadsTo d name file

/-! ## One path, one file -/

section Functional

variable {fs}

theorem Walk.unique {d : Dir} {path : List Component} {e e' : Dir} (w : fs.Walk d path e) :
    fs.Walk d path e' → e = e' := by
  induction w generalizing e' with
  | done d =>
      intro w'
      cases w'
      rfl
  | parent next ih =>
      intro w'
      cases w' with
      | parent next' => exact ih next'
  | enter found next ih =>
      intro w'
      cases w' with
      | enter found' next' =>
          rw [found] at found'
          cases found'
          exact ih next'
      | link found' followed' next' =>
          rw [found] at found'
          cases found'
  | link found followed next ihFollowed ih =>
      intro w'
      cases w' with
      | enter found' next' =>
          rw [found] at found'
          cases found'
      | link found' followed' next' =>
          rw [found] at found'
          cases found'
          rw [← ihFollowed followed'] at next'
          exact ih next'

theorem Names.unique {cwd d d' : Dir} {p : Path} {name name' : String}
    (h : fs.Names cwd p d name) (h' : fs.Names cwd p d' name') : d = d' ∧ name = name' := by
  obtain ⟨dirs, parts, walk⟩ := h
  obtain ⟨dirs', parts', walk'⟩ := h'
  have same : dirs ++ [.normal name] = dirs' ++ [.normal name'] := parts.symm.trans parts'
  obtain ⟨sameDirs, sameLast⟩ := List.append_inj' same rfl
  subst sameDirs
  constructor
  · exact walk.unique walk'
  · simpa using sameLast

theorem Plain.not_link {d : Dir} {name : String} {target : Path} (here : fs.Plain d name) :
    fs.entry d name ≠ some (.link target) := by
  rcases here with h | h <;> simp [h]

theorem LeadsTo.unique {d : Dir} {name : String} {file file' : Location Dir}
    (h : fs.LeadsTo d name file) : fs.LeadsTo d name file' → file = file' := by
  induction h with
  | plain here =>
      intro h'
      cases h' with
      | plain _ => rfl
      | link found _ _ => exact absurd found here.not_link
  | link found named onward ih =>
      intro h'
      cases h' with
      | plain here => exact absurd found here.not_link
      | link found' named' onward' =>
          rw [found] at found'
          cases found'
          obtain ⟨rfl, rfl⟩ := named.unique named'
          exact ih onward'

theorem Opens.unique {cwd : Dir} {p : Path} {file file' : Location Dir}
    (h : fs.Opens cwd p file) (h' : fs.Opens cwd p file') : file = file' := by
  obtain ⟨d, name, named, leads⟩ := h
  obtain ⟨d', name', named', leads'⟩ := h'
  obtain ⟨rfl, rfl⟩ := named.unique named'
  exact leads.unique leads'

theorem opens_iff_leadsTo {cwd d : Dir} {p : Path} {name : String} {file : Location Dir}
    (named : fs.Names cwd p d name) : fs.Opens cwd p file ↔ fs.LeadsTo d name file := by
  constructor
  · rintro ⟨d', name', named', leads⟩
    obtain ⟨rfl, rfl⟩ := named.unique named'
    exact leads
  · intro leads
    exact ⟨d, name, named, leads⟩

/-- Where a path leads, the entry there is plain. -/
theorem LeadsTo.plain_end {d : Dir} {name : String} {file : Location Dir}
    (h : fs.LeadsTo d name file) : fs.Plain file.1 file.2 := by
  induction h with
  | plain here => exact here
  | link _ _ _ ih => exact ih

theorem Opens.plain_end {cwd : Dir} {p : Path} {file : Location Dir}
    (h : fs.Opens cwd p file) : fs.Plain file.1 file.2 := by
  obtain ⟨d, name, -, leads⟩ := h
  exact leads.plain_end

end Functional

/-! ## Creating a file -/

/-- Both trees have the same directories and links, and a name is plain in both or in none. -/
structure Alike (fs fs' : FileSystem Dir) : Prop where
  root : fs'.root = fs.root
  parent : fs'.parent = fs.parent
  dir : ∀ d name m, fs'.entry d name = some (.dir m) ↔ fs.entry d name = some (.dir m)
  link : ∀ d name t, fs'.entry d name = some (.link t) ↔ fs.entry d name = some (.link t)
  plain : ∀ d name, fs'.Plain d name ↔ fs.Plain d name

section Alike

variable {fs} {fs' fs'' : FileSystem Dir}

theorem Alike.refl (fs : FileSystem Dir) : Alike fs fs where
  root := rfl
  parent := rfl
  dir _ _ _ := Iff.rfl
  link _ _ _ := Iff.rfl
  plain _ _ := Iff.rfl

theorem Alike.symm (a : Alike fs fs') : Alike fs' fs where
  root := a.root.symm
  parent := a.parent.symm
  dir d name m := (a.dir d name m).symm
  link d name t := (a.link d name t).symm
  plain d name := (a.plain d name).symm

theorem Alike.trans (a : Alike fs fs') (b : Alike fs' fs'') : Alike fs fs'' where
  root := b.root.trans a.root
  parent := b.parent.trans a.parent
  dir d name m := (b.dir d name m).trans (a.dir d name m)
  link d name t := (b.link d name t).trans (a.link d name t)
  plain d name := (b.plain d name).trans (a.plain d name)

theorem Alike.start (a : Alike fs fs') (cwd : Dir) (p : Path) :
    fs'.start cwd p = fs.start cwd p := by
  simp only [FileSystem.start, a.root]

theorem Walk.alike (a : Alike fs fs') {d e : Dir} {path : List Component}
    (w : fs.Walk d path e) : fs'.Walk d path e := by
  induction w with
  | done d => exact .done d
  | parent next ih =>
      apply Walk.parent
      rw [a.parent]
      exact ih
  | enter found next ih => exact .enter ((a.dir _ _ _).mpr found) ih
  | link found followed next ihFollowed ih =>
      rw [← a.start] at ihFollowed
      exact .link ((a.link _ _ _).mpr found) ihFollowed ih

theorem Names.alike (a : Alike fs fs') {cwd d : Dir} {p : Path} {name : String}
    (h : fs.Names cwd p d name) : fs'.Names cwd p d name := by
  obtain ⟨dirs, parts, walk⟩ := h
  rw [← a.start] at walk
  exact ⟨dirs, parts, walk.alike a⟩

theorem LeadsTo.alike (a : Alike fs fs') {d : Dir} {name : String} {file : Location Dir}
    (h : fs.LeadsTo d name file) : fs'.LeadsTo d name file := by
  induction h with
  | plain here => exact .plain ((a.plain _ _).mpr here)
  | link found named onward ih => exact .link ((a.link _ _ _).mpr found) (named.alike a) ih

theorem opens_alike (a : Alike fs fs') {cwd : Dir} {p : Path} {file : Location Dir} :
    fs'.Opens cwd p file ↔ fs.Opens cwd p file := by
  constructor
  · rintro ⟨d, name, named, leads⟩
    exact ⟨d, name, named.alike a.symm, leads.alike a.symm⟩
  · rintro ⟨d, name, named, leads⟩
    exact ⟨d, name, named.alike a, leads.alike a⟩

end Alike

/-- The file exists from here on. -/
def touch [DecidableEq Dir] (file : Location Dir) : FileSystem Dir :=
  { fs with
    entry := fun d name => if (d, name) = file then some .file else fs.entry d name }

theorem alike_touch [DecidableEq Dir] {file : Location Dir} (here : fs.Plain file.1 file.2) :
    Alike fs (fs.touch file) := by
  have unchanged : ∀ d name, (d, name) ≠ file → (fs.touch file).entry d name = fs.entry d name := by
    intro d name other
    simp only [touch, if_neg other]
  have created : (fs.touch file).entry file.1 file.2 = some .file := by
    simp only [touch, if_pos]
  constructor
  · rfl
  · rfl
  · intro d name m
    by_cases same : (d, name) = file
    · subst same
      rcases here with h | h <;> simp [created, h]
    · rw [unchanged d name same]
  · intro d name t
    by_cases same : (d, name) = file
    · subst same
      rcases here with h | h <;> simp [created, h]
    · rw [unchanged d name same]
  · intro d name
    by_cases same : (d, name) = file
    · subst same
      simp only [here, iff_true]
      exact .inr created
    · simp only [Plain, unchanged d name same]

end FileSystem

/-! ## Another last name in the same place -/

theorem Path.fileName_snoc {p : Path} {dirs : List Component} {name : String}
    (parts : p.components = dirs ++ [.normal name]) : p.fileName = some name := by
  simp only [Path.fileName, parts, List.getLast?_concat]

theorem Path.withFileName_snoc {p : Path} {dirs : List Component} {name : String}
    (parts : p.components = dirs ++ [.normal name]) (other : String) :
    p.withFileName other = { p with components := dirs ++ [.normal other] } := by
  simp only [Path.withFileName, Path.fileName_snoc parts, parts, List.dropLast_concat]

/-- The path with another file name names that entry of the same directory. -/
theorem FileSystem.Names.withFileName {Dir : Type} {fs : FileSystem Dir} {cwd d : Dir} {p : Path}
    {name : String} (h : fs.Names cwd p d name) (other : String) :
    fs.Names cwd (p.withFileName other) d other := by
  obtain ⟨dirs, parts, walk⟩ := h
  rw [Path.withFileName_snoc parts]
  exact ⟨dirs, rfl, walk⟩

end FileTree
