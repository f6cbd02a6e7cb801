import Mathlib.Logic.Function.Basic
import Mathlib.Tactic

/-!
# Replacing a file through a temporary one

The names of a disk stand for numbered files, and a file keeps its bytes whatever
becomes of its names. A writer makes a file under a temporary name, writes it piece
by piece and renames it; a reader opens the published name and reads piece by piece.
Any operation may fail, and anyone may stop between two operations. Whoever opens the
published name finds complete bytes and goes on finding them.
-/

namespace AtomicReplace

/-! ## The disk -/

structure Disk (Name Byte : Type) where
  entry : Name → Option Nat
  bytes : Nat → List Byte
  /-- How many files were made. -/
  made : Nat
  exist : ∀ n f, entry n = some f → f < made

variable {Name Byte ε P : Type} [DecidableEq Name] [DecidableEq P]

namespace Disk

def empty : Disk Name Byte := ⟨fun _ => none, fun _ => [], 0, nofun⟩

def content (d : Disk Name Byte) (n : Name) : Option (List Byte) := (d.entry n).map d.bytes

/-- A new file without bytes stands under the name. -/
def create (d : Disk Name Byte) (n : Name) : Disk Name Byte where
  entry := Function.update d.entry n (some d.made)
  bytes := Function.update d.bytes d.made []
  made := d.made + 1
  exist n' f stands := by
    by_cases new : n' = n
    · subst new
      simp only [Function.update_self, Option.some.injEq] at stands
      omega
    · rw [Function.update_of_ne new] at stands
      exact Nat.lt_succ_of_lt (d.exist n' f stands)

def append (d : Disk Name Byte) (f : Nat) (chunk : List Byte) : Disk Name Byte :=
  { d with bytes := Function.update d.bytes f (d.bytes f ++ chunk) }

def remove (d : Disk Name Byte) (n : Name) : Disk Name Byte where
  entry := Function.update d.entry n none
  bytes := d.bytes
  made := d.made
  exist n' f stands := by
    by_cases gone : n' = n
    · subst gone
      simp only [Function.update_self, reduceCtorEq] at stands
    · rw [Function.update_of_ne gone] at stands
      exact d.exist n' f stands

/-- The file of the old name stands under the new one, in place of what stood there. -/
def rename (d : Disk Name Byte) (old new : Name) : Disk Name Byte where
  entry := Function.update (Function.update d.entry new (d.entry old)) old none
  bytes := d.bytes
  made := d.made
  exist n f stands := by
    by_cases gone : n = old
    · subst gone
      simp only [Function.update_self, reduceCtorEq] at stands
    · rw [Function.update_of_ne gone] at stands
      by_cases taken : n = new
      · subst taken
        rw [Function.update_self] at stands
        exact d.exist old f stands
      · rw [Function.update_of_ne taken] at stands
        exact d.exist n f stands

end Disk

/-! ## A writer and a reader -/

/-- The operations of a replacement that can fail. -/
inductive Stage where
  | directory
  | opening
  | writing
  | flushing
  | replacing
  deriving DecidableEq

/-- How the next operation ends; a read or a write moves some amount of bytes. -/
inductive Fate (ε : Type) where
  | goes (amount : Nat)
  | fails (e : ε)

/-- The errors of a name that is taken and of a name that is not there. -/
structure NameErrors (ε : Type) where
  taken : ε
  absent : ε

inductive Replacer (Byte ε : Type) where
  | starting
  | opening
  | writing (file : Nat) (rest : List Byte)
  | flushing
  | replacing
  | cleaning (stage : Stage) (e : ε)
  | finished
  | failed (stage : Stage) (e : ε) (cleaned : Bool)
  deriving DecidableEq

inductive Reader (Byte ε : Type) where
  | opening
  | reading (file : Nat) (got : List Byte)
  | finished (got : List Byte)
  | failed (opened : Bool) (e : ε)
  deriving DecidableEq

/-- One operation of a writer of these bytes; none when it is done. -/
def Replacer.step (errors : NameErrors ε) (path tmp : Name) (data : List Byte) (fate : Fate ε)
    (d : Disk Name Byte) : Replacer Byte ε → Option (Replacer Byte ε × Disk Name Byte)
  | .starting =>
    match fate with
    | .fails e => some (.failed .directory e true, d)
    | .goes _ => some (.opening, d)
  | .opening =>
    match fate, d.entry tmp with
    | .fails e, _ => some (.cleaning .opening e, d)
    | .goes _, some _ => some (.cleaning .opening errors.taken, d)
    | .goes _, none => some (.writing d.made data, d.create tmp)
  | .writing f rest =>
    match fate, rest with
    | .fails e, _ => some (.cleaning .writing e, d)
    | .goes _, [] => some (.flushing, d)
    | .goes n, b :: rest =>
      some (.writing f (rest.drop n), d.append f (b :: rest.take n))
  | .flushing =>
    match fate with
    | .fails e => some (.cleaning .flushing e, d)
    | .goes _ => some (.replacing, d)
  | .replacing =>
    match fate, d.entry tmp with
    | .fails e, _ => some (.cleaning .replacing e, d)
    | .goes _, none => some (.cleaning .replacing errors.absent, d)
    | .goes _, some _ => some (.finished, d.rename tmp path)
  | .cleaning stage e =>
    match fate with
    | .fails _ => some (.failed stage e false, d)
    | .goes _ => some (.failed stage e true, d.remove tmp)
  | .finished => none
  | .failed .. => none

/-- One operation of a reader; it has all the bytes when none come any more. -/
def Reader.step (errors : NameErrors ε) (path : Name) (fate : Fate ε) (d : Disk Name Byte) :
    Reader Byte ε → Option (Reader Byte ε)
  | .opening =>
    match fate, d.entry path with
    | .fails e, _ => some (.failed false e)
    | .goes _, none => some (.failed false errors.absent)
    | .goes _, some f => some (.reading f [])
  | .reading f got =>
    match fate, (d.bytes f).drop got.length with
    | .fails e, _ => some (.failed true e)
    | .goes _, [] => some (.finished got)
    | .goes n, b :: rest => some (.reading f (got ++ b :: rest.take n))
  | .finished _ => none
  | .failed .. => none

/-! ## What a process holds -/

/-- A file that is being written, a finished one under the temporary name, or an opened one. -/
inductive Hold (Byte : Type) where
  | nothing
  | draft (file : Nat) (rest data : List Byte)
  | whole (data : List Byte)
  | copy (file : Nat) (got : List Byte)

def Hold.drafted : Hold Byte → Option Nat
  | .draft f _ _ => some f
  | _ => none

def Replacer.hold (data : List Byte) : Replacer Byte ε → Hold Byte
  | .writing f rest => .draft f rest data
  | .flushing => .whole data
  | .replacing => .whole data
  | _ => .nothing

def Reader.hold : Reader Byte ε → Hold Byte
  | .reading f got => .copy f got
  | _ => .nothing

/-- The name that is published and the temporary ones, all of them different. -/
structure Names (P Name : Type) where
  path : Name
  tmp : P → Name
  distinct : Function.Injective tmp
  apart : ∀ p, path ≠ tmp p

/-- Nobody writes this file. -/
def Settled (d : Disk Name Byte) (hold : P → Hold Byte) (f : Nat) : Prop :=
  f < d.made ∧ ∀ p, (hold p).drafted ≠ some f

/-- What is true of a file that a process holds. -/
def Held (names : Names P Name) (Complete : List Byte → Prop) (d : Disk Name Byte)
    (settled : Nat → Prop) (p : P) : Hold Byte → Prop
  | .nothing => True
  | .draft f rest data => d.entry (names.tmp p) = some f ∧ d.bytes f ++ rest = data ∧ Complete data
  | .whole data =>
    Complete data ∧ ∃ f, d.entry (names.tmp p) = some f ∧ settled f ∧ d.bytes f = data
  | .copy f got => settled f ∧ Complete (d.bytes f) ∧ got <+: d.bytes f

structure Inv (names : Names P Name) (Complete : List Byte → Prop) (d : Disk Name Byte)
    (hold : P → Hold Byte) : Prop where
  held : ∀ p, Held names Complete d (Settled d hold) p (hold p)
  sole : ∀ p q f, (hold p).drafted = some f → (hold q).drafted = some f → p = q
  published : ∀ f, d.entry names.path = some f → Settled d hold f ∧ Complete (d.bytes f)

variable {names : Names P Name} {Complete : List Byte → Prop} {d d' : Disk Name Byte}
  {hold : P → Hold Byte} {p q : P} {f : Nat} {h : Hold Byte} {data rest got : List Byte}

omit [DecidableEq Name] [DecidableEq P] in
/-- Nobody has begun. -/
theorem Inv.initial (complete : ∀ b, d.content names.path = some b → Complete b)
    (idle : ∀ p, hold p = .nothing) : Inv names Complete d hold := by
  have nobody : ∀ p f, (hold p).drafted ≠ some f := by
    intro p f
    rw [idle p]
    nofun
  constructor
  · intro p
    rw [idle p]
    trivial
  · intro p q f mine
    exact absurd mine (nobody p f)
  · intro f stands
    constructor
    · exact ⟨d.exist _ _ stands, fun p => nobody p f⟩
    · apply complete
      rw [Disk.content, stands]
      rfl

omit [DecidableEq Name] [DecidableEq P] in
lemma Inv.draft (inv : Inv names Complete d hold) (mine : (hold p).drafted = some f) :
    f < d.made := by
  have held := inv.held p
  cases holds : hold p with
  | draft f' rest data =>
      rw [holds] at held mine
      cases mine
      exact d.exist _ _ held.1
  | nothing => cases holds ▸ mine
  | whole data => cases holds ▸ mine
  | copy f got => cases holds ▸ mine

omit [DecidableEq Name] in
lemma Settled.update (settled : Settled d hold f) (grows : d.made ≤ d'.made)
    (free : h.drafted ≠ some f) : Settled d' (Function.update hold p h) f := by
  refine ⟨Nat.lt_of_lt_of_le settled.1 grows, fun q => ?_⟩
  by_cases self : q = p
  · subst self
    rwa [Function.update_self]
  · rw [Function.update_of_ne self]
    exact settled.2 q

omit [DecidableEq Name] in
/-- One process moves: it leaves the files of the others and their names alone, and publishes
none but a complete one. -/
theorem Inv.change (inv : Inv names Complete d hold) (p : P) (grows : d.made ≤ d'.made)
    (spares : ∀ f < d.made, (hold p).drafted ≠ some f →
      d'.bytes f = d.bytes f ∧ h.drafted ≠ some f)
    (others : ∀ q, q ≠ p → d'.entry (names.tmp q) = d.entry (names.tmp q))
    (mine : Held names Complete d' (Settled d' (Function.update hold p h)) p h)
    (published : ∀ f, d'.entry names.path = some f → d.entry names.path = some f ∨
      Settled d' (Function.update hold p h) f ∧ Complete (d'.bytes f)) :
    Inv names Complete d' (Function.update hold p h) := by
  have keeps : ∀ f, Settled d hold f →
      Settled d' (Function.update hold p h) f ∧ d'.bytes f = d.bytes f := by
    intro f settled
    obtain ⟨same, free⟩ := spares f settled.1 (settled.2 p)
    exact ⟨settled.update grows free, same⟩
  have alone : ∀ q, q ≠ p → ∀ f, (hold q).drafted = some f →
      d'.bytes f = d.bytes f ∧ h.drafted ≠ some f := by
    intro q other f drafts
    apply spares f (inv.draft drafts)
    intro same
    exact other (inv.sole q p f drafts same)
  constructor
  · intro q
    by_cases self : q = p
    · subst self
      rwa [Function.update_self]
    · rw [Function.update_of_ne self]
      have held := inv.held q
      cases holds : hold q with
      | nothing => trivial
      | draft f rest data =>
          rw [holds] at held
          have same := (alone q self f (by rw [holds]; rfl)).1
          exact ⟨(others q self).trans held.1, same ▸ held.2.1, held.2.2⟩
      | whole data =>
          rw [holds] at held
          obtain ⟨complete, f, named, settled, bytes⟩ := held
          obtain ⟨settled, same⟩ := keeps f settled
          exact ⟨complete, f, (others q self).trans named, settled, same.trans bytes⟩
      | copy f got =>
          rw [holds] at held
          obtain ⟨settled, complete, pre⟩ := held
          obtain ⟨settled, same⟩ := keeps f settled
          exact ⟨settled, same ▸ complete, same ▸ pre⟩
  · intro q r f first second
    by_cases self : q = p
    · by_cases self' : r = p
      · exact self.trans self'.symm
      · rw [self, Function.update_self] at first
        rw [Function.update_of_ne self'] at second
        exact absurd first (alone r self' f second).2
    · rw [Function.update_of_ne self] at first
      by_cases self' : r = p
      · rw [self', Function.update_self] at second
        exact absurd second (alone q self f first).2
      · rw [Function.update_of_ne self'] at second
        exact inv.sole q r f first second
  · intro f stands
    rcases published f stands with before | now
    · obtain ⟨settled, complete⟩ := inv.published f before
      obtain ⟨settled, same⟩ := keeps f settled
      exact ⟨settled, same ▸ complete⟩
    · exact now

/-! ## One operation after another -/

section Operations

variable (inv : Inv names Complete d hold)

include inv

omit [DecidableEq Name] in
/-- A process that holds nothing that it writes, on the disk as it is. -/
lemma Inv.look (free : h.drafted = none)
    (mine : Held names Complete d (Settled d (Function.update hold p h)) p h) :
    Inv names Complete d (Function.update hold p h) := by
  apply inv.change p (Nat.le_refl _)
  · intro f _ _
    rw [free]
    exact ⟨rfl, nofun⟩
  · exact fun _ _ => rfl
  · exact mine
  · exact fun f stands => Or.inl stands

omit [DecidableEq Name] in
lemma Inv.release : Inv names Complete d (Function.update hold p .nothing) :=
  inv.look rfl trivial

lemma Inv.create (complete : Complete data) :
    Inv names Complete (d.create (names.tmp p))
      (Function.update hold p (.draft d.made data data)) := by
  apply inv.change p (show d.made ≤ (d.create (names.tmp p)).made from Nat.le_succ _)
  · intro f old _
    constructor
    · exact Function.update_of_ne (Nat.ne_of_lt old) _ _
    · intro same
      cases same
      exact Nat.lt_irrefl _ old
  · intro q other
    exact Function.update_of_ne (fun same => other (names.distinct same)) _ _
  · refine ⟨Function.update_self .., ?_, complete⟩
    simp only [Disk.create, Function.update_self, List.nil_append]
  · intro f stands
    apply Or.inl
    rw [← stands]
    exact (Function.update_of_ne (names.apart p) _ _).symm

omit [DecidableEq Name] in
lemma Inv.append {chunk : List Byte} (holds : hold p = .draft f (chunk ++ rest) data) :
    Inv names Complete (d.append f chunk) (Function.update hold p (.draft f rest data)) := by
  have held := inv.held p
  rw [holds] at held
  have drafts : (hold p).drafted = some f := by rw [holds]; rfl
  apply inv.change p (show d.made ≤ (d.append f chunk).made from Nat.le_refl _)
  · intro f' _ other
    rw [drafts] at other
    have different : f' ≠ f := fun same => other (congrArg some same.symm)
    exact ⟨Function.update_of_ne different _ _, other⟩
  · exact fun _ _ => rfl
  · refine ⟨held.1, ?_, held.2.2⟩
    simp only [Disk.append, Function.update_self, List.append_assoc]
    exact held.2.1
  · exact fun f stands => Or.inl stands

omit [DecidableEq Name] in
/-- The last byte is written. -/
lemma Inv.settle (holds : hold p = .draft f [] data) :
    Inv names Complete d (Function.update hold p (.whole data)) := by
  have held := inv.held p
  rw [holds] at held
  have drafts : (hold p).drafted = some f := by rw [holds]; rfl
  apply inv.look rfl
  refine ⟨held.2.2, f, held.1, ⟨d.exist _ _ held.1, fun q => ?_⟩, ?_⟩
  · by_cases self : q = p
    · subst self
      rw [Function.update_self]
      nofun
    · rw [Function.update_of_ne self]
      intro drafts'
      exact self (inv.sole q p f drafts' drafts)
  · rw [← held.2.1, List.append_nil]

lemma Inv.publish (holds : hold p = .whole data) :
    Inv names Complete (d.rename (names.tmp p) names.path) (Function.update hold p .nothing) ∧
      (d.rename (names.tmp p) names.path).content names.path = some data := by
  have held := inv.held p
  rw [holds] at held
  obtain ⟨complete, f, named, settled, bytes⟩ := held
  have now : (d.rename (names.tmp p) names.path).entry names.path = some f := by
    simp only [Disk.rename, Function.update_of_ne (names.apart p), Function.update_self, named]
  have written : (d.rename (names.tmp p) names.path).bytes f = data := bytes
  constructor
  · apply inv.change p (show d.made ≤ (d.rename (names.tmp p) names.path).made from Nat.le_refl _)
    · exact fun f _ _ => ⟨rfl, nofun⟩
    · intro q other
      have different : names.tmp q ≠ names.tmp p := fun same => other (names.distinct same)
      simp only [Disk.rename, Function.update_of_ne different,
        Function.update_of_ne (names.apart q).symm]
    · trivial
    · intro f' stands
      cases now.symm.trans stands
      apply Or.inr
      constructor
      · exact settled.update (Nat.le_refl _) nofun
      · rw [written]
        exact complete
  · rw [Disk.content, now]
    exact congrArg some written

/-- The published name or the process's own is taken away. -/
lemma Inv.remove {n : Name} (own : n = names.path ∨ n = names.tmp p) :
    Inv names Complete (d.remove n) (Function.update hold p .nothing) := by
  have fewer : ∀ n' f, (d.remove n).entry n' = some f → d.entry n' = some f := by
    intro n' f stands
    by_cases gone : n' = n
    · subst gone
      simp only [Disk.remove, Function.update_self] at stands
      cases stands
    · simpa only [Disk.remove, Function.update_of_ne gone] using stands
  apply inv.change p (show d.made ≤ (d.remove n).made from Nat.le_refl _)
  · exact fun f _ _ => ⟨rfl, nofun⟩
  · intro q other
    apply Function.update_of_ne
    rcases own with rfl | rfl
    · exact (names.apart q).symm
    · exact fun same => other (names.distinct same)
  · trivial
  · exact fun f stands => Or.inl (fewer _ f stands)

omit [DecidableEq Name] in
/-- The published file is opened. -/
lemma Inv.open (stands : d.entry names.path = some f) :
    Inv names Complete d (Function.update hold p (.copy f [])) := by
  obtain ⟨settled, complete⟩ := inv.published f stands
  apply inv.look rfl
  exact ⟨settled.update (Nat.le_refl _) nofun, complete, List.nil_prefix⟩

omit [DecidableEq Name] in
/-- More bytes of an opened file. -/
lemma Inv.read {more : List Byte} (holds : hold p = .copy f got)
    (pre : more <+: d.bytes f) :
    Inv names Complete d (Function.update hold p (.copy f more)) := by
  have held := inv.held p
  rw [holds] at held
  obtain ⟨settled, complete, _⟩ := held
  apply inv.look rfl
  exact ⟨settled.update (Nat.le_refl _) nofun, complete, pre⟩

end Operations

/-! ## The steps of a writer -/

/-- What one operation of a writer can do to it and to the disk. -/
inductive Replacer.Op (path tmp : Name) (data : List Byte) (d : Disk Name Byte) :
    Replacer Byte ε → Replacer Byte ε → Disk Name Byte → Prop
  | begin : Op path tmp data d .starting .opening d
  | refuse (e : ε) : Op path tmp data d .starting (.failed .directory e true) d
  | create (absent : d.entry tmp = none) :
      Op path tmp data d .opening (.writing d.made data) (d.create tmp)
  | append (f : Nat) (chunk rest : List Byte) :
      Op path tmp data d (.writing f (chunk ++ rest)) (.writing f rest) (d.append f chunk)
  | settle (f : Nat) : Op path tmp data d (.writing f []) .flushing d
  | flush : Op path tmp data d .flushing .replacing d
  | publish : Op path tmp data d .replacing .finished (d.rename tmp path)
  | spoil (w : Replacer Byte ε) (stage : Stage) (e : ε) : Op path tmp data d w (.cleaning stage e) d
  | clean (stage : Stage) (e : ε) :
      Op path tmp data d (.cleaning stage e) (.failed stage e true) (d.remove tmp)
  | leave (stage : Stage) (e : ε) :
      Op path tmp data d (.cleaning stage e) (.failed stage e false) d

variable {errors : NameErrors ε} {fate : Fate ε} {w w' : Replacer Byte ε} {r r' : Reader Byte ε}

omit [DecidableEq P] in
lemma Replacer.step_cases {path tmp : Name}
    (stepped : w.step errors path tmp data fate d = some (w', d')) :
    Replacer.Op path tmp data d w w' d' := by
  cases w with
  | starting =>
      cases fate with
      | fails e =>
          cases stepped
          exact .refuse e
      | goes n =>
          cases stepped
          exact .begin
  | opening =>
      cases fate with
      | fails e =>
          cases stepped
          exact .spoil _ _ e
      | goes n =>
          simp only [Replacer.step] at stepped
          split at stepped
          · contradiction
          · cases stepped
            exact .spoil _ _ _
          · rename_i absent
            cases stepped
            exact .create absent
  | writing f rest =>
      cases fate with
      | fails e =>
          cases stepped
          exact .spoil _ _ e
      | goes n =>
          cases rest with
          | nil =>
              cases stepped
              exact .settle f
          | cons b rest =>
              cases stepped
              have split : b :: rest = (b :: rest.take n) ++ rest.drop n := by
                rw [List.cons_append, List.take_append_drop]
              rw [split]
              exact .append f _ _
  | flushing =>
      cases fate with
      | fails e =>
          cases stepped
          exact .spoil _ _ e
      | goes n =>
          cases stepped
          exact .flush
  | replacing =>
      cases fate with
      | fails e =>
          cases stepped
          exact .spoil _ _ e
      | goes n =>
          simp only [Replacer.step] at stepped
          split at stepped
          · contradiction
          · cases stepped
            exact .spoil _ _ _
          · cases stepped
            exact .publish
  | cleaning stage e =>
      cases fate with
      | fails e' =>
          cases stepped
          exact .leave stage e
      | goes n =>
          cases stepped
          exact .clean stage e
  | finished => cases stepped
  | failed stage e cleaned => cases stepped

theorem Replacer.Op.preserves (op : Replacer.Op names.path (names.tmp p) data d w w' d')
    (inv : Inv names Complete d hold) (complete : Complete data) (holds : hold p = w.hold data) :
    Inv names Complete d' (Function.update hold p (w'.hold data)) := by
  cases op with
  | begin => exact inv.release
  | refuse e => exact inv.release
  | create absent => exact inv.create complete
  | append f chunk rest => exact inv.append holds
  | settle f => exact inv.settle holds
  | flush =>
      have same : Function.update hold p (.whole data) = hold := by
        rw [Function.update_eq_self_iff]
        exact holds.symm
      have still : Inv names Complete d (Function.update hold p (.whole data)) := by
        rw [same]
        exact inv
      exact still
  | publish => exact (inv.publish holds).1
  | spoil _ stage e => exact inv.release
  | clean stage e => exact inv.remove (Or.inr rfl)
  | leave stage e => exact inv.release

omit [DecidableEq P] in
/-- A file that nobody writes keeps its bytes. -/
theorem Replacer.Op.bytes (op : Replacer.Op names.path (names.tmp p) data d w w' d')
    (holds : hold p = w.hold data) (settled : Settled d hold f) : d'.bytes f = d.bytes f := by
  cases op with
  | create absent => exact Function.update_of_ne (Nat.ne_of_lt settled.1) _ _
  | append f' chunk rest =>
      have different : f ≠ f' := by
        intro same
        apply settled.2 p
        rw [holds, same]
        rfl
      exact Function.update_of_ne different _ _
  | _ => rfl

omit [DecidableEq P] in
/-- The published name changes when the file is renamed, and at no other operation. -/
theorem Replacer.Op.public_entry (op : Replacer.Op names.path (names.tmp p) data d w w' d') :
    w' ≠ .finished ∧ d'.entry names.path = d.entry names.path ∨ w = .replacing ∧ w' = .finished := by
  cases op with
  | create absent => exact Or.inl ⟨nofun, Function.update_of_ne (names.apart p) _ _⟩
  | clean stage e => exact Or.inl ⟨nofun, Function.update_of_ne (names.apart p) _ _⟩
  | publish => exact Or.inr ⟨rfl, rfl⟩
  | _ => exact Or.inl ⟨nofun, rfl⟩

theorem Replacer.Op.content (op : Replacer.Op names.path (names.tmp p) data d w w' d')
    (inv : Inv names Complete d hold) (holds : hold p = w.hold data) :
    w' ≠ .finished ∧ d'.content names.path = d.content names.path ∨
      w = .replacing ∧ w' = .finished ∧ d'.content names.path = some data := by
  rcases op.public_entry with ⟨going, same⟩ | ⟨rfl, rfl⟩
  · apply Or.inl
    refine ⟨going, ?_⟩
    cases stands : d.entry names.path with
    | none => simp only [Disk.content, same, stands, Option.map_none]
    | some f =>
        have kept := op.bytes holds (inv.published f stands).1
        simp only [Disk.content, same, stands, Option.map_some, kept]
  · cases op with
    | publish => exact Or.inr ⟨rfl, rfl, (inv.publish holds).2⟩

omit [DecidableEq P] in
/-- No other name than the published one and the writer's own is touched. -/
theorem Replacer.Op.entry {path tmp n : Name} (op : Replacer.Op path tmp data d w w' d')
    (other : n ≠ path) (own : n ≠ tmp) : d'.entry n = d.entry n := by
  cases op with
  | create absent => exact Function.update_of_ne own _ _
  | publish =>
      simp only [Disk.rename, Function.update_of_ne own, Function.update_of_ne other]
  | clean stage e => exact Function.update_of_ne own _ _
  | _ => rfl

/-! ## The steps of a reader -/

/-- What one operation of a reader can do. -/
inductive Reader.Op (path : Name) (d : Disk Name Byte) : Reader Byte ε → Reader Byte ε → Prop
  | fail (r : Reader Byte ε) (opened : Bool) (e : ε) : Op path d r (.failed opened e)
  | open (f : Nat) (stands : d.entry path = some f) : Op path d .opening (.reading f [])
  | read (f : Nat) (got more : List Byte) (pre : got <+: d.bytes f → more <+: d.bytes f) :
      Op path d (.reading f got) (.reading f more)
  | finish (f : Nat) (got : List Byte) (whole : got <+: d.bytes f → got = d.bytes f) :
      Op path d (.reading f got) (.finished got)

omit [DecidableEq Name] in
lemma Reader.step_cases {path : Name} (stepped : r.step errors path fate d = some r') :
    Reader.Op path d r r' := by
  cases r with
  | opening =>
      simp only [Reader.step] at stepped
      split at stepped
      · cases stepped
        exact .fail _ _ _
      · cases stepped
        exact .fail _ _ _
      · rename_i stands
        cases stepped
        exact .open _ stands
  | reading f got =>
      have parts : got <+: d.bytes f → got ++ (d.bytes f).drop got.length = d.bytes f := by
        rintro ⟨rest, whole⟩
        rw [← whole, List.drop_left]
      simp only [Reader.step] at stepped
      split at stepped
      · cases stepped
        exact .fail _ _ _
      · rename_i ended
        cases stepped
        apply Reader.Op.finish
        intro pre
        have whole := parts pre
        rwa [ended, List.append_nil] at whole
      · rename_i n b rest more
        cases stepped
        apply Reader.Op.read
        intro pre
        refine ⟨rest.drop n, ?_⟩
        rw [List.append_assoc, List.cons_append, List.take_append_drop, ← more, parts pre]
  | finished got => cases stepped
  | failed opened e => cases stepped

omit [DecidableEq Name] in
theorem Reader.Op.preserves (op : Reader.Op names.path d r r') (inv : Inv names Complete d hold)
    (holds : hold p = r.hold) : Inv names Complete d (Function.update hold p r'.hold) := by
  cases op with
  | fail _ opened e => exact inv.release
  | «open» f stands => exact inv.open stands
  | read f got more pre =>
      have held := inv.held p
      rw [holds] at held
      exact inv.read holds (pre held.2.2)
  | finish f got whole => exact inv.release

omit [DecidableEq Name] [DecidableEq P] in
/-- A reader that is done has all the bytes of the file it opened, and they are complete. -/
theorem Reader.Op.finished {all : List Byte} (op : Reader.Op names.path d r (.finished all))
    (inv : Inv names Complete d hold) (holds : hold p = r.hold) :
    ∃ f got, r = .reading f got ∧ all = d.bytes f ∧ Complete all := by
  have held := inv.held p
  rw [holds] at held
  cases op with
  | finish f _ whole =>
      obtain ⟨_, complete, pre⟩ := held
      have same := whole pre
      exact ⟨f, all, rfl, same, same ▸ complete⟩

end AtomicReplace
