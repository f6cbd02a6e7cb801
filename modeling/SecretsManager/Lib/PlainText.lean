import Mathlib.Data.List.Basic

/-!
# Lines and escapes

Texts over any characters. A text of terminated lines reads back as those lines,
provided no line holds the terminator; an escaped text reads back as itself; and what
ends with one terminator loses just that when it is stripped, unless the character
before it is stripped as well.
-/

namespace PlainText

variable {α : Type} [DecidableEq α]

/-! ## Terminated lines -/

def writeLines (nl : α) (lines : List (List α)) : List α := lines.flatMap fun line => line ++ [nl]

/-- The lines of a text whose last line is terminated too. -/
def readLines (nl : α) : List α → Option (List (List α))
  | [] => some []
  | ch :: rest =>
    if ch = nl then (readLines nl rest).map fun lines => [] :: lines
    else match readLines nl rest with
      | some (line :: lines) => some ((ch :: line) :: lines)
      | _ => none

lemma readLines_line {nl : α} {line rest : List α} {lines : List (List α)} (free : nl ∉ line)
    (read : readLines nl rest = some lines) :
    readLines nl (line ++ nl :: rest) = some (line :: lines) := by
  induction line with
  | nil => simp only [List.nil_append, readLines, if_true, read, Option.map_some]
  | cons ch line ih =>
      have other : ¬ ch = nl := fun same => free (List.mem_cons.mpr (Or.inl same.symm))
      have free : nl ∉ line := fun mem => free (List.mem_cons_of_mem _ mem)
      simp only [List.cons_append, readLines, if_neg other, ih free]

theorem readLines_writeLines {nl : α} {lines : List (List α)} (free : ∀ line ∈ lines, nl ∉ line) :
    readLines nl (writeLines nl lines) = some lines := by
  induction lines with
  | nil => rfl
  | cons line lines ih =>
      have rest := ih fun line mem => free line (List.mem_cons_of_mem _ mem)
      simp only [writeLines, List.flatMap_cons, List.append_assoc, List.singleton_append]
      exact readLines_line (free line List.mem_cons_self) rest

/-! ## A file that grows -/

/-- The lines that a terminator has closed. -/
def closedLines (nl : α) (text : List α) : List (List α) := (text.splitOn nl).dropLast

/-- What stands after the last terminator. -/
def openLine (nl : α) (text : List α) : List α :=
  (text.splitOn nl).getLast (List.splitOn_ne_nil nl text)

lemma splitOn_lines (nl : α) (text : List α) :
    text.splitOn nl = closedLines nl text ++ [openLine nl text] :=
  (List.dropLast_append_getLast _).symm

lemma lines_eq {nl : α} {text : List α} {closed : List (List α)} {line : List α}
    (cut : text.splitOn nl = closed ++ [line]) :
    closedLines nl text = closed ∧ openLine nl text = line :=
  List.append_singleton_inj.mp ((splitOn_lines nl text).symm.trans cut)

/-- A piece without a terminator goes to the open line. -/
theorem append_free {nl : α} {text more : List α} (free : nl ∉ more) :
    closedLines nl (text ++ more) = closedLines nl text ∧
      openLine nl (text ++ more) = openLine nl text ++ more := by
  by_cases terminated : nl ∈ text
  · -- the open line begins after the last terminator
    obtain ⟨last, before, cut, fresh⟩ :=
      List.eq_append_cons_of_mem (List.mem_reverse.mpr terminated)
    have split : text = before.reverse ++ nl :: last.reverse := by
      have back := congrArg List.reverse cut
      simpa using back
    have fresh : nl ∉ last.reverse := fun mem => fresh (List.mem_reverse.mp mem)
    have first : text.splitOn nl = before.reverse.splitOn nl ++ [last.reverse] := by
      rw [split, List.splitOn_append_cons_self, List.splitOn_eq_singleton fresh]
    have second : (text ++ more).splitOn nl =
        before.reverse.splitOn nl ++ [last.reverse ++ more] := by
      have whole : nl ∉ last.reverse ++ more :=
        fun mem => (List.mem_append.mp mem).elim fresh free
      rw [split, List.append_assoc, List.cons_append, List.splitOn_append_cons_self,
        List.splitOn_eq_singleton whole]
    obtain ⟨closed, line⟩ := lines_eq first
    rw [closed, line]
    exact lines_eq second
  · have first : text.splitOn nl = [] ++ [text] := List.splitOn_eq_singleton terminated
    have second : (text ++ more).splitOn nl = [] ++ [text ++ more] :=
      List.splitOn_eq_singleton (by simp [terminated, free])
    obtain ⟨closed, line⟩ := lines_eq first
    rw [closed, line]
    exact lines_eq second

/-- A terminator closes the open line. -/
theorem append_terminator (nl : α) (text : List α) :
    closedLines nl (text ++ [nl]) = closedLines nl text ++ [openLine nl text] ∧
      openLine nl (text ++ [nl]) = [] := by
  apply lines_eq
  rw [List.splitOn_append_cons_self, List.splitOn_nil, ← splitOn_lines]

/-! ## A name and what follows its mark -/

/-- The text before the first mark, and the text after it. -/
def cutAt (mark : α) (text : List α) : List α × List α :=
  (text.takeWhile (· ≠ mark), (text.dropWhile (· ≠ mark)).tail)

theorem cutAt_append {mark : α} {name rest : List α} (free : mark ∉ name) :
    cutAt mark (name ++ mark :: rest) = (name, rest) := by
  have others : ∀ ch ∈ name, decide (ch ≠ mark) = true := by
    intro ch mem
    apply decide_eq_true
    rintro rfl
    exact free mem
  have stops : decide (mark ≠ mark) = false := decide_eq_false fun other => other rfl
  simp only [cutAt, List.takeWhile_append_of_pos others, List.dropWhile_append_of_pos others,
    List.takeWhile_cons, List.dropWhile_cons, stops, Bool.false_eq_true, if_false,
    List.append_nil, List.tail_cons]

/-! ## Escapes -/

/-- Some characters are written as a mark and a letter, the mark among them. -/
structure Escapes (α : Type) where
  mark : α
  letter : α → Option α
  meaning : α → α
  marks : (letter mark).isSome
  means : ∀ ch l, letter ch = some l → meaning l = ch

namespace Escapes

variable (e : Escapes α)

def char (ch : α) : List α :=
  match e.letter ch with
  | some l => [e.mark, l]
  | none => [ch]

def write (text : List α) : List α := text.flatMap e.char

def read : List α → List α
  | [] => []
  | [ch] => [ch]
  | ch :: l :: rest => if ch = e.mark then e.meaning l :: read rest else ch :: read (l :: rest)

variable {e}

lemma read_plain {ch : α} (plain : ch ≠ e.mark) (rest : List α) :
    e.read (ch :: rest) = ch :: e.read rest := by
  cases rest with
  | nil => rfl
  | cons l rest => simp only [read, if_neg plain]

theorem read_write (text : List α) : e.read (e.write text) = text := by
  induction text with
  | nil => rfl
  | cons ch text ih =>
      cases found : e.letter ch with
      | some l =>
          have means := e.means ch l found
          have ih : e.read (text.flatMap e.char) = text := ih
          simp only [write, List.flatMap_cons, char, found, List.cons_append, List.nil_append,
            read, if_true, means, ih]
      | none =>
          have plain : ch ≠ e.mark := by
            rintro rfl
            have marks := e.marks
            rw [found] at marks
            cases marks
          have ih : e.read (text.flatMap e.char) = text := ih
          simp only [write, List.flatMap_cons, char, found, List.cons_append, List.nil_append,
            read_plain plain, ih]

omit [DecidableEq α] in
/-- A character with a letter of its own is not in an escaped text, as long as it is neither the
mark nor a letter. -/
theorem not_mem_write {text : List α} {ch : α} (escaped : (e.letter ch).isSome)
    (other : ch ≠ e.mark) (unused : ∀ ch' l, e.letter ch' = some l → ch ≠ l) :
    ch ∉ e.write text := by
  intro mem
  obtain ⟨ch', _, mem⟩ := List.mem_flatMap.mp mem
  cases found : e.letter ch' with
  | some l =>
      simp only [char, found, List.mem_cons, List.not_mem_nil, or_false] at mem
      rcases mem with mark | letter
      · exact other mark
      · exact unused ch' l found letter
  | none =>
      simp only [char, found, List.mem_singleton] at mem
      rw [mem, found] at escaped
      cases escaped

end Escapes

/-! ## Stripping a terminator -/

/-- One terminator is taken from the end, and then a character that may come before it. -/
def chomp (nl cr : α) (text : List α) : List α :=
  if text.getLast? = some nl then
    let text := text.dropLast
    if text.getLast? = some cr then text.dropLast else text
  else text

theorem chomp_terminated {nl cr : α} {text : List α} :
    chomp nl cr (text ++ [nl]) = text ↔ text.getLast? ≠ some cr := by
  simp only [chomp, List.getLast?_concat, if_true, List.dropLast_concat]
  constructor
  · intro same ends
    rw [if_pos ends] at same
    have shorter := congrArg List.length same
    have present : text ≠ [] := by
      rintro rfl
      cases ends
    have positive := List.length_pos_iff.mpr present
    rw [List.length_dropLast] at shorter
    omega
  · intro kept
    rw [if_neg kept]

end PlainText
