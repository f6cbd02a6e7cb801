import Mathlib.Tactic

/-!
# JSON text by its lexemes

Compact JSON is a sequence of quoted texts and single characters between them. In
a text quotes, backslashes and control characters are escaped and nothing else is,
so the characters can be cut back into the lexemes they were written from. Objects
of texts are given as an example of a structure over the lexemes.
-/

namespace JsonText

inductive Lexeme where
  | sym (ch : Char)
  | text (s : List Char)
  deriving DecidableEq

/-! ## Escapes -/

/-- The letter after the backslash, where there is one. -/
def shortEscape (ch : Char) : Option Char :=
  if ch = '"' then some '"'
  else if ch = '\\' then some '\\'
  else if ch = '\x08' then some 'b'
  else if ch = '\t' then some 't'
  else if ch = '\n' then some 'n'
  else if ch = '\x0c' then some 'f'
  else if ch = '\r' then some 'r'
  else none

def unescape (ch : Char) : Option Char :=
  if ch = '"' then some '"'
  else if ch = '\\' then some '\\'
  else if ch = 'b' then some '\x08'
  else if ch = 't' then some '\t'
  else if ch = 'n' then some '\n'
  else if ch = 'f' then some '\x0c'
  else if ch = 'r' then some '\r'
  else none

def hexDigit (n : Nat) : Char := if n < 10 then Char.ofNat (48 + n) else Char.ofNat (87 + n)

def hexValue (ch : Char) : Option Nat :=
  if 48 ≤ ch.toNat ∧ ch.toNat ≤ 57 then some (ch.toNat - 48)
  else if 97 ≤ ch.toNat ∧ ch.toNat ≤ 102 then some (ch.toNat - 87)
  else none

/-- A character inside a text. -/
def escape (ch : Char) : List Char :=
  match shortEscape ch with
  | some letter => ['\\', letter]
  | none =>
    if ch.toNat < 32 then
      ['\\', 'u', '0', '0', hexDigit (ch.toNat / 16), hexDigit (ch.toNat % 16)]
    else [ch]

def Lexeme.write : Lexeme → List Char
  | sym ch => [ch]
  | text s => '"' :: s.flatMap escape ++ ['"']

def write (l : List Lexeme) : List Char := l.flatMap Lexeme.write

/-! ## Reading -/

/-- One more character of the text that is being read. -/
def push (ch : Char) : Option (List Lexeme) → Option (List Lexeme)
  | some (.text s :: rest) => some (.text (ch :: s) :: rest)
  | _ => none

/-- The lexemes of what follows, outside a text or inside one. -/
def lexFrom : Bool → List Char → Option (List Lexeme)
  | false, [] => some []
  | false, '"' :: rest => lexFrom true rest
  | false, ch :: rest => (lexFrom false rest).map (.sym ch :: ·)
  | true, '"' :: rest => (lexFrom false rest).map (.text [] :: ·)
  | true, '\\' :: 'u' :: '0' :: '0' :: high :: low :: rest =>
    match hexValue high, hexValue low with
    | some high, some low => push (Char.ofNat (16 * high + low)) (lexFrom true rest)
    | _, _ => none
  | true, '\\' :: letter :: rest =>
    match unescape letter with
    | some ch => push ch (lexFrom true rest)
    | none => none
  | true, ch :: rest => push ch (lexFrom true rest)
  | true, [] => none

def lex (input : List Char) : Option (List Lexeme) := lexFrom false input

lemma hexValue_hexDigit : ∀ n < 16, hexValue (hexDigit n) = some n := by decide

lemma unescape_shortEscape {ch letter : Char} (short : shortEscape ch = some letter) :
    unescape letter = some ch ∧ letter ≠ 'u' := by
  unfold shortEscape at short
  split_ifs at short
  all_goals
    obtain rfl := Option.some.inj short
    subst_vars
    decide

lemma lex_escape (ch : Char) (rest : List Char) :
    lexFrom true (escape ch ++ rest) = push ch (lexFrom true rest) := by
  unfold escape
  cases short : shortEscape ch with
  | some letter =>
    obtain ⟨back, notUnicode⟩ := unescape_shortEscape short
    simp [lexFrom, back, notUnicode]
  | none =>
    by_cases control : ch.toNat < 32
    · have high := hexValue_hexDigit (ch.toNat / 16) (by omega)
      have low := hexValue_hexDigit (ch.toNat % 16) (by omega)
      have same : Char.ofNat (16 * (ch.toNat / 16) + ch.toNat % 16) = ch := by
        rw [Nat.div_add_mod, Char.ofNat_toNat]
      simp only [control, if_true, List.cons_append, List.nil_append]
      rw [lexFrom]
      simp only [high, low, same]
    · have quote : ch ≠ '"' := by
        rintro rfl
        simp [shortEscape] at short
      have backslash : ch ≠ '\\' := by
        rintro rfl
        simp [shortEscape] at short
      simp only [control, if_false, List.cons_append, List.nil_append]
      rw [lexFrom.eq_def]
      split <;> simp_all

lemma lex_text (s rest : List Char) : lexFrom true (s.flatMap escape ++ '"' :: rest) =
    (lexFrom false rest).map (.text s :: ·) := by
  induction s with
  | nil => rfl
  | cons ch s ih =>
    rw [List.flatMap_cons, List.append_assoc, lex_escape, ih]
    cases lexFrom false rest <;> rfl

/-- The character is not taken for the start of a text. -/
def Lexeme.Plain : Lexeme → Prop
  | sym ch => ch ≠ '"'
  | text _ => True

instance : (x : Lexeme) → Decidable x.Plain
  | .sym ch => inferInstanceAs (Decidable (ch ≠ '"'))
  | .text _ => isTrue trivial

lemma lex_cons {x : Lexeme} (plain : x.Plain) (rest : List Char) :
    lexFrom false (x.write ++ rest) = (lexFrom false rest).map (x :: ·) := by
  cases x with
  | text s =>
    have cut : (Lexeme.text s).write ++ rest = '"' :: (s.flatMap escape ++ '"' :: rest) := by
      simp [Lexeme.write]
    rw [cut]
    exact lex_text s rest
  | sym ch =>
    have quote : ch ≠ '"' := plain
    simp only [Lexeme.write, List.cons_append, List.nil_append]
    rw [lexFrom.eq_def]
    split <;> simp_all

/-- What was written is read back. -/
theorem lex_write {l : List Lexeme} (plain : ∀ x ∈ l, x.Plain) : lex (write l) = some l := by
  unfold lex write
  induction l with
  | nil => rfl
  | cons x l ih =>
    rw [List.flatMap_cons, lex_cons (plain x List.mem_cons_self),
      ih fun y hy => plain y (List.mem_cons_of_mem _ hy)]
    rfl

/-! ## Objects of texts -/

abbrev Pair : Type := List Char × List Char

def members : List Pair → List Lexeme
  | [] => [.sym '\x7d']
  | [(key, value)] => [.text key, .sym ':', .text value, .sym '\x7d']
  | (key, value) :: rest => .text key :: .sym ':' :: .text value :: .sym ',' :: members rest

def object (pairs : List Pair) : List Lexeme := .sym '\x7b' :: members pairs

def readMembers : List Lexeme → Option (List Pair)
  | [.sym '\x7d'] => some []
  | [.text key, .sym ':', .text value, .sym '\x7d'] => some [(key, value)]
  | .text key :: .sym ':' :: .text value :: .sym ',' :: rest =>
    (readMembers rest).map ((key, value) :: ·)
  | _ => none

def readObject : List Lexeme → Option (List Pair)
  | .sym '\x7b' :: rest => readMembers rest
  | _ => none

lemma members_cons (key value : List Char) (p : Pair) (rest : List Pair) :
    members ((key, value) :: p :: rest) =
      .text key :: .sym ':' :: .text value :: .sym ',' :: members (p :: rest) := rfl

lemma readMembers_members (pairs : List Pair) : readMembers (members pairs) = some pairs := by
  induction pairs with
  | nil => rfl
  | cons p rest ih =>
    obtain ⟨key, value⟩ := p
    cases rest with
    | nil => rfl
    | cons q rest =>
      rw [members_cons, readMembers, ih]
      rfl

lemma members_plain (pairs : List Pair) : ∀ x ∈ members pairs, x.Plain := by
  induction pairs with
  | nil => simp [members, Lexeme.Plain]
  | cons p rest ih =>
    obtain ⟨key, value⟩ := p
    cases rest with
    | nil => simp [members, Lexeme.Plain]
    | cons q rest =>
      rw [members_cons]
      simp only [List.forall_mem_cons]
      refine ⟨trivial, ?_, trivial, ?_, ih⟩ <;> decide

theorem readObject_object (pairs : List Pair) :
    (lex (write (object pairs))).bind readObject = some pairs := by
  have plain : ∀ x ∈ object pairs, x.Plain := by
    rw [object, List.forall_mem_cons]
    exact ⟨by decide, members_plain pairs⟩
  rw [lex_write plain, Option.bind_some, object, readObject, readMembers_members]

/-! ## Scalars -/

/-- A member's name, behind the brace or the comma before it. -/
def label (before : Char) (name : String) : List Lexeme :=
  [.sym before, .text name.toList, .sym ':']

def word (s : String) : List Lexeme := s.toList.map .sym

def nullable : Option String → List Lexeme
  | none => word "null"
  | some s => [.text s.toList]

def flag (b : Bool) : List Lexeme := if b then word "true" else word "false"

def readText : List Lexeme → Option (String × List Lexeme)
  | .text s :: rest => some (String.ofList s, rest)
  | _ => none

def readNullable : List Lexeme → Option (Option String × List Lexeme)
  | .text s :: rest => some (some (String.ofList s), rest)
  | input => ((word "null").isPrefixOf? input).map fun rest => (none, rest)

def readFlag (input : List Lexeme) : Option (Bool × List Lexeme) :=
  match (word "true").isPrefixOf? input with
  | some rest => some (true, rest)
  | none => ((word "false").isPrefixOf? input).map fun rest => (false, rest)

lemma prefix_append (l rest : List Lexeme) : l.isPrefixOf? (l ++ rest) = some rest :=
  List.isPrefixOf?_eq_some_iff_append_eq.mpr rfl

lemma readNullable_nullable (o : Option String) (rest : List Lexeme) :
    readNullable (nullable o ++ rest) = some (o, rest) := by
  cases o with
  | none => rfl
  | some s => simp [nullable, readNullable]

lemma readFlag_flag (b : Bool) (rest : List Lexeme) : readFlag (flag b ++ rest) = some (b, rest) := by
  cases b <;> rfl

lemma nullable_plain (o : Option String) : ∀ x ∈ nullable o, x.Plain := by
  cases o with
  | none => decide
  | some s => simp [nullable, Lexeme.Plain]

lemma flag_plain (b : Bool) : ∀ x ∈ flag b, x.Plain := by
  cases b <;> decide

/-! ## Texts stay on their line -/

lemma escape_newline (ch : Char) : '\n' ∉ escape ch := by
  unfold escape
  cases short : shortEscape ch with
  | some letter =>
    have other : letter ≠ '\n' := by
      unfold shortEscape at short
      split_ifs at short
      all_goals
        obtain rfl := Option.some.inj short
        decide
    simp [other.symm]
  | none =>
    by_cases control : ch.toNat < 32
    · have digits : ∀ n < 16, hexDigit n ≠ '\n' := by decide
      have high := digits (ch.toNat / 16) (by omega)
      have low := digits (ch.toNat % 16) (by omega)
      simp [control, high.symm, low.symm]
    · have newline : ch ≠ '\n' := by
        rintro rfl
        simp [shortEscape] at short
      simp [control, newline.symm]

theorem write_newline {l : List Lexeme} (free : .sym '\n' ∉ l) : '\n' ∉ write l := by
  intro mem
  obtain ⟨x, hx, mem⟩ := List.mem_flatMap.mp mem
  cases x with
  | sym ch =>
    obtain rfl := List.mem_singleton.mp mem
    exact free hx
  | text s =>
    simp only [Lexeme.write, List.mem_cons, List.mem_append, List.mem_flatMap,
      List.not_mem_nil, or_false] at mem
    rcases mem with (quote | ⟨ch, _, mem⟩) | quote
    · cases quote
    · exact escape_newline ch mem
    · cases quote

/-! ## Numbers -/

def number (n : Nat) : List Lexeme := (Nat.toDigits 10 n).map .sym

/-- The digits at the front, and what follows them. -/
def readDigits : List Lexeme → List Char × List Lexeme
  | .sym ch :: rest =>
    if ch.isDigit then (ch :: (readDigits rest).1, (readDigits rest).2) else ([], .sym ch :: rest)
  | input => ([], input)

def readNumber (input : List Lexeme) : Option (Nat × List Lexeme) :=
  match readDigits input with
  | ([], _) => none
  | (digits, rest) => some (Nat.ofDigitChars 10 digits 0, rest)

lemma readDigits_append {digits : List Char} (all : ∀ ch ∈ digits, ch.isDigit = true)
    {rest : List Lexeme} (stop : readDigits rest = ([], rest)) :
    readDigits (digits.map .sym ++ rest) = (digits, rest) := by
  induction digits with
  | nil => exact stop
  | cons ch digits ih =>
    have later := ih fun x hx => all x (List.mem_cons_of_mem _ hx)
    have first := all ch List.mem_cons_self
    simp only [List.map_cons, List.cons_append, readDigits, first, if_true, later]

lemma readNumber_number (n : Nat) {rest : List Lexeme} (stop : readDigits rest = ([], rest)) :
    readNumber (number n ++ rest) = some (n, rest) := by
  have all : ∀ ch ∈ Nat.toDigits 10 n, ch.isDigit = true :=
    fun ch hch => Nat.isDigit_of_mem_toDigits (by decide) (by decide) hch
  have read := readDigits_append all stop
  have back : Nat.ofDigitChars 10 (Nat.toDigits 10 n) 0 = n :=
    Nat.ofDigitChars_toDigits (by decide) (by decide)
  have nonempty : Nat.toDigits 10 n ≠ [] := Nat.toDigits_ne_nil
  unfold readNumber number
  rw [read]
  generalize Nat.toDigits 10 n = digits at back nonempty
  cases digits with
  | nil => exact absurd rfl nonempty
  | cons ch digits => exact congrArg (fun m => some (m, rest)) back

/-- What was read were digits. -/
lemma readDigits_split (input : List Lexeme) :
    input = (readDigits input).1.map .sym ++ (readDigits input).2 ∧
      ∀ ch ∈ (readDigits input).1, ch.isDigit = true := by
  induction input with
  | nil => exact ⟨rfl, nofun⟩
  | cons x rest ih =>
    cases x with
    | text s => exact ⟨rfl, nofun⟩
    | sym ch =>
      unfold readDigits
      split_ifs with digit
      · refine ⟨?_, ?_⟩
        · simp only [List.map_cons, List.cons_append, List.cons.injEq, true_and]
          exact ih.1
        · rintro c' (_ | ⟨_, mem⟩)
          · exact digit
          · exact ih.2 c' mem
      · exact ⟨rfl, nofun⟩

/-! ## A text cut off before an object -/

/-- One more character of a text leaves what is outside the texts. -/
lemma push_some {ch : Char} {o : Option (List Lexeme)} {l : List Lexeme}
    (pushed : push ch o = some l) :
    ∃ l', o = some l' ∧ ∀ outside, .sym outside ∈ l' → .sym outside ∈ l := by
  cases o with
  | none => cases pushed
  | some l' =>
    refine ⟨l', rfl, ?_⟩
    intro outside mem
    rcases l' with _ | ⟨x | s, rest⟩ <;> cases pushed
    rcases List.mem_cons.mp mem with same | later
    · cases same
    · exact List.mem_cons_of_mem _ later

/-- What is read inside a text begins with that text. -/
lemma lex_inside {input : List Char} {l : List Lexeme} (read : lexFrom true input = some l) :
    ∃ s rest, l = .text s :: rest := by
  have pushed : ∀ {ch o}, push ch o = some l → ∃ s rest, l = .text s :: rest := by
    intro ch o pushed
    unfold push at pushed
    split at pushed <;> cases pushed
    exact ⟨_, _, rfl⟩
  rw [lexFrom.eq_def] at read
  split at read
  · contradiction
  · contradiction
  · contradiction
  · obtain ⟨l', _, rfl⟩ := Option.map_eq_some_iff.mp read
    exact ⟨[], l', rfl⟩
  · split at read
    · exact pushed read
    · cases read
  · split at read
    · exact pushed read
    · cases read
  · exact pushed read
  · cases read

/-- What ends with an object and starts with another character than its brace. -/
lemma glued_later {x : Char} {object input : List Char} (other : x ≠ '\x7b')
    (glued : '\x7b' :: object <:+ x :: input) : '\x7b' :: object <:+ input := by
  rcases List.suffix_cons_iff.mp glued with same | later
  · exact absurd (List.cons.inj same).1.symm other
  · exact later

/-- Whatever stands on its line before an object, a reader meets the brace of the object or
the first character of its first name outside the texts. -/
theorem glued_object {ch : Char} {rest : List Char} (letter : ch ≠ '"') (inside : Bool)
    (input : List Char) (glued : '\x7b' :: '"' :: ch :: rest <:+ input) {l : List Lexeme}
    (read : lexFrom inside input = some l) : .sym '\x7b' ∈ l ∨ .sym ch ∈ l := by
  induction inside, input using lexFrom.induct generalizing l with
  | case1 => exact absurd (List.suffix_nil.mp glued) (List.cons_ne_nil _ _)
  | case2 input ih =>
    rw [lexFrom] at read
    exact ih (glued_later (by decide) glued) read
  | case3 x input quote ih =>
    rw [lexFrom] at read
    · obtain ⟨l', read', rfl⟩ := Option.map_eq_some_iff.mp read
      rcases List.suffix_cons_iff.mp glued with same | later
      · obtain ⟨rfl, _⟩ := List.cons.inj same
        exact .inl List.mem_cons_self
      · exact (ih later read').imp (List.mem_cons_of_mem _) (List.mem_cons_of_mem _)
    · exact quote
  | case4 input ih =>
    rw [lexFrom] at read
    obtain ⟨l', read', rfl⟩ := Option.map_eq_some_iff.mp read
    have found := ih (glued_later (by decide) glued) read'
    exact found.imp (List.mem_cons_of_mem _) (List.mem_cons_of_mem _)
  | case5 highCh lowCh input high low isLow isHigh ih =>
    rw [lexFrom] at read
    simp only [isLow, isHigh] at read
    obtain ⟨l', read', outside⟩ := push_some read
    have noHigh : highCh ≠ '\x7b' := by
      rintro rfl
      cases isHigh
    have noLow : lowCh ≠ '\x7b' := by
      rintro rfl
      cases isLow
    have later := glued_later (by decide) (glued_later (by decide) (glued_later (by decide)
      (glued_later (by decide) glued)))
    exact (ih (glued_later noLow (glued_later noHigh later)) read').imp (outside _) (outside _)
  | case6 highCh lowCh input none =>
    rw [lexFrom] at read
    split at read
    · rename_i high low isHigh isLow
      exact (none high low isHigh isLow).elim
    · cases read
  | case7 escaped input notUnicode x isEscape ih =>
    rw [lexFrom] at read
    · simp only [isEscape] at read
      obtain ⟨l', read', outside⟩ := push_some read
      have noBrace : escaped ≠ '\x7b' := by
        rintro rfl
        cases isEscape
      exact (ih (glued_later noBrace (glued_later (by decide) glued)) read').imp (outside _)
        (outside _)
    · exact notUnicode
  | case8 escaped input notUnicode noEscape =>
    rw [lexFrom] at read
    · simp only [noEscape] at read
      cases read
    · exact notUnicode
  | case9 x input quote notUnicode notEscape ih =>
    rw [lexFrom] at read
    · obtain ⟨l', read', outside⟩ := push_some read
      rcases List.suffix_cons_iff.mp glued with same | later
      · obtain ⟨rfl, rfl⟩ := List.cons.inj same
        -- the brace belongs to the text that was open, and the quote closes it
        right
        apply outside
        rw [lexFrom] at read'
        obtain ⟨l'', read'', rfl⟩ := Option.map_eq_some_iff.mp read'
        rw [lexFrom] at read''
        · obtain ⟨l₃, _, rfl⟩ := Option.map_eq_some_iff.mp read''
          exact List.mem_cons_of_mem _ List.mem_cons_self
        · exact letter
      · exact (ih later read').imp (outside _) (outside _)
    · exact quote
    · exact notUnicode
    · exact notEscape
  | case10 => exact absurd (List.suffix_nil.mp glued) (List.cons_ne_nil _ _)

end JsonText
