import SecretsManager.Client.Commands

/-!
# The dotenv text of a map

`export` writes one line for each secret, in the order of the keys. The key is what
stands before the first `=`; the value is read back from the rest, as it is or by
undoing the quotes and the escapes. So the text says which map it was written from,
and no value adds a line.
-/

namespace SecretsManager

open PlainText ClientCommands

/-! ## Reading an exported value -/

/-- The escapes of `dotenv_value`, and what they stand for. -/
def dotenvEscapes : Escapes Char where
  mark := '\\'
  letter ch :=
    match ch with
    | '\\' => some '\\'
    | '"' => some '"'
    | '\n' => some 'n'
    | '\r' => some 'r'
    | _ => none
  meaning l :=
    match l with
    | 'n' => '\n'
    | 'r' => '\r'
    | _ => l
  marks := rfl
  means := by
    intro ch l found
    split at found <;> cases found <;> rfl

/-- As it is, or without its outer quotes and with its escapes undone. -/
def dotenvRead : List Char → List Char
  | '"' :: rest => dotenvEscapes.read rest.dropLast
  | text => text

/-- Key and value of a line. -/
def readEntry (line : List Char) : List Char × List Char :=
  ((cutAt '=' line).1, dotenvRead (cutAt '=' line).2)

section Values

variable {value key : String}

lemma escapeChar_eq (ch : Char) : escapeChar ch = dotenvEscapes.char ch := by
  unfold escapeChar
  split
  · rfl
  · rfl
  · rfl
  · rfl
  · rename_i backslash quote newline ret
    have none : dotenvEscapes.letter ch = none := by
      simp only [dotenvEscapes]
    simp only [Escapes.char, none]

/-- A text of harmless bytes, or an escaped one between quotes. -/
lemma dotenvValue_cases (value : String) :
    (dotenvValue value = value ∧ value ≠ "" ∧ (utf8 value).all bareByte = true) ∨
      (dotenvValue value).toList = '"' :: (dotenvEscapes.write value.toList ++ ['"']) := by
  unfold dotenvValue
  split
  · rename_i bare
    exact Or.inl ⟨rfl, bare.1, bare.2⟩
  · apply Or.inr
    have escapes : value.toList.flatMap escapeChar = dotenvEscapes.write value.toList :=
      congrArg value.toList.flatMap (funext escapeChar_eq)
    rw [String.toList_ofList, escapes]
    simp only [List.cons_append, List.nil_append]

lemma bareByte_free {value : String} (bare : (utf8 value).all bareByte = true) {ch : Char}
    {b : UInt8} (encodes : b ∈ String.utf8EncodeChar ch) (unsafeByte : bareByte b = false) :
    ch ∉ value.toList := by
  intro mem
  have safe := List.all_eq_true.mp bare b (mem_utf8 mem encodes)
  cases safe.symm.trans unsafeByte

theorem dotenvRead_dotenvValue (value : String) :
    dotenvRead (dotenvValue value).toList = value.toList := by
  rcases dotenvValue_cases value with ⟨same, _, bare⟩ | quoted
  · rw [same]
    have noQuote : '"' ∉ value.toList := bareByte_free bare (b := 34) (by decide) (by decide)
    unfold dotenvRead
    split
    · rename_i starts
      rw [starts] at noQuote
      exact absurd List.mem_cons_self noQuote
    · rfl
  · rw [quoted]
    simp only [dotenvRead, List.dropLast_concat]
    exact Escapes.read_write _

/-- An exported value stays on its line. -/
lemma dotenvValue_newline (value : String) : '\n' ∉ (dotenvValue value).toList := by
  rcases dotenvValue_cases value with ⟨same, _, bare⟩ | quoted
  · rw [same]
    exact bareByte_free bare (b := 10) (by decide) (by decide)
  · have escaped : '\n' ∉ dotenvEscapes.write value.toList := by
      apply Escapes.not_mem_write
      · rfl
      · decide
      · intro ch l found
        simp only [dotenvEscapes] at found
        split at found <;> cases found <;> decide
    rw [quoted]
    simp only [List.mem_cons, List.mem_append, List.not_mem_nil, or_false, not_or]
    exact ⟨by decide, escaped, by decide⟩

lemma validSecretKey_free (valid : validSecretKey key = true) :
    '=' ∉ key.toList ∧ '\n' ∉ key.toList := by
  simp only [validSecretKey, validName, decide_eq_true_eq] at valid
  have bytes := valid.2.2
  have free : ∀ ch b, b ∈ String.utf8EncodeChar ch →
      (isAsciiAlphanumeric b || [45, 95, 46].contains b) = false → ch ∉ key.toList := by
    intro ch b encodes bad mem
    have good := List.all_eq_true.mp bytes b (mem_utf8 mem encodes)
    cases good.symm.trans bad
  constructor
  · exact free '=' 61 (by decide) (by decide)
  · exact free '\n' 10 (by decide) (by decide)

end Values

/-! ## The whole text -/

def dotenvLine (entry : String × String) : List Char :=
  entry.1.toList ++ '=' :: (dotenvValue entry.2).toList

lemma exportLoop_toList (out : String) (entries : List (String × String)) :
    (exportLoop out entries).toList =
      out.toList ++ writeLines '\n' (entries.map dotenvLine) := by
  induction entries generalizing out with
  | nil => simp only [exportLoop, writeLines, List.map_nil, List.flatMap_nil, List.append_nil]
  | cons entry entries ih =>
      obtain ⟨key, value⟩ := entry
      have mark : "=".toList = ['='] := rfl
      have newline : "\n".toList = ['\n'] := rfl
      simp only [exportLoop, ih, String.toList_append, mark, newline, writeLines, List.map_cons,
        List.flatMap_cons, dotenvLine, List.append_assoc, List.cons_append, List.nil_append]

lemma readEntry_dotenvLine {key value : String} (valid : validSecretKey key = true) :
    readEntry (dotenvLine (key, value)) = (key.toList, value.toList) := by
  unfold readEntry dotenvLine
  rw [cutAt_append (validSecretKey_free valid).1, dotenvRead_dotenvValue]

/-- The lines of the text are the entries of the map. -/
theorem dotenvText_lines {m : SecretMap} (valid : ∀ k ∈ m, validSecretKey k = true) :
    readLines '\n' (dotenvText m).toList = some (m.toList.map dotenvLine) ∧
      (m.toList.map dotenvLine).map readEntry = m.toList.map fun e => (e.1.toList, e.2.toList) := by
  have keys : ∀ e ∈ m.toList, validSecretKey e.1 = true := by
    rintro ⟨k, v⟩ mem
    have found := Std.ExtTreeMap.mem_toList_iff_getElem?_eq_some.mp mem
    exact valid k (Std.ExtTreeMap.mem_iff_isSome_getElem?.mpr (by simp [found]))
  constructor
  · have text : (dotenvText m).toList = writeLines '\n' (m.toList.map dotenvLine) :=
      exportLoop_toList "" m.toList
    rw [text]
    apply readLines_writeLines
    intro line mem
    obtain ⟨e, member, rfl⟩ := List.mem_map.mp mem
    have mark : '\n' ≠ '=' := by decide
    simp only [dotenvLine, List.mem_append, List.mem_cons, not_or]
    exact ⟨(validSecretKey_free (keys e member)).2, mark, dotenvValue_newline e.2⟩
  · rw [List.map_map]
    apply List.map_congr_left
    rintro ⟨k, v⟩ mem
    exact readEntry_dotenvLine (keys (k, v) mem)

lemma exportDotenv_ok {m : SecretMap} {stdout : Except String Unit} {p : Printed}
    (exported : exportDotenv (.ok m) stdout "dotenv" = .ok p) : p = ⟨utf8 (dotenvText m), 0⟩ := by
  cases stdout with
  | error e => cases exported
  | ok _ =>
      cases exported
      rfl

/-- What `export` prints has one line for each secret, in the order of the keys; each line reads
back as its key and its value, and no other map is printed like this. -/
theorem export_reads_back {m : SecretMap} {stdout : Except String Unit} {p : Printed}
    (valid : ∀ k ∈ m, validSecretKey k = true)
    (exported : exportDotenv (.ok m) stdout "dotenv" = .ok p) :
    (∃ text lines, p.stdout = utf8 text ∧ readLines '\n' text.toList = some lines ∧
      lines.map readEntry = m.toList.map (fun e => (e.1.toList, e.2.toList))) ∧
    m.toList.Pairwise (fun a b => a.1 < b.1) ∧
    ∀ (m' : SecretMap) stdout' p', (∀ k ∈ m', validSecretKey k = true) →
      exportDotenv (.ok m') stdout' "dotenv" = .ok p' → p'.stdout = p.stdout → m' = m := by
  obtain rfl := exportDotenv_ok exported
  obtain ⟨lines, entries⟩ := dotenvText_lines valid
  refine ⟨⟨_, _, rfl, lines, entries⟩, ?_, ?_⟩
  · apply Std.ExtTreeMap.ordered_keys_toList.imp
    intro a b less
    exact compareOfLessAndEq_eq_lt.mp less
  · intro m' stdout' p' valid' exported' same
    obtain rfl := exportDotenv_ok exported'
    obtain ⟨lines', entries'⟩ := dotenvText_lines valid'
    have texts : dotenvText m' = dotenvText m := utf8_injective same
    rw [texts, lines] at lines'
    have equal : m'.toList.map (fun e => (e.1.toList, e.2.toList)) =
        m.toList.map fun e => (e.1.toList, e.2.toList) := by
      rw [← entries', ← entries, Option.some.inj lines']
    apply Std.ExtTreeMap.toList_inj.mp
    apply List.map_injective_iff.mpr _ equal
    rintro ⟨k, v⟩ ⟨k', v'⟩ both
    obtain ⟨keys, values⟩ := Prod.mk.inj both
    exact Prod.ext (String.toList_inj.mp keys) (String.toList_inj.mp values)

/-- A value with a newline, a quote and a backslash before it. -/
def awkwardMap : SecretMap := .ofList [("A", "x\nB=\\\""), ("C", "")]

theorem export_reads_back_awkwardMap :
    ∃ text lines, utf8 (dotenvText awkwardMap) = utf8 text ∧
      readLines '\n' text.toList = some lines ∧
      lines.map readEntry = awkwardMap.toList.map fun e => (e.1.toList, e.2.toList) := by
  have exported : exportDotenv (.ok awkwardMap) (.ok ()) "dotenv" =
      .ok ⟨utf8 (dotenvText awkwardMap), 0⟩ := rfl
  have valid : ∀ k ∈ awkwardMap, validSecretKey k = true := by
    intro k mem
    simp only [awkwardMap, Std.ExtTreeMap.mem_ofList, List.map_cons, List.map_nil,
      List.contains_cons, List.contains_nil, Bool.or_false, Bool.or_eq_true, beq_iff_eq] at mem
    rcases mem with rfl | rfl <;> decide
  exact (export_reads_back valid exported).1

end SecretsManager
