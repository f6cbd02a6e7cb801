import SecretsManager.Server.AuditTrail
import SecretsManager.Lib.JsonText
import SecretsManager.Lib.PlainText

/-!
# The file of the audit log

One line of JSON for each entry, appended under a mutex. A write that breaks off leaves
a part of its line, and the next line is glued to it. Whatever the clients put into the
entries and wherever writes break off, the lines that read as entries are the entries
that were written whole.
-/

namespace SecretsManager

open JsonText PlainText Relation

/-- Left out where there is no project. -/
def projectMember : Option String → List Lexeme
  | none => []
  | some p => label ',' "project" ++ [.text p.toList]

def Entry.lexemes (e : Entry) : List Lexeme :=
  label '\x7b' "ts" ++ (.text e.ts.toList :: (label ',' "token" ++ (nullable e.token ++
    (label ',' "method" ++ (.text e.method.toList :: (label ',' "path" ++ (.text e.path.toList ::
      (projectMember e.project ++ (label ',' "status" ++ (number e.status ++
        [.sym '\x7d']))))))))))

/-- `serde_json::to_string` of an entry. -/
def Entry.toJson (e : Entry) : String := String.ofList (write e.lexemes)

/-- What `record` writes. -/
def Entry.line (e : Entry) : Bytes := utf8 (e.toJson.push '\n')

/-! ## Reading -/

def readProject (input : List Lexeme) : Option (Option String × List Lexeme) :=
  match (label ',' "project").isPrefixOf? input with
  | some rest => (readText rest).map fun (p, rest) => (some p, rest)
  | none => some (none, input)

def readAuditEntry (input : List Lexeme) : Option Entry := do
  let (ts, rest) ← readText (← (label '\x7b' "ts").isPrefixOf? input)
  let (token, rest) ← readNullable (← (label ',' "token").isPrefixOf? rest)
  let (method, rest) ← readText (← (label ',' "method").isPrefixOf? rest)
  let (path, rest) ← readText (← (label ',' "path").isPrefixOf? rest)
  let (project, rest) ← readProject rest
  let (status, rest) ← readNumber (← (label ',' "status").isPrefixOf? rest)
  if rest = [.sym '\x7d'] then some ⟨ts, token, method, path, project, status⟩ else none

def readLine (line : Bytes) : Option Entry := do
  readAuditEntry (← lex (← fromUtf8 line).toList)

/-- The entries of a file; a line that is none is passed over. -/
def readEntries (file : Bytes) : List Entry := (closedLines 10 file).filterMap readLine

/-! ## What stands outside the texts -/

/-- Behind its brace a line has these characters only. -/
def Outside (ch : Char) : Prop := ch ∈ [':', ',', 'n', 'u', 'l', '\x7d'] ∨ ch.isDigit = true

instance (ch : Char) : Decidable (Outside ch) := inferInstanceAs (Decidable (_ ∨ _))

def OutsideOnly (l : List Lexeme) : Prop := ∀ ch, .sym ch ∈ l → Outside ch

section Outside

variable {input rest : List Lexeme}

lemma OutsideOnly.append {l l' : List Lexeme} (h : OutsideOnly l) (h' : OutsideOnly l') :
    OutsideOnly (l ++ l') := by
  intro ch mem
  rcases List.mem_append.mp mem with first | second
  · exact h ch first
  · exact h' ch second

lemma OutsideOnly.text {s : List Char} (h : OutsideOnly rest) : OutsideOnly (.text s :: rest) := by
  intro ch mem
  rcases List.mem_cons.mp mem with same | later
  · cases same
  · exact h ch later

lemma OutsideOnly.label {name : String} (read : (label ',' name).isPrefixOf? input = some rest)
    (h : OutsideOnly rest) : OutsideOnly input := by
  rw [← List.isPrefixOf?_eq_some_iff_append_eq.mp read]
  refine OutsideOnly.append ?_ h
  intro ch mem
  simp only [JsonText.label, List.mem_cons, Lexeme.sym.injEq, reduceCtorEq, List.not_mem_nil,
    or_false, false_or] at mem
  rcases mem with rfl | rfl <;> decide

lemma OutsideOnly.readText {s : String} (read : readText input = some (s, rest))
    (h : OutsideOnly rest) : OutsideOnly input := by
  unfold JsonText.readText at read
  split at read <;> cases read
  exact h.text

lemma OutsideOnly.readNullable {o : Option String} (read : readNullable input = some (o, rest))
    (h : OutsideOnly rest) : OutsideOnly input := by
  unfold JsonText.readNullable at read
  split at read
  · cases read
    exact h.text
  · obtain ⟨rest', found, same⟩ := Option.map_eq_some_iff.mp read
    cases same
    rw [← List.isPrefixOf?_eq_some_iff_append_eq.mp found]
    refine OutsideOnly.append ?_ h
    intro ch mem
    have plain : "null".toList.all (fun ch => decide (Outside ch)) = true := by decide
    simp only [word, List.mem_map, Lexeme.sym.injEq, exists_eq_right] at mem
    exact of_decide_eq_true (List.all_eq_true.mp plain ch mem)

lemma OutsideOnly.readProject {o : Option String} (read : readProject input = some (o, rest))
    (h : OutsideOnly rest) : OutsideOnly input := by
  unfold SecretsManager.readProject at read
  split at read
  · rename_i found
    obtain ⟨⟨p, rest'⟩, text, same⟩ := Option.map_eq_some_iff.mp read
    cases same
    exact .label found (.readText text h)
  · cases read
    exact h

lemma OutsideOnly.readNumber {n : Nat} (read : readNumber input = some (n, rest))
    (h : OutsideOnly rest) : OutsideOnly input := by
  obtain ⟨split, digits⟩ := readDigits_split input
  unfold JsonText.readNumber at read
  split at read <;> cases read
  rename_i found
  rw [found] at split digits
  rw [split]
  refine OutsideOnly.append ?_ h
  intro ch mem
  obtain ⟨ch', hch, same⟩ := List.mem_map.mp mem
  cases same
  exact .inr (digits ch hch)

/-- An entry has one brace that opens, at its front. -/
lemma readAuditEntry_outside {e : Entry} (read : readAuditEntry input = some e) :
    ∃ rest, input = .sym '\x7b' :: rest ∧ OutsideOnly rest := by
  unfold readAuditEntry at read
  simp only [Option.bind_eq_bind, Option.bind_eq_some_iff] at read
  obtain ⟨r₁, ts, ⟨ts', r₂⟩, tsText, r₃, token, ⟨t, r₄⟩, tokenText, r₅, method, ⟨m, r₆⟩, methodText,
    r₇, path, ⟨p, r₈⟩, pathText, ⟨o, r₉⟩, project, r₁₀, status, ⟨n, r₁₁⟩, number, last⟩ := read
  split_ifs at last with closed
  cases last
  subst closed
  have front := List.isPrefixOf?_eq_some_iff_append_eq.mp ts
  have brace : OutsideOnly [.sym '\x7d'] := by
    intro ch mem
    cases List.mem_singleton.mp mem
    decide
  have rest : OutsideOnly r₁ := .readText tsText <| .label token <| .readNullable tokenText <|
    .label method <| .readText methodText <| .label path <| .readText pathText <|
    .readProject project <| .label status <| .readNumber number brace
  simp only [label, List.cons_append, List.nil_append] at front
  refine ⟨.text "ts".toList :: .sym ':' :: r₁, front.symm, OutsideOnly.text ?_⟩
  intro ch mem
  rcases List.mem_cons.mp mem with same | later
  · cases same
    decide
  · exact rest ch later

end Outside

/-! ## One line -/

section Line

variable (e : Entry)

lemma readProject_projectMember (project : Option String) (rest : List Lexeme) :
    readProject (projectMember project ++ (label ',' "status" ++ rest)) =
      some (project, label ',' "status" ++ rest) := by
  cases project with
  | none => rfl
  | some p =>
    simp only [readProject, projectMember, List.append_assoc, prefix_append, List.cons_append,
      List.nil_append, readText, String.ofList_toList, Option.map_some]

lemma readAuditEntry_lexemes : readAuditEntry e.lexemes = some e := by
  have texts : ∀ (s : String) tail, readText (.text s.toList :: tail) = some (s, tail) := by
    intro s tail
    simp only [readText, String.ofList_toList]
  have stop : readDigits [.sym '\x7d'] = ([], [.sym '\x7d']) := rfl
  have digits := readNumber_number e.status stop
  simp only [readAuditEntry, Entry.lexemes, prefix_append, Option.bind_eq_bind, Option.bind_some, texts,
    readNullable_nullable, readProject_projectMember, digits, if_true]

lemma lexemes_outside : ∃ rest, e.lexemes = .sym '\x7b' :: rest ∧
    ∀ ch, .sym ch ∈ rest → Outside ch := readAuditEntry_outside (readAuditEntry_lexemes e)

lemma lexemes_plain : ∀ x ∈ e.lexemes, x.Plain := by
  obtain ⟨rest, split, outside⟩ := lexemes_outside e
  rw [split, List.forall_mem_cons]
  refine ⟨by decide, ?_⟩
  intro x hx
  cases x with
  | text s => trivial
  | sym ch =>
    rintro rfl
    exact absurd (outside _ hx) (by decide)

theorem readLine_toJson : readLine (utf8 e.toJson) = some e := by
  have back : (lex (write e.lexemes)).bind readAuditEntry = some e := by
    rw [lex_write (lexemes_plain e), Option.bind_some, readAuditEntry_lexemes]
  simpa [readLine, Entry.toJson, fromUtf8_utf8] using back

end Line

/-! ## Bytes and characters -/

/-- A byte below 128 is the whole of its character. -/
lemma encode_ascii {ch : Char} {b : UInt8} (mem : b ∈ String.utf8EncodeChar ch)
    (low : b.toNat < 128) : String.utf8EncodeChar ch = [b] := by
  unfold String.utf8EncodeChar at mem ⊢
  simp only at mem ⊢
  split_ifs at mem ⊢
  · rw [List.mem_singleton.mp mem]
  all_goals
    -- the bytes of a longer character have the high bit
    exfalso
    simp only [List.mem_cons, List.not_mem_nil, or_false, ← UInt8.toNat_inj,
      UInt8.toNat_ofNat'] at mem
    omega

/-- A character is known by its bytes. -/
lemma encode_injective {ch ch' : Char} (h : String.utf8EncodeChar ch = String.utf8EncodeChar ch') :
    ch = ch' := by
  have texts : String.ofList [ch] = String.ofList [ch'] := by
    apply utf8_injective
    simp only [utf8_eq_flatMap, String.toList_ofList, List.flatMap_singleton, h]
  exact List.singleton_inj.mp (String.ofList_injective texts)

/-- A text that ends with the bytes of another one behind an ASCII character ends with it. -/
lemma split_at_ascii {b : UInt8} (low : b.toNat < 128) {rest : Bytes} {chars : List Char}
    {front : Bytes} (bytes : chars.flatMap String.utf8EncodeChar = front ++ b :: rest) :
    ∃ before after, chars = before ++ after ∧
      before.flatMap String.utf8EncodeChar = front ∧
      after.flatMap String.utf8EncodeChar = b :: rest := by
  induction chars generalizing front with
  | nil => simp at bytes
  | cons ch chars ih =>
    rw [List.flatMap_cons] at bytes
    rcases List.append_eq_append_iff.mp bytes with ⟨more, longer, later⟩ | ⟨more, whole, later⟩
    · obtain ⟨before, after, rfl, encodes, follows⟩ := ih later
      exact ⟨ch :: before, after, rfl, by rw [List.flatMap_cons, encodes, longer], follows⟩
    · rcases more with _ | ⟨b', more⟩
      · refine ⟨[ch], chars, rfl, ?_, later.symm⟩
        simpa using whole
      · obtain ⟨rfl, rfl⟩ := List.cons.inj later
        have alone := encode_ascii (whole ▸ List.mem_append_right _ List.mem_cons_self) low
        rw [alone] at whole
        obtain rfl : front = [] := by
          rcases front with _ | ⟨x, front⟩
          · rfl
          · simp at whole
        exact ⟨[], ch :: chars, rfl, rfl, bytes⟩

/-! ## Lines and pieces of lines -/

lemma newline_byte {s : String} (mem : 10 ∈ utf8 s) : '\n' ∈ s.toList := by
  rw [utf8_eq_flatMap, List.mem_flatMap] at mem
  obtain ⟨ch, hch, encodes⟩ := mem
  have alone := encode_ascii encodes (by decide)
  have newline : String.utf8EncodeChar '\n' = [10] := by decide
  rw [← encode_injective (alone.trans newline.symm)]
  exact hch

/-- An entry is written on one line. -/
lemma toJson_newline (e : Entry) : 10 ∉ utf8 e.toJson := by
  intro mem
  have inText := newline_byte mem
  rw [Entry.toJson, String.toList_ofList] at inText
  refine write_newline ?_ inText
  obtain ⟨rest, split, outside⟩ := lexemes_outside e
  rw [split]
  intro mem
  rcases List.mem_cons.mp mem with same | later
  · cases same
  · exact absurd (outside _ later) (by decide)

lemma line_eq (e : Entry) : e.line = utf8 e.toJson ++ [10] := by
  have newline : String.utf8EncodeChar '\n' = [10] := by decide
  rw [Entry.line, utf8_eq_flatMap, String.toList_push, List.flatMap_append, ← utf8_eq_flatMap,
    List.flatMap_singleton, newline]

/-- A line glued to what was left of another one is no entry, whatever was left. -/
theorem readLine_glued {front : Bytes} (left : front ≠ []) (e : Entry) :
    readLine (front ++ utf8 e.toJson) = none := by
  by_contra found
  obtain ⟨e', found⟩ := Option.ne_none_iff_exists'.mp found
  unfold readLine at found
  simp only [Option.bind_eq_bind, Option.bind_eq_some_iff] at found
  obtain ⟨text, decoded, l, lexed, read⟩ := found
  -- the text of the line is cut where the line of the entry begins
  have bytes := ((fromUtf8_eq_some_iff _ _).mp decoded).symm
  have begins : ∃ rest, write e.lexemes = '\x7b' :: '"' :: 't' :: rest := ⟨_, rfl⟩
  obtain ⟨rest, begins⟩ := begins
  have encoded : utf8 e.toJson = (write e.lexemes).flatMap String.utf8EncodeChar := by
    rw [utf8_eq_flatMap, Entry.toJson, String.toList_ofList]
  have brace : String.utf8EncodeChar '\x7b' = [123] := by decide
  have first : (write e.lexemes).flatMap String.utf8EncodeChar =
      123 :: ('"' :: 't' :: rest).flatMap String.utf8EncodeChar := by
    rw [begins, List.flatMap_cons, brace]
    rfl
  rw [utf8_eq_flatMap, encoded, first] at bytes
  obtain ⟨before, after, split, encodes, follows⟩ := split_at_ascii (by decide) bytes
  obtain rfl : after = write e.lexemes := by
    rw [← first] at follows
    have same : utf8 (String.ofList after) = utf8 (String.ofList (write e.lexemes)) := by
      simpa only [utf8_eq_flatMap, String.toList_ofList] using follows
    exact String.ofList_injective (utf8_injective same)
  rw [split, begins] at lexed
  obtain ⟨lexemes, rfl, outside⟩ := readAuditEntry_outside read
  have clean : ¬ (.sym '\x7b' ∈ lexemes ∨ .sym 't' ∈ lexemes) := by
    rintro (opens | letter)
    · exact absurd (outside _ opens) (by decide)
    · exact absurd (outside _ letter) (by decide)
  rcases before with _ | ⟨ch, before⟩
  · exact left encodes.symm
  · by_cases quote : ch = '"'
    · subst quote
      obtain ⟨_, _, text⟩ := lex_inside (by simpa only [lex, List.cons_append, lexFrom] using lexed)
      cases text
    · rw [lex, List.cons_append, lexFrom] at lexed
      · obtain ⟨l', read', same⟩ := Option.map_eq_some_iff.mp lexed
        obtain ⟨_, rfl⟩ := List.cons.inj same
        exact clean (glued_object (by decide) false _ (List.suffix_append _ _) read')
      · exact quote

/-! ## The file and the server -/

structure FiledServer where
  server : AuditedServer
  file : Bytes

/-- The write wrote its whole line, and none was open before it. -/
def WrittenWhole (e : Entry) (written : Nat) (file : Bytes) : Prop :=
  e.line.length ≤ written ∧ openLine 10 file = []

instance (e : Entry) (written : Nat) (file : Bytes) : Decidable (WrittenWhole e written file) :=
  inferInstanceAs (Decidable (_ ∧ _))

variable {Key : Type} (c : ServerCrates Key)

/-- A server with the file of its log: a write may end after any number of bytes. -/
inductive FiledStep (key : Key) : FiledServer → FiledServer → Prop where
  | record (st : AuditedServer) (file : Bytes) (n : Nat) (a : Attended)
      (identity : Option AuthedToken) (response : Response) (now : Reading c.time) (e : Entry)
      (written : Nat) (whole : Bool) (found : st.requests n = some a)
      (answered : a.stage = .answered identity response)
      (entry : e = auditEntry c a.arrival a.tokenName now response.status)
      (wrote : whole = decide (WrittenWhole e written file)) :
      FiledStep key ⟨st, file⟩
        ⟨{ st with
            requests := Function.update st.requests n
              (some { a with stage := .recorded identity response whole })
            log := if whole then st.log ++ [(n, e)] else st.log }, file ++ e.line.take written⟩
  | other (st st' : AuditedServer) (file : Bytes) (moved : AuditedStep c key st st')
      (unlogged : st'.log = st.log) : FiledStep key ⟨st, file⟩ ⟨st', file⟩

variable {c} {key : Key} {s t : FiledServer}

/-- What a write does to the entries of a file. -/
lemma readEntries_write (file : Bytes) (e : Entry) (written : Nat) :
    readEntries (file ++ e.line.take written) =
      if WrittenWhole e written file then readEntries file ++ [e] else readEntries file := by
  have free := toJson_newline e
  by_cases whole : e.line.length ≤ written
  · rw [List.take_of_length_le whole, line_eq, ← List.append_assoc]
    obtain ⟨closed, line⟩ : closedLines 10 (file ++ utf8 e.toJson) = closedLines 10 file ∧ _ :=
      append_free free
    obtain ⟨closed', _⟩ := append_terminator 10 (file ++ utf8 e.toJson)
    unfold readEntries
    rw [closed', closed, line, List.filterMap_append]
    by_cases fresh : openLine 10 file = []
    · rw [if_pos ⟨whole, fresh⟩, fresh]
      simp [readLine_toJson]
    · rw [if_neg fun both => fresh both.2]
      simp [readLine_glued fresh]
  · rw [if_neg fun both => whole both.1]
    have short : e.line.take written = (utf8 e.toJson).take written := by
      rw [line_eq] at whole ⊢
      rw [List.take_append_of_le_length]
      simp only [List.length_append, List.length_singleton] at whole
      omega
    have free' : 10 ∉ e.line.take written := by
      rw [short]
      exact fun mem => free (List.mem_of_mem_take mem)
    unfold readEntries
    rw [(append_free free').1]

/-- What is added to the log is added to the entries of the file. -/
def Grown (s t : FiledServer) : Prop :=
  s.file <+: t.file ∧ ∃ added, t.server.log = s.server.log ++ added ∧
    readEntries t.file = readEntries s.file ++ added.map Prod.snd

lemma FiledStep.grown (step : FiledStep c key s t) : Grown s t := by
  cases step with
  | record st file n a identity response now e written whole _ _ _ wrote =>
    refine ⟨List.prefix_append _ _, ?_⟩
    have entries := readEntries_write file e written
    by_cases complete : WrittenWhole e written file
    · rw [if_pos complete] at entries
      exact ⟨[(n, e)], by simp [wrote, complete], entries⟩
    · rw [if_neg complete] at entries
      exact ⟨[], by simp [wrote, complete], by simpa using entries⟩
  | other st st' file _ unlogged =>
    exact ⟨List.prefix_rfl, [], by simpa using unlogged, by simp⟩

lemma FiledStep.audited (step : FiledStep c key s t) : AuditedStep c key s.server t.server := by
  cases step with
  | record st file n a identity response now e written whole found answered entry =>
    subst entry
    exact .record st n a identity response now _ found answered
  | other st st' file moved => exact moved

/-- Over any run the file is only added to, and the entries that read from it are those that the
log has got: what is left of a write that broke off never reads as an entry, alone or with the
line after it, whatever the file held before. -/
theorem audit_file_reads_back (run : ReflTransGen (FiledStep c key) s t) :
    ReflTransGen (AuditedStep c key) s.server t.server ∧ s.file <+: t.file ∧
    ∃ added, t.server.log = s.server.log ++ added ∧
      readEntries t.file = readEntries s.file ++ added.map Prod.snd := by
  induction run with
  | refl => exact ⟨.refl, List.prefix_rfl, [], by simp, by simp⟩
  | tail _ last ih =>
    obtain ⟨audited, earlier, added, log, entries⟩ := ih
    obtain ⟨later, more, log', entries'⟩ := last.grown
    refine ⟨audited.tail last.audited, earlier.trans later, added ++ more, ?_, ?_⟩
    · rw [log', log, List.append_assoc]
    · rw [entries', entries, List.map_append, List.append_assoc]

/-! ## A write that breaks off -/

def healthArrival : Arrival := ⟨⟨.get, "/v1/health", none, ⟨false, none⟩⟩, ""⟩

def healthEntry : Entry := ⟨"1970-01-01T00:00:00Z", none, "GET", "/v1/health", none, 200⟩

def attendedHealth (st : AuditedServer) (stage : Stage) : Attended :=
  ⟨healthArrival, none, true, st.db.tokens, st.clock, stage⟩

def healthServer (st : AuditedServer) : AuditedServer :=
  { st with
    requests := Function.update st.requests st.next (some (attendedHealth st .arrived))
    next := st.next + 1 }

/-- A request for the health of the server is answered, and so much of its line is written. -/
lemma health_recorded (s : FiledServer) (written : Nat) : ∃ t,
    ReflTransGen (FiledStep framedServer [7]) s t ∧
    t.file = s.file ++ healthEntry.line.take written ∧
    t.server.log = if WrittenWhole healthEntry written s.file then
      s.server.log ++ [(s.server.next, healthEntry)] else s.server.log := by
  obtain ⟨st, file⟩ := s
  have routed : healthArrival.toRequest.routed framedServer = .answered Handlers.health := by
    have found : matchRoute (pathSegments healthArrival.path) = some .health := by decide
    unfold Request.routed
    rw [found]
    rfl
  have arrived : AuditedStep framedServer [7] st (healthServer st) := .arrive st healthArrival []
  have answered : AuditedStep framedServer [7] (healthServer st) _ :=
    .advance _ st.next (attendedHealth st .arrived) _ _ (Function.update_self ..)
      (.route _ _ _ routed rfl)
  have entry : healthEntry = auditEntry framedServer healthArrival none epoch 200 := by decide
  have handled : ReflTransGen (FiledStep framedServer [7]) ⟨st, file⟩ _ :=
    (ReflTransGen.single (.other _ _ file arrived rfl)).tail (.other _ _ file answered rfl)
  refine ⟨_, handled.tail (@FiledStep.record _ framedServer [7] _ file st.next
    (attendedHealth st (.answered none Handlers.health)) none Handlers.health epoch healthEntry
    written _ (Function.update_self ..) rfl entry rfl), rfl, ?_⟩
  simp only [decide_eq_true_eq]
  rfl

lemma tornThenWhole_run : ∃ t,
    ReflTransGen (FiledStep framedServer [7]) ⟨.start .empty 0, []⟩ t ∧
    t.file = healthEntry.line.take 5 ++ healthEntry.line ++ healthEntry.line ∧
    t.server.log.map Prod.snd = [healthEntry] := by
  obtain ⟨t₁, torn, file₁, log₁⟩ := health_recorded ⟨.start .empty 0, []⟩ 5
  obtain ⟨t₂, glued, file₂, log₂⟩ := health_recorded t₁ healthEntry.line.length
  obtain ⟨t₃, whole, file₃, log₃⟩ := health_recorded t₂ healthEntry.line.length
  rw [List.take_length] at file₂ file₃
  rw [file₁] at file₂ log₂
  rw [file₂] at file₃ log₃
  rw [if_neg (by decide)] at log₁ log₂
  rw [if_pos (by decide)] at log₃
  refine ⟨t₃, (torn.trans glued).trans whole, file₃, ?_⟩
  rw [log₃, log₂, log₁]
  rfl

/-- A line is cut short, the next one is glued to it, and the one after that reads. -/
theorem audit_file_reads_back_torn : ∃ t,
    ReflTransGen (FiledStep framedServer [7]) ⟨.start .empty 0, []⟩ t ∧
    t.file = healthEntry.line.take 5 ++ healthEntry.line ++ healthEntry.line ∧
    readEntries t.file = [healthEntry] := by
  obtain ⟨t, run, file, log⟩ := tornThenWhole_run
  obtain ⟨_, _, added, grown, entries⟩ := audit_file_reads_back run
  have same : t.server.log = added := grown
  refine ⟨t, run, file, ?_⟩
  rw [entries, ← same, log]
  rfl

end SecretsManager
