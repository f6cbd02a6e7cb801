import SecretsManager.Server.Passphrase
import SecretsManager.Client.Commands

/-!
# One newline at the end

`get` puts a newline after the value, `set` takes one away and a carriage return before
it; a passphrase file is read in the same way. What ends with a carriage return of its
own does not come back.
-/

namespace SecretsManager

open PlainText ClientCommands

/-- What `get` prints for a value, `set` stores as that value again. -/
def ValueReturns (v : String) : Prop :=
  ∀ (m : SecretMap) key p setSecret, m[key]? = some v →
    ClientCommands.get (.ok m) (.ok ()) key = .ok p →
    ClientCommands.set (.piped (.ok p.stdout)) setSecret =
      (setSecret v).mapError .api >>= fun _ => pure 0

/-- A passphrase accepted from the environment is read from a file with a newline after it. -/
structure PassphraseReturns (v : String) : Prop where
  current : ∀ (s : PassphraseSources) file source, s.fromEnv = some v →
    acquirePassphrase s = .ok v → file.opened = .ok () → file.content = .ok (utf8 v ++ [10]) →
    readPassphraseFile file source = .ok v
  new : ∀ terminal current file source,
    acquireNewPassphrase (some v) terminal current = .ok v → file.opened = .ok () →
    file.content = .ok (utf8 v ++ [10]) → readPassphraseFile file source = .ok v

/-- The string does not end with a carriage return. -/
def NoReturnAtEnd (v : String) : Prop := v.toList.getLast? ≠ some '\r'

instance (v : String) : Decidable (NoReturnAtEnd v) := inferInstanceAs (Decidable (_ ≠ _))

section Strings

variable {v : String}

lemma utf8_newline (v : String) : utf8 v ++ [10] = utf8 (v ++ "\n") := by
  have newline : utf8 "\n" = [10] := by decide
  rw [utf8_append, newline]

/-- A newline is all that is taken away, unless a carriage return stands before it. -/
lemma strip_iff : String.ofList (chomp '\n' '\r' (v ++ "\n").toList) = v ↔ NoReturnAtEnd v := by
  have newline : "\n".toList = ['\n'] := rfl
  rw [String.toList_append, newline, NoReturnAtEnd, ← chomp_terminated]
  constructor
  · intro same
    have lists := congrArg String.toList same
    rwa [String.toList_ofList] at lists
  · intro same
    rw [same, String.ofList_toList]

lemma readSecretValue_iff (nonempty : v ≠ "") :
    readSecretValue (.piped (.ok (utf8 v ++ [10]))) = .ok v ↔ NoReturnAtEnd v := by
  have read : readSecretValue (.piped (.ok (utf8 v ++ [10]))) =
      if stripNewline (v ++ "\n") = "" then .error (.bail "empty value")
      else .ok (stripNewline (v ++ "\n")) := by
    have decoded := fromUtf8_utf8 (v ++ "\n")
    rw [← utf8_newline] at decoded
    simp only [readSecretValue, Except.mapError, bind, Except.bind, decoded]
  rw [read, ← strip_iff]
  constructor
  · intro same
    split at same
    · cases same
    · exact Except.ok.inj same
  · intro same
    have kept : stripNewline (v ++ "\n") = v := same
    rw [kept, if_neg nonempty]

lemma readPassphraseFile_iff {file : PassphraseFile} {source : String} (nonempty : v ≠ "")
    (opened : file.opened = .ok ()) (content : file.content = .ok (utf8 v ++ [10])) :
    readPassphraseFile file source = .ok v ↔ NoReturnAtEnd v := by
  rw [readPassphraseFile_ok, ← strip_iff]
  constructor
  · rintro ⟨_, _, text, read, same⟩
    rw [content, utf8_newline] at read
    rw [utf8_injective (Except.ok.inj read)]
    exact same.symm
  · intro same
    exact ⟨opened, nonempty, v ++ "\n", by rw [content, utf8_newline], same.symm⟩

end Strings

lemma get_ok {m : SecretMap} {key v : String} {p : Printed} (found : m[key]? = some v)
    (got : ClientCommands.get (.ok m) (.ok ()) key = .ok p) : p = ⟨utf8 v ++ [10], 0⟩ := by
  simp only [ClientCommands.get, Except.mapError, found, bind, Except.bind] at got
  cases got
  rfl

theorem valueReturns_iff {v : String} (nonempty : v ≠ "") : ValueReturns v ↔ NoReturnAtEnd v := by
  constructor
  · intro returns
    have found : ((∅ : SecretMap).insert "K" v)["K"]? = some v :=
      Std.ExtTreeMap.getElem?_insert_self
    have got : ClientCommands.get (.ok ((∅ : SecretMap).insert "K" v)) (.ok ()) "K" =
        .ok ⟨utf8 v ++ [10], 0⟩ := by
      simp only [ClientCommands.get, Except.mapError, found, bind, Except.bind]
      rfl
    have stored := returns _ "K" _ (fun value => if value = v then .ok () else .error .notFound)
      found got
    apply (readSecretValue_iff nonempty).mp
    simp only [ClientCommands.set, if_true] at stored
    cases read : readSecretValue (.piped (.ok (utf8 v ++ [10]))) with
    | error e =>
        rw [read] at stored
        cases stored
    | ok value =>
        rw [read] at stored
        by_cases same : value = v
        · rw [same]
        · simp only [bind, Except.bind, if_neg same] at stored
          cases stored
  · intro ends m key p setSecret found got
    obtain rfl := get_ok found got
    have read := (readSecretValue_iff nonempty).mpr ends
    simp only [ClientCommands.set, read]
    rfl

theorem passphraseReturns_iff {v : String} (nonempty : v ≠ "") :
    PassphraseReturns v ↔ NoReturnAtEnd v := by
  constructor
  · intro returns
    have accepted : acquireNewPassphrase (some v) none "" = .ok v := by
      simp only [acquireNewPassphrase, if_neg nonempty]
    exact (readPassphraseFile_iff nonempty rfl rfl).mp
      (returns.new none "" ⟨"file", .ok (), .ok (utf8 v ++ [10])⟩ "" accepted rfl rfl)
  · intro ends
    constructor
    · intro s file source _ _ opened content
      exact (readPassphraseFile_iff nonempty opened content).mpr ends
    · intro terminal current file source _ opened content
      exact (readPassphraseFile_iff nonempty opened content).mpr ends

/-- Values and passphrases come back, all but those that end with a carriage return. -/
theorem newline_returns_iff (v : String) (nonempty : v ≠ "") :
    (ValueReturns v ↔ NoReturnAtEnd v) ∧ (PassphraseReturns v ↔ NoReturnAtEnd v) :=
  ⟨valueReturns_iff nonempty, passphraseReturns_iff nonempty⟩

theorem newline_returns_iff_plain : ValueReturns "v" ∧ PassphraseReturns "v" := by
  have ends : NoReturnAtEnd "v" := by decide
  have both := newline_returns_iff "v" (by decide)
  exact ⟨both.1.mpr ends, both.2.mpr ends⟩

/-- A value that ends with a carriage return comes back without it. -/
theorem carriage_return_is_lost : ¬ ValueReturns "v\r" ∧ ¬ PassphraseReturns "v\r" := by
  have ends : ¬ NoReturnAtEnd "v\r" := by decide
  constructor
  · intro returns
    exact ends ((valueReturns_iff (by decide)).mp returns)
  · intro returns
    exact ends ((passphraseReturns_iff (by decide)).mp returns)

end SecretsManager
