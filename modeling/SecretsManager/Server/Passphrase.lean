import SecretsManager.Lib.PlainText
import SecretsManager.Crypto

/-!
# Where the passphrase comes from

A variable of the environment, a file named by one, a credential of systemd, or the
terminal; a rekey takes the new passphrase from a variable or from the terminal. Only
what is read from a file loses the newline at its end.
-/

namespace SecretsManager

open PlainText

/-- A message of its own, or an operation with its context. -/
inductive ConfigError where
  | bail (msg : String)
  | context (msg e : String)
  deriving DecidableEq

/-- A passphrase file: whether it may be used, and what is read from it. -/
structure PassphraseFile where
  path : String
  opened : Except String Unit
  content : Except String Bytes

/-- What `acquire_passphrase` finds; a variable that is not Unicode counts as unset. -/
structure PassphraseSources where
  fromEnv : Option String
  file : Option PassphraseFile
  credential : Option PassphraseFile
  terminal : Option (Except String String)

def SYSTEMD_PASSPHRASE_CREDENTIAL : String := "secrets-passphrase"

def stripSingleTrailingNewline (s : String) : String := String.ofList (chomp '\n' '\r' s.toList)

def readPassphraseFile (file : PassphraseFile) (source : String) : Except ConfigError String := do
  file.opened.mapError
    (.context ("failed to open " ++ source ++ " passphrase file " ++ file.path))
  let bytes ← file.content.mapError
    (.context ("failed to read " ++ source ++ " passphrase file " ++ file.path))
  match fromUtf8 bytes with
  | none =>
    .error (.context ("failed to read " ++ source ++ " passphrase file " ++ file.path)
      "stream did not contain valid UTF-8")
  | some text =>
    if stripSingleTrailingNewline text = "" then
      .error (.bail (source ++ " passphrase file is empty"))
    else .ok (stripSingleTrailingNewline text)

def acquirePassphrase (s : PassphraseSources) : Except ConfigError String :=
  match s.fromEnv with
  | some p => if p = "" then .error (.bail "SECRETS_PASSPHRASE is set but empty") else .ok p
  | none =>
    match s.file with
    | some file =>
      if file.path = "" then .error (.bail "SECRETS_PASSPHRASE_FILE is set but empty")
      else readPassphraseFile file "SECRETS_PASSPHRASE_FILE"
    | none =>
      match s.credential with
      | some file => readPassphraseFile file ("systemd credential " ++ SYSTEMD_PASSPHRASE_CREDENTIAL)
      | none =>
        match s.terminal with
        | some entered => do
          let entered ← entered.mapError (.context "failed to read passphrase from terminal")
          if entered = "" then .error (.bail "passphrase must not be empty") else .ok entered
        | none =>
          .error (.bail ("no passphrase available: set SECRETS_PASSPHRASE, set " ++
            "SECRETS_PASSPHRASE_FILE, provide systemd credential secrets-passphrase, or run " ++
            "attached to a terminal"))

/-- The terminal is asked twice. -/
def acquireNewPassphrase (fromEnv : Option String)
    (terminal : Option (Except String String × Except String String)) (current : String) :
    Except ConfigError String :=
  match fromEnv with
  | some p =>
    if p = "" then .error (.bail "SECRETS_NEW_PASSPHRASE is set but empty")
    else if p = current then
      .error (.bail "new passphrase must differ from the current passphrase")
    else .ok p
  | none =>
    match terminal with
    | some (first, second) => do
      let first ← first.mapError (.context "failed to read new passphrase from terminal")
      if first = "" then .error (.bail "new passphrase must not be empty")
      else
        let second ← second.mapError
          (.context "failed to read passphrase confirmation from terminal")
        if first ≠ second then .error (.bail "new passphrase confirmation did not match")
        else if first = current then
          .error (.bail "new passphrase must differ from the current passphrase")
        else .ok first
    | none =>
      .error (.bail ("no new passphrase available: set SECRETS_NEW_PASSPHRASE or run attached " ++
        "to a terminal"))

/-! ## What is accepted -/

theorem readPassphraseFile_ok {file : PassphraseFile} {source p : String} :
    readPassphraseFile file source = .ok p ↔ file.opened = .ok () ∧ p ≠ "" ∧
      ∃ text, file.content = .ok (utf8 text) ∧ p = stripSingleTrailingNewline text := by
  simp only [readPassphraseFile, except_bind_ok, mapError_ok_iff]
  constructor
  · rintro ⟨_, opened, bytes, content, accepted⟩
    split at accepted
    · cases accepted
    · rename_i text decoded
      obtain rfl := (fromUtf8_eq_some_iff _ _).mp decoded
      split at accepted
      · cases accepted
      · rename_i nonempty
        cases accepted
        exact ⟨opened, nonempty, text, content, rfl⟩
  · rintro ⟨opened, nonempty, text, content, rfl⟩
    refine ⟨(), opened, _, content, ?_⟩
    rw [fromUtf8_utf8]
    exact if_neg nonempty

/-- Whatever it comes from, a passphrase that is accepted is not empty. -/
theorem acquirePassphrase_nonempty {s : PassphraseSources} {p : String}
    (acquired : acquirePassphrase s = .ok p) : p ≠ "" := by
  unfold acquirePassphrase at acquired
  split at acquired
  · split at acquired
    · cases acquired
    · rename_i nonempty
      cases acquired
      exact nonempty
  · split at acquired
    · split at acquired
      · cases acquired
      · exact (readPassphraseFile_ok.mp acquired).2.1
    · split at acquired
      · exact (readPassphraseFile_ok.mp acquired).2.1
      · split at acquired
        · obtain ⟨entered, _, accepted⟩ := except_bind_ok.mp acquired
          split at accepted
          · cases accepted
          · rename_i nonempty
            cases accepted
            exact nonempty
        · cases acquired

/-- A new passphrase is not empty and not the current one. -/
theorem acquireNewPassphrase_new {fromEnv : Option String}
    {terminal : Option (Except String String × Except String String)} {current p : String}
    (acquired : acquireNewPassphrase fromEnv terminal current = .ok p) :
    p ≠ "" ∧ p ≠ current := by
  unfold acquireNewPassphrase at acquired
  split at acquired
  · split at acquired
    · cases acquired
    · rename_i nonempty
      split at acquired
      · cases acquired
      · rename_i new
        cases acquired
        exact ⟨nonempty, new⟩
  · split at acquired
    · obtain ⟨first, _, accepted⟩ := except_bind_ok.mp acquired
      split at accepted
      · cases accepted
      · rename_i nonempty
        obtain ⟨second, _, accepted⟩ := except_bind_ok.mp accepted
        split at accepted
        · cases accepted
        · split at accepted
          · cases accepted
          · rename_i new
            cases accepted
            exact ⟨nonempty, new⟩
    · cases acquired

end SecretsManager
