import SecretsManager.Lib.PlainText
import SecretsManager.Client.Api

/-!
# The commands of the client

What `run`, `get`, `set` and `export` make of a fetched map, of standard input and of a
child process, and the exit code that `main` makes of it. What a command prints is
given as bytes; the prompt, the child and standard output are what the caller says
they are.
-/

namespace SecretsManager

open PlainText

/-- How a command fails: its own message, a call of the API, or an operation with its context. -/
inductive CliError where
  | bail (msg : String)
  | api (e : ClientError)
  | config (e : String)
  | io (e : String)
  | context (msg e : String)
  deriving DecidableEq

/-- What was printed and the code for `main`. -/
structure Printed where
  stdout : Bytes
  code : Int32
  deriving DecidableEq

/-- Where `set` reads the value from. -/
inductive Stdin where
  | terminal (entered : Except String String)
  | piped (input : Except String Bytes)

/-- The program, its arguments and the variables added to the environment. -/
structure ChildCommand where
  program : String
  args : List String
  env : List (String × String)
  deriving DecidableEq

/-- One newline is taken from the end of a text, and a carriage return before it. -/
def stripNewline (text : String) : String := String.ofList (chomp '\n' '\r' text.toList)

namespace ClientCommands

/-! ## get and set -/

def get (fetched : Except ClientError SecretMap) (stdout : Except String Unit) (key : String) :
    Except CliError Printed := do
  let secrets ← fetched.mapError .api
  match secrets[key]? with
  | some value =>
    stdout.mapError .io
    pure ⟨utf8 value ++ [10], 0⟩
  | none => .error (.bail ("key not found: " ++ key))

def readSecretValue : Stdin → Except CliError String
  | .terminal entered => entered.mapError (.context "failed to read value from terminal")
  | .piped input => do
    let bytes ← input.mapError (.context "failed to read value from stdin")
    match fromUtf8 bytes with
    | none =>
      .error (.context "failed to read value from stdin" "stream did not contain valid UTF-8")
    | some buf =>
      if stripNewline buf = "" then .error (.bail "empty value") else .ok (stripNewline buf)

def set (stdin : Stdin) (setSecret : String → Except ClientError Unit) :
    Except CliError Int32 := do
  let value ← readSecretValue stdin
  (setSecret value).mapError .api
  pure 0

/-! ## export -/

/-- Letters, digits and `_-./:@`. -/
def bareByte (b : UInt8) : Bool := isAsciiAlphanumeric b || [95, 45, 46, 47, 58, 64].contains b

def escapeChar (ch : Char) : List Char :=
  match ch with
  | '\\' => ['\\', '\\']
  | '"' => ['\\', '"']
  | '\n' => ['\\', 'n']
  | '\r' => ['\\', 'r']
  | _ => [ch]

def dotenvValue (value : String) : String :=
  if value ≠ "" ∧ (utf8 value).all bareByte then value
  else String.ofList (['"'] ++ value.toList.flatMap escapeChar ++ ['"'])

/-- The loop of `export` over the map. -/
def exportLoop : String → List (String × String) → String
  | out, [] => out
  | out, (key, value) :: rest =>
    exportLoop (out ++ key ++ "=" ++ dotenvValue value ++ "\n") rest

def dotenvText (secrets : SecretMap) : String := exportLoop "" secrets.toList

def exportDotenv (fetched : Except ClientError SecretMap) (stdout : Except String Unit)
    (format : String) : Except CliError Printed := do
  if format ≠ "dotenv" then
    .error (.bail ("unsupported export format: " ++ format ++ " (only 'dotenv' is supported)"))
  else
    let secrets ← fetched.mapError .api
    stdout.mapError .io
    pure ⟨utf8 (dotenvText secrets), 0⟩

/-! ## run -/

def buildCommand (program : String) (args : List String) (secrets : SecretMap) : ChildCommand :=
  ⟨program, args, secrets.toList⟩

/-- Spawns the child and waits for it; it may end without a code. -/
def run (fetched : Except ClientError SecretMap)
    (status : ChildCommand → Except String (Option Int32)) :
    List String → Except CliError Int32
  | [] => .error (.bail "no command given after `--`")
  | program :: args => do
    let secrets ← fetched.mapError .api
    let code ← (status (buildCommand program args secrets)).mapError
      (.context ("failed to run `" ++ program ++ "`"))
    pure (code.getD 1)

end ClientCommands

/-! ## The exit code -/

/-- `run` behind the configuration. -/
def dispatchRun (config : Except String Unit) (fetched : Except ClientError SecretMap)
    (status : ChildCommand → Except String (Option Int32)) (command : List String) :
    Except CliError Int32 := do
  config.mapError .config
  ClientCommands.run fetched status command

def clampCode (code : Int32) : Int32 := if code < 0 then 0 else if code > 255 then 255 else code

/-- The exit code of the process. -/
def mainCode : Except CliError Int32 → UInt8
  | .ok code => (clampCode code).toInt8.toUInt8
  | .error _ => 1

end SecretsManager
