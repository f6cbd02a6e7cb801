import SecretsManager.Server.App
import SecretsManager.Lib.Collect

/-!
# The HTTP client

The functions of the client's API over what its agent gives them: the URL each one
builds by interpolation, and what it makes of an answer or a failure. Only a
failure that is no status counts as one of the transport.
-/

namespace SecretsManager

open Collect

inductive ClientError where
  | unexpectedResponse
  | unauthorized
  | forbidden
  | notFound
  | http (code : Nat)
  | transport (text : String)
  | offlineCacheUnavailable (transport cache : String)
  | cache (text : String)
  deriving DecidableEq

namespace ClientError

def text : ClientError → String
  | unexpectedResponse => "server returned an unexpected response"
  | unauthorized => "unauthorized (check your token)"
  | forbidden => "forbidden (token not permitted for this project)"
  | notFound => "not found"
  | http code => s!"server error (HTTP {code})"
  | transport t => s!"cannot reach server: {t}"
  | offlineCacheUnavailable t c => s!"{t}; no usable offline cache ({c})"
  | cache t => s!"cache error: {t}"

def isTransport : ClientError → Bool
  | transport _ => true
  | _ => false

end ClientError

/-- What a call of the agent fails with: the status of an error, or anything else. -/
inductive UreqError where
  | statusCode (code : Nat)
  | other (text : String)
  deriving DecidableEq

def mapError : UreqError → ClientError
  | .statusCode 401 => .unauthorized
  | .statusCode 403 => .forbidden
  | .statusCode 404 => .notFound
  | .statusCode code => .http code
  | .other text => .transport text

theorem mapError_isTransport (e : UreqError) :
    (mapError e).isTransport = true ↔ ∃ text, e = .other text := by
  unfold mapError
  split <;> simp [ClientError.isTransport]

/-- An answer; its body is read up to a limit or not at all. -/
structure HttpResponse where
  status : Nat
  readToVec : Nat → Option Bytes

/-- The agent turns the statuses of errors into errors. Where one that is neither of an error nor
of a success ends is its own affair: a redirect is followed, or fails where it leads nowhere. -/
def callResult (status : Nat) (readToVec : Nat → Option Bytes)
    (elsewhere : Except UreqError HttpResponse) : Except UreqError HttpResponse :=
  if 200 ≤ status ∧ status < 300 then .ok ⟨status, readToVec⟩
  else if 400 ≤ status ∧ status < 600 then .error (.statusCode status)
  else elsewhere

/-- The call ended without a status. -/
def noStatus : Except UreqError HttpResponse → Bool
  | .error (.other _) => true
  | _ => false

def MAX_RESPONSE_BYTES : Nat := 2 ^ 20

abbrev SecretMap : Type := Std.ExtTreeMap String String

/-- The rules the server has for keys. -/
def validSecretKey (key : String) : Bool := validName 128 [45, 95, 46] key

/-- The loop of `secret_map_from_plain`. -/
def secretMapLoop : SecretMap → List (String × String) → Except ClientError SecretMap
  | out, [] => .ok out
  | out, (key, value) :: rest =>
    if validSecretKey key then secretMapLoop (out.insert key value) rest
    else .error .unexpectedResponse

def secretMapFromPlain (raw : SecretMap) : Except ClientError SecretMap :=
  secretMapLoop ∅ raw.toList

lemma secretMapLoop_collect (out : SecretMap) (l : List (String × String)) :
    secretMapLoop out l = collect out (l.map fun x =>
      (x.1, if validSecretKey x.1 then .ok x.2 else .error .unexpectedResponse)) := by
  induction l generalizing out with
  | nil => rfl
  | cons x l ih =>
    obtain ⟨key, value⟩ := x
    unfold secretMapLoop
    by_cases valid : validSecretKey key
    · simp only [valid, if_true, List.map_cons, collect]
      exact ih _
    · simp [valid, collect]

/-- A map whose keys are all valid comes out as it went in, and no other does. -/
theorem secretMapFromPlain_ok {raw m : SecretMap} :
    secretMapFromPlain raw = .ok m ↔ m = raw ∧ ∀ k ∈ raw, validSecretKey k = true := by
  unfold secretMapFromPlain
  rw [secretMapLoop_collect]
  have valid_map : (∀ k ∈ raw, validSecretKey k = true) →
      (raw.toList.map fun x => (x.1, if validSecretKey x.1 then
        (.ok x.2 : Except ClientError String) else .error .unexpectedResponse)) =
      raw.toList.map fun x => (x.1, .ok x.2) := by
    intro valid
    apply List.map_congr_left
    rintro ⟨k, v⟩ hx
    have found := Std.ExtTreeMap.mem_toList_iff_getElem?_eq_some.mp hx
    have mem : k ∈ raw := Std.ExtTreeMap.mem_iff_isSome_getElem?.mpr (by simp [found])
    simp [valid k mem]
  constructor
  · intro collected
    have valid : ∀ k ∈ raw, validSecretKey k = true := by
      intro k hk
      obtain ⟨v, hv⟩ := Option.isSome_iff_exists.mp (Std.ExtTreeMap.mem_iff_isSome_getElem?.mp hk)
      have member := Std.ExtTreeMap.mem_toList_iff_getElem?_eq_some.mpr hv
      obtain ⟨_, isValue⟩ := collect_values collected _ (List.mem_map.mpr ⟨_, member, rfl⟩)
      by_contra invalid
      simp [invalid] at isValue
    rw [valid_map valid, collect_toList] at collected
    exact ⟨(Except.ok.inj collected).symm, valid⟩
  · rintro ⟨rfl, valid⟩
    rw [valid_map valid, collect_toList]

/-- `serde_json` on the bodies the client reads and writes. -/
structure ClientJson where
  encodeSetBody : String → Bytes
  decodeSecrets : Bytes → Option SecretMap
  decodeRevoked : Bytes → Option Nat

variable (json : ClientJson)

/-- The body, read within the limit and decoded. -/
def readJson (decode : Bytes → Option α) (r : HttpResponse) : Except ClientError α :=
  match r.readToVec MAX_RESPONSE_BYTES with
  | none => .error .unexpectedResponse
  | some buf =>
    match decode buf with
    | none => .error .unexpectedResponse
    | some out => .ok out

namespace Api

def secretsPath (project : String) : String := "/v1/projects/" ++ project ++ "/secrets"

def secretPath (project key : String) : String :=
  "/v1/projects/" ++ project ++ "/secrets/" ++ key

def tokenPath (name : String) : String := "/v1/tokens/" ++ name

def fetchSecrets (resp : Except UreqError HttpResponse) : Except ClientError SecretMap :=
  match resp with
  | .ok r =>
    match readJson json.decodeSecrets r with
    | .ok raw => secretMapFromPlain raw
    | .error e => .error e
  | .error e => .error (mapError e)

/-- The answer to a put is not looked into. -/
def setSecret (resp : Except UreqError HttpResponse) : Except ClientError Unit :=
  match resp with
  | .ok _ => .ok ()
  | .error e => .error (mapError e)

def revokeToken (resp : Except UreqError HttpResponse) : Except ClientError Nat :=
  match resp with
  | .ok r => readJson json.decodeRevoked r
  | .error e => .error (mapError e)

end Api

/-! ## A map made of frames -/

def secretMapFrames (m : SecretMap) : Bytes :=
  Framing.frames (m.toList.flatMap fun x => [utf8 x.1, utf8 x.2])

def framedPairs : List Bytes → Option (List (String × String))
  | [] => some []
  | k :: v :: rest => do
    let key ← fromUtf8 k
    let value ← fromUtf8 v
    let pairs ← framedPairs rest
    some ((key, value) :: pairs)
  | _ => none

def secretMapRead (b : Bytes) : Option SecretMap := do
  let pairs ← framedPairs (← Framing.readFrames b)
  (collect ∅ (pairs.map fun x => (x.1, (.ok x.2 : Except Unit String)))).toOption

lemma framedPairs_flatMap (pairs : List (String × String)) :
    framedPairs (pairs.flatMap fun x => [utf8 x.1, utf8 x.2]) = some pairs := by
  induction pairs with
  | nil => rfl
  | cons x pairs ih => simp [framedPairs, fromUtf8_utf8, ih]

theorem secretMapRead_frames (m : SecretMap) : secretMapRead (secretMapFrames m) = some m := by
  simp only [secretMapRead, secretMapFrames, Framing.readFrames_frames, Option.bind_eq_bind,
    Option.bind_some, framedPairs_flatMap, collect_toList]
  rfl

end SecretsManager
