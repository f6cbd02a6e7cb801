import SecretsManager.Client.Commands

/-!
# The exit code of `secrets run`

On the path that spawns the child and waits for it, the code of the child goes through
`run`, `dispatch` and `main`, and each failure before it becomes 1. Codes above 255
become 255, and negative ones become 0.
-/

namespace SecretsManager

variable {config : Except String Unit} {fetched : Except ClientError SecretMap}
  {status : ChildCommand → Except String (Option Int32)} {command : List String}

/-- The code that the child exited with, if it was started and had one. -/
def childCode (config : Except String Unit) (fetched : Except ClientError SecretMap)
    (status : ChildCommand → Except String (Option Int32)) (command : List String) :
    Option Int32 :=
  match config, command, fetched with
  | .ok _, program :: args, .ok secrets =>
    match status (ClientCommands.buildCommand program args secrets) with
    | .ok code => code
    | .error _ => none
  | _, _, _ => none

/-- Success is reported for a child that succeeded, and a code that fits is passed on. -/
structure ReportsChild (config : Except String Unit) (fetched : Except ClientError SecretMap)
    (status : ChildCommand → Except String (Option Int32)) (command : List String) : Prop where
  success : mainCode (dispatchRun config fetched status command) = 0 ↔
    childCode config fetched status command = some 0
  passedOn : ∀ code, childCode config fetched status command = some code →
    0 ≤ code.toInt → code.toInt ≤ 255 →
    ((mainCode (dispatchRun config fetched status command)).toNat : Int) = code.toInt

/-- The child's code as it is, or a code for a failure. -/
lemma dispatchRun_cases (config : Except String Unit) (fetched : Except ClientError SecretMap)
    (status : ChildCommand → Except String (Option Int32)) (command : List String) :
    (∃ code, childCode config fetched status command = some code ∧
      dispatchRun config fetched status command = .ok code) ∨
    childCode config fetched status command = none ∧
      mainCode (dispatchRun config fetched status command) = 1 := by
  cases config with
  | error e => exact Or.inr ⟨rfl, rfl⟩
  | ok _ =>
      cases command with
      | nil => exact Or.inr ⟨rfl, rfl⟩
      | cons program args =>
          cases fetched with
          | error e => exact Or.inr ⟨rfl, rfl⟩
          | ok secrets =>
              have result : dispatchRun (.ok ()) (.ok secrets) status (program :: args) =
                  ((status (ClientCommands.buildCommand program args secrets)).mapError
                    (.context ("failed to run `" ++ program ++ "`")) >>= fun code =>
                      (pure (code.getD 1) : Except CliError Int32)) := rfl
              simp only [childCode]
              rw [result]
              cases status (ClientCommands.buildCommand program args secrets) with
              | error e => exact Or.inr ⟨rfl, rfl⟩
              | ok code =>
                  cases code with
                  | none => exact Or.inr ⟨rfl, rfl⟩
                  | some code => exact Or.inl ⟨code, rfl, rfl⟩

/-! ## What `main` makes of a code -/

lemma toInt_small (code : Int32) (low : 0 ≤ code.toInt) (high : code.toInt ≤ 255) :
    ((code.toInt8.toUInt8).toNat : Int) = code.toInt := by
  have narrowed : (code.toInt8.toUInt8).toNat = code.toBitVec.toNat % 256 := by
    have bits : code.toInt8.toUInt8.toBitVec = code.toBitVec.setWidth 8 :=
      BitVec.signExtend_eq_setWidth_of_le _ (by decide)
    rw [← UInt8.toNat_toBitVec, bits, BitVec.toNat_setWidth]
  have wide : code.toInt = code.toBitVec.toInt := rfl
  rw [BitVec.toInt_eq_toNat_cond] at wide
  have bound := code.toBitVec.isLt
  split at wide
  · omega
  · omega

lemma clampCode_toInt (code : Int32) : (clampCode code).toInt = max 0 (min code.toInt 255) := by
  have zero : (0 : Int32).toInt = 0 := rfl
  have top : (255 : Int32).toInt = 255 := rfl
  simp only [clampCode, gt_iff_lt, Int32.lt_iff_toInt_lt, zero, top]
  split
  · omega
  · split
    · omega
    · omega

/-- A code ends up at the nearest one that a process can exit with. -/
lemma mainCode_toNat (code : Int32) :
    ((mainCode (.ok code)).toNat : Int) = max 0 (min code.toInt 255) := by
  have clamped := clampCode_toInt code
  rw [← clamped]
  apply toInt_small
  · omega
  · omega

lemma mainCode_zero_iff (code : Int32) : mainCode (.ok code) = 0 ↔ code.toInt ≤ 0 := by
  have value := mainCode_toNat code
  rw [← UInt8.toNat_inj]
  have zero : (0 : UInt8).toNat = 0 := rfl
  omega

/-! ## Success exactly for success -/

/-- The child is reported as it ended if its code is not negative. -/
theorem reportsChild_iff (config : Except String Unit) (fetched : Except ClientError SecretMap)
    (status : ChildCommand → Except String (Option Int32)) (command : List String) :
    ReportsChild config fetched status command ↔
      ∀ code, childCode config fetched status command = some code → 0 ≤ code.toInt := by
  have zero : (0 : Int32).toInt = 0 := rfl
  rcases dispatchRun_cases config fetched status command with ⟨code, child, result⟩ | ⟨none, one⟩
  · constructor
    · intro reports other same
      cases child.symm.trans same
      by_contra negative
      have lost : mainCode (dispatchRun config fetched status command) = 0 := by
        rw [result, mainCode_zero_iff]
        omega
      have succeeded := reports.success.mp lost
      rw [child] at succeeded
      rw [Option.some.inj succeeded] at negative
      exact negative (Int.le_of_eq zero.symm)
    · intro low
      have low := low code child
      constructor
      · rw [result, child, Option.some.injEq, mainCode_zero_iff, ← Int32.toInt_inj, zero]
        omega
      · intro other same _ high
        cases child.symm.trans same
        have value := mainCode_toNat code
        rw [result]
        omega
  · constructor
    · intro _ code child
      cases none.symm.trans child
    · intro _
      constructor
      · rw [none, one]
        constructor
        · intro same
          cases same
        · intro same
          cases same
      · intro code child
        cases none.symm.trans child

/-- A child that crashes with the code of an access violation is reported as a success. -/
theorem crash_reported_as_success :
    let crashed : ChildCommand → Except String (Option Int32) := fun _ => .ok (some (-1073741819))
    childCode (.ok ()) (.ok ∅) crashed ["app"] = some (-1073741819) ∧
      mainCode (dispatchRun (.ok ()) (.ok ∅) crashed ["app"]) = 0 ∧
      ¬ ReportsChild (.ok ()) (.ok ∅) crashed ["app"] := by
  refine ⟨rfl, rfl, ?_⟩
  intro reports
  cases reports.success.mp rfl

end SecretsManager
