import SecretsManager.Client.Cache
import SecretsManager.Server.CryptoState

/-!
# What the associated data says

Both encoders put the length of a string in front of it, and fields of one width in
their places; so the bytes can be taken apart again, as long as the lengths fit in a
`u32`. No record of a project stands where the verifier does.
-/

namespace SecretsManager

/-- A length that a `u32` holds. -/
def FitsU32 (s : String) : Prop := (utf8 s).length < 2 ^ 32

instance (s : String) : Decidable (FitsU32 s) := inferInstanceAs (Decidable (_ < _))

/-- The names of the verifier are no project's. -/
lemma aadBytes_ne_verifierAad {p : String} (valid : validProject p = true) (k : String) :
    aadBytes p k ≠ verifierAad := by
  intro same
  have short := validProject_length valid
  have reserved : FitsU32 "\x00meta" := by decide
  have fits : (utf8 p).length < 2 ^ 32 := by omega
  have invalid : validProject "\x00meta" = false := by decide
  have name := (aadBytes_inj fits reserved same).1
  rw [name, invalid] at valid
  cases valid

/-- The associated data of a record, of the verifier and of a cache entry tell what they are for. -/
theorem associated_data_injective (Key : Type) :
    (∀ p k p' k', FitsU32 p → FitsU32 k → FitsU32 p' → FitsU32 k' →
      aadBytes p k = aadBytes p' k' → p = p' ∧ k = k') ∧
    (∀ p k, validProject p = true → aadBytes p k ≠ verifierAad) ∧
    (∀ (s s' : CacheStore Key) project project' createdAt createdAt',
      s.tokenHash.length = 32 → s'.tokenHash.length = 32 →
      FitsU32 s.serverUrl → FitsU32 s'.serverUrl → FitsU32 project → FitsU32 project' →
      s.aad project createdAt = s'.aad project' createdAt' →
      s.serverUrl = s'.serverUrl ∧ s.tokenHash = s'.tokenHash ∧ project = project' ∧
        createdAt = createdAt') := by
  refine ⟨?_, ?_, ?_⟩
  · intro p k p' k' fits _ fits' _ same
    exact aadBytes_inj fits fits' same
  · intro p k valid
    exact aadBytes_ne_verifierAad valid k
  · intro s s' project project' createdAt createdAt' hash hash' server server' name name' same
    exact aad_inj server server' (hash.trans hash'.symm) name name' same

/-- Two names that only the lengths tell apart, and two times of one entry. -/
theorem associated_data_injective_split :
    aadBytes "a" "bc" ≠ aadBytes "ab" "c" ∧
    aadBytes "app" "\x00verifier" ≠ verifierAad ∧
    (⟨[], "s", List.replicate 32 0⟩ : CacheStore Bytes).aad "app" 1000 ≠
      (⟨[], "s", List.replicate 32 0⟩ : CacheStore Bytes).aad "app" 2000 := by
  have all := associated_data_injective Bytes
  refine ⟨?_, ?_, ?_⟩
  · intro same
    have names := all.1 "a" "bc" "ab" "c" (by decide) (by decide) (by decide) (by decide) same
    exact absurd names.1 (by decide)
  · exact all.2.1 "app" "\x00verifier" (by decide)
  · intro same
    have parts := all.2.2 _ _ "app" "app" 1000 2000 rfl rfl (by decide) (by decide) (by decide)
      (by decide) same
    exact absurd parts.2.2.2 (by decide)

end SecretsManager
