import Mathlib.Data.Set.Basic
import Mathlib.Tactic

/-!
# Ideal authenticated encryption

An authenticated cipher is a pair of functions. The ideal one opens exactly what
it sealed, and a ciphertext is sealed under one key and one associated data
only. Against a forger the log of everything sealed is kept beside the system:
a pair is unforged when whatever it opens as, under a guarded key, is in the log.
-/

namespace IdealAead

variable {Key Nonce Ad Msg Ct : Type}

structure Aead (Key Nonce Ad Msg Ct : Type) where
  encrypt : Key → Nonce → Ad → Msg → Option Ct
  decrypt : Key → Nonce → Ad → Ct → Option Msg

/-- Opening undoes sealing, nothing else opens, and no ciphertext is shared
between two keys or two associated data. -/
structure Ideal (A : Aead Key Nonce Ad Msg Ct) : Prop where
  decrypt_encrypt : ∀ k n a m c, A.encrypt k n a m = some c → A.decrypt k n a c = some m
  encrypt_decrypt : ∀ k n a m c, A.decrypt k n a c = some m → A.encrypt k n a m = some c
  separated : ∀ k k' n a a' m m' c, A.encrypt k n a m = some c → A.encrypt k' n a' m' = some c →
    k = k' ∧ a = a'

/-- Every message is sealed; the length limit of the cipher is out of reach. -/
def Total (A : Aead Key Nonce Ad Msg Ct) : Prop :=
  ∀ k n a m, ∃ c, A.encrypt k n a m = some c

section

variable {A : Aead Key Nonce Ad Msg Ct} (ideal : Ideal A)
variable {k k' : Key} {n : Nonce} {a a' : Ad} {m m' : Msg} {c : Ct}

include ideal

theorem decrypt_iff_encrypt : A.decrypt k n a c = some m ↔ A.encrypt k n a m = some c :=
  ⟨ideal.encrypt_decrypt k n a m c, ideal.decrypt_encrypt k n a m c⟩

/-- A ciphertext opens under one key, one associated data, as one message. -/
theorem decrypt_unique (first : A.decrypt k n a c = some m)
    (second : A.decrypt k' n a' c = some m') : k = k' ∧ a = a' ∧ m = m' := by
  have h := ideal.separated k k' n a a' m m' c ((decrypt_iff_encrypt ideal).mp first)
    ((decrypt_iff_encrypt ideal).mp second)
  obtain ⟨rfl, rfl⟩ := h
  exact ⟨rfl, rfl, Option.some.inj (first.symm.trans second)⟩

theorem decrypt_other_key (first : A.decrypt k n a c = some m) (different : k ≠ k') :
    A.decrypt k' n a' c = none := by
  cases h : A.decrypt k' n a' c with
  | none => rfl
  | some m' => exact absurd (decrypt_unique ideal first h).1 different

end

/-- What an encryption was given. -/
structure Sealed (Key Nonce Ad Msg : Type) where
  key : Key
  nonce : Nonce
  ad : Ad
  msg : Msg

/-- Under the guarded keys the pair `(n, c)` opens only as something sealed. -/
def Unforged (A : Aead Key Nonce Ad Msg Ct) (guarded : Set Key)
    (log : Set (Sealed Key Nonce Ad Msg)) (n : Nonce) (c : Ct) : Prop :=
  ∀ k ∈ guarded, ∀ a m, A.decrypt k n a c = some m → ⟨k, n, a, m⟩ ∈ log

theorem Unforged.mono {A : Aead Key Nonce Ad Msg Ct} {guarded : Set Key}
    {log log' : Set (Sealed Key Nonce Ad Msg)} {n : Nonce} {c : Ct}
    (h : Unforged A guarded log n c) (grows : log ⊆ log') : Unforged A guarded log' n c :=
  fun k hk a m hu => grows (h k hk a m hu)

/-- A pair just sealed is unforged as soon as its sealing is logged. -/
theorem unforged_of_encrypt {A : Aead Key Nonce Ad Msg Ct} (ideal : Ideal A)
    {guarded : Set Key} {log : Set (Sealed Key Nonce Ad Msg)} {k : Key} {n : Nonce} {a : Ad}
    {m : Msg} {c : Ct} (sealed : A.encrypt k n a m = some c) (logged : ⟨k, n, a, m⟩ ∈ log) :
    Unforged A guarded log n c := by
  intro k' _ a' m' opens
  obtain ⟨rfl, rfl, rfl⟩ := decrypt_unique ideal (ideal.decrypt_encrypt _ _ _ _ _ sealed) opens
  exact logged

end IdealAead
