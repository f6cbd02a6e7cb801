import Mathlib.Data.List.Lex
import Mathlib.Data.List.DropRight
import Mathlib.Tactic

/-!
# Decimals of a fixed width

The last digits of a number, as many as the width says, in the order of writing.
Texts of one width compare as the numbers do; texts that are cut short compare as
far as they differ.
-/

namespace Decimal

def digit (n : Nat) : Char := Char.ofNat (48 + n % 10)

def decimals : Nat → Nat → List Char
  | 0, _ => []
  | width + 1, n => decimals width (n / 10) ++ [digit n]

/-- The number that a text of digits stands for. -/
def value (text : List Char) : Nat := text.foldl (fun v ch => 10 * v + (ch.toNat - 48)) 0

section Digits

variable {width m n : Nat}

lemma digit_toNat (n : Nat) : (digit n).toNat = 48 + n % 10 := by
  have small : n % 10 < 10 := Nat.mod_lt _ (by decide)
  unfold digit
  interval_cases n % 10 <;> rfl

lemma digit_lt_iff : digit m < digit n ↔ m % 10 < n % 10 := by
  have order : digit m < digit n ↔ (digit m).toNat < (digit n).toNat := Iff.rfl
  rw [order, digit_toNat, digit_toNat]
  omega

lemma decimals_length (width n : Nat) : (decimals width n).length = width := by
  induction width generalizing n with
  | zero => rfl
  | succ width ih => simp only [decimals, List.length_append, ih, List.length_singleton]

lemma value_concat (text : List Char) (ch : Char) :
    value (text ++ [ch]) = 10 * value text + (ch.toNat - 48) := by
  simp only [value, List.foldl_append, List.foldl_cons, List.foldl_nil]

theorem value_decimals (small : n < 10 ^ width) : value (decimals width n) = n := by
  induction width generalizing n with
  | zero =>
      have zero : n = 0 := by simpa using small
      simp [zero, decimals, value]
  | succ width ih =>
      have smaller : n / 10 < 10 ^ width := by
        rw [pow_succ] at small
        omega
      rw [decimals, value_concat, ih smaller, digit_toNat]
      omega

/-- Every character of a decimal is a digit. -/
lemma decimals_digit {ch : Char} (mem : ch ∈ decimals width n) : ∃ k, ch = digit k := by
  induction width generalizing n with
  | zero => exact absurd mem List.not_mem_nil
  | succ width ih =>
      rcases List.mem_append.mp mem with front | last
      · exact ih front
      · exact ⟨n, List.mem_singleton.mp last⟩

end Digits

/-! ## Texts in the order of the dictionary -/

section Order

variable {α : Type} [LT α] {u u' v v' : List α}

/-- Pieces of one length compare first, and what follows them where they are equal. -/
theorem append_lt_append_iff (lengths : u.length = u'.length) :
    u ++ v < u' ++ v' ↔ u < u' ∨ u = u' ∧ v < v' := by
  induction u generalizing u' with
  | nil =>
      have empty : u' = [] := List.eq_nil_of_length_eq_zero lengths.symm
      simp [empty]
  | cons a u ih =>
      cases u' with
      | nil => exact absurd lengths (by simp)
      | cons a' u' =>
          have rest : u.length = u'.length := by simpa using lengths
          simp only [List.cons_append, List.cons_lt_cons_iff, ih rest, List.cons.injEq]
          constructor
          · rintro (less | ⟨same, less | ⟨same', less⟩⟩)
            · exact .inl (.inl less)
            · exact .inl (.inr ⟨same, less⟩)
            · exact .inr ⟨⟨same, same'⟩, less⟩
          · rintro ((less | ⟨same, less⟩) | ⟨⟨same, same'⟩, less⟩)
            · exact .inl less
            · exact .inr ⟨same, .inl less⟩
            · exact .inr ⟨same, .inr ⟨same', less⟩⟩

/-- Texts of which neither begins the other compare whatever follows them. -/
theorem append_lt_append_of_apart (apart : ¬ u <+: u') (apart' : ¬ u' <+: u) :
    u ++ v < u' ++ v' ↔ u < u' := by
  induction u generalizing u' with
  | nil => exact absurd List.nil_prefix apart
  | cons a u ih =>
      cases u' with
      | nil => exact absurd List.nil_prefix apart'
      | cons a' u' =>
          simp only [List.cons_append, List.cons_lt_cons_iff]
          by_cases same : a = a'
          · subst same
            have rest : ¬ u <+: u' := fun h => apart (List.cons_prefix_cons.mpr ⟨rfl, h⟩)
            have rest' : ¬ u' <+: u := fun h => apart' (List.cons_prefix_cons.mpr ⟨rfl, h⟩)
            rw [ih rest rest']
          · simp only [same, false_and, or_false]

end Order

theorem decimals_lt_iff {width m n : Nat} (small : m < 10 ^ width) (small' : n < 10 ^ width) :
    decimals width m < decimals width n ↔ m < n := by
  induction width generalizing m n with
  | zero =>
      have zero : m = 0 := by simpa using small
      have zero' : n = 0 := by simpa using small'
      simp [zero, zero', decimals]
  | succ width ih =>
      rw [pow_succ] at small small'
      have front := @ih (m / 10) (n / 10) (by omega) (by omega)
      have same : decimals width (m / 10) = decimals width (n / 10) ↔ m / 10 = n / 10 := by
        constructor
        · intro texts
          have values := congrArg value texts
          rwa [value_decimals (by omega), value_decimals (by omega)] at values
        · intro values
          rw [values]
      rw [decimals, decimals, append_lt_append_iff (by simp only [decimals_length]), front, same,
        List.cons_lt_cons_iff, digit_lt_iff]
      simp only [List.lt_irrefl, and_false, or_false]
      omega

/-! ## Digits after the point -/

/-- A decimal without its trailing zeros. -/
def trimmed (width n : Nat) : List Char := (decimals width n).rdropWhile fun ch => ch = '0'

section Trimmed

variable {width m n : Nat}

/-- What was cut off is zeros. -/
lemma trimmed_padded (width n : Nat) : ∃ zeros,
    (∀ ch ∈ zeros, ch = '0') ∧ decimals width n = trimmed width n ++ zeros := by
  refine ⟨(decimals width n).rtakeWhile fun ch => ch = '0', ?_, ?_⟩
  · intro ch mem
    simpa using List.mem_rtakeWhile_imp mem
  · exact List.rdropWhile_append_rtakeWhile.symm

lemma trimmed_digit {ch : Char} (mem : ch ∈ trimmed width n) : ∃ k, ch = digit k := by
  obtain ⟨zeros, -, parts⟩ := trimmed_padded width n
  exact decimals_digit (parts ▸ List.mem_append_left zeros mem)

/-- Zeros are the least digits. -/
lemma not_lt_zeros {text zeros : List Char} (digits : ∀ ch ∈ text, ∃ k, ch = digit k)
    (allZero : ∀ ch ∈ zeros, ch = '0') (lengths : zeros.length ≤ text.length) :
    ¬ text < zeros := by
  induction text generalizing zeros with
  | nil =>
      have empty : zeros = [] := List.eq_nil_of_length_eq_zero (Nat.le_zero.mp lengths)
      simp [empty]
  | cons ch text ih =>
      cases zeros with
      | nil => exact List.not_lt_nil _
      | cons zero zeros =>
          obtain ⟨k, rfl⟩ := digits ch List.mem_cons_self
          have same : zero = digit 0 := allZero zero List.mem_cons_self
          rw [same, List.cons_lt_cons_iff, digit_lt_iff]
          rintro (less | ⟨-, less⟩)
          · omega
          · apply ih _ _ _ less
            · intro ch mem
              exact digits ch (List.mem_cons_of_mem _ mem)
            · intro ch mem
              exact allZero ch (List.mem_cons_of_mem _ mem)
            · simpa using lengths

/-- The trimmed texts of two fractions, one less than the other, compare with what ends them as
the numbers do, unless the lesser one begins the greater. -/
theorem trimmed_lt_iff {last : Char} (above : ∀ k, digit k < last) (small : m < 10 ^ width)
    (small' : n < 10 ^ width) (less : m < n) :
    trimmed width m ++ [last] < trimmed width n ++ [last] ↔
      ¬ trimmed width m <+: trimmed width n := by
  obtain ⟨zeros, allZero, parts⟩ := trimmed_padded width m
  obtain ⟨zeros', allZero', parts'⟩ := trimmed_padded width n
  have padded : trimmed width m ++ zeros < trimmed width n ++ zeros' := by
    rw [← parts, ← parts']
    exact (decimals_lt_iff small small').mpr less
  have lengths : (trimmed width m ++ zeros).length = (trimmed width n ++ zeros').length := by
    rw [← parts, ← parts', decimals_length, decimals_length]
  have keeps : ∀ {text front rest : List Char}, text ++ front < text ++ rest ↔ front < rest := by
    intro text front rest
    rw [append_lt_append_iff rfl]
    simp
  by_cases begins : trimmed width m <+: trimmed width n
  · simp only [begins, not_true, iff_false]
    obtain ⟨more, greater⟩ := begins
    rw [← greater, List.append_assoc, keeps]
    intro after
    cases more with
    | nil => exact absurd after (List.lt_irrefl _)
    | cons ch more =>
        have mem : ch ∈ trimmed width n := by
          rw [← greater]
          exact List.mem_append_right _ List.mem_cons_self
        obtain ⟨k, rfl⟩ := trimmed_digit mem
        have below := above k
        rw [List.cons_append, List.cons_lt_cons_iff] at after
        rcases after with greater | ⟨same, -⟩
        · exact Char.lt_irrefl _ (Char.lt_trans below greater)
        · exact Char.lt_irrefl _ (same ▸ below)
  · simp only [begins, not_false_eq_true, iff_true]
    have apart : ¬ trimmed width n <+: trimmed width m := by
      rintro ⟨more, lesser⟩
      rw [← lesser, List.append_assoc, keeps] at padded
      apply not_lt_zeros _ allZero' _ padded
      · intro ch mem
        rcases List.mem_append.mp mem with mem | mem
        · exact trimmed_digit (by rw [← lesser]; exact List.mem_append_right _ mem)
        · exact ⟨0, allZero ch mem⟩
      · rw [← lesser] at lengths
        simp only [List.length_append] at lengths ⊢
        omega
    rw [append_lt_append_of_apart begins apart]
    exact (append_lt_append_of_apart begins apart).mp padded

/-- The number that a trimmed fraction stands for. -/
theorem value_trimmed (small : n < 10 ^ width) :
    value (trimmed width n ++ List.replicate (width - (trimmed width n).length) '0') = n := by
  obtain ⟨zeros, allZero, parts⟩ := trimmed_padded width n
  have length : (trimmed width n).length + zeros.length = width := by
    rw [← List.length_append, ← parts, decimals_length]
  have same : zeros = List.replicate (width - (trimmed width n).length) '0' := by
    rw [List.eq_replicate_iff]
    exact ⟨by omega, allZero⟩
  rw [← same, ← parts, value_decimals small]

end Trimmed

end Decimal
