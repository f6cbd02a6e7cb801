import SecretsManager.Lib.Decimal

/-!
# Instants and their texts

The Gregorian calendar from the year 0 on, and the RFC 3339 text of an instant in
UTC: date and time of fixed width, the fraction of the second without its trailing
zeros, and `Z`. An instant is a number of nanoseconds. The texts can be read back;
within one second their order is not the order of time.
-/

namespace Rfc3339

open Decimal

/-! ## The calendar -/

/-- Days before the first of January. -/
def yearStart (y : Nat) : Nat := 365 * y + (y + 3) / 4 - (y + 99) / 100 + (y + 399) / 400

def leap (y : Nat) : Bool := y % 4 = 0 ∧ (y % 100 ≠ 0 ∨ y % 400 = 0)

def monthLengths (leap : Bool) : List Nat :=
  [31, if leap then 29 else 28, 31, 30, 31, 30, 31, 31, 30, 31, 30, 31]

/-- The mean length of a year is off by less than two years. -/
def yearOf (day : Nat) : Nat :=
  let y := day * 400 / 146097 + 1
  if yearStart y ≤ day then y else if yearStart (y - 1) ≤ day then y - 1 else y - 2

/-- The stretch that a day falls in, and the day within it. -/
def locate : List Nat → Nat → Nat × Nat
  | [], day => (0, day)
  | length :: rest, day =>
    if day < length then (0, day)
    else ((locate rest (day - length)).1 + 1, (locate rest (day - length)).2)

/-- Year, month, day, hour, minute and second; months and days count from one. -/
def fields (seconds : Nat) : List Nat :=
  let day := seconds / 86400
  let year := yearOf day
  let found := locate (monthLengths (leap year)) (day - yearStart year)
  [year, found.1 + 1, found.2 + 1, seconds % 86400 / 3600, seconds % 3600 / 60, seconds % 60]

def ofFields : List Nat → Nat
  | [year, month, day, hour, minute, second] =>
    (yearStart year + ((monthLengths (leap year)).take (month - 1)).sum + (day - 1)) * 86400 +
      hour * 3600 + minute * 60 + second
  | _ => 0

section Calendar

variable {y day day' : Nat}

/-- How the quotients of `yearStart` move from one year to the next. -/
lemma div_succ (y n : Nat) :
    (y + 1 + n) / (n + 1) = (y + n) / (n + 1) + if y % (n + 1) = 0 then 1 else 0 := by
  have last : (y + n + 1) % (n + 1) = y % (n + 1) := by
    rw [Nat.add_assoc, Nat.add_mod_right]
  rw [Nat.add_right_comm, Nat.succ_div]
  simp only [Nat.dvd_iff_mod_eq_zero, last]

lemma leap_sum (y : Nat) : (monthLengths (leap y)).sum = 365 + if leap y then 1 else 0 := by
  cases leap y <;> rfl

lemma yearStart_succ (y : Nat) :
    yearStart (y + 1) = yearStart y + (monthLengths (leap y)).sum := by
  have isLeap : leap y = true ↔ y % 4 = 0 ∧ (y % 100 ≠ 0 ∨ y % 400 = 0) := by simp [leap]
  have centuries : (y + 99) / 100 ≤ 365 * y + (y + 3) / 4 := by omega
  rw [leap_sum]
  simp only [yearStart, div_succ, isLeap]
  by_cases fourHundred : y % 400 = 0
  · have hundred : y % 100 = 0 := by omega
    have four : y % 4 = 0 := by omega
    simp only [four, hundred, fourHundred, true_and, or_true, if_true]
    omega
  · by_cases hundred : y % 100 = 0
    · have four : y % 4 = 0 := by omega
      simp only [four, hundred, fourHundred, true_and, ne_eq, not_true, or_false, if_true, if_false]
      omega
    · by_cases four : y % 4 = 0
      · simp only [four, hundred, fourHundred, true_and, ne_eq, not_false_eq_true, true_or, if_true,
          if_false]
        omega
      · simp only [four, hundred, fourHundred, false_and, if_false]
        omega

lemma yearOf_spec (day : Nat) :
    yearStart (yearOf day) ≤ day ∧ day < yearStart (yearOf day + 1) := by
  have mean := Nat.div_add_mod (day * 400) 146097
  have rest := Nat.mod_lt (day * 400) (show 0 < 146097 by decide)
  unfold yearOf
  generalize day * 400 / 146097 = q at mean ⊢
  have lower : yearStart (q - 1) ≤ day := by
    unfold yearStart
    omega
  have upper : day < yearStart (q + 2) := by
    unfold yearStart
    omega
  simp only [Nat.add_sub_cancel]
  by_cases after : yearStart (q + 1) ≤ day
  · rw [if_pos after]
    exact ⟨after, upper⟩
  · rw [if_neg after]
    by_cases here : yearStart q ≤ day
    · rw [if_pos here]
      exact ⟨here, Nat.lt_of_not_le after⟩
    · rw [if_neg here]
      cases q with
      | zero => exact absurd (Nat.zero_le day) here
      | succ q => exact ⟨lower, Nat.lt_of_not_le here⟩

lemma yearStart_mono {y y' : Nat} (le : y ≤ y') : yearStart y ≤ yearStart y' := by
  induction le with
  | refl => exact Nat.le_refl _
  | step _ ih =>
      rw [yearStart_succ]
      omega

lemma yearOf_mono (le : day ≤ day') : yearOf day ≤ yearOf day' := by
  by_contra greater
  have later : yearStart (yearOf day' + 1) ≤ yearStart (yearOf day) := yearStart_mono (by omega)
  have start := (yearOf_spec day).1
  have finish := (yearOf_spec day').2
  omega

lemma locate_lt (lengths : List Nat) (less : day < day') :
    (locate lengths day).1 < (locate lengths day').1 ∨
      (locate lengths day).1 = (locate lengths day').1 ∧
        (locate lengths day).2 < (locate lengths day').2 := by
  induction lengths generalizing day day' with
  | nil => exact .inr ⟨rfl, less⟩
  | cons length rest ih =>
      by_cases early : day < length
      · by_cases early' : day' < length
        · simp only [locate, if_pos early, if_pos early']
          exact .inr ⟨trivial, less⟩
        · simp only [locate, if_pos early, if_neg early']
          exact .inl (Nat.succ_pos _)
      · have late' : ¬ day' < length := by omega
        simp only [locate, if_neg early, if_neg late']
        rcases @ih (day - length) (day' - length) (by omega) with before | ⟨same, before⟩
        · exact .inl (Nat.succ_lt_succ before)
        · exact .inr ⟨congrArg Nat.succ same, before⟩

lemma locate_sum (lengths : List Nat) (day : Nat) :
    (lengths.take (locate lengths day).1).sum + (locate lengths day).2 = day := by
  induction lengths generalizing day with
  | nil => simp [locate]
  | cons length rest ih =>
      by_cases early : day < length
      · simp [locate, early]
      · have parts := ih (day - length)
        simp only [locate, if_neg early, List.take_succ_cons, List.sum_cons]
        omega

lemma locate_bounds (lengths : List Nat) (within : day < lengths.sum) :
    (locate lengths day).1 < lengths.length ∧ ∃ length ∈ lengths, (locate lengths day).2 < length := by
  induction lengths generalizing day with
  | nil => exact absurd within (Nat.not_lt_zero _)
  | cons length rest ih =>
      by_cases early : day < length
      · simp only [locate, if_pos early, List.length_cons]
        exact ⟨Nat.succ_pos _, length, List.mem_cons_self, early⟩
      · rw [List.sum_cons] at within
        obtain ⟨place, found, mem, inside⟩ := @ih (day - length) (by omega)
        simp only [locate, if_neg early, List.length_cons]
        exact ⟨Nat.succ_lt_succ place, found, List.mem_cons_of_mem _ mem, inside⟩

end Calendar

theorem ofFields_fields (seconds : Nat) : ofFields (fields seconds) = seconds := by
  have start := (yearOf_spec (seconds / 86400)).1
  have parts := locate_sum (monthLengths (leap (yearOf (seconds / 86400))))
    (seconds / 86400 - yearStart (yearOf (seconds / 86400)))
  simp only [fields, ofFields, Nat.add_sub_cancel]
  omega

/-- Later seconds have greater fields, compared from the year on. -/
theorem fields_lt {seconds seconds' : Nat} (less : seconds < seconds') :
    fields seconds < fields seconds' := by
  simp only [fields]
  rcases Nat.lt_or_ge (seconds / 86400) (seconds' / 86400) with earlier | late
  · rcases Nat.lt_or_eq_of_le (yearOf_mono (Nat.le_of_lt earlier)) with year | year
    · exact List.cons_lt_cons_iff.mpr (.inl year)
    · have start := (yearOf_spec (seconds / 86400)).1
      rw [← year]
      apply List.cons_lt_cons_iff.mpr
      apply Or.inr
      constructor
      · rfl
      · rcases locate_lt (monthLengths (leap (yearOf (seconds / 86400))))
          (show seconds / 86400 - yearStart (yearOf (seconds / 86400)) <
            seconds' / 86400 - yearStart (yearOf (seconds / 86400)) by omega) with
          month | ⟨month, day⟩
        · exact List.cons_lt_cons_iff.mpr (.inl (Nat.succ_lt_succ month))
        · rw [month]
          simp only [List.cons_lt_cons_iff, lt_self_iff_false, true_and, false_or]
          exact .inl (Nat.succ_lt_succ day)
  · have day : seconds' / 86400 = seconds / 86400 := by omega
    rw [day]
    simp only [List.cons_lt_cons_iff, lt_self_iff_false, true_and, false_or, and_false,
      or_false]
    omega

/-! ## The text of an instant -/

/-- The widths of the fields, each with what follows it. -/
def layout : List (Nat × List Char) :=
  [(4, ['-']), (2, ['-']), (2, ['T']), (2, [':']), (2, [':']), (2, [])]

def render : List (Nat × List Char) → List Nat → List Char
  | (width, mark) :: rest, n :: values => decimals width n ++ (mark ++ render rest values)
  | _, _ => []

def perSecond : Nat := 1000000000

def fraction (nanos : Nat) : List Char := if nanos = 0 then [] else '.' :: trimmed 9 nanos

def text (t : Nat) : List Char :=
  render layout (fields (t / perSecond)) ++ (fraction (t % perSecond) ++ ['Z'])

/-- The end of the year 9999, the last one with four digits. -/
def limit : Nat := yearStart 10000 * 86400 * perSecond

/-- The numbers are no wider than their places. -/
def Fits (places : List (Nat × List Char)) (values : List Nat) : Prop :=
  List.Forall₂ (fun place n => n < 10 ^ place.1) places values

section Render

variable {places : List (Nat × List Char)} {values values' : List Nat}

lemma render_length (fits : Fits places values) :
    (render places values).length = (places.map fun place => place.1 + place.2.length).sum := by
  induction fits with
  | nil => rfl
  | cons small _ ih =>
      simp only [render, List.length_append, decimals_length, ih, List.map_cons, List.sum_cons]
      omega

lemma decimals_eq_iff {width m n : Nat} (small : m < 10 ^ width) (small' : n < 10 ^ width) :
    decimals width m = decimals width n ↔ m = n := by
  constructor
  · intro same
    have values := congrArg value same
    rwa [value_decimals small, value_decimals small'] at values
  · intro same
    rw [same]

/-- Texts of one layout compare as their numbers do, the first one first. -/
theorem render_lt_iff (fits : Fits places values) (fits' : Fits places values') :
    render places values < render places values' ↔ values < values' := by
  induction fits generalizing values' with
  | nil =>
      cases fits'
      simp [render]
  | @cons place n places values small fits ih =>
      cases fits' with
      | @cons _ n' _ values' small' fits' =>
          have marks : place.2 ++ render places values < place.2 ++ render places values' ↔
              values < values' := by
            rw [append_lt_append_iff rfl, ih fits']
            simp
          simp only [render]
          rw [append_lt_append_iff (by simp only [decimals_length]), decimals_lt_iff small small',
            decimals_eq_iff small small', marks, List.cons_lt_cons_iff]

end Render

lemma fields_fit {seconds : Nat} (within : seconds < yearStart 10000 * 86400) :
    Fits layout (fields seconds) := by
  have start := (yearOf_spec (seconds / 86400)).1
  have finish := (yearOf_spec (seconds / 86400)).2
  rw [yearStart_succ] at finish
  have year : yearOf (seconds / 86400) < 10000 := by
    by_contra greater
    have later : yearStart 10000 ≤ yearStart (yearOf (seconds / 86400)) :=
      yearStart_mono (Nat.le_of_not_lt greater)
    omega
  obtain ⟨month, length, mem, day⟩ := @locate_bounds
    (seconds / 86400 - yearStart (yearOf (seconds / 86400)))
    (monthLengths (leap (yearOf (seconds / 86400)))) (by omega)
  have short : length ≤ 31 := by
    have all : ∀ length ∈ monthLengths (leap (yearOf (seconds / 86400))), length ≤ 31 := by
      cases leap (yearOf (seconds / 86400)) <;> decide
    exact all length mem
  have twelve : (monthLengths (leap (yearOf (seconds / 86400)))).length = 12 := rfl
  have months : (locate (monthLengths (leap (yearOf (seconds / 86400))))
      (seconds / 86400 - yearStart (yearOf (seconds / 86400)))).1 + 1 < 100 := by omega
  have days : (locate (monthLengths (leap (yearOf (seconds / 86400))))
      (seconds / 86400 - yearStart (yearOf (seconds / 86400)))).2 + 1 < 100 := by omega
  have hours : seconds % 86400 / 3600 < 100 := by omega
  have minutes : seconds % 3600 / 60 < 100 := by omega
  have second : seconds % 60 < 100 := by omega
  exact .cons year (.cons months (.cons days (.cons hours (.cons minutes (.cons second .nil)))))

/-! ## The order of the texts -/

section TextOrder

variable {t t' : Nat}

lemma seconds_within (within : t < limit) : t / perSecond < yearStart 10000 * 86400 := by
  apply Nat.div_lt_of_lt_mul
  rw [Nat.mul_comm]
  exact within

lemma digit_lt_Z (k : Nat) : digit k < 'Z' := by
  have order : digit k < 'Z' ↔ (digit k).toNat < 'Z'.toNat := Iff.rfl
  have code : 'Z'.toNat = 90 := rfl
  rw [order, digit_toNat, code]
  omega

lemma trimmed_zero : trimmed 9 0 = [] := by decide

lemma fraction_lt_iff {m n : Nat} (small : m < 10 ^ 9) (small' : n < 10 ^ 9) (less : m < n) :
    fraction m ++ ['Z'] < fraction n ++ ['Z'] ↔ ¬ trimmed 9 m <+: trimmed 9 n := by
  have positive : n ≠ 0 := by omega
  by_cases zero : m = 0
  · subst zero
    have none_before : ¬ ('Z' < '.') := by decide
    have other : ¬ ('Z' = '.') := by decide
    simp only [fraction, if_pos, if_neg positive, trimmed_zero, List.nil_append, List.cons_append,
      List.cons_lt_cons_iff, none_before, other, false_and, or_false, List.nil_prefix, not_true]
  · simp only [fraction, if_neg zero, if_neg positive, List.cons_append, List.cons_lt_cons_iff,
      true_and]
    rw [trimmed_lt_iff digit_lt_Z small small' less]
    have point : ¬ ('.' < '.') := by decide
    simp only [point, false_or]

/-- Of two instants, the earlier text comes first unless they share a second and the fraction of
the earlier one begins that of the later one. -/
theorem text_lt_iff (within : t < limit) (within' : t' < limit) (less : t < t') :
    text t < text t' ↔ ¬ (t / perSecond = t' / perSecond ∧
      trimmed 9 (t % perSecond) <+: trimmed 9 (t' % perSecond)) := by
  have fits := fields_fit (seconds_within within)
  have fits' := fields_fit (seconds_within within')
  have lengths : (render layout (fields (t / perSecond))).length =
      (render layout (fields (t' / perSecond))).length := by
    rw [render_length fits, render_length fits']
  unfold text
  rw [append_lt_append_iff lengths, render_lt_iff fits fits']
  rcases Nat.lt_or_ge (t / perSecond) (t' / perSecond) with earlier | late
  · have fieldsLess := fields_lt earlier
    have other : t / perSecond ≠ t' / perSecond := Nat.ne_of_lt earlier
    simp only [fieldsLess, true_or, other, false_and, not_false_eq_true]
  · have same : t / perSecond = t' / perSecond := by
      apply Nat.le_antisymm _ late
      exact Nat.div_le_div_right (Nat.le_of_lt less)
    have positive : 0 < perSecond := by decide
    have nanos : t % perSecond < t' % perSecond := by
      have parts := Nat.div_add_mod t perSecond
      have parts' := Nat.div_add_mod t' perSecond
      rw [same] at parts
      omega
    have small : t % perSecond < 10 ^ 9 := Nat.mod_lt t positive
    have small' : t' % perSecond < 10 ^ 9 := Nat.mod_lt t' positive
    rw [same, fraction_lt_iff small small' nanos]
    simp only [List.lt_irrefl, true_and, false_or]

end TextOrder

/-! ## Reading a text back -/

def readFields : List (Nat × List Char) → List Char → List Nat
  | [], _ => []
  | (width, mark) :: places, s =>
    value (s.take width) :: readFields places (s.drop (width + mark.length))

def readFraction : List Char → Nat
  | '.' :: rest => value (rest.dropLast ++ List.replicate (9 - rest.dropLast.length) '0')
  | _ => 0

/-- The only instant whose text this may be. -/
def guess (s : List Char) : Nat :=
  ofFields (readFields layout s) * perSecond + readFraction (s.drop 19)

/-- What is not the text of an instant is refused. -/
def parse (s : List Char) : Option Nat := if text (guess s) = s then some (guess s) else none

lemma readFields_render {places : List (Nat × List Char)} {values : List Nat}
    (fits : Fits places values) (rest : List Char) :
    readFields places (render places values ++ rest) = values := by
  induction fits with
  | nil => rfl
  | @cons place n places values small _ ih =>
      simp only [render, readFields, List.append_assoc]
      rw [List.take_left' (decimals_length _ _), value_decimals small, ← List.drop_drop,
        List.drop_left' (decimals_length _ _), List.drop_left, ih]

lemma readFraction_fraction {nanos : Nat} (small : nanos < 10 ^ 9) :
    readFraction (fraction nanos ++ ['Z']) = nanos := by
  by_cases zero : nanos = 0
  · simp [fraction, zero, readFraction]
  · simp only [fraction, if_neg zero, List.cons_append, readFraction, List.dropLast_concat]
    exact value_trimmed small

theorem guess_text {t : Nat} (within : t < limit) : guess (text t) = t := by
  have fits := fields_fit (seconds_within within)
  have nanos : t % perSecond < 10 ^ 9 := Nat.mod_lt t (by decide)
  have length : (render layout (fields (t / perSecond))).length = 19 := render_length fits
  unfold guess text
  rw [readFields_render fits, ofFields_fields, List.drop_left' length,
    readFraction_fraction nanos, Nat.mul_comm, Nat.div_add_mod]

theorem text_injective {t t' : Nat} (within : t < limit) (within' : t' < limit)
    (same : text t = text t') : t = t' := by
  rw [← guess_text within, ← guess_text within', same]

theorem parse_text {t : Nat} (within : t < limit) : parse (text t) = some t := by
  simp only [parse, guess_text within, if_true]

end Rfc3339
