import Mathlib.Data.List.TakeWhile
import Reckon.Decimal.Literal

/-
Runs of digits and their values.  Zeros in front do not count, zeros at the end are factors of ten,
and what is left between them is as long as its value.
-/
namespace Reckon.Decimal
open Text

variable {digits : List Char} {c : Char}

theorem digitsValue_append (first second : List Char) :
    digitsValue (first ++ second) = digitsValue first * 10 ^ second.length + digitsValue second := by
  have joined := Nat.ofDigitChars_append (b := 10) (l := first) (m := second) 0
  rw [Nat.ofDigitChars_eq_ofDigitChars_zero (l := second), Nat.mul_comm] at joined
  exact joined

theorem digitsValue_cons (c : Char) (digits : List Char) :
    digitsValue (c :: digits) = (c.toNat - 48) * 10 ^ digits.length + digitsValue digits := by
  have split := digitsValue_append [c] digits
  have one : digitsValue [c] = c.toNat - 48 := Nat.zero_add _
  rwa [one] at split

theorem digitsValue_toDigits (m : Nat) : digitsValue (Nat.toDigits 10 m) = m :=
  Nat.ofDigitChars_ten_toDigits

theorem digitsValue_zeros (n : Nat) : digitsValue (List.replicate n '0') = 0 :=
  Nat.ofDigitChars_replicate_zero

theorem digit_bounds (digit : isDigit c) : 48 ≤ c.toNat ∧ c.toNat ≤ 57 := by
  simp only [isDigit, Bool.and_eq_true, decide_eq_true_eq, Char.le_def,
    UInt32.le_iff_toNat_le] at digit
  exact digit

theorem digit_pos (digit : isDigit c) (some : c ≠ '0') : 0 < c.toNat - 48 := by
  have bounds := digit_bounds digit
  have other : c.toNat ≠ '0'.toNat := fun same => some (Char.toNat_inj.mp same)
  have zero : '0'.toNat = 48 := rfl
  omega

theorem digitsValue_dropZeros (digits : List Char) :
    digitsValue (digits.dropWhile (· == '0')) = digitsValue digits := by
  induction digits with
  | nil => rfl
  | cons c rest ih =>
    rw [List.dropWhile_cons]
    split
    · rename_i zero
      rw [ih, eq_of_beq zero, digitsValue_cons]
      simp
    · rfl

theorem head?_dropZeros (digits : List Char) :
    (digits.dropWhile (· == '0')).head? ≠ Option.some '0' := by
  intro head
  have other := List.head?_dropWhile_not (· == '0') digits
  rw [head] at other
  exact absurd other (by decide)

theorem getLast?_dropZerosEnd (digits : List Char) :
    (dropWhileEnd (· == '0') digits).getLast? ≠ Option.some '0' := by
  rw [dropWhileEnd, List.getLast?_reverse]
  exact head?_dropZeros digits.reverse

theorem head?_toDigits {m : Nat} (nonzero : m ≠ 0) :
    (Nat.toDigits 10 m).head? ≠ Option.some '0' := by
  induction m using Nat.strongRecOn with
  | ind m ih =>
    by_cases small : m < 10
    · have digit : ∀ n < 10, n ≠ 0 → n.digitChar ≠ '0' := by decide
      rw [Nat.toDigits_of_lt_base small]
      simpa using digit m small nonzero
    · have front : Nat.toDigits 10 (m / 10) ≠ [] := Nat.toDigits_ne_nil
      rw [Nat.toDigits_of_base_le (by decide) (by omega), List.head?_append,
        List.head?_eq_some_head front, Option.some_or, ← List.head?_eq_some_head front]
      exact ih (m / 10) (by omega) (by omega)

theorem getLast?_toDigits {m : Nat} (last : m % 10 ≠ 0) :
    (Nat.toDigits 10 m).getLast? ≠ Option.some '0' := by
  intro zero
  obtain ⟨front, same⟩ := List.getLast?_eq_some_iff.mp zero
  have value := digitsValue_toDigits m
  have none : digitsValue ['0'] = 0 := digitsValue_zeros 1
  rw [same, digitsValue_append, none, List.length_singleton] at value
  omega

theorem dropWhileEnd_append_zeros (digits : List Char) :
    digits = dropWhileEnd (· == '0') digits ++
      List.replicate (digits.length - (dropWhileEnd (· == '0') digits).length) '0' := by
  have parts := List.takeWhile_append_dropWhile (p := (· == '0')) (l := digits.reverse)
  have zeros : digits.reverse.takeWhile (· == '0') =
      List.replicate (digits.reverse.takeWhile (· == '0')).length '0' := by
    rw [List.eq_replicate_iff]
    refine ⟨rfl, fun c mem => ?_⟩
    have zero := List.mem_takeWhile_imp mem
    exact eq_of_beq zero
  have whole := congrArg List.reverse parts
  rw [List.reverse_append, List.reverse_reverse] at whole
  have count : digits.length - (dropWhileEnd (· == '0') digits).length =
      (digits.reverse.takeWhile (· == '0')).length := by
    have sum := congrArg List.length whole
    rw [List.length_append, List.length_reverse, List.length_reverse] at sum
    rw [dropWhileEnd, List.length_reverse]
    omega
  rw [count, ← List.reverse_replicate, ← zeros, dropWhileEnd]
  exact whole.symm

theorem pow_le_digitsValue (all : ∀ c ∈ digits, isDigit c) (some : digits ≠ [])
    (first : digits.head? ≠ Option.some '0') : 10 ^ (digits.length - 1) ≤ digitsValue digits := by
  cases digits with
  | nil => exact absurd rfl some
  | cons c rest =>
    have positive := digit_pos (all c List.mem_cons_self) (by simpa using first)
    have unit := Nat.le_mul_of_pos_left (10 ^ rest.length) positive
    rw [digitsValue_cons]
    exact Nat.le_add_right_of_le unit

theorem digitsValue_mod_ten (all : ∀ c ∈ digits, isDigit c) (some : digits ≠ [])
    (last : digits.getLast? ≠ Option.some '0') : digitsValue digits % 10 ≠ 0 := by
  obtain ⟨front, c, rfl⟩ : ∃ front c, digits = front ++ [c] :=
    ⟨_, _, (List.dropLast_concat_getLast some).symm⟩
  have mem : c ∈ front ++ [c] := by simp
  have positive := digit_pos (all c mem) (by simpa using last)
  have bounds := digit_bounds (all c mem)
  rw [digitsValue_append, digitsValue_cons]
  have none : digitsValue [] = 0 := rfl
  simp only [List.length_singleton, List.length_nil, none]
  omega

end Reckon.Decimal
