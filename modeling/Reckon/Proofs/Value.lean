import Mathlib.Algebra.Order.Field.Power
import Mathlib.Algebra.Order.Field.Rat
import Mathlib.Tactic.Positivity
import Mathlib.Tactic.Ring
import Mathlib.Tactic.LinearCombination
import Reckon.Decimal.Basic

/-
The rational number that a decimal stands for.  A decimal has many spellings of one number, with
more or fewer zeros at its end; statements about results speak about the number alone.
-/
namespace Reckon

namespace Number

def shifted (m : ℕ) (k : ℤ) : ℚ := m * 10 ^ k

def Significant (p : ℕ) (x : ℚ) : Prop := ∃ k j : ℤ, |k| < 10 ^ p ∧ x = k * 10 ^ j

def Places (s : ℕ) (x : ℚ) : Prop := ∃ k : ℤ, x = k * 10 ^ (-(s : ℤ))

variable {p m n : ℕ} {k l : ℤ} {x : ℚ}

theorem ten_zpow_pos (k : ℤ) : (0 : ℚ) < 10 ^ k := by positivity

theorem shifted_le_iff : shifted m k ≤ shifted n k ↔ m ≤ n := by
  unfold shifted
  rw [mul_le_mul_iff_left₀ (ten_zpow_pos k), Nat.cast_le]

theorem shifted_lt_iff : shifted m k < shifted n k ↔ m < n := by
  unfold shifted
  rw [mul_lt_mul_iff_left₀ (ten_zpow_pos k), Nat.cast_lt]

theorem shifted_inj : shifted m k = shifted n k ↔ m = n := by
  unfold shifted
  rw [mul_left_inj' (ten_zpow_pos k).ne', Nat.cast_inj]

theorem shifted_nonneg (m : ℕ) (k : ℤ) : 0 ≤ shifted m k := by
  unfold shifted
  positivity

@[simp] theorem shifted_zero (m : ℕ) : shifted m 0 = m := by simp [shifted]

@[simp] theorem zero_shifted (k : ℤ) : shifted 0 k = 0 := by simp [shifted]

@[simp] theorem one_shifted (k : ℤ) : shifted 1 k = 10 ^ k := by simp [shifted]

theorem shifted_add (m : ℕ) (k l : ℤ) : shifted m (k + l) = shifted m k * 10 ^ l := by
  unfold shifted
  rw [zpow_add₀ (by norm_num)]
  ring

theorem shifted_le (places : k ≤ 0) : shifted m k ≤ m := by
  have shrinks : (10 : ℚ) ^ k ≤ 1 := zpow_le_one_of_nonpos₀ (by norm_num) places
  exact mul_le_of_le_one_right (Nat.cast_nonneg m) shrinks

theorem shifted_mul_pow (m t : ℕ) (k : ℤ) : shifted (m * 10 ^ t) k = shifted m (k + t) := by
  rw [shifted_add, zpow_natCast]
  unfold shifted
  push_cast
  ring

theorem pow_shifted (t : ℕ) (k : ℤ) : shifted (10 ^ t) k = 10 ^ (k + t) := by
  have one := shifted_mul_pow 1 t k
  rwa [one_mul, one_shifted] at one

theorem shifted_eq_iff (le : k ≤ l) : shifted m k = shifted n l ↔ m = n * 10 ^ (l - k).toNat := by
  have split : l = k + ((l - k).toNat : ℤ) := by omega
  rw [← shifted_inj (k := k), shifted_mul_pow, ← split]

theorem abs_mul_ten_zpow (k j : ℤ) : |(k : ℚ) * 10 ^ j| = shifted k.natAbs j := by
  rw [abs_mul, abs_of_pos (ten_zpow_pos j), shifted, Nat.cast_natAbs, Int.cast_abs]

theorem le_of_last (last : m % 10 ≠ 0) (same : shifted m k = shifted n l) : l ≤ k := by
  by_contra coarse
  have whole := (shifted_eq_iff (le_of_not_ge coarse)).mp same
  have tens : 10 ∣ m := by
    rw [whole]
    exact Dvd.dvd.mul_left (dvd_pow_self 10 (by omega)) n
  omega

theorem significant_iff_shifted :
    Significant p x ↔ ∃ (m : ℕ) (k : ℤ), m < 10 ^ p ∧ |x| = shifted m k := by
  constructor
  · rintro ⟨k, j, bound, rfl⟩
    refine ⟨k.natAbs, j, ?_, abs_mul_ten_zpow k j⟩
    rw [Int.abs_eq_natAbs] at bound
    exact_mod_cast bound
  · rintro ⟨m, k, bound, size⟩
    rcases abs_choice x with same | flipped
    · exact ⟨m, k, by exact_mod_cast bound, by rw [← same, size]; rfl⟩
    · refine ⟨-m, k, by rw [abs_neg]; exact_mod_cast bound, ?_⟩
      rw [flipped] at size
      push_cast
      rw [neg_mul, ← neg_eq_iff_eq_neg]
      exact size

theorem lt_pow_of_significant (last : m % 10 ≠ 0) (significant : Significant p (shifted m k)) :
    m < 10 ^ p := by
  obtain ⟨n, j, bound, same⟩ := significant_iff_shifted.mp significant
  rw [abs_of_nonneg (shifted_nonneg m k)] at same
  have whole := (shifted_eq_iff (le_of_last last same)).mp same.symm
  have less := Nat.le_mul_of_pos_right m (show 0 < 10 ^ (k - j).toNat by positivity)
  omega

end Number

namespace Decimal
open Number

def toRat (d : Decimal) : ℚ := d.signed * 10 ^ (-(d.scale : ℤ))

theorem signed_natAbs (d : Decimal) : d.signed.natAbs = d.mantissa := by
  unfold signed
  split <;> simp

theorem abs_toRat (d : Decimal) : |d.toRat| = shifted d.mantissa (-(d.scale : ℤ)) := by
  rw [toRat, abs_mul_ten_zpow, signed_natAbs]

theorem toRat_eq_zero {d : Decimal} : d.toRat = 0 ↔ d.isZero := by
  rw [← abs_eq_zero, abs_toRat, ← zero_shifted (-(d.scale : ℤ)), shifted_inj]
  simp [isZero]

theorem toRat_neg (d : Decimal) : (-d).toRat = -d.toRat := by
  have flipped : (-d).signed = -d.signed := by
    change (neg d).signed = _
    unfold neg signed
    cases d.negative <;> simp
  have same : (-d).scale = d.scale := rfl
  rw [toRat, toRat, flipped, same]
  push_cast
  ring

theorem toRat_unitsAt {d : Decimal} {s : ℕ} (room : d.scale ≤ s) :
    (d.unitsAt s : ℚ) * 10 ^ (-(s : ℤ)) = d.toRat := by
  have split : (s : ℤ) = d.scale + ((s - d.scale : ℕ) : ℤ) := by omega
  have cancel : (10 : ℚ) ^ (s - d.scale) * 10 ^ (-((s - d.scale : ℕ) : ℤ)) = 1 := by
    rw [← zpow_natCast, ← zpow_add₀ (by norm_num), add_neg_cancel, zpow_zero]
  rw [unitsAt, toRat]
  conv_lhs => rw [split, neg_add, zpow_add₀ (by norm_num)]
  push_cast
  linear_combination (d.signed : ℚ) * 10 ^ (-(d.scale : ℤ)) * cancel

theorem cmp_eq_compare (a b : Decimal) : a.cmp b = compare a.toRat b.toRat := by
  have first := toRat_unitsAt (d := a) (le_max_left a.scale b.scale)
  have second := toRat_unitsAt (d := b) (le_max_right a.scale b.scale)
  have unit := ten_zpow_pos (-(max a.scale b.scale : ℕ))
  rw [cmp, ← first, ← second]
  rcases lt_trichotomy (a.unitsAt (max a.scale b.scale)) (b.unitsAt (max a.scale b.scale)) with
    less | same | more
  · rw [compare_lt_iff_lt.mpr less, eq_comm, compare_lt_iff_lt, mul_lt_mul_iff_left₀ unit]
    exact_mod_cast less
  · rw [compare_eq_iff_eq.mpr same, eq_comm, compare_eq_iff_eq, same]
  · rw [compare_gt_iff_gt.mpr more, eq_comm, compare_gt_iff_gt, mul_lt_mul_iff_left₀ unit]
    exact_mod_cast more

theorem le_iff_toRat {a b : Decimal} : a ≤ b ↔ a.toRat ≤ b.toRat := by
  rw [← compare_le_iff_le, ← cmp_eq_compare]
  rfl

theorem same_iff_toRat {a b : Decimal} : a.Same b ↔ a.toRat = b.toRat := by
  rw [← compare_eq_iff_eq, ← cmp_eq_compare]
  rfl

theorem toRat_mk (negative : Bool) (m s : ℕ) :
    toRat ⟨negative, m, s⟩ = (if negative then -1 else 1) * shifted m (-(s : ℤ)) := by
  unfold toRat signed shifted
  cases negative <;> simp

theorem toRat_eq (d : Decimal) :
    d.toRat = (if d.negative then -1 else 1) * shifted d.mantissa (-(d.scale : ℤ)) :=
  toRat_mk d.negative d.mantissa d.scale

theorem toRat_nonneg {d : Decimal} (sign : d.negative = false) : 0 ≤ d.toRat := by
  rw [toRat_eq, sign, if_neg (by decide), one_mul]
  exact shifted_nonneg _ _

theorem toRat_nonpos {d : Decimal} (sign : d.negative = true) : d.toRat ≤ 0 := by
  rw [toRat_eq, sign, if_pos rfl, neg_one_mul, neg_nonpos]
  exact shifted_nonneg _ _

theorem toRat_sign_and (negative : Bool) (m s : ℕ) :
    toRat ⟨negative && m != 0, m, s⟩ = toRat ⟨negative, m, s⟩ := by
  rw [toRat_mk, toRat_mk]
  by_cases none : m = 0
  · rw [none, zero_shifted, mul_zero, mul_zero]
  · simp [none]

theorem stripDigits_spec {m m' s s' : ℕ} (run : stripDigits m s = (m', s')) :
    s' ≤ s ∧ m = m' * 10 ^ (s - s') ∧ (s' = 0 ∨ m' % 10 ≠ 0) := by
  induction s generalizing m with
  | zero =>
    obtain ⟨rfl, rfl⟩ := Prod.mk.inj run
    exact ⟨le_rfl, by simp, .inl rfl⟩
  | succ s ih =>
    rw [stripDigits] at run
    split at run
    · rename_i zero
      obtain ⟨less, whole, last⟩ := ih run
      refine ⟨Nat.le_succ_of_le less, ?_, last⟩
      have split : s + 1 - s' = s - s' + 1 := by omega
      rw [split, pow_succ, ← mul_assoc, ← whole]
      omega
    · rename_i last
      obtain ⟨rfl, rfl⟩ := Prod.mk.inj run
      exact ⟨le_rfl, by simp, .inr last⟩

theorem stripDigits_of_last {m s : ℕ} (last : s = 0 ∨ m % 10 ≠ 0) : stripDigits m s = (m, s) := by
  cases s with
  | zero => rfl
  | succ s => rw [stripDigits, if_neg (by omega)]

theorem shifted_stripDigits (m s : ℕ) :
    shifted (stripDigits m s).1 (-((stripDigits m s).2 : ℤ)) = shifted m (-(s : ℤ)) := by
  obtain ⟨less, whole, -⟩ := stripDigits_spec (m := m) (s := s) rfl
  have places : -(s : ℤ) + (s - (stripDigits m s).2 : ℕ) = -((stripDigits m s).2 : ℤ) := by omega
  conv_rhs => rw [whole, shifted_mul_pow, places]

theorem toRat_strip (d : Decimal) : d.strip.toRat = d.toRat := by
  rw [strip, toRat_sign_and, toRat_mk, shifted_stripDigits, ← toRat_eq]

theorem shortest_le {m n s t : ℕ} (last : s = 0 ∨ m % 10 ≠ 0)
    (same : shifted m (-(s : ℤ)) = shifted n (-(t : ℤ))) : m ≤ n ∧ s ≤ t := by
  have places : s ≤ t := by
    rcases last with rfl | last
    · exact Nat.zero_le t
    · have finer := le_of_last last same
      omega
  have whole := (shifted_eq_iff (show -(t : ℤ) ≤ -(s : ℤ) by omega)).mp same.symm
  rw [whole]
  exact ⟨Nat.le_mul_of_pos_right m (by positivity), places⟩

theorem shifted_stripped {m n s t : ℕ} (same : shifted m (-(s : ℤ)) = shifted n (-(t : ℤ)))
    (first : s = 0 ∨ m % 10 ≠ 0) (second : t = 0 ∨ n % 10 ≠ 0) : m = n ∧ s = t := by
  obtain ⟨digits, places⟩ := shortest_le first same
  obtain ⟨digits', places'⟩ := shortest_le second same.symm
  exact ⟨le_antisymm digits digits', le_antisymm places places'⟩

theorem toRat_lt_zero {d : Decimal} : d.toRat < 0 ↔ d.negative ∧ ¬ d.isZero := by
  rw [← toRat_eq_zero]
  cases sign : d.negative with
  | false => simp [toRat_nonneg sign]
  | true => simp [lt_iff_le_and_ne, toRat_nonpos sign]

theorem strip_eq (d : Decimal) :
    d.strip = ⟨decide (d.toRat < 0), (stripDigits d.mantissa d.scale).1,
      (stripDigits d.mantissa d.scale).2⟩ := by
  obtain ⟨-, whole, -⟩ := stripDigits_spec (m := d.mantissa) (s := d.scale) rfl
  have none : (stripDigits d.mantissa d.scale).1 = 0 ↔ d.mantissa = 0 := by
    conv_rhs => rw [whole]
    simp
  have sign : (d.negative && (stripDigits d.mantissa d.scale).1 != 0) = decide (d.toRat < 0) := by
    rw [Bool.eq_iff_iff]
    simp [toRat_lt_zero, isZero, none]
  rw [strip, ← sign]

theorem strip_congr {a b : Decimal} (same : a.toRat = b.toRat) : a.strip = b.strip := by
  have sizes : |a.toRat| = |b.toRat| := by rw [same]
  obtain ⟨-, -, first⟩ := stripDigits_spec (m := a.mantissa) (s := a.scale) rfl
  obtain ⟨-, -, second⟩ := stripDigits_spec (m := b.mantissa) (s := b.scale) rfl
  rw [abs_toRat, abs_toRat, ← shifted_stripDigits, ← shifted_stripDigits b.mantissa] at sizes
  obtain ⟨digits, places⟩ := shifted_stripped sizes first second
  rw [strip_eq, strip_eq, same, digits, places]

end Decimal
end Reckon
