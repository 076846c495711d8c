import Mathlib.Algebra.Order.Round
import Mathlib.Data.Int.Log
import Mathlib.Data.Rat.Floor
import Mathlib.Data.Sign.Basic
import Reckon.Decimal.Rounding
import Reckon.Proofs.Value

/-
Rounding to significant digits, as a function of numbers, and that this is what becomes of a
decimal as long as the rounded number has room.
-/
namespace Reckon

namespace Number
open Decimal (halfUp)

/-- The unit of the last one of `p` significant digits. -/
def lastPlace (p : ℕ) (x : ℚ) : ℚ := 10 ^ (Int.log 10 |x| + 1 - p)

def roundedTo (p : ℕ) (x : ℚ) : ℚ :=
  SignType.sign x * (round (|x| / lastPlace p x) * lastPlace p x)

variable {p : ℕ} {x : ℚ}

theorem lastPlace_pos (p : ℕ) (x : ℚ) : 0 < lastPlace p x := ten_zpow_pos _

theorem roundedTo_zero (p : ℕ) : roundedTo p 0 = 0 := by simp [roundedTo]

theorem round_div_pow (m k : ℕ) : round ((m : ℚ) / 10 ^ k) = (halfUp m k : ℤ) := by
  have unit : (0 : ℚ) < 10 ^ k := by positivity
  have split : (m : ℚ) = 10 ^ k * (m / 10 ^ k : ℕ) + (m % 10 ^ k : ℕ) := by
    exact_mod_cast (Nat.div_add_mod m (10 ^ k)).symm
  have below : ((m % 10 ^ k : ℕ) : ℚ) < 10 ^ k := by
    exact_mod_cast Nat.mod_lt m (by positivity)
  have parts : (m : ℚ) / 10 ^ k + 1 / 2 =
      (m / 10 ^ k : ℕ) + ((m % 10 ^ k : ℕ) / 10 ^ k + 1 / 2) := by
    conv_lhs => rw [split]
    field_simp
    ring
  rw [round_eq, parts, Int.floor_natCast_add, halfUp]
  split
  · rename_i up
    have half : (10 : ℚ) ^ k ≤ 2 * (m % 10 ^ k : ℕ) := by exact_mod_cast up
    have one : ⌊((m % 10 ^ k : ℕ) : ℚ) / 10 ^ k + 1 / 2⌋ = 1 := by
      rw [Int.floor_eq_iff]
      constructor
      · have : (1 : ℚ) / 2 ≤ (m % 10 ^ k : ℕ) / 10 ^ k := by
          rw [le_div_iff₀ unit]
          linarith
        push_cast
        linarith
      · have : ((m % 10 ^ k : ℕ) : ℚ) / 10 ^ k < 1 := (div_lt_one unit).mpr below
        push_cast
        linarith
    rw [one]
    rfl
  · rename_i down
    have half : 2 * ((m % 10 ^ k : ℕ) : ℚ) < 10 ^ k := by exact_mod_cast Nat.lt_of_not_le down
    have zero : ⌊((m % 10 ^ k : ℕ) : ℚ) / 10 ^ k + 1 / 2⌋ = 0 := by
      rw [Int.floor_eq_iff]
      constructor
      · have : (0 : ℚ) ≤ (m % 10 ^ k : ℕ) / 10 ^ k := by positivity
        push_cast
        linarith
      · have : ((m % 10 ^ k : ℕ) : ℚ) / 10 ^ k < 1 / 2 := by
          rw [div_lt_iff₀ unit]
          linarith
        push_cast
        linarith
    rw [zero, add_zero]

theorem significant_zero (p : ℕ) : Significant p 0 := ⟨0, 0, by positivity, by simp⟩

theorem round_div_lastPlace_le (p : ℕ) (x : ℚ) : round (|x| / lastPlace p x) ≤ 10 ^ p := by
  have below : |x| / lastPlace p x < 10 ^ p := by
    have log := Int.lt_zpow_succ_log_self (b := 10) (by decide) |x|
    have split : (10 : ℚ) ^ (Int.log 10 |x| + 1) = 10 ^ p * lastPlace p x := by
      rw [lastPlace, ← zpow_natCast, ← zpow_add₀ (by norm_num)]
      congr 1
      omega
    rw [div_lt_iff₀ (lastPlace_pos p x), ← split]
    exact_mod_cast log
  rw [round_eq, ← Int.lt_add_one_iff, Int.floor_lt]
  push_cast
  linarith

theorem significant_roundedTo (positive : 0 < p) (x : ℚ) : Significant p (roundedTo p x) := by
  by_cases none : x = 0
  · rw [none, roundedTo_zero]
    exact significant_zero p
  · have least : 0 ≤ round (|x| / lastPlace p x) := by
      rw [round_eq]
      have ratio : 0 ≤ |x| / lastPlace p x := div_nonneg (abs_nonneg x) (lastPlace_pos p x).le
      positivity
    have most := round_div_lastPlace_le p x
    have sign : |(SignType.sign x : ℤ)| = 1 := by
      rcases lt_or_gt_of_ne none with less | more
      · simp [less]
      · simp [more]
    by_cases carried : round (|x| / lastPlace p x) = 10 ^ p
    · -- All digits were nines, and one more digit stands before them.
      refine ⟨SignType.sign x, p + (Int.log 10 |x| + 1 - p), ?_, ?_⟩
      · rw [sign]
        exact one_lt_pow₀ (by norm_num) positive.ne'
      · rw [roundedTo, carried, zpow_add₀ (by norm_num), lastPlace, zpow_natCast]
        push_cast
        rfl
    · refine ⟨SignType.sign x * round (|x| / lastPlace p x), Int.log 10 |x| + 1 - p, ?_, ?_⟩
      · rw [abs_mul, sign, one_mul, abs_of_nonneg least]
        omega
      · rw [roundedTo, lastPlace]
        push_cast
        ring

theorem roundedTo_of_significant (significant : Significant p x) : roundedTo p x = x := by
  obtain ⟨k, j, bound, rfl⟩ := significant
  by_cases none : (k : ℚ) * 10 ^ j = 0
  · rw [none, roundedTo_zero]
  · have size : |(k : ℚ) * 10 ^ j| = |(k : ℚ)| * 10 ^ j := by
      rw [abs_mul, abs_of_pos (ten_zpow_pos j)]
    have log : Int.log 10 |(k : ℚ) * 10 ^ j| < p + j := by
      rw [← Int.lt_zpow_iff_log_lt (by decide) (abs_pos.mpr none), size]
      have digits : |(k : ℚ)| < 10 ^ p := by exact_mod_cast bound
      push_cast
      rw [zpow_add₀ (by norm_num), zpow_natCast]
      exact mul_lt_mul_of_pos_right digits (ten_zpow_pos j)
    obtain ⟨t, split⟩ : ∃ t : ℕ, j = t + (Int.log 10 |(k : ℚ) * 10 ^ j| + 1 - p) :=
      ⟨(j - (Int.log 10 |(k : ℚ) * 10 ^ j| + 1 - p)).toNat, by omega⟩
    have whole : |(k : ℚ) * 10 ^ j| / lastPlace p (k * 10 ^ j) = (|k| * 10 ^ t : ℤ) := by
      have unit : (10 : ℚ) ^ j = 10 ^ t * lastPlace p (k * 10 ^ j) := by
        rw [lastPlace, ← zpow_natCast, ← zpow_add₀ (by norm_num), ← split]
      rw [div_eq_iff (lastPlace_pos p _).ne', size]
      push_cast
      rw [mul_assoc, ← unit]
    have back := (div_eq_iff (lastPlace_pos p (k * 10 ^ j)).ne').mp whole
    rw [roundedTo, whole, round_intCast, ← back, sign_mul_abs]

end Number

namespace Decimal
open Number

variable {d : Decimal} {m k p : ℕ} {x : ℚ}

theorem digitCount_le_iff (positive : 0 < k) : d.digitCount ≤ k ↔ d.mantissa < 10 ^ k :=
  Nat.length_toDigits_le_iff (by decide) positive

theorem digitCount_pos (d : Decimal) : 0 < d.digitCount := Nat.length_toDigits_pos

theorem mantissa_lt_pow (d : Decimal) : d.mantissa < 10 ^ d.digitCount :=
  (digitCount_le_iff (digitCount_pos d)).mp le_rfl

theorem pow_le_mantissa (some : ¬ d.isZero) : 10 ^ (d.digitCount - 1) ≤ d.mantissa := by
  by_contra small
  rcases Nat.eq_zero_or_pos (d.digitCount - 1) with single | more
  · rw [single] at small
    simp [isZero] at some
    omega
  · have less := (digitCount_le_iff more).mpr (Nat.lt_of_not_le small)
    omega

theorem log_abs_toRat (some : ¬ d.isZero) :
    Int.log 10 |d.toRat| = (d.digitCount : ℤ) - 1 - d.scale := by
  have positive : 0 < |d.toRat| := abs_pos.mpr (mt toRat_eq_zero.mp some)
  have count := digitCount_pos d
  have low : (10 : ℚ) ^ ((d.digitCount : ℤ) - 1 - d.scale) ≤ |d.toRat| := by
    have spelled : (10 : ℚ) ^ ((d.digitCount : ℤ) - 1 - d.scale)
        = shifted (10 ^ (d.digitCount - 1)) (-(d.scale : ℤ)) := by
      rw [pow_shifted]
      congr 1
      omega
    rw [spelled, abs_toRat, shifted_le_iff]
    exact pow_le_mantissa some
  have high : |d.toRat| < (10 : ℚ) ^ ((d.digitCount : ℤ) - d.scale) := by
    have spelled : (10 : ℚ) ^ ((d.digitCount : ℤ) - d.scale)
        = shifted (10 ^ d.digitCount) (-(d.scale : ℤ)) := by
      rw [pow_shifted]
      congr 1
      omega
    rw [spelled, abs_toRat, shifted_lt_iff]
    exact mantissa_lt_pow d
  have above := (Int.zpow_le_iff_le_log (b := 10) (by decide) positive).mp low
  have below := (Int.lt_zpow_iff_log_lt (b := 10) (by decide) positive).mp high
  omega

theorem toRat_pad (room : ℕ) (d : Decimal) : (d.pad room).toRat = d.toRat := by
  induction room generalizing d with
  | zero => rfl
  | succ room ih =>
    rw [pad]
    split
    · rw [ih, toRat_mk]
      have same := shifted_mul_pow d.mantissa 1 (-((d.scale + 1 : ℕ) : ℤ))
      have places : -((d.scale + 1 : ℕ) : ℤ) + (1 : ℕ) = -(d.scale : ℤ) := by omega
      rw [pow_one, places] at same
      rw [same, ← toRat_mk]
    · rfl

theorem pow_lt_capacity {p : ℕ} (most : p ≤ 28) : 10 ^ p < capacity := by
  have bound := Nat.pow_le_pow_right (n := 10) (by decide) most
  have room : 10 ^ 28 < capacity := by decide
  exact Nat.lt_of_le_of_lt bound room

theorem pad_eq {room : ℕ} (fits : d.mantissa * 10 ^ room < capacity) :
    d.pad room = ⟨d.negative, d.mantissa * 10 ^ room, d.scale + room⟩ := by
  induction room generalizing d with
  | zero => simp [pad]
  | succ room ih =>
    have next : d.mantissa * 10 ^ (room + 1) = d.mantissa * 10 * 10 ^ room := by ring
    have less : d.mantissa * 10 ≤ d.mantissa * 10 * 10 ^ room :=
      Nat.le_mul_of_pos_right _ (by positivity)
    rw [next] at fits ⊢
    rw [pad, if_pos (by omega), ih fits, Nat.add_assoc, Nat.add_comm 1 room]

theorem pad_fits (most : p ≤ 28) (short : d.digitCount ≤ p) :
    d.mantissa * 10 ^ (p - d.digitCount) < capacity := by
  have split : p = d.digitCount + (p - d.digitCount) := by omega
  have digits : d.mantissa * 10 ^ (p - d.digitCount) < 10 ^ p := by
    conv_rhs => rw [split, pow_add]
    exact Nat.mul_lt_mul_of_pos_right (mantissa_lt_pow d) (by positivity)
  exact digits.trans (pow_lt_capacity most)

theorem sign_toRat (some : ¬ d.isZero) :
    (SignType.sign d.toRat : ℚ) = if d.negative then -1 else 1 := by
  have positive : 0 < shifted d.mantissa (-(d.scale : ℤ)) := by
    rw [← abs_toRat]
    exact abs_pos.mpr (mt toRat_eq_zero.mp some)
  rw [toRat_eq]
  cases d.negative with
  | false => simp [positive]
  | true => simp [positive]

theorem abs_toRat_div_lastPlace (some : ¬ d.isZero) (p : ℕ) :
    |d.toRat| / lastPlace p d.toRat = shifted d.mantissa (p - d.digitCount) := by
  have exponent : -(d.scale : ℤ) = p - d.digitCount + (Int.log 10 |d.toRat| + 1 - p) := by
    rw [log_abs_toRat some]
    omega
  rw [div_eq_iff (lastPlace_pos p _).ne', lastPlace, ← shifted_add, ← exponent, abs_toRat]

theorem roundedTo_short (short : d.digitCount ≤ p) : roundedTo p d.toRat = d.toRat := by
  by_cases none : d.isZero
  · rw [toRat_eq_zero.mpr none, roundedTo_zero]
  · have whole : |d.toRat| / lastPlace p d.toRat = (d.mantissa * 10 ^ (p - d.digitCount) : ℕ) := by
      have places : (0 : ℤ) + (p - d.digitCount : ℕ) = p - d.digitCount := by omega
      rw [abs_toRat_div_lastPlace none, ← shifted_zero, shifted_mul_pow, places]
    have back := (div_eq_iff (lastPlace_pos p d.toRat).ne').mp whole
    rw [roundedTo, whole, round_natCast, Int.cast_natCast, ← back, sign_mul_abs]

theorem roundedTo_long {surplus : ℕ} (count : d.digitCount = p + surplus)
    (nonzero : ¬ d.isZero) :
    roundedTo p d.toRat = (if d.negative then -1 else 1) *
      shifted (halfUp d.mantissa surplus) (surplus - d.scale) := by
  have ratio : |d.toRat| / lastPlace p d.toRat = (d.mantissa : ℚ) / 10 ^ surplus := by
    have places : (p : ℤ) - d.digitCount = -(surplus : ℤ) := by omega
    rw [abs_toRat_div_lastPlace nonzero, places, shifted, zpow_neg, zpow_natCast, div_eq_mul_inv]
  have unit : lastPlace p d.toRat = 10 ^ ((surplus : ℤ) - d.scale) := by
    rw [lastPlace, log_abs_toRat nonzero]
    congr 1
    omega
  rw [roundedTo, sign_toRat nonzero, ratio, round_div_pow, unit, shifted, Int.cast_natCast]

theorem shifted_outside {surplus scale : ℕ} (outside : scale < surplus) :
    ((m * 10 ^ (surplus - scale) : ℕ) : ℚ) = shifted m (surplus - scale) := by
  have places : (0 : ℤ) + (surplus - scale : ℕ) = surplus - scale := by omega
  rw [← shifted_zero, shifted_mul_pow, places]

theorem halfUp_le_pow {m k p : ℕ} (bound : m < 10 ^ (p + k)) : halfUp m k ≤ 10 ^ p := by
  have quotient : m / 10 ^ k < 10 ^ p := by
    rw [Nat.div_lt_iff_lt_mul (by positivity), ← pow_add]
    exact bound
  unfold halfUp
  dsimp only
  split <;> omega

theorem abs_signed_mul (negative : Bool) (x : ℚ) :
    |(if negative then -1 else 1) * x| = |x| := by
  cases negative <;> simp

/-- Rounding pads a short number and shortens a long one, unless the shortened one has no room. -/
theorem roundSignificant_cases (positive : 0 < p) (nonzero : ¬ d.isZero) :
    (d.digitCount ≤ p ∧ d.roundSignificant p = d.pad (p - d.digitCount)) ∨
    ∃ surplus, 0 < surplus ∧ d.digitCount = p + surplus ∧
      (surplus ≤ d.scale ∧
          d.roundSignificant p = ⟨d.negative, halfUp d.mantissa surplus, d.scale - surplus⟩ ∨
        d.scale < surplus ∧ halfUp d.mantissa surplus * 10 ^ (surplus - d.scale) < capacity ∧
          d.roundSignificant p =
            ⟨d.negative, halfUp d.mantissa surplus * 10 ^ (surplus - d.scale), 0⟩ ∨
        d.scale < surplus ∧ capacity ≤ halfUp d.mantissa surplus * 10 ^ (surplus - d.scale) ∧
          d.roundSignificant p = d) := by
  unfold roundSignificant toSignificantBy
  rw [if_neg (by simp [nonzero, positive.ne'])]
  split
  · rename_i short
    exact .inl ⟨short, rfl⟩
  · rename_i long
    refine .inr ⟨d.digitCount - p, by omega, by omega, ?_⟩
    dsimp only
    split
    · rename_i inside
      exact .inl ⟨inside, rfl⟩
    · rename_i outside
      refine .inr ?_
      split
      · rename_i room
        exact .inl ⟨Nat.lt_of_not_le outside, room, rfl⟩
      · rename_i full
        exact .inr ⟨Nat.lt_of_not_le outside, Nat.le_of_not_lt full, rfl⟩

theorem roundSignificant_zero (none : d.isZero) : d.roundSignificant p = zero := by
  unfold roundSignificant toSignificantBy
  rw [if_pos (.inl none)]
  rfl

theorem pad_negative (room : ℕ) (d : Decimal) : (d.pad room).negative = d.negative := by
  induction room generalizing d with
  | zero => rfl
  | succ room ih =>
    rw [pad]
    split
    · rw [ih]
    · rfl

theorem roundSignificant_negative (positive : 0 < p) (nonzero : ¬ d.isZero) :
    (d.roundSignificant p).negative = d.negative := by
  rcases roundSignificant_cases positive nonzero with ⟨_, same⟩ | ⟨_, _, _, long⟩
  · rw [same, pad_negative]
  · rcases long with ⟨_, same⟩ | ⟨_, _, same⟩ | ⟨_, _, same⟩
    all_goals rw [same]

theorem roundSignificant_nonneg (positive : 0 < p) (above : 0 ≤ d.toRat) :
    0 ≤ (d.roundSignificant p).toRat := by
  by_cases none : d.isZero
  · rw [roundSignificant_zero none, toRat_eq_zero.mpr rfl]
  · cases sign : d.negative with
    | false => exact toRat_nonneg (by rw [roundSignificant_negative positive none, sign])
    | true => exact absurd (toRat_eq_zero.mp (le_antisymm (toRat_nonpos sign) above)) none

theorem roundSignificant_nonpos (positive : 0 < p) (below : d.toRat ≤ 0) :
    (d.roundSignificant p).toRat ≤ 0 := by
  by_cases none : d.isZero
  · rw [roundSignificant_zero none, toRat_eq_zero.mpr rfl]
  · cases sign : d.negative with
    | true => exact toRat_nonpos (by rw [roundSignificant_negative positive none, sign])
    | false => exact absurd (toRat_eq_zero.mp (le_antisymm below (toRat_nonneg sign))) none

/-- Room for the digits, and few places or few digits. -/
def Bounded (p : ℕ) (d : Decimal) : Prop :=
  d.mantissa < capacity ∧ (d.scale ≤ maxScale ∨ d.mantissa ≤ 10 ^ p)

theorem bounded_roundSignificant (positive : 0 < p) (most : p ≤ 28) (room : d.mantissa < capacity) :
    (d.roundSignificant p).Bounded p := by
  have full := pow_lt_capacity most
  by_cases none : d.isZero
  · rw [roundSignificant_zero none]
    exact ⟨by decide, .inl (by decide)⟩
  · have bound := mantissa_lt_pow d
    rcases roundSignificant_cases positive none with ⟨short, same⟩ | ⟨surplus, _, count, long⟩
    · have fits := pad_fits most short
      rw [same, pad_eq fits]
      refine ⟨fits, .inr ?_⟩
      have split : p = d.digitCount + (p - d.digitCount) := by omega
      conv_rhs => rw [split, pow_add]
      exact Nat.mul_le_mul_right _ bound.le
    · rw [count] at bound
      have digits := halfUp_le_pow bound
      rcases long with ⟨_, same⟩ | ⟨_, fits, same⟩ | ⟨outside, _, same⟩
      · rw [same]
        exact ⟨by dsimp only; omega, .inr digits⟩
      · rw [same]
        exact ⟨fits, .inl (Nat.zero_le _)⟩
      · have large : capacity < 10 ^ 29 := by decide
        have total : d.digitCount ≤ 29 := (digitCount_le_iff (by decide)).mpr (by omega)
        rw [same]
        refine ⟨room, .inl ?_⟩
        unfold maxScale
        omega

theorem toRat_roundSignificant (positive : 0 < p)
    (room : |roundedTo p d.toRat| < capacity) :
    (d.roundSignificant p).toRat = roundedTo p d.toRat := by
  by_cases none : d.isZero
  · rw [roundSignificant_zero none, toRat_eq_zero.mpr none, roundedTo_zero]
    exact toRat_eq_zero.mpr rfl
  · rcases roundSignificant_cases positive none with ⟨short, same⟩ | ⟨surplus, _, count, long⟩
    · rw [same, toRat_pad, roundedTo_short short]
    · have exact := roundedTo_long count none
      rcases long with ⟨inside, same⟩ | ⟨outside, _, same⟩ | ⟨outside, full, _⟩
      · have places : -((d.scale - surplus : ℕ) : ℤ) = surplus - d.scale := by omega
        rw [same, toRat_mk, places, exact]
      · rw [same, toRat_mk, exact, ← shifted_outside outside]
        simp
      · -- Digits without room are those of a number that is not below the capacity.
        rw [exact, abs_signed_mul, ← shifted_outside outside, Nat.abs_cast, Nat.cast_lt] at room
        omega

theorem roundSignificant_of_no_room (positive : 0 < p) (most : p ≤ 28)
    (large : (capacity : ℚ) ≤ |roundedTo p d.toRat|) : d.roundSignificant p = d := by
  have full : (10 : ℚ) ^ p < capacity := by exact_mod_cast pow_lt_capacity most
  have nonzero : ¬ d.isZero := by
    intro none
    have unit : (0 : ℚ) < 10 ^ p := by positivity
    rw [toRat_eq_zero.mpr none, roundedTo_zero, abs_zero] at large
    linarith
  rcases roundSignificant_cases positive nonzero with ⟨short, _⟩ | ⟨surplus, _, count, long⟩
  · have small : (d.mantissa : ℚ) < 10 ^ p := by
      have bound := mantissa_lt_pow d
      have more := Nat.pow_le_pow_right (n := 10) (by decide) short
      exact_mod_cast Nat.lt_of_lt_of_le bound more
    have less := shifted_le (m := d.mantissa) (k := -(d.scale : ℤ)) (by omega)
    rw [roundedTo_short short, abs_toRat] at large
    linarith
  · rw [roundedTo_long count nonzero, abs_signed_mul, abs_of_nonneg (shifted_nonneg _ _)]
      at large
    rcases long with ⟨inside, _⟩ | ⟨outside, room, _⟩ | ⟨_, _, same⟩
    · have digits : (halfUp d.mantissa surplus : ℚ) ≤ 10 ^ p := by
        have bound := mantissa_lt_pow d
        exact_mod_cast halfUp_le_pow (by rwa [← count])
      have less := shifted_le (m := halfUp d.mantissa surplus) (k := surplus - d.scale) (by omega)
      linarith
    · rw [← shifted_outside outside, Nat.cast_le] at large
      omega
    · exact same

end Decimal
end Reckon
