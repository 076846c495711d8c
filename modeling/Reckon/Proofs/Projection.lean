import Mathlib.Order.Monotone.Odd
import Reckon.Proofs.Significant

/-
Rounding to significant digits as a function of numbers: it keeps their order, commutes with
negation, changes nothing a second time and moves no number by more than half a unit of its last
place.  All of this includes the numbers next to the capacity, which stay as they are because their
rounding has no room.
-/
namespace Reckon

namespace Number
open Decimal (capacity)

variable {p : ℕ} {x y : ℚ}

theorem roundedTo_neg (p : ℕ) (x : ℚ) : roundedTo p (-x) = -roundedTo p x := by
  rw [roundedTo, roundedTo, lastPlace, lastPlace, abs_neg, Left.sign_neg]
  push_cast
  ring

theorem roundedTo_of_pos (positive : 0 < x) :
    roundedTo p x = round (x / lastPlace p x) * lastPlace p x := by
  rw [roundedTo, sign_pos positive, abs_of_pos positive, SignType.coe_one, one_mul]

theorem abs_round_mul_sub_le {unit : ℚ} (positive : 0 < unit) (y : ℚ) :
    |round (y / unit) * unit - y| ≤ unit / 2 := by
  have near := abs_sub_round (y / unit)
  have scaled : round (y / unit) * unit - y = -((y / unit - round (y / unit)) * unit) := by
    field_simp
    ring
  rw [scaled, abs_neg, abs_mul, abs_of_pos positive]
  linarith [mul_le_mul_of_nonneg_right near positive.le]

theorem abs_roundedTo_sub_le (p : ℕ) (x : ℚ) : |roundedTo p x - x| ≤ lastPlace p x / 2 := by
  have size := abs_round_mul_sub_le (lastPlace_pos p x) |x|
  have signed : roundedTo p x - x =
      SignType.sign x * (round (|x| / lastPlace p x) * lastPlace p x - |x|) := by
    rw [mul_sub, sign_mul_abs, roundedTo]
  rcases lt_trichotomy x 0 with less | rfl | more
  · rw [signed, sign_neg less, SignType.coe_neg_one, neg_one_mul, abs_neg]
    exact size
  · rw [roundedTo_zero, sub_zero, abs_zero]
    exact (abs_nonneg _).trans size
  · rw [signed, sign_pos more, SignType.coe_one, one_mul]
    exact size

theorem roundedTo_le_pow (positive : 0 < x) : roundedTo p x ≤ 10 ^ (Int.log 10 x + 1) := by
  have most : (round (x / lastPlace p x) : ℚ) ≤ 10 ^ p := by
    have bound := round_div_lastPlace_le p x
    rw [abs_of_pos positive] at bound
    exact_mod_cast bound
  have split : (10 : ℚ) ^ (Int.log 10 x + 1) = 10 ^ p * lastPlace p x := by
    rw [lastPlace, abs_of_pos positive, ← zpow_natCast, ← zpow_add₀ (by norm_num)]
    congr 1
    omega
  rw [roundedTo_of_pos positive, split]
  exact mul_le_mul_of_nonneg_right most (lastPlace_pos p x).le

theorem pow_le_roundedTo (digits : 0 < p) (positive : 0 < x) :
    10 ^ Int.log 10 x ≤ roundedTo p x := by
  have split : (10 : ℚ) ^ Int.log 10 x = (10 ^ (p - 1) : ℕ) * lastPlace p x := by
    rw [lastPlace, abs_of_pos positive]
    push_cast
    rw [← zpow_natCast, ← zpow_add₀ (by norm_num)]
    congr 1
    omega
  have start : ((10 ^ (p - 1) : ℕ) : ℚ) ≤ x / lastPlace p x := by
    rw [le_div_iff₀ (lastPlace_pos p x), ← split]
    exact_mod_cast Int.zpow_log_le_self (b := 10) (by decide) positive
  have whole : ((10 ^ (p - 1) : ℕ) : ℚ) ≤ round (x / lastPlace p x) := by
    have kept : ((10 ^ (p - 1) : ℕ) : ℤ) ≤ ⌊x / lastPlace p x + 1 / 2⌋ := by
      rw [Int.le_floor, Int.cast_natCast]
      linarith
    rw [round_eq]
    exact_mod_cast kept
  rw [roundedTo_of_pos positive, split]
  exact mul_le_mul_of_nonneg_right whole (lastPlace_pos p x).le

theorem roundedTo_nonneg (digits : 0 < p) (least : 0 ≤ x) : 0 ≤ roundedTo p x := by
  rcases least.eq_or_lt with rfl | positive
  · exact (roundedTo_zero p).ge
  · exact (ten_zpow_pos _).le.trans (pow_le_roundedTo digits positive)

/-- Two numbers are rounded at the same place, or a power of ten stands between them that neither
of them passes when it is rounded. -/
theorem same_place_or_power_between (digits : 0 < p) (positive : 0 < x) (le : x ≤ y) :
    lastPlace p x = lastPlace p y ∨
      ∃ power : ℚ, roundedTo p x ≤ power ∧ power ≤ y ∧ power ≤ roundedTo p y := by
  have above := positive.trans_le le
  rcases (Int.log_mono_right (b := 10) positive le).eq_or_lt with same | less
  · left
    rw [lastPlace, lastPlace, abs_of_pos positive, abs_of_pos above, same]
  · have next : (10 : ℚ) ^ (Int.log 10 x + 1) ≤ 10 ^ Int.log 10 y :=
      zpow_le_zpow_right₀ (by norm_num) less
    refine .inr ⟨10 ^ Int.log 10 y, (roundedTo_le_pow positive).trans next, ?_, ?_⟩
    · exact_mod_cast Int.zpow_log_le_self (b := 10) (by decide) above
    · exact pow_le_roundedTo digits above

theorem roundedTo_le_roundedTo (digits : 0 < p) (least : 0 ≤ x) (le : x ≤ y) :
    roundedTo p x ≤ roundedTo p y := by
  rcases least.eq_or_lt with rfl | positive
  · rw [roundedTo_zero]
    exact roundedTo_nonneg digits le
  · rcases same_place_or_power_between digits positive le with same | ⟨power, below, _, above⟩
    · have unit := lastPlace_pos p y
      have whole : round (x / lastPlace p y) ≤ round (y / lastPlace p y) := by
        rw [round_eq, round_eq]
        exact Int.floor_le_floor (by gcongr)
      rw [roundedTo_of_pos positive, roundedTo_of_pos (positive.trans_le le), same]
      exact mul_le_mul_of_nonneg_right (by exact_mod_cast whole) unit.le
    · exact below.trans above

theorem roundedTo_le_of_lt (digits : 0 < p) (least : 0 ≤ x) (le : x ≤ y)
    (apart : roundedTo p x < roundedTo p y) : roundedTo p x ≤ y := by
  rcases least.eq_or_lt with rfl | positive
  · rwa [roundedTo_zero]
  · rcases same_place_or_power_between digits positive le with same | ⟨power, below, above, _⟩
    · -- Both are whole multiples of one unit, so that a whole unit is between them.
      have unit := lastPlace_pos p y
      rw [roundedTo_of_pos positive, roundedTo_of_pos (positive.trans_le le), same,
        mul_lt_mul_iff_left₀ unit, Int.cast_lt] at apart
      have step : (round (x / lastPlace p y) : ℚ) + 1 ≤ round (y / lastPlace p y) := by
        exact_mod_cast apart
      have near := round_le_add_half (y / lastPlace p y)
      rw [roundedTo_of_pos positive, same, ← le_div_iff₀ unit]
      linarith
    · exact below.trans above

def roundedIfRoom (p : ℕ) (x : ℚ) : ℚ :=
  if |roundedTo p x| < capacity then roundedTo p x else x

theorem roundedIfRoom_neg (p : ℕ) (x : ℚ) : roundedIfRoom p (-x) = -roundedIfRoom p x := by
  unfold roundedIfRoom
  rw [roundedTo_neg, abs_neg]
  split <;> rfl

theorem roundedIfRoom_of_significant (significant : Significant p x) :
    roundedIfRoom p x = x := by
  unfold roundedIfRoom
  rw [roundedTo_of_significant significant, ite_self]

theorem roundedIfRoom_roundedIfRoom (digits : 0 < p) (x : ℚ) :
    roundedIfRoom p (roundedIfRoom p x) = roundedIfRoom p x := by
  by_cases room : |roundedTo p x| < capacity
  · have rounded : roundedIfRoom p x = roundedTo p x := if_pos room
    rw [rounded, roundedIfRoom_of_significant (significant_roundedTo digits x)]
  · have same : roundedIfRoom p x = x := if_neg room
    rw [same, same]

theorem abs_roundedIfRoom_sub_le (p : ℕ) (x : ℚ) :
    |roundedIfRoom p x - x| ≤ lastPlace p x / 2 := by
  unfold roundedIfRoom
  split
  · exact abs_roundedTo_sub_le p x
  · have unit := lastPlace_pos p x
    rw [sub_self, abs_zero]
    linarith

/-- Numbers that stay as they are for lack of room stand above all that are rounded. -/
theorem roundedIfRoom_monotone (digits : 0 < p) : Monotone (roundedIfRoom p) := by
  refine monotone_of_odd_of_monotoneOn_nonneg (roundedIfRoom_neg p) ?_
  intro x least y above le
  have rounded := roundedTo_le_roundedTo digits least le
  have sizeX := abs_of_nonneg (roundedTo_nonneg digits least)
  have sizeY := abs_of_nonneg (roundedTo_nonneg digits above)
  unfold roundedIfRoom
  rw [sizeX, sizeY]
  by_cases roomX : roundedTo p x < capacity
  · rw [if_pos roomX]
    by_cases roomY : roundedTo p y < capacity
    · rw [if_pos roomY]
      exact rounded
    · rw [if_neg roomY]
      exact roundedTo_le_of_lt digits least le (roomX.trans_le (not_lt.mp roomY))
  · have fullY : ¬ roundedTo p y < capacity := not_lt.mpr ((not_lt.mp roomX).trans rounded)
    rw [if_neg roomX, if_neg fullY]
    exact le

end Number

namespace Decimal
open Number

variable {p : ℕ}

theorem toRat_roundSignificant_eq (digits : 0 < p) (most : p ≤ 28) (d : Decimal) :
    (d.roundSignificant p).toRat = roundedIfRoom p d.toRat := by
  unfold roundedIfRoom
  split
  · rename_i room
    exact toRat_roundSignificant digits room
  · rename_i full
    rw [roundSignificant_of_no_room digits most (not_lt.mp full)]

/-- Rounding keeps the order, commutes with negation, does nothing more a second time and nothing at
all to numbers that have few digits, and is off by half a unit of the last digit at most. -/
theorem roundSignificant_projects (digits : 0 < p) (most : p ≤ 28) (v : Decimal) :
    (∀ w, v ≤ w → v.roundSignificant p ≤ w.roundSignificant p) ∧
      ((-v).roundSignificant p).Same (-v.roundSignificant p) ∧
      ((v.roundSignificant p).roundSignificant p).Same (v.roundSignificant p) ∧
      (Significant p v.toRat → (v.roundSignificant p).Same v) ∧
      |(v.roundSignificant p).toRat - v.toRat| ≤ lastPlace p v.toRat / 2 := by
  simp only [le_iff_toRat, same_iff_toRat, toRat_neg, toRat_roundSignificant_eq digits most]
  refine ⟨?_, ?_, ?_, ?_, ?_⟩
  · intro w le
    exact roundedIfRoom_monotone digits le
  · exact roundedIfRoom_neg p v.toRat
  · exact roundedIfRoom_roundedIfRoom digits v.toRat
  · intro significant
    exact roundedIfRoom_of_significant significant
  · exact abs_roundedIfRoom_sub_le p v.toRat

def lastRounded : Decimal := ⟨false, 79228162514264337593499999999, 0⟩

def lastOfAll : Decimal := ⟨false, 79228162514264337593543950335, 0⟩

theorem lastOnes_project :
    lastRounded.roundSignificant 20 = ⟨false, 79228162514264337593000000000, 0⟩ ∧
      lastOfAll.roundSignificant 20 = lastOfAll ∧
      lastRounded.roundSignificant 20 ≤ lastOfAll.roundSignificant 20 ∧
      |(lastOfAll.roundSignificant 20).toRat - lastOfAll.toRat| ≤
        lastPlace 20 lastOfAll.toRat / 2 := by
  have digits : 0 < 20 := by decide
  have most : 20 ≤ 28 := by decide
  have keeps := (roundSignificant_projects digits most lastRounded).1 lastOfAll (by decide)
  exact ⟨rfl, rfl, keeps, (roundSignificant_projects digits most lastOfAll).2.2.2.2⟩

end Decimal
end Reckon
