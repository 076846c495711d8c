import Mathlib.Data.Nat.Factorization.Basic
import Reckon.Proofs.Range
import Reckon.Proofs.Significant

/-
When sums, differences and products are exact.  An operand may have more places than arithmetic
keeps, if they hold zeros: they are dropped again when a result is brought into range.  The one thing
that goes wrong is the borrow of a difference with so many places.
-/
namespace Reckon

namespace Number
open Decimal (capacity maxScale)

/-- Whether a number has at most `p` significant digits, no more places than arithmetic keeps, and
room. -/
structure Representable (p : ℕ) (x : ℚ) : Prop where
  significant : Significant p x
  places : Places maxScale x
  room : |x| < capacity

variable {p n s t : ℕ} {k : ℤ} {x : ℚ}

theorem Representable.abs (representable : Representable p x) : Representable p |x| := by
  rcases abs_choice x with same | flipped
  · rwa [same]
  · obtain ⟨⟨k, j, digits, value⟩, ⟨u, units⟩, room⟩ := representable
    refine ⟨⟨-k, j, by rwa [abs_neg], ?_⟩, ⟨-u, ?_⟩, by rwa [abs_abs]⟩
    · rw [flipped, value]
      push_cast
      ring
    · rw [flipped, units]
      push_cast
      ring

theorem pow_dvd_of_places (places : Places t (shifted n (-(s : ℤ)))) : 10 ^ (s - t) ∣ n := by
  obtain ⟨k, same⟩ := places
  rcases Nat.le_total s t with few | many
  · rw [Nat.sub_eq_zero_of_le few, pow_zero]
    exact one_dvd n
  · have size := congrArg abs same
    rw [abs_of_nonneg (shifted_nonneg _ _), abs_mul_ten_zpow] at size
    have whole := (shifted_eq_iff (by omega)).mp size
    have count : (-(t : ℤ) - -(s : ℤ)).toNat = s - t := by omega
    rw [count] at whole
    exact ⟨k.natAbs, by rw [whole, mul_comm]⟩

theorem pow_excess_dvd (most : p ≤ 28) (significant : Significant p (shifted n k)) :
    10 ^ Decimal.excess n ∣ n := by
  rcases Nat.eq_zero_or_pos n with none | positive
  · rw [none]
    exact dvd_zero _
  · obtain ⟨t, m, last, rfl⟩ := Nat.exists_eq_pow_mul_and_not_dvd positive.ne' 10 (by decide)
    rw [mul_comm, shifted_mul_pow] at significant
    have digits := lt_pow_of_significant (by omega) significant
    have fits : 10 ^ t * m / 10 ^ t < capacity := by
      rw [Nat.mul_div_cancel_left m (by positivity)]
      exact digits.trans (Decimal.pow_lt_capacity most)
    exact (pow_dvd_pow 10 (Decimal.excess_le fits)).mul_right m

end Number

namespace Decimal
open Number

variable {a b c d : Decimal} {p m k n s : ℕ}

theorem halfEven_of_dvd (zeros : 10 ^ k ∣ m) : halfEven m k = m / 10 ^ k := by
  unfold halfEven
  have none := Nat.mod_eq_zero_of_dvd zeros
  have unit : 0 < 10 ^ k := by positivity
  dsimp only
  rw [none, if_neg (by omega)]

theorem shifted_div (zeros : 10 ^ k ∣ n) (less : k ≤ s) :
    shifted (n / 10 ^ k) (-((s - k : ℕ) : ℤ)) = shifted n (-(s : ℤ)) := by
  have places : -(s : ℤ) + k = -((s - k : ℕ) : ℤ) := by omega
  rw [← places, ← shifted_mul_pow, Nat.div_mul_cancel zeros]

theorem fit_exact (most : p ≤ 28) (representable : Representable p (shifted n (-(s : ℤ)))) :
    ∃ m' s', fit n s = some (m', s') ∧ shifted m' (-(s' : ℤ)) = shifted n (-(s : ℤ)) := by
  obtain ⟨significant, places, room⟩ := representable
  have whole : excess n ≤ s := by
    refine excess_le ?_
    rw [Nat.div_lt_iff_lt_mul (by positivity), ← shifted_lt_iff (k := -(s : ℤ)), shifted_mul_pow,
      neg_add_cancel, shifted_zero]
    rwa [abs_of_nonneg (shifted_nonneg _ _)] at room
  have zeros : 10 ^ max (s - maxScale) (excess n) ∣ n := by
    rcases max_choice (s - maxScale) (excess n) with same | same
    · rw [same]
      exact pow_dvd_of_places places
    · rw [same]
      exact pow_excess_dvd most significant
  have less : max (s - maxScale) (excess n) ≤ s := by omega
  have digits : n / 10 ^ max (s - maxScale) (excess n) < capacity :=
    (Nat.div_le_div_left (Nat.pow_le_pow_right (by decide) (le_max_right _ _))
      (by positivity)).trans_lt (div_excess_lt n)
  refine ⟨_, _, ?_, shifted_div zeros less⟩
  rw [fit]
  dsimp only
  rw [if_neg (by omega), halfEven_of_dvd zeros, if_pos digits]

/-- Whether the sum of two decimals with different places borrows from nowhere. -/
def Wraps (a b : Decimal) : Prop :=
  a.scale < b.scale ∧ a.borrow b ≠ 0 ∨ b.scale < a.scale ∧ b.borrow a ≠ 0

theorem toRat_of_total {total : ℤ}
    (same : shifted m (-(s : ℤ)) = shifted total.natAbs (-(n : ℤ))) :
    toRat ⟨decide (total < 0) && m != 0, m, s⟩ = total * 10 ^ (-(n : ℤ)) := by
  rw [toRat_sign_and, toRat_mk, same, shifted, Nat.cast_natAbs, Int.cast_abs]
  rcases lt_or_ge total 0 with negative | positive
  · have below : (total : ℚ) < 0 := by exact_mod_cast negative
    simp [negative, abs_of_neg below]
  · have above : (0 : ℚ) ≤ total := by exact_mod_cast positive
    simp [not_lt.mpr positive, abs_of_nonneg above]

theorem natAbs_add_signed_le (signs : a.negative ≠ b.negative) :
    (a.signed + b.signed).natAbs ≤ max a.mantissa b.mantissa := by
  obtain ⟨negative, m, _⟩ := a
  obtain ⟨negative', m', _⟩ := b
  unfold signed
  dsimp only at signs ⊢
  cases negative with
  | false =>
    cases negative' with
    | false => exact absurd rfl signs
    | true => simp; omega
  | true =>
    cases negative' with
    | false => simp; omega
    | true => exact absurd rfl signs

def total (a b : Decimal) : ℤ := a.unitsAt (max a.scale b.scale) + b.unitsAt (max a.scale b.scale)

def borrowed (a b : Decimal) : ℤ := if a.scale < b.scale then a.borrow b else b.borrow a

theorem add?_eq (left : ¬ a.isZero) (right : ¬ b.isZero) :
    a.add? b =
      if (a.total b).natAbs < capacity ∧
          (max a.scale b.scale ≤ maxScale ∨ a.scale = b.scale) then
        some ⟨decide (a.total b < 0) && (a.total b).natAbs != 0, (a.total b).natAbs,
          max a.scale b.scale⟩
      else
        (fit (a.total b + a.borrowed b).natAbs (max a.scale b.scale)).map fun (m, s) =>
          ⟨decide (a.total b + a.borrowed b < 0) && m != 0, m, s⟩ := by
  rw [add?, if_neg left, if_neg right]
  rfl

theorem toRat_total (a b : Decimal) :
    a.total b * (10 : ℚ) ^ (-(max a.scale b.scale : ℕ) : ℤ) = a.toRat + b.toRat := by
  have first := toRat_unitsAt (d := a) (le_max_left a.scale b.scale)
  have second := toRat_unitsAt (d := b) (le_max_right a.scale b.scale)
  rw [total, ← first, ← second]
  push_cast
  ring

theorem borrow_of_same_scale (first : a.mantissa < capacity) (second : b.mantissa < capacity)
    (same : a.scale = b.scale) (large : capacity ≤ (a.total b).natAbs) : b.borrow a = 0 := by
  unfold borrow
  rw [if_neg]
  rintro ⟨-, signs, -⟩
  have less := natAbs_add_signed_le signs.symm
  rw [total, same, max_self, unitsAt, unitsAt, same, Nat.sub_self, pow_zero, mul_one, mul_one]
    at large
  omega

theorem borrowed_of_not_wraps (first : a.mantissa < capacity) (second : b.mantissa < capacity)
    (clear : ¬ a.Wraps b) (large : a.scale = b.scale → capacity ≤ (a.total b).natAbs) :
    a.borrowed b = 0 := by
  unfold borrowed
  rcases lt_trichotomy a.scale b.scale with less | same | more
  · rw [if_pos less]
    by_contra some
    exact clear (.inl ⟨less, some⟩)
  · rw [if_neg (by omega)]
    exact borrow_of_same_scale first second same (large same)
  · rw [if_neg (by omega)]
    by_contra some
    exact clear (.inr ⟨more, some⟩)

theorem add?_exact (most : p ≤ 28) (first : a.mantissa < capacity) (second : b.mantissa < capacity)
    (representable : Representable p (a.toRat + b.toRat)) (clear : ¬ a.Wraps b) :
    ∃ c, a.add? b = some c ∧ c.toRat = a.toRat + b.toRat := by
  by_cases left : a.isZero
  · exact ⟨b, by rw [add?, if_pos left], by rw [toRat_eq_zero.mpr left, zero_add]⟩
  by_cases right : b.isZero
  · exact ⟨a, by rw [add?, if_neg left, if_pos right], by rw [toRat_eq_zero.mpr right, add_zero]⟩
  rw [add?_eq left right, ← toRat_total]
  split
  · exact ⟨_, rfl, toRat_of_total rfl⟩
  · rename_i outside
    have none : a.borrowed b = 0 := by
      refine borrowed_of_not_wraps first second clear ?_
      intro same
      by_contra small
      exact outside ⟨Nat.lt_of_not_le small, .inr same⟩
    have fits := representable.abs
    rw [← toRat_total, abs_mul_ten_zpow] at fits
    obtain ⟨m, s, run, same⟩ := fit_exact most fits
    rw [none, add_zero, run]
    exact ⟨_, rfl, toRat_of_total same⟩

theorem borrow_ne_zero (borrowed : a.borrow b ≠ 0) :
    maxScale < b.scale ∧ a.negative ≠ b.negative ∧
      2 ^ 64 ≤ a.mantissa * 10 ^ ((b.scale - a.scale - 1) / 9 * 9) ∧
      (a.unitsAt b.scale).natAbs < b.mantissa ∧
      a.borrow b = if a.negative then -(capacity : ℤ) else capacity := by
  unfold borrow at *
  split at borrowed
  · rename_i wraps
    obtain ⟨long, signs, outgrown, short⟩ := wraps
    rw [if_pos ⟨long, signs, outgrown, short⟩]
    exact ⟨long, signs, of_decide_eq_true outgrown, short, rfl⟩
  · exact absurd rfl borrowed

theorem borrow_turns (room : b.mantissa < capacity) (borrowed : a.borrow b ≠ 0) :
    a.unitsAt b.scale + b.signed < 0 ∧ 0 < a.unitsAt b.scale + b.signed + a.borrow b ∨
      0 < a.unitsAt b.scale + b.signed ∧ a.unitsAt b.scale + b.signed + a.borrow b < 0 := by
  obtain ⟨-, signs, -, short, amount⟩ := borrow_ne_zero borrowed
  rw [amount]
  have unit : (0 : ℤ) ≤ 10 ^ (b.scale - a.scale) := by positivity
  have units : a.unitsAt b.scale = a.signed * 10 ^ (b.scale - a.scale) := rfl
  cases left : a.negative with
  | false =>
    have right : b.negative = true := by simpa [left] using signs.symm
    have above : 0 ≤ a.unitsAt b.scale := by
      rw [units, signed, left]
      exact mul_nonneg (by simp) unit
    have below : b.signed = -(b.mantissa : ℤ) := by simp [signed, right]
    left
    simp only [Bool.false_eq_true, ↓reduceIte]
    omega
  | true =>
    have right : b.negative = false := by simpa [left] using signs.symm
    have below : a.unitsAt b.scale ≤ 0 := by
      rw [units, signed, left]
      exact mul_nonpos_of_nonpos_of_nonneg (by simp) unit
    have above : b.signed = b.mantissa := by simp [signed, right]
    right
    simp only [↓reduceIte]
    omega

theorem Wraps.nonzero (wraps : a.Wraps b) : ¬ a.isZero ∧ ¬ b.isZero := by
  unfold isZero
  rcases wraps with ⟨_, borrowed⟩ | ⟨_, borrowed⟩
  all_goals
    obtain ⟨-, -, outgrown, short, -⟩ := borrow_ne_zero borrowed
    simp only [beq_iff_eq]
    refine ⟨?_, ?_⟩
    all_goals
      intro none
      simp [none] at outgrown short

theorem sub?_eq (nonzero : ¬ b.isZero) : a.sub? b = a.add? (-b) := by rw [sub?, if_neg nonzero]

theorem sub?_exact (most : p ≤ 28) (first : a.mantissa < capacity) (second : b.mantissa < capacity)
    (representable : Representable p (a.toRat - b.toRat)) (clear : ¬ a.Wraps (-b)) :
    ∃ c, a.sub? b = some c ∧ c.toRat = a.toRat - b.toRat := by
  by_cases none : b.isZero
  · have same : a.toRat - b.toRat = a.toRat + b.toRat := by
      rw [toRat_eq_zero.mpr none, sub_zero, add_zero]
    have alone : ¬ a.Wraps b := fun wraps => wraps.nonzero.2 none
    rw [same] at representable ⊢
    rw [sub?, if_pos none]
    exact add?_exact most first second representable alone
  · rw [sub_eq_add_neg, ← toRat_neg] at representable ⊢
    rw [sub?_eq none]
    exact add?_exact (b := -b) most first second representable clear

theorem unitsAt_own (d : Decimal) : d.unitsAt d.scale = d.signed := by
  rw [unitsAt, Nat.sub_self, pow_zero, mul_one]

theorem Wraps.turns (first : a.mantissa < capacity) (second : b.mantissa < capacity)
    (wraps : a.Wraps b) :
    maxScale < max a.scale b.scale ∧ a.scale ≠ b.scale ∧
      (a.total b < 0 ∧ 0 < a.total b + a.borrowed b ∨
        0 < a.total b ∧ a.total b + a.borrowed b < 0) := by
  unfold total borrowed
  rcases wraps with ⟨less, some⟩ | ⟨less, some⟩
  · rw [if_pos less, max_eq_right less.le, unitsAt_own]
    exact ⟨(borrow_ne_zero some).1, less.ne, borrow_turns second some⟩
  · rw [if_neg (by omega), max_eq_left less.le, unitsAt_own, add_comm a.signed]
    exact ⟨(borrow_ne_zero some).1, less.ne', borrow_turns first some⟩

/-- A sum that wraps comes out on the other side of zero. -/
theorem add?_wrapped (first : a.mantissa < capacity) (second : b.mantissa < capacity)
    (wraps : a.Wraps b) (run : a.add? b = some c) :
    a.toRat + b.toRat < 0 ∧ 0 ≤ c.toRat ∨ 0 < a.toRat + b.toRat ∧ c.toRat ≤ 0 := by
  have ⟨left, right⟩ := wraps.nonzero
  obtain ⟨long, apart, turned⟩ := wraps.turns first second
  rw [add?_eq left right, if_neg (by omega)] at run
  obtain ⟨⟨m, s⟩, -, rfl⟩ := Option.map_eq_some_iff.mp run
  have unit := ten_zpow_pos (-(max a.scale b.scale : ℕ) : ℤ)
  rw [← toRat_total]
  rcases turned with ⟨below, above⟩ | ⟨above, below⟩
  · left
    have negative : (a.total b : ℚ) < 0 := by exact_mod_cast below
    refine ⟨mul_neg_of_neg_of_pos negative unit, toRat_nonneg ?_⟩
    simp [not_lt.mpr above.le]
  · right
    have positive : (0 : ℚ) < a.total b := by exact_mod_cast above
    refine ⟨mul_pos positive unit, ?_⟩
    rw [toRat_sign_and]
    exact toRat_nonpos (by simp [below])

theorem toRat_mul (a b : Decimal) :
    a.toRat * b.toRat =
      toRat ⟨a.negative != b.negative, a.mantissa * b.mantissa, a.scale + b.scale⟩ := by
  have places : -((a.scale + b.scale : ℕ) : ℤ) = -(a.scale : ℤ) + -(b.scale : ℤ) := by omega
  rw [toRat_eq a, toRat_eq b, toRat_mk, places, shifted_add]
  unfold shifted
  push_cast
  cases a.negative <;> cases b.negative <;> simp <;> ring

theorem mul?_exact (most : p ≤ 28) (representable : Representable p (a.toRat * b.toRat)) :
    ∃ c, a.mul? b = some c ∧ c.toRat = a.toRat * b.toRat := by
  by_cases none : a.isZero ∨ b.isZero
  · refine ⟨zero, by rw [mul?, if_pos none], ?_⟩
    have product : a.toRat * b.toRat = 0 := by simpa [toRat_eq_zero] using none
    rw [product]
    exact toRat_eq_zero.mpr rfl
  · have positive : 0 < a.mantissa * b.mantissa := by
      simp only [isZero, beq_iff_eq, not_or] at none
      exact Nat.mul_pos (by omega) (by omega)
    rw [toRat_mul] at *
    have fits := representable.abs
    rw [toRat_mk, abs_signed_mul, abs_of_nonneg (shifted_nonneg _ _)] at fits
    have zeros := pow_dvd_of_places fits.places
    unfold mul?
    rw [if_neg none]
    dsimp only
    split
    · rename_i short
      have product : a.mantissa * b.mantissa < 2 ^ 32 * 2 ^ 32 :=
        Nat.mul_lt_mul'' short.1 short.2
      -- A product that vanishes would have more final zeros than digits.
      have few : a.scale + b.scale ≤ 47 := by
        by_contra many
        have unit : 10 ^ 20 ≤ 10 ^ (a.scale + b.scale - maxScale) :=
          Nat.pow_le_pow_right (by decide) (by unfold maxScale; omega)
        have digits := Nat.le_of_dvd positive zeros
        omega
      rw [if_neg (by omega)]
      split
      · rename_i long
        have dropped : a.scale + b.scale - maxScale ≤ a.scale + b.scale := Nat.sub_le _ _
        have kept := shifted_div zeros dropped
        have places : a.scale + b.scale - (a.scale + b.scale - maxScale) = maxScale := by omega
        rw [places] at kept
        refine ⟨_, rfl, ?_⟩
        rw [halfEven_of_dvd zeros, toRat_sign_and, toRat_mk, kept, ← toRat_mk]
      · exact ⟨_, rfl, rfl⟩
    · split
      · exact ⟨_, rfl, rfl⟩
      · obtain ⟨m, s, run, same⟩ := fit_exact most fits
        rw [run]
        refine ⟨_, rfl, ?_⟩
        rw [toRat_mk, same, ← toRat_mk]

/-- Long operands must wrap around, since a digit more than 64 bits stands before the borrow. -/
theorem not_wraps (few : p ≤ 20) (first : a.Bounded p) (second : b.Bounded p) : ¬ a.Wraps b := by
  have short : 10 ^ p ≤ 10 ^ 20 := Nat.pow_le_pow_right (by decide) few
  have clear : ∀ coarse fine : Decimal, coarse.scale < fine.scale →
      fine.scale ≤ maxScale ∨ fine.mantissa ≤ 10 ^ p → coarse.borrow fine = 0 := by
    intro coarse fine less bound
    by_contra borrowed
    obtain ⟨long, -, outgrown, beyond, -⟩ := borrow_ne_zero borrowed
    rw [natAbs_unitsAt] at beyond
    have unit : 10 ^ ((fine.scale - coarse.scale - 1) / 9 * 9 + 1) ≤
        10 ^ (fine.scale - coarse.scale) := Nat.pow_le_pow_right (by decide) (by omega)
    rw [pow_succ] at unit
    have units := Nat.mul_le_mul_left coarse.mantissa unit
    rw [← mul_assoc] at units
    omega
  rintro (⟨less, borrowed⟩ | ⟨less, borrowed⟩)
  · exact borrowed (clear a b less second.2)
  · exact borrowed (clear b a less first.2)

end Decimal
end Reckon
