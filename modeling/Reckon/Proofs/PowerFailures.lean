import Reckon.Proofs.Parts
import Reckon.Proofs.Value

/-
When a power has no value.  What decides is the numbers of base and exponent, not how they are
written: final zeros and the sign of zero make no difference.  An exponent counts as whole only as
long as it is a whole number of 64 bits.
-/
namespace Reckon

namespace Number

def IsWord (x : ℚ) : Prop := ∃ n : ℤ, -2 ^ 63 ≤ n ∧ n < 2 ^ 63 ∧ x = n

end Number

namespace Decimal
open Number

variable {d : Decimal}

theorem toRat_of_places (none : d.scale = 0) : d.toRat = d.signed := by
  rw [toRat, none]
  simp

theorem toRat_trunc (whole : d.isWhole) : (d.trunc.signed : ℚ) = d.toRat := by
  have places : d.trunc.scale = 0 := by
    unfold trunc
    split
    · assumption
    · rfl
  rw [← toRat_of_places places]
  unfold trunc
  split
  · rfl
  · have digits : d.mantissa = d.mantissa / 10 ^ d.scale * 10 ^ d.scale := by
      rw [isWhole, beq_iff_eq] at whole
      exact (Nat.div_mul_cancel (Nat.dvd_of_mod_eq_zero whole)).symm
    rw [toRat_mk, toRat_eq d, digits, shifted_mul_pow, Nat.mul_div_cancel _ (by positivity)]
    simp

theorem isWhole_iff : d.isWhole ↔ ∃ n : ℤ, d.toRat = n := by
  constructor
  · intro whole
    exact ⟨d.trunc.signed, (toRat_trunc whole).symm⟩
  · rintro ⟨n, same⟩
    have size : shifted d.mantissa (-(d.scale : ℤ)) = shifted n.natAbs 0 := by
      rw [← abs_toRat, same, shifted_zero, Nat.cast_natAbs, Int.cast_abs]
    have digits := (shifted_eq_iff (by omega)).mp size
    rw [isWhole, beq_iff_eq, digits, zero_sub, neg_neg, Int.toNat_natCast, Nat.mul_mod_left]

end Decimal

open Number

variable {base exponent : Decimal} {n : ℤ}

theorem wholeExponent?_eq_some :
    wholeExponent? exponent = some n ↔ exponent.toRat = n ∧ -2 ^ 63 ≤ n ∧ n < 2 ^ 63 := by
  unfold wholeExponent?
  by_cases whole : exponent.isWhole
  · have number := Decimal.toRat_trunc whole
    rw [if_pos whole, ← number, Int.cast_inj]
    dsimp only
    split
    · rw [Option.some_inj]
      constructor
      · rintro rfl
        exact ⟨rfl, by assumption⟩
      · exact And.left
    · rename_i wide
      simp only [reduceCtorEq, false_iff]
      rintro ⟨rfl, narrow⟩
      exact wide narrow
  · rw [if_neg whole]
    simp only [reduceCtorEq, false_iff]
    rintro ⟨same, -⟩
    exact whole (Decimal.isWhole_iff.mpr ⟨n, same⟩)

theorem wholeExponent?_eq_none :
    wholeExponent? exponent = none ↔ ¬ IsWord exponent.toRat := by
  rw [Option.eq_none_iff_forall_ne_some]
  simp only [ne_eq, wholeExponent?_eq_some, IsWord, not_exists]
  grind

theorem orOverflow_error {operation : String} {result : Option Decimal} {failure : NoValue} :
    orOverflow operation result = .error failure ↔
      result = none ∧ failure = .overflow operation := by
  cases result with
  | none => simp [orOverflow, eq_comm]
  | some d => simp [orOverflow]

inductive PowerOutcome (base exponent : Decimal) : Except NoValue Decimal → Prop where
  | reciprocal (zero : base.toRat = 0) (below : exponent.toRat < 0) :
      PowerOutcome base exponent (.error .divisionByZero)
  | vanishing (zero : base.toRat = 0) (above : 0 < exponent.toRat) (d : Decimal)
      (none : d.toRat = 0) : PowerOutcome base exponent (.ok d)
  | undefined (below : base.toRat < 0) (wide : ¬ IsWord exponent.toRat) :
      PowerOutcome base exponent
        (.error (.domain "**" (base.toText ++ " ** " ++ exponent.toText)))
  | regular (divides : base.toRat = 0 → exponent.toRat = 0)
      (defined : base.toRat < 0 → IsWord exponent.toRat) (result : Option Decimal) :
      PowerOutcome base exponent (orOverflow "**" result)

theorem powNat?_zero (none : base.isZero) (positive : n.toNat ≠ 0) :
    base.powNat? n.toNat = some .zero := by
  rw [Decimal.powNat?, if_neg positive, if_pos none]

theorem power_outcome (base exponent : Decimal) :
    PowerOutcome base exponent (power base exponent) := by
  unfold power
  split
  · rename_i n whole
    obtain ⟨number, word⟩ := wholeExponent?_eq_some.mp whole
    have defined : base.toRat < 0 → IsWord exponent.toRat := fun _ => ⟨n, word.1, word.2, number⟩
    by_cases none : base.isZero
    · have zero := Decimal.toRat_eq_zero.mpr none
      rcases lt_trichotomy n 0 with less | rfl | more
      · rw [if_pos ⟨none, less⟩]
        exact .reciprocal zero (by rw [number]; exact_mod_cast less)
      · rw [if_neg (fun both => absurd both.2 (lt_irrefl 0))]
        exact .regular (fun _ => by rw [number, Int.cast_zero]) defined _
      · have vanished : base.powInt? n = some .zero := by
          rw [Decimal.powInt?, if_pos more.le, powNat?_zero none (by omega)]
        have above : 0 < exponent.toRat := by
          rw [number]
          exact_mod_cast more
        rw [if_neg (fun both => absurd both.2 more.not_gt), vanished]
        exact .vanishing zero above _ (Decimal.toRat_eq_zero.mpr rfl)
    · rw [if_neg (fun both => none both.1)]
      exact .regular (fun zero => absurd (Decimal.toRat_eq_zero.mp zero) none) defined _
  · rename_i wide
    have beyond := wholeExponent?_eq_none.mp wide
    by_cases none : base.isZero
    · have zero := Decimal.toRat_eq_zero.mpr none
      -- Zero is a whole number of 64 bits, so the sign of the exponent is that of its number.
      have nonzero : exponent.toRat ≠ 0 := fun same => beyond ⟨0, by decide, by decide, by simpa⟩
      rw [if_pos none]
      split
      · rename_i sign
        exact .reciprocal zero ((Decimal.toRat_nonpos sign).lt_of_ne nonzero)
      · rename_i sign
        exact .vanishing zero ((Decimal.toRat_nonneg (by simpa using sign)).lt_of_ne nonzero.symm) _
          (Decimal.toRat_eq_zero.mpr rfl)
    · have regular : base.toRat = 0 → exponent.toRat = 0 :=
        fun zero => absurd (Decimal.toRat_eq_zero.mp zero) none
      rw [if_neg none]
      split
      · rename_i sign
        exact .undefined (Decimal.toRat_lt_zero.mpr ⟨sign, none⟩) beyond
      · rename_i sign
        exact .regular regular (fun below => absurd (Decimal.toRat_lt_zero.mp below).1 sign) _

/-- A power fails with a division by zero exactly for a zero base and an exponent below zero, and it
is undefined exactly for a base below zero and an exponent that is no whole number of 64 bits.
Nothing else but an overflow can keep it from having a value, and not even that for zero to a
positive power, which is zero. -/
theorem power_fails_iff (base exponent : Decimal) :
    (power base exponent = .error .divisionByZero ↔ base.toRat = 0 ∧ exponent.toRat < 0) ∧
      ((∃ operation input, power base exponent = .error (.domain operation input)) ↔
        base.toRat < 0 ∧ ¬ IsWord exponent.toRat) ∧
      (∀ failure, power base exponent = .error failure → failure = .divisionByZero ∨
        failure = .domain "**" (base.toText ++ " ** " ++ exponent.toText) ∨
        failure = .overflow "**") ∧
      (base.toRat = 0 → 0 < exponent.toRat →
        ∃ d, power base exponent = .ok d ∧ d.toRat = 0) := by
  have outcome := power_outcome base exponent
  generalize power base exponent = result at outcome ⊢
  cases outcome with
  | reciprocal zero below => simp [zero, below, not_lt.mpr below.le]
  | vanishing zero above d none => simp [zero, above, not_lt.mpr above.le, none]
  | undefined below wide => simp [below, below.ne, wide]
  | regular divides defined result =>
    have neither : ¬ (base.toRat = 0 ∧ exponent.toRat < 0) := by
      rintro ⟨zero, below⟩
      exact below.ne (divides zero)
    have word : ¬ (base.toRat < 0 ∧ ¬ IsWord exponent.toRat) := by
      rintro ⟨below, wide⟩
      exact wide (defined below)
    have level : base.toRat = 0 → ¬ 0 < exponent.toRat := fun zero => (divides zero).not_gt
    refine ⟨iff_of_false ?_ neither, iff_of_false ?_ word, ?_, ?_⟩
    · simp [orOverflow_error]
    · simp [orOverflow_error]
    · intro failure run
      exact .inr (.inr (orOverflow_error.mp run).2)
    · intro zero above
      exact absurd above (level zero)

/-- Minus two to the power 2^63 is undefined, although the exponent is a whole number. -/
theorem wideExponent_undefined :
    power ⟨true, 2, 0⟩ ⟨false, 9223372036854775808, 0⟩ =
        .error (.domain "**" "-2 ** 9223372036854775808") ∧
      ∃ n : ℤ, Decimal.toRat ⟨false, 9223372036854775808, 0⟩ = n := by
  refine ⟨rfl, 9223372036854775808, ?_⟩
  rw [Decimal.toRat_of_places rfl]
  rfl

end Reckon
