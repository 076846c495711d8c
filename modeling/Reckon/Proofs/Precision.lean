import Reckon.Proofs.Parts
import Reckon.Proofs.Significant

/-
Results of operators and calls have the significant digits of the configuration, except that a
result stays as it is when its rounding has no room.
-/
namespace Reckon.Node
open Number
open Decimal (capacity)

variable {precision : ℕ} {seed : Seed} {node : Node} {d : Decimal}

/-- The value of an operation is its result rounded to significant digits, a half away from zero, as
long as the rounded number is below the capacity.  From there on nothing is rounded, and a value
below the capacity keeps digits in excess of the precision. -/
theorem operation_rounds (positive : 0 < precision) (most : precision ≤ 28)
    (operation : node.isOperation) (run : node.evaluate precision seed = .ok d) :
    ∃ v, node.unrounded precision seed = .ok v ∧
      (|roundedTo precision v.toRat| < capacity →
        Significant precision d.toRat ∧ d.toRat = roundedTo precision v.toRat) ∧
      (capacity ≤ |roundedTo precision v.toRat| →
        d = v ∧ (|d.toRat| < capacity → ¬ Significant precision d.toRat)) := by
  obtain ⟨v, result, rfl⟩ := (evaluate_operation operation).mp run
  refine ⟨v, result, ?_, ?_⟩
  · intro room
    rw [Decimal.toRat_roundSignificant positive room]
    exact ⟨significant_roundedTo positive v.toRat, rfl⟩
  · intro full
    rw [Decimal.roundSignificant_of_no_room positive most full]
    refine ⟨rfl, ?_⟩
    intro below significant
    rw [roundedTo_of_significant significant] at full
    exact absurd full (not_le.mpr below)

theorem twoThirds_rounded :
    ∃ v, (binary (literal "2") .div (literal "3")).unrounded 5 ⟨0⟩ = .ok v ∧
      (|roundedTo 5 v.toRat| < capacity →
        Significant 5 (Decimal.toRat ⟨false, 66667, 5⟩) ∧
          Decimal.toRat ⟨false, 66667, 5⟩ = roundedTo 5 v.toRat) ∧
      (capacity ≤ |roundedTo 5 v.toRat| →
        ⟨false, 66667, 5⟩ = v ∧
          (|Decimal.toRat ⟨false, 66667, 5⟩| < capacity →
            ¬ Significant 5 (Decimal.toRat ⟨false, 66667, 5⟩))) :=
  operation_rounds (by decide) (by decide) rfl rfl

/-- The greatest decimal has 29 digits.  To 20 digits it would be 79228162514264337594·10^9,
which has no room. -/
theorem greatest_unrounded :
    (binary (literal "79228162514264337593543950335") .add (literal "0")).evaluate 20 ⟨0⟩
        = .ok ⟨false, 79228162514264337593543950335, 0⟩ ∧
      ¬ Significant 20 (Decimal.toRat ⟨false, 79228162514264337593543950335, 0⟩) := by
  refine ⟨rfl, ?_⟩
  intro significant
  rw [Decimal.toRat_mk, if_neg (by decide), one_mul] at significant
  exact absurd (lt_pow_of_significant (by decide) significant) (by decide)

end Reckon.Node
