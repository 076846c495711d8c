import Reckon.Proofs.FunctionRange
import Reckon.Proofs.Literals
import Reckon.Proofs.Parts
import Reckon.Proofs.Significant

/-
Which trees keep all their values in the range of decimals.  Operators and functions never leave it,
literals and constants are in it, and signs change nothing.  What leaves it is the padding of a
small result: its digits are filled up to the precision, and the zeros count as decimal places.
-/
namespace Reckon

namespace Decimal
open Number

variable {d : Decimal} {p s t : ℕ}

theorem le_abs_toRat (digits : 10 ^ t ≤ d.mantissa) (places : d.scale ≤ s) :
    (10 : ℚ) ^ ((t : ℤ) - s) ≤ |d.toRat| := by
  have unit : (10 : ℚ) ^ ((t : ℤ) - s) ≤ 10 ^ ((t : ℤ) - d.scale) :=
    zpow_le_zpow_right₀ (by norm_num) (by omega)
  have first : shifted (10 ^ t) (-(d.scale : ℤ)) ≤ shifted d.mantissa (-(d.scale : ℤ)) :=
    shifted_le_iff.mpr digits
  have exponent : -(d.scale : ℤ) + t = t - d.scale := by omega
  rw [pow_shifted, exponent, ← abs_toRat] at first
  exact unit.trans first

theorem pow_le_mantissa_roundSignificant (positive : 0 < p) (most : p ≤ 28)
    (nonzero : ¬ d.isZero) : 10 ^ (p - 1) ≤ (d.roundSignificant p).mantissa := by
  have first := pow_le_mantissa nonzero
  rcases roundSignificant_cases positive nonzero with ⟨short, same⟩ | ⟨surplus, some, count, long⟩
  · have digits := digitCount_pos d
    have split : p - 1 = d.digitCount - 1 + (p - d.digitCount) := by omega
    rw [same, pad_eq (pad_fits most short), split, pow_add]
    exact Nat.mul_le_mul_right _ first
  · have split : d.digitCount - 1 = p - 1 + surplus := by omega
    rw [split, pow_add] at first
    have digits : 10 ^ (p - 1) ≤ halfUp d.mantissa surplus := by
      have quotient : 10 ^ (p - 1) ≤ d.mantissa / 10 ^ surplus :=
        (Nat.le_div_iff_mul_le (by positivity)).mpr first
      unfold halfUp
      dsimp only
      split <;> omega
    rcases long with ⟨_, same⟩ | ⟨_, _, same⟩ | ⟨_, _, same⟩
    · rw [same]
      exact digits
    · rw [same]
      exact digits.trans (Nat.le_mul_of_pos_right _ (by positivity))
    · rw [same]
      exact (Nat.le_mul_of_pos_right _ (by positivity)).trans first

theorem valid_roundSignificant (positive : 0 < p) (most : p ≤ 28) (valid : d.Valid)
    (nonzero : ¬ d.isZero) (large : (10 : ℚ) ^ ((p : ℤ) - 29) ≤ |(d.roundSignificant p).toRat|) :
    (d.roundSignificant p).Valid := by
  have ⟨room, places⟩ := valid
  rcases roundSignificant_cases positive nonzero with ⟨short, same⟩ | ⟨surplus, some, count, long⟩
  · have size : Int.log 10 |d.toRat| = (d.digitCount : ℤ) - 1 - d.scale := log_abs_toRat nonzero
    have above : (p : ℤ) - 29 ≤ Int.log 10 |d.toRat| := by
      rw [same, toRat_pad] at large
      exact (Int.zpow_le_iff_le_log (b := 10) (by decide)
        (abs_pos.mpr (mt toRat_eq_zero.mp nonzero))).mp large
    have fits := pad_fits most short
    rw [same, pad_eq fits]
    refine ⟨fits, ?_⟩
    unfold maxScale
    dsimp only
    omega
  · have digits : halfUp d.mantissa surplus < capacity := by
      have bound := mantissa_lt_pow d
      rw [count] at bound
      exact (halfUp_le_pow bound).trans_lt (pow_lt_capacity most)
    rcases long with ⟨_, same⟩ | ⟨_, fits, same⟩ | ⟨_, _, same⟩
    · rw [same]
      exact ⟨digits, (Nat.sub_le _ _).trans places⟩
    · rw [same]
      exact ⟨fits, Nat.zero_le _⟩
    · rw [same]
      exact valid

/-- Rounding leads out of the range exactly when the last of the digits has no place in it. -/
theorem valid_roundSignificant_iff (positive : 0 < p) (most : p ≤ 28) (valid : d.Valid) :
    (d.roundSignificant p).Valid ↔
      (d.roundSignificant p).isZero ∨ (10 : ℚ) ^ ((p : ℤ) - 29) ≤ |(d.roundSignificant p).toRat| := by
  by_cases none : d.isZero
  · rw [roundSignificant_zero none]
    exact iff_of_true valid_zero (.inl rfl)
  · have digits := pow_le_mantissa_roundSignificant positive most none
    constructor
    · intro rounded
      have exponent : ((p - 1 : ℕ) : ℤ) - (28 : ℕ) = p - 29 := by omega
      rw [← exponent]
      exact .inr (le_abs_toRat digits rounded.2)
    · rintro (vanished | large)
      · have unit : 0 < 10 ^ (p - 1) := by positivity
        simp only [isZero, beq_iff_eq] at vanished
        omega
      · exact valid_roundSignificant positive most valid none large

end Decimal

theorem Constant.valid_value (c : Constant) : c.value.Valid := by
  cases c <;> decide

theorem Sign.valid_applyAll {signs : List Sign} {d : Decimal} (valid : d.Valid) :
    (Sign.applyAll signs d).Valid := by
  unfold Sign.applyAll
  split
  · exact valid.neg
  · exact valid

namespace Node

def Drawless (tree : Node) : Prop := ∀ f args, Part (call f args) tree → f ≠ .random

def StaysValid (precision : ℕ) (tree : Node) : Prop :=
  ∀ node, Part node tree → ∀ seed d, node.evaluate precision seed = .ok d → d.Valid

variable {precision : ℕ} {seed : Seed} {tree node : Node} {d : Decimal}

theorem valid_unrounded (drawless : tree.Drawless) (part : Part node tree)
    (operation : node.isOperation)
    (operands : ∀ child ∈ node.children, ∀ seed d, child.evaluate precision seed = .ok d → d.Valid)
    (run : node.unrounded precision seed = .ok d) : d.Valid := by
  cases node with
  | call f args =>
    obtain ⟨values, evaluated, applied⟩ := bind_ok.mp run
    refine Function.valid_apply (drawless f args part) ?_ applied
    intro x mem
    obtain ⟨arg, inside, seed, value⟩ := evaluateAll_ok evaluated x mem
    exact operands arg inside seed x value
  | binary left op right =>
    obtain ⟨a, first, run⟩ := bind_ok.mp run
    obtain ⟨b, second, applied⟩ := bind_ok.mp run
    exact Operator.valid_apply (operands left (by simp [children]) _ a first)
      (operands right (by simp [children]) _ b second) applied
  | literal raw => cases operation
  | constant symbol => cases operation
  | signed signs operand => cases operation

theorem staysValid_iff (positive : 0 < precision) (most : precision ≤ 28)
    (drawless : tree.Drawless) :
    tree.StaysValid precision ↔
      ∀ node, Part node tree → node.isOperation →
        ∀ seed d, node.evaluate precision seed = .ok d →
          d.isZero ∨ (10 : ℚ) ^ ((precision : ℤ) - 29) ≤ |d.toRat| := by
  constructor
  · intro stays node part operation seed d run
    obtain ⟨v, result, rfl⟩ := (evaluate_operation operation).mp run
    have valid : v.Valid :=
      valid_unrounded drawless part operation (fun child mem => stays child (part.child mem)) result
    exact (Decimal.valid_roundSignificant_iff positive most valid).mp (stays node part seed _ run)
  · -- The operands of a part are parts below it, and are valid by the induction over these.
    intro sizes node part
    induction node using Node.induction with
    | step node ih =>
      intro seed d run
      have operands := fun child mem => ih child mem (part.child mem)
      by_cases operation : node.isOperation
      · obtain ⟨v, result, rfl⟩ := (evaluate_operation operation).mp run
        have valid : v.Valid := valid_unrounded drawless part operation operands result
        exact (Decimal.valid_roundSignificant_iff positive most valid).mpr
          (sizes node part operation seed _ run)
      · cases node with
        | literal raw => exact Decimal.valid_literal? (literalValue_ok.mp run)
        | constant symbol => exact Except.ok.inj run ▸ symbol.valid_value
        | signed signs operand =>
          obtain ⟨v, value, rfl⟩ := evaluate_signed_ok.mp run
          exact Sign.valid_applyAll (operands operand (by simp [children]) seed v value)
        | call f args => exact absurd rfl operation
        | binary left op right => exact absurd rfl operation

theorem hundredth_staysValid_iff :
    StaysValid 28 (binary (literal "0.01") .mul (literal "1")) ↔
      ∀ node, Part node (binary (literal "0.01") .mul (literal "1")) → node.isOperation →
        ∀ seed d, node.evaluate 28 seed = .ok d → d.isZero ∨ (10 : ℚ) ^ ((28 : ℤ) - 29) ≤ |d.toRat| :=
  staysValid_iff (by decide) (by decide) (by
    intro f args part
    cases part with
    | inside mem below =>
      rcases List.mem_pair.mp mem with rfl | rfl
      all_goals
        cases below with
        | inside mem _ => cases mem)

theorem hundredth_leaves_range :
    (binary (literal "0.01") .mul (literal "1")).evaluate 28 ⟨0⟩ = .ok ⟨false, 10 ^ 27, 29⟩ ∧
      ¬ Decimal.Valid ⟨false, 10 ^ 27, 29⟩ :=
  ⟨rfl, by decide⟩

end Node
end Reckon
