import Mathlib.Algebra.Ring.Parity
import Reckon.Evaluate.Tree
import Reckon.Proofs.Combining

/-
Runs of signs.  Signs before an operand and the signs that it has already become one run, in their
order.  The value of the run is what its signs make of the operand's value one by one, the last sign
first: no step rounds, so only the number of minuses matters.  Texts that put signs around
parentheses, one around the other, are read as such a run, however many there are.
-/
namespace Reckon

theorem Decimal.double_neg (d : Decimal) : - -d = d := by
  change (⟨!!d.negative, d.mantissa, d.scale⟩ : Decimal) = d
  rw [Bool.not_not]

namespace Sign

def apply : Sign → Decimal → Decimal
  | plus, value => value
  | minus, value => -value

theorem applyAll_cons (sign : Sign) (signs : List Sign) (value : Decimal) :
    applyAll (sign :: signs) value = sign.apply (applyAll signs value) := by
  unfold applyAll
  cases sign with
  | plus =>
    have count : (plus :: signs).count minus = signs.count minus := by simp
    rw [count]
    rfl
  | minus =>
    have count : (minus :: signs).count minus = signs.count minus + 1 := by simp
    rw [count]
    by_cases odd : signs.count minus % 2 = 1
    · rw [if_neg (by omega), if_pos odd]
      exact (Decimal.double_neg value).symm
    · rw [if_pos (by omega), if_neg odd]
      rfl

theorem applyAll_eq_foldr (signs : List Sign) (value : Decimal) :
    applyAll signs value = signs.foldr apply value := by
  induction signs with
  | nil => rfl
  | cons sign signs ih => rw [applyAll_cons, ih, List.foldr_cons]

theorem applyAll_append (outer inner : List Sign) (value : Decimal) :
    applyAll (outer ++ inner) value = applyAll outer (applyAll inner value) := by
  rw [applyAll_eq_foldr, applyAll_eq_foldr, applyAll_eq_foldr, List.foldr_append]

theorem applyAll_of_odd {signs : List Sign} (odd : Odd (signs.count minus)) (value : Decimal) :
    applyAll signs value = -value :=
  if_pos (Nat.odd_iff.mp odd)

theorem applyAll_of_even {signs : List Sign} (even : Even (signs.count minus)) (value : Decimal) :
    applyAll signs value = value :=
  if_neg (Nat.even_iff.mp even ▸ Nat.zero_ne_one)

end Sign

namespace Node

def outerSigns : Node → List Sign
  | signed signs _ => signs
  | _ => []

def withoutSigns : Node → Node
  | signed _ operand => operand
  | node => node

variable {node : Node} {precision : Nat} {seed : Seed}

theorem sign_eq (signs : List Sign) (node : Node) :
    node.sign signs = signed (signs ++ node.outerSigns) node.withoutSigns := by
  cases node with
  | signed inner operand => rfl
  | literal | constant | call | binary =>
    change signed signs _ = signed (signs ++ []) _
    rw [List.append_nil]
    rfl

theorem sign_sign (outer inner : List Sign) (node : Node) :
    (node.sign inner).sign outer = node.sign (outer ++ inner) := by
  rw [sign_eq inner, sign_eq (outer ++ inner), List.append_assoc]
  rfl

theorem Normal.withoutSigns_flat (normal : node.Normal) (signs : List Sign) (operand : Node) :
    node.withoutSigns ≠ .signed signs operand := by
  cases normal with
  | signed some flat inside => exact flat signs operand
  | literal | constant | call | binary => nofun

theorem evaluate_signed (signs : List Sign) (operand : Node) (precision : Nat) (seed : Seed) :
    (signed signs operand).evaluate precision seed =
      (operand.evaluate precision seed).map (Sign.applyAll signs) := by
  rw [evaluate]
  cases operand.evaluate precision seed <;> rfl

/-- It makes no difference whether signs are put into one run or applied to a finished value. -/
theorem evaluate_sign (signs : List Sign) (node : Node) (precision : Nat) (seed : Seed) :
    (node.sign signs).evaluate precision seed =
      (node.evaluate precision seed).map (Sign.applyAll signs) := by
  cases node with
  | signed inner operand =>
    have joined : (signed inner operand).sign signs = signed (signs ++ inner) operand := rfl
    rw [joined, evaluate_signed, evaluate_signed]
    cases operand.evaluate precision seed with
    | error failure => rfl
    | ok value => exact congrArg Except.ok (Sign.applyAll_append signs inner value)
  | literal | constant | call | binary => exact evaluate_signed signs _ precision seed

end Node

namespace Parse
open Grammar

variable {limit deeper : Nat} {source : List Char} {node : Node}

theorem ReadsAs.mono (reads : ReadsAs limit source node) (le : limit ≤ deeper) :
    ReadsAs deeper source node := by
  obtain ⟨level, bound, stands⟩ := reads.stands
  exact readsAs_of reads.clear stands (bound.trans le)

def underSigns (signs : List Sign) (source : List Char) : List Char :=
  signs.foldr (fun sign inside => sign.symbol.toList ++ parens inside) source

theorem readsAs_underSigns {signs : List Sign} (some : signs ≠ [])
    (reads : ReadsAs limit source node) :
    ReadsAs (limit + signs.length) (underSigns signs source) (node.sign signs) := by
  induction signs with
  | nil => exact absurd rfl some
  | cons sign signs ih =>
    cases signs with
    | nil => exact readsAs_signed sign reads
    | cons next signs =>
      -- What is inside the parentheses has become a run already, and the sign joins it.
      have inside := ih (List.cons_ne_nil next signs)
      have whole := readsAs_signed sign inside
      rw [Node.sign_sign] at whole
      exact whole

/-- Signs before an operand act on its value one after another, from the last one to the first.  In
a text they may stand around any number of parentheses: the tree has all of them in one run, before
those that the inner text starts with, and their minuses cancel in pairs. -/
theorem signs_flatten (signs : List Sign) :
    (∀ (node : Node) (precision : Nat) (seed : Seed),
      (node.sign signs).evaluate precision seed =
        (node.evaluate precision seed).map (signs.foldr Sign.apply)) ∧
    (signs ≠ [] → ∀ limit source node, ReadsAs limit source node →
      (∀ inner operand, node.withoutSigns ≠ .signed inner operand) ∧
      (∀ deeper, limit + signs.length ≤ deeper →
        (text deeper (underSigns signs source)).value =
          .ok (.signed (signs ++ node.outerSigns) node.withoutSigns)) ∧
      ∀ precision seed,
        (Odd (signs.count .minus) →
          (Node.signed (signs ++ node.outerSigns) node.withoutSigns).evaluate precision seed =
            (node.evaluate precision seed).map (- ·)) ∧
        (Even (signs.count .minus) →
          (Node.signed (signs ++ node.outerSigns) node.withoutSigns).evaluate precision seed =
            node.evaluate precision seed)) := by
  constructor
  · intro node precision seed
    have oneByOne : Sign.applyAll signs = signs.foldr Sign.apply :=
      funext (Sign.applyAll_eq_foldr signs)
    rw [Node.evaluate_sign, oneByOne]
  · intro some limit source node reads
    refine ⟨(normal_of_text reads.read).withoutSigns_flat, ?_, ?_⟩
    · intro deeper enough
      rw [← Node.sign_eq]
      exact ((readsAs_underSigns some reads).mono enough).read
    · intro precision seed
      rw [← Node.sign_eq, Node.evaluate_sign]
      constructor
      · intro odd
        rw [funext (Sign.applyAll_of_odd odd)]
      · intro even
        rw [funext (Sign.applyAll_of_even even)]
        cases node.evaluate precision seed <;> rfl

theorem signedZero_flattens :
    (text 3 "-(+(-(-0)))".toList).value =
        .ok (.signed [.minus, .plus, .minus, .minus] (.literal "0")) ∧
      (Node.signed [.minus, .plus, .minus, .minus] (.literal "0")).evaluate 20 ⟨0⟩ =
        .ok ⟨true, 0, 0⟩ := by
  have body : bodyOf "-0".toList = [.operator .sub, .number "0"] := by decide +kernel
  have stands : Stands (bodyOf "-0".toList) (.signed [.minus] (.literal "0")) 0 := by
    rw [body]
    exact fun rest _ => .chain (.signed .minus (.number "0")) .nil
  have reads : ReadsAs 0 "-0".toList (.signed [.minus] (.literal "0")) :=
    readsAs_of (by decide) stands (Nat.le_refl 0)
  obtain ⟨_, flat, values⟩ :=
    (signs_flatten [.minus, .plus, .minus]).2 (by decide) _ _ _ reads
  have value := (values 20 ⟨0⟩).2 (by decide)
  exact ⟨flat 3 (by decide), value.trans rfl⟩

end Parse
end Reckon
