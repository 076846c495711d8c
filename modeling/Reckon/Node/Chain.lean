import Reckon.Node.Basic

/-
Chains of operands and operators become trees by tier.  Every tier folds to the left, exponents
included: 2 ** 3 ** 2 is (2 ** 3) ** 2.
-/
namespace Reckon.Node

/-- A chain read up to some operand: the sum and the product that still wait for their right side,
and the power that the last operand belongs to. -/
structure Pending where
  sum : Option (Node × Operator)
  product : Option (Node × Operator)
  power : Node

namespace Pending

def close (waiting : Option (Node × Operator)) (right : Node) : Node :=
  match waiting with
  | some (left, operator) => binary left operator right
  | none => right

def factor (p : Pending) : Node := close p.product p.power
def total (p : Pending) : Node := close p.sum p.factor

def push (p : Pending) (operator : Operator) (operand : Node) : Pending :=
  match operator.tier with
  | .exponent => { p with power := binary p.power operator operand }
  | .multiplicative => { p with product := some (p.factor, operator), power := operand }
  | .additive => ⟨some (p.total, operator), none, operand⟩

end Pending

def ofChain (first : Node) (rest : List (Operator × Node)) : Node :=
  (rest.foldl (fun (p : Pending) link => p.push link.1 link.2) ⟨none, none, first⟩).total

end Reckon.Node
