import Reckon.Decimal.Literal
import Reckon.Evaluate.Operation
import Reckon.Node.Basic

/-
The value of an expression tree.  Literals keep every digit and signs round nothing; the result of
every operator and every call is rounded to the given number of significant digits.  Operands are
evaluated from left to right, and the first failure is the result.
-/
namespace Reckon

namespace Sign

/-- Each minus flips the sign, that of zero included. -/
def applyAll (signs : List Sign) (value : Decimal) : Decimal :=
  if signs.count .minus % 2 = 1 then -value else value

end Sign

namespace Node

def literalValue (raw : String) : Except NoValue Decimal :=
  match Decimal.literal? raw with
  | some value => .ok value
  | none => .error (.invalidLiteral raw)

mutual

def evaluate (precision : Nat) (seed : Seed) : Node → Except NoValue Decimal
  | literal raw => literalValue raw
  | constant symbol => .ok symbol.value
  | call function args => do
    let values ← evaluateAll precision seed.left args
    let value ← function.apply seed.right values
    return value.roundSignificant precision
  | signed signs operand => do
    let value ← operand.evaluate precision seed
    return Sign.applyAll signs value
  | binary left operator right => do
    let left ← left.evaluate precision seed.left
    let right ← right.evaluate precision seed.right
    let value ← operator.apply left right
    return value.roundSignificant precision

def evaluateAll (precision : Nat) (seed : Seed) : List Node → Except NoValue (List Decimal)
  | [] => .ok []
  | node :: nodes => do
    let value ← node.evaluate precision seed.left
    let values ← evaluateAll precision seed.right nodes
    return value :: values

end

end Node
end Reckon
