import Reckon.Decimal.Wide

/-
Whole powers and square roots.
-/
namespace Reckon.Decimal

def bits (n : Nat) : List Bool :=
  if n = 0 then [] else (n % 2 == 1) :: bits (n / 2)
termination_by n

/-- The product of those squares of `square` that the binary digits select. -/
def raise {α : Type} (mul : α → α → Option α) : List Bool → α → α → Option α
  | [], product, _ => some product
  | bit :: rest, product, square => do
    let product ← if bit then mul product square else some product
    if rest.isEmpty then some product else raise mul rest product (← mul square square)

/-- Powers from 1024 on are multiplied out in wide decimals. -/
def powNat? (base : Decimal) (n : Nat) : Option Decimal :=
  if n = 0 then some one
  else if base.isZero then some zero
  else if base.Same one then some one
  else if n = 1 then some base
  else if n = 2 then base.mul? base
  else if n < 1024 then (raise mul? (bits n) one base).map strip
  else ((raise Wide.mul? (bits n) Wide.one (Wide.ofDecimal base)).bind Wide.toDecimal?).map strip

/-- A negative power is the reciprocal, which does not exist if the power has vanished. -/
def powInt? (base : Decimal) (n : Int) : Option Decimal :=
  if 0 ≤ n then base.powNat? n.toNat
  else do
    let power ← base.powNat? n.natAbs
    if power.isZero then none else one.div? power

def sqrtSteps (d : Decimal) : Nat → Decimal → Decimal → Option Decimal
  | 0, _, _ => none
  | rounds + 1, last, guess =>
    if last.Same guess then some guess
    else do
      let sum ← guess.add? (← d.div? guess)
      sqrtSteps d rounds guess (← sum.div? (ofNat 2))

def sqrt? (d : Decimal) : Option Decimal :=
  if d.negative then none
  else if d.isZero then some zero
  else do
    let half ← d.div? (ofNat 2)
    let guess := if half.isZero then d else half
    sqrtSteps d 1000 (← guess.add? one) guess

end Reckon.Decimal
