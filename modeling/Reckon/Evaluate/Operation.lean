import Reckon.Binary64.CubeRoot
import Reckon.Decimal.Exponential
import Reckon.Decimal.Trigonometry
import Reckon.Evaluate.Error
import Reckon.Evaluate.Seed

/-
What operators and functions do with the values of their operands, before rounding.
-/
namespace Reckon

def orOverflow (operation : String) : Option Decimal → Except NoValue Decimal
  | some value => .ok value
  | none => .error (.overflow operation)

def orDomain (operation : String) (input : Decimal) : Option Decimal → Except NoValue Decimal
  | some value => .ok value
  | none => .error (.domain operation input.toText)

def ofDouble (operation : String) (x : Float) : Except NoValue Decimal :=
  match Binary64.shape x with
  | .undefined => .error (.domain operation "NaN")
  | .infinite negative => .error (.domain operation (if negative then "-inf" else "inf"))
  | .finite .. => orOverflow operation (Decimal.ofBinary64? x)

def wholeExponent? (exponent : Decimal) : Option Int :=
  if exponent.isWhole then
    let n := exponent.trunc.signed
    if -2 ^ 63 ≤ n ∧ n < 2 ^ 63 then some n else none
  else none

/-- Whole exponents multiply; other exponents need a base that is not negative. -/
def power (base exponent : Decimal) : Except NoValue Decimal :=
  match wholeExponent? exponent with
  | some n =>
    if base.isZero ∧ n < 0 then .error .divisionByZero
    else orOverflow "**" (base.powInt? n)
  | none =>
    if base.isZero then
      if exponent.negative then .error .divisionByZero else .ok .zero
    else if base.negative then
      .error (.domain "**" (base.toText ++ " ** " ++ exponent.toText))
    else orOverflow "**" (base.pow? exponent)

def Operator.apply (op : Operator) (left right : Decimal) : Except NoValue Decimal :=
  match op with
  | add => orOverflow op.symbol (left.add? right)
  | sub => orOverflow op.symbol (left.sub? right)
  | mul => orOverflow op.symbol (left.mul? right)
  | div =>
    if right.isZero then .error .divisionByZero else orOverflow op.symbol (left.div? right)
  | mod =>
    if right.isZero then .error .divisionByZero else orOverflow op.symbol (left.rem? right)
  | pow => power left right

namespace Function

def viaDouble (f : Function) (operation : Float → Float) (x : Decimal) : Except NoValue Decimal :=
  let result := operation x.toBinary64
  if Binary64.isFinite result then ofDouble f.name result
  else .error (.domain f.name x.toText)

def naturalLog (f : Function) (x : Decimal) : Except NoValue Decimal :=
  if x ≤ .zero then .error (.domain f.name x.toText) else orDomain f.name x x.ln?

def logBase (f : Function) (x base : Decimal) : Except NoValue Decimal := do
  let numerator ← f.naturalLog x
  let denominator ← f.naturalLog base
  if denominator.isZero then .error (.domain f.name base.toText)
  else orOverflow f.name (numerator.div? denominator)

def hypotenuse (args : List Decimal) : Option Decimal := do
  let sum ← args.foldlM (fun sum x => do sum.add? (← x.mul? x)) Decimal.zero
  sum.sqrt?

def draw (f : Function) (seed : Seed) (digits : Option Decimal) : Except NoValue Decimal := do
  let value ← orOverflow f.name seed.fraction
  match digits with
  | none => return value
  | some d =>
    if d.isWhole ∧ Decimal.one ≤ d ∧ d ≤ .ofNat 28 then
      return (value.toSignificantBy Decimal.halfEven d.trunc.mantissa).getD value
    else .error (.domain f.name d.toText)

def signOf (x : Decimal) : Decimal :=
  if x.isZero then .zero else if x.negative then .ofInt (-1) else .one

def apply (f : Function) (seed : Seed) (args : List Decimal) : Except NoValue Decimal :=
  match f, args with
  | abs, x :: _ => .ok x.abs
  | ceil, x :: _ => .ok x.ceil
  | floor, x :: _ => .ok x.floor
  | trunc, x :: _ => .ok x.trunc
  | round, x :: _ => .ok x.round
  | sign, x :: _ => .ok (signOf x)
  | add, x :: y :: _ => Operator.add.apply x y
  | sub, x :: y :: _ => Operator.sub.apply x y
  | mul, x :: y :: _ => Operator.mul.apply x y
  | div, x :: y :: _ => Operator.div.apply x y
  | mod, x :: y :: _ => Operator.mod.apply x y
  | pow, x :: y :: _ => Operator.pow.apply x y
  | max, x :: rest => .ok (rest.foldl Decimal.larger x)
  | min, x :: rest => .ok (rest.foldl Decimal.smaller x)
  | hypot, args => orOverflow f.name (hypotenuse args)
  | sqrt, x :: _ => orDomain f.name x x.sqrt?
  | exp, x :: _ => orOverflow f.name x.exp?
  | ln, x :: _ => f.naturalLog x
  | log10, x :: _ =>
    if x ≤ .zero then .error (.domain f.name x.toText) else orDomain f.name x x.log10?
  | log2, x :: _ => f.logBase x (.ofNat 2)
  | log, [x] => f.logBase x (.ofNat 10)
  | log, x :: base :: _ => f.logBase x base
  | sin, x :: _ => orDomain f.name x x.sin?
  | cos, x :: _ => orDomain f.name x x.cos?
  | tan, x :: _ => orDomain f.name x x.tan?
  | asin, x :: _ => f.viaDouble Float.asin x
  | acos, x :: _ => f.viaDouble Float.acos x
  | atan, x :: _ => f.viaDouble Float.atan x
  | sinh, x :: _ => f.viaDouble Float.sinh x
  | cosh, x :: _ => f.viaDouble Float.cosh x
  | tanh, x :: _ => f.viaDouble Float.tanh x
  | asinh, x :: _ => f.viaDouble Float.asinh x
  | acosh, x :: _ => f.viaDouble Float.acosh x
  | atanh, x :: _ => f.viaDouble Float.atanh x
  | cbrt, x :: _ => f.viaDouble Binary64.cubeRoot x
  | atan2, y :: x :: _ => ofDouble f.name (Float.atan2 y.toBinary64 x.toBinary64)
  | random, args => f.draw seed args.head?
  | _, _ => .error (.missingArgument f)

end Function
end Reckon
