import Reckon.Decimal.Power

/-
The exponential function, logarithms and powers with a fractional exponent.  Series run in wide
decimals; whole parts and scale factors are handled apart.
-/
namespace Reckon.Decimal

def euler : Decimal := ⟨false, 27182818284590452353602874714, 28⟩
def eulerInverse : Decimal := ⟨false, 3678794411714423215955237702, 28⟩
def ln10 : Decimal := ⟨false, 2302585092994045684017991454, 27⟩
def ln10Inverse : Decimal := ⟨false, 4342944819032518276511289189, 28⟩

def expFraction? (r : Decimal) : Option Wide := do
  let r := Wide.ofDecimal r
  let next := fun i (term : Wide) => (r.mul? (term.divSmall i)).map fun t => (t, t)
  Wide.sumSeries next 98 2 (← Wide.one.add? r) r

def expPositive? (x : Decimal) : Option Decimal :=
  if x.isZero then some one
  else do
    let whole := x.floor
    let r ← x.sub? whole
    let fraction ← if r.isZero then some Wide.one else expFraction? r
    if whole.mantissa = 0 then fraction.toDecimal?
    else if 2 ^ 64 ≤ whole.mantissa then none
    else
      let power ← raise Wide.mul? (bits whole.mantissa) Wide.one (Wide.ofDecimal euler)
      (← (← power.mul? fraction).toDecimal?).strip

def exp? (x : Decimal) : Option Decimal :=
  if x.negative && !x.isZero then do
    let power ← expPositive? (-x)
    if power.isZero then none else one.div? power
  else expPositive? x

def scaleWhile (outside : Decimal → Bool) (step : Decimal → Option Decimal) :
    Nat → Decimal → Nat → Option (Decimal × Nat)
  | 0, _, _ => none
  | rounds + 1, x, count =>
    if outside x then do scaleWhile outside step rounds (← step x) (count + 1) else some (x, count)

/-- The logarithm of a number between 1/e and 1, as twice the sum of z^(2n+1) / (2n+1) at
z = (x - 1) / (x + 1). -/
def lnSeries? (a b : Wide) : Option Decimal := do
  let z := Wide.ofDecimal (← (← a.toDecimal?).div? (← b.toDecimal?))
  let square ← z.mul? z
  let next := fun n (power : Wide) =>
    (power.mul? square).map fun t => (t.divSmall (2 * n + 1), t)
  let sum ← Wide.sumSeries next 99 1 z z
  ((Wide.ofDecimal (ofNat 2)).mul? sum).bind Wide.toDecimal?

/-- The logarithm of a number that is greater than zero: powers of ten are divided out first, then
powers of e. -/
def ln? (v : Decimal) : Option Decimal :=
  if v.Same one then some zero
  else do
    let (x, ups) ← scaleWhile (· < one) (·.mul? (ofNat 10)) 100 v 0
    let (x, downs) ← scaleWhile (ofNat 10 ≤ ·) (·.div? (ofNat 10)) 100 x 0
    let k : Int := downs - ups
    let tens ← if k = 0 then some zero else (ofInt k).mul? ln10
    if x.Same one then some tens.strip
    else
      let (x, shrinks) ← scaleWhile (one ≤ ·) (·.mul? eulerInverse) 100 x 0
      let (x, grows) ← scaleWhile (· ≤ eulerInverse) (·.mul? euler) 100 x 0
      let c := ofInt ((shrinks : Int) - grows)
      let a ← (Wide.ofDecimal x).add? Wide.one.neg
      let b ← (Wide.ofDecimal x).add? Wide.one
      if a.mantissa = 0 then some c
      else (← (← tens.add? c).add? (← lnSeries? a b)).strip

def powerOfTen? (m : Nat) : Option Nat :=
  ((List.range 29).find? fun j => m = 10 ^ j).filter (0 < ·)

def log10? (v : Decimal) : Option Decimal :=
  if v.Same one then some zero
  else if v.mantissa = 1 ∧ v.scale > 0 then some (ofInt (-(v.scale : Int)))
  else
    match powerOfTen? v.mantissa with
    | some j => some (ofInt ((j : Int) - v.scale))
    | none => do ln10Inverse.mul? (← v.ln?)

/-- Powers of a base greater than zero, for exponents that no machine integer holds. -/
def pow? (base exponent : Decimal) : Option Decimal :=
  if base.Same one then some one
  else if exponent.isWhole then none
  else do exp? (← (← base.ln?).mul? exponent.strip)

end Reckon.Decimal
