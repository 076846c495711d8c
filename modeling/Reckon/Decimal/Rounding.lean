import Reckon.Decimal.Basic

/-
Dropping digits: exact half-even and half-away quotients by a power of ten, the reduction of an
oversized result to the range of a decimal, and rounding to whole numbers or significant digits.
-/
namespace Reckon.Decimal

def halfEven (m k : Nat) : Nat :=
  let q := m / 10 ^ k
  let twice := 2 * (m % 10 ^ k)
  if twice > 10 ^ k ∨ (twice = 10 ^ k ∧ q % 2 = 1) then q + 1 else q

def halfUp (m k : Nat) : Nat :=
  let q := m / 10 ^ k
  if 10 ^ k ≤ 2 * (m % 10 ^ k) then q + 1 else q

def excess (m : Nat) : Nat :=
  if m < capacity then 0 else excess (m / 10) + 1
termination_by m
decreasing_by simp [capacity] at *; omega

/-- Brings m·10^(-s) into range with the least loss: enough digits are dropped, half to even, to
leave at most `maxScale` places and a mantissa below the capacity. -/
def fit (m s : Nat) : Option (Nat × Nat) :=
  let drop := max (s - maxScale) (excess m)
  if drop > s then none
  else
    let m := halfEven m drop
    let s := s - drop
    if m < capacity then some (m, s)
    else if s = 0 then none
    else some (halfEven m 1, s - 1)

def trunc (d : Decimal) : Decimal :=
  if d.scale = 0 then d else ⟨d.negative, d.mantissa / 10 ^ d.scale, 0⟩

def floor (d : Decimal) : Decimal :=
  if d.negative && !d.isWhole then { d.trunc with mantissa := d.trunc.mantissa + 1 } else d.trunc

def ceil (d : Decimal) : Decimal :=
  if !d.negative && !d.isWhole then { d.trunc with mantissa := d.trunc.mantissa + 1 } else d.trunc

/-- One half as a mantissa with the given number of places.  It wraps around at the capacity, which
happens from 30 places on. -/
def halfAt (scale : Nat) : Nat := 5 * 10 ^ (scale - 1) % capacity

def round (d : Decimal) : Decimal :=
  if d.scale = 0 then d
  else
    let up := halfAt d.scale ≤ d.mantissa % 10 ^ d.scale
    ⟨d.negative, if up then d.mantissa / 10 ^ d.scale + 1 else d.mantissa / 10 ^ d.scale, 0⟩

def digitCount (d : Decimal) : Nat := d.digits.length

def pad : Nat → Decimal → Decimal
  | 0, d => d
  | room + 1, d =>
    if d.mantissa * 10 < capacity then pad room ⟨d.negative, d.mantissa * 10, d.scale + 1⟩ else d

/-- To `precision` significant digits by the given quotient rule, or nothing if the rounded number
has no room.  A shorter number is padded with zeros, also past `maxScale` places. -/
def toSignificantBy (quotient : Nat → Nat → Nat) (d : Decimal) (precision : Nat) : Option Decimal :=
  if d.isZero ∨ precision = 0 then some zero
  else if d.digitCount ≤ precision then some (d.pad (precision - d.digitCount))
  else
    let surplus := d.digitCount - precision
    let m := quotient d.mantissa surplus
    if surplus ≤ d.scale then some ⟨d.negative, m, d.scale - surplus⟩
    else
      let m := m * 10 ^ (surplus - d.scale)
      if m < capacity then some ⟨d.negative, m, 0⟩ else none

/-- To `precision` significant digits, a half away from zero.  A number whose rounding has no room
stays as it is. -/
def roundSignificant (d : Decimal) (precision : Nat) : Decimal :=
  (toSignificantBy halfUp d precision).getD d

end Reckon.Decimal
