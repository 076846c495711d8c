import Reckon.Powers

/-
Signed decimals.  ⟨negative, mantissa, scale⟩ stands for ±mantissa·10^(-scale); trailing zeros and
the sign of zero are part of the representation, not of the value.  Comparison is by value.
-/
namespace Reckon

structure Decimal where
  negative : Bool
  mantissa : Nat
  scale : Nat
deriving DecidableEq, Repr

namespace Decimal

def capacity : Nat := 2 ^ 96

/-- The decimal places that arithmetic keeps.  Padding a rounded result with zeros may pass it. -/
def maxScale : Nat := 28

def Valid (d : Decimal) : Prop := d.mantissa < capacity ∧ d.scale ≤ maxScale

instance (d : Decimal) : Decidable d.Valid := inferInstanceAs (Decidable (_ ∧ _))

def zero : Decimal := ⟨false, 0, 0⟩
def one : Decimal := ⟨false, 1, 0⟩
def ofNat (n : Nat) : Decimal := ⟨false, n, 0⟩
def ofInt (i : Int) : Decimal := ⟨decide (i < 0), i.natAbs, 0⟩

def isZero (d : Decimal) : Bool := d.mantissa == 0

def signed (d : Decimal) : Int := if d.negative then -(d.mantissa : Int) else d.mantissa

def unitsAt (d : Decimal) (scale : Nat) : Int := d.signed * 10 ^ (scale - d.scale)

def cmp (a b : Decimal) : Ordering :=
  compare (a.unitsAt (max a.scale b.scale)) (b.unitsAt (max a.scale b.scale))

instance : LE Decimal := ⟨fun a b => a.cmp b ≠ .gt⟩
instance : LT Decimal := ⟨fun a b => a.cmp b = .lt⟩
instance (a b : Decimal) : Decidable (a ≤ b) := inferInstanceAs (Decidable (_ ≠ _))
instance (a b : Decimal) : Decidable (a < b) := inferInstanceAs (Decidable (_ = _))

/-- Equality of value: 1.50 is the same as 1.5, and -0 the same as 0. -/
def Same (a b : Decimal) : Prop := a.cmp b = .eq

instance (a b : Decimal) : Decidable (a.Same b) := inferInstanceAs (Decidable (_ = _))

def neg (d : Decimal) : Decimal := { d with negative := !d.negative }
def abs (d : Decimal) : Decimal := { d with negative := false }

instance : Neg Decimal := ⟨neg⟩

def stripDigits : Nat → Nat → Nat × Nat
  | m, 0 => (m, 0)
  | m, s + 1 => if m % 10 = 0 then stripDigits (m / 10) s else (m, s + 1)

/-- The same value with the fewest decimal places; zero loses its sign. -/
def strip (d : Decimal) : Decimal :=
  let (m, s) := stripDigits d.mantissa d.scale
  ⟨d.negative && m != 0, m, s⟩

def isWhole (d : Decimal) : Bool := d.mantissa % 10 ^ d.scale == 0

def digits (d : Decimal) : List Char := Nat.toDigits 10 d.mantissa

def pointed (digits : List Char) (scale : Nat) : List Char :=
  if scale = 0 then digits
  else
    let padded := List.replicate (scale + 1 - digits.length) '0' ++ digits
    padded.take (padded.length - scale) ++ '.' :: padded.drop (padded.length - scale)

/-- Positional notation with every decimal place written, final zeros and the sign of zero
included.  A padded value can have more than 30 places; all of them are written. -/
def toText (d : Decimal) : String :=
  String.ofList ((if d.negative then ['-'] else []) ++ pointed d.digits d.scale)

end Decimal
end Reckon
