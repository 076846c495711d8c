import Reckon.Decimal.Basic
import Reckon.Text.Characters

/-
Number literals: digits with an optional point, then an optional decimal exponent after `e`, then
an optional binary exponent after `p`.  A literal is read exactly or not at all.
-/
namespace Reckon.Decimal

def digitsValue (digits : List Char) : Nat :=
  digits.foldl (fun n c => 10 * n + (c.toNat - '0'.toNat)) 0

def natural? (text : List Char) : Option Nat :=
  if text.isEmpty || !text.all Text.isDigit then none else some (digitsValue text)

def exponent? (text : List Char) : Option Int := do
  let i : Int ← match text with
    | '-' :: digits => (natural? digits).map fun n => -(n : Int)
    | '+' :: digits => (natural? digits).map Int.ofNat
    | digits => (natural? digits).map Int.ofNat
  if -2 ^ 63 ≤ i ∧ i < 2 ^ 63 then some i else none

def splitExponent (marker : Char) (text : List Char) : Option (List Char × Int) :=
  match text.dropWhile (· != marker) with
  | [] => some (text, 0)
  | _ :: exponent => (exponent? exponent).map fun i => (text.takeWhile (· != marker), i)

def splitPoint (text : List Char) : List Char × List Char :=
  (text.takeWhile (· != '.'), (text.dropWhile (· != '.')).drop 1)

def exact (m s : Nat) : Option Decimal :=
  let (m, s) := stripDigits m s
  if m < capacity ∧ s ≤ maxScale then some ⟨false, m, s⟩ else none

def maxDigits : Nat := 29

/-- The number m·10^power, for m > 0.  A power of ten beyond the digits of any mantissa has no
room.  The power is not held to 64 bits, and that changes no answer: digits without a zero at the
end have room at fewer than 29 places either way, so a sum that leaves 64 bits on the way to the
power, or a power whose negation leaves them, has none (`scaleByTen_sum64`). -/
def scaleByTen (m : Nat) (power : Int) : Option Decimal :=
  if power < 0 then exact m (-power).toNat
  else if power < maxDigits then exact (m * 10 ^ power.toNat) 0
  else none

/-- The value of digits with an optional point, scaled by a power of ten.  Zeros at either end do
not count as digits of the mantissa. -/
def mantissa? (text : List Char) (exponent : Int) : Option Decimal :=
  let (whole, fraction) := splitPoint text
  if (whole.isEmpty && fraction.isEmpty) || !(whole ++ fraction).all Text.isDigit then none
  else
    let significant := (whole ++ fraction).dropWhile (· == '0')
    let kept := Text.dropWhileEnd (· == '0') significant
    if kept.isEmpty then some zero
    else if kept.length > maxDigits then none
    else
      scaleByTen (digitsValue kept)
        (exponent + (significant.length - kept.length : Nat) - fraction.length)

/-- Intermediate products of binary scaling stay below this bound. -/
def workspace : Nat := 2 ^ 127

/-- The number d·2^exponent.  A negative power of two is a power of five with as many more
places. -/
def scaleByTwo (d : Decimal) (exponent : Int) : Option Decimal :=
  if exponent = 0 ∨ d.isZero then some d
  else if exponent.natAbs ≥ 127 then none
  else
    let shift := exponent.natAbs
    let d := d.strip
    let m := d.mantissa * (if exponent > 0 then 2 else 5) ^ shift
    if m ≥ workspace then none
    else exact m (if exponent > 0 then d.scale else d.scale + shift)

def literal? (raw : String) : Option Decimal := do
  let (rest, binary) ← splitExponent 'p' raw.toList
  let (mantissa, decimal) ← splitExponent 'e' rest
  scaleByTwo (← mantissa? mantissa decimal) binary

end Reckon.Decimal
