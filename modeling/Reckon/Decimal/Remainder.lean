import Reckon.Decimal.Basic

/-
The remainder of truncated division.  A divisor below 2^64 leaves the exact remainder.  A longer one
is divided by hand in base 2^32, where a quotient digit is one word: it is estimated from the top
word of the divisor, and of an estimate that needs two words only the lower one counts.
-/
namespace Reckon.Decimal

/-- What four words leave after division by three words whose top bit is set.  The estimate never
falls short, so the divisor is added back while too much was taken away. -/
def windowRemainder (divisor window : Nat) : Nat :=
  let digit := window / 2 ^ 64 / (divisor / 2 ^ 64)
  let rest : Nat := window / 2 ^ 64 % (divisor / 2 ^ 64) * 2 ^ 64 + window % 2 ^ 64
  let taken : Nat := digit % 2 ^ 32 * (divisor % 2 ^ 64)
  (((rest : Int) - taken) % divisor).toNat

def longRemainder (divisor dividend : Nat) : Nat :=
  if dividend < 2 ^ 32 then dividend
  else
    windowRemainder divisor
      (longRemainder divisor (dividend / 2 ^ 32) * 2 ^ 32 + dividend % 2 ^ 32)
termination_by dividend

/-- The remainder of mantissas.  Long division first shifts both until the divisor fills three
words. -/
def mantissaRemainder (dividend divisor : Nat) : Nat :=
  if divisor < 2 ^ 64 then dividend % divisor
  else
    let shift := 95 - divisor.log2
    longRemainder (divisor <<< shift) (dividend <<< shift) >>> shift

/-- Division by a divisor other than zero.  The result has the sign of the dividend.  A dividend
that is no smaller than the divisor needs room for the decimal places by which the divisor is ahead
of it, less `maxScale`. -/
def rem? (a b : Decimal) : Option Decimal :=
  let scale := max a.scale b.scale
  let dividend := (a.unitsAt scale).natAbs
  let divisor := (b.unitsAt scale).natAbs
  if dividend = 0 ∨ dividend = divisor then some zero
  else if dividend < divisor then some a
  else if capacity ≤ a.mantissa * 10 ^ (b.scale - a.scale - maxScale) then none
  else
    let m := mantissaRemainder dividend divisor
    some ⟨a.negative && m != 0, m, scale⟩

end Reckon.Decimal
