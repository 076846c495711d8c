import Reckon.Decimal.Basic
import Reckon.Text.Characters

/-
The canonical text of a value: no superfluous zeros, and an exponent for numbers from 10^21 on and
below 10^(-6).
-/
namespace Reckon.Decimal

def exponentFrom : Int := 21
def exponentUpTo : Int := -7

def scientific (digits : List Char) (exponent : Int) : List Char :=
  let significant := Text.dropWhileEnd (· == '0') digits
  let fraction := significant.drop 1
  significant.take 1 ++ (if fraction.isEmpty then [] else '.' :: fraction)
    ++ 'e' :: (if exponent < 0 then '-' else '+') :: Nat.toDigits 10 exponent.natAbs

def toCanonical (d : Decimal) : String :=
  if d.isZero then "0"
  else
    let d := d.strip
    let exponent : Int := (d.digits.length : Int) - 1 - d.scale
    if exponentUpTo < exponent ∧ exponent < exponentFrom then d.toText
    else String.ofList ((if d.negative then ['-'] else []) ++ scientific d.digits exponent)

end Reckon.Decimal
