import Reckon.Binary64.Shortest
import Reckon.Decimal.Rounding

/-
Between decimals and doubles.  A double becomes the decimal of its shortest text; a decimal becomes
a double by dividing its whole and fractional parts apart and rounding the sum at its last place.
-/
namespace Reckon.Decimal

/-- The number d·10^g as a decimal.  Places beyond `maxScale` are rounded off by the first of them
alone, a zero is positive, and nothing is returned if the whole part has no room. -/
def ofScientific? (negative : Bool) (d : Nat) (g : Int) : Option Decimal :=
  let scale := (-g).toNat
  let (m, s) :=
    if scale > maxScale then (halfUp d (scale - maxScale), maxScale) else (d * 10 ^ g.toNat, scale)
  if m < capacity then some ⟨negative && m != 0, m, s⟩ else none

def ofBinary64? (x : Float) : Option Decimal :=
  match Binary64.shape x with
  | .finite negative m q =>
    if m = 0 then some zero
    else (Binary64.shortest m q).bind fun (d, g) => ofScientific? negative d g
  | _ => none

def nearest (n : Nat) : Float := Float.ofScientific n false 0

def tenPower (n : Nat) (power square : Float) : Float :=
  let power := if n % 2 = 1 then power * square else power
  if n < 2 then power else tenPower (n / 2) power (square * square)
termination_by n

def toBinary64 (d : Decimal) : Float :=
  let sign := fun x : Float => if d.negative then -x else x
  if d.scale = 0 then
    let x := nearest d.mantissa
    if d.isZero then x else sign x
  else
    let whole := nearest (d.mantissa / 10 ^ d.scale)
    let fraction := nearest (d.mantissa % 10 ^ d.scale) / nearest (10 ^ d.scale)
    if fraction == 0 then sign whole
    else
      let unit := tenPower d.scale 1 10
      sign (Float.round ((whole + fraction) * unit) / unit)

end Reckon.Decimal
