import Reckon.Powers

/-
Doubles as exact numbers ±m·2^q, and the shortest decimal that reads back as a given double: on the
coarsest decimal grid that has a point in the double's rounding interval, the point nearest to it.
-/
namespace Reckon.Binary64

inductive Shape where
  | finite (negative : Bool) (mantissa : Nat) (exponent : Int)
  | infinite (negative : Bool)
  | undefined
deriving DecidableEq, Repr

def hiddenBit : Nat := 2 ^ 52
def leastExponent : Int := -1074

def shape (x : Float) : Shape :=
  let bits := x.toBits.toNat
  let negative := 2 ^ 63 ≤ bits
  let field := bits / hiddenBit % 2 ^ 11
  let fraction := bits % hiddenBit
  if field = 2047 then (if fraction = 0 then .infinite negative else .undefined)
  else if field = 0 then .finite negative fraction leastExponent
  else .finite negative (hiddenBit + fraction) (leastExponent + (field - 1 : Nat))

def isFinite (x : Float) : Bool :=
  match shape x with
  | .finite .. => true
  | _ => false

/-- The rounding interval of a double around its centre, in quarters of its last place. -/
structure Interval where
  low : Nat
  centre : Nat
  high : Nat
  closed : Bool
deriving DecidableEq, Repr

/-- Below a power of two the gap to the next double is half as wide. -/
def interval (m : Nat) (q : Int) : Interval :=
  let narrow := m = hiddenBit ∧ q > leastExponent
  ⟨if narrow then 4 * m - 1 else 4 * m - 2, 4 * m, 4 * m + 2, m % 2 == 0⟩

/-- The point of the grid of multiples of 10^g that lies in the interval and nearest to its centre,
the upper one on a tie. -/
def gridPoint (i : Interval) (q g : Int) : Option Nat :=
  let unit := 2 ^ (q - 2).toNat * 10 ^ (-g).toNat
  let step := 2 ^ (2 - q).toNat * 10 ^ g.toNat
  let inside := fun point =>
    if i.closed then i.low * unit ≤ point * step ∧ point * step ≤ i.high * unit
    else i.low * unit < point * step ∧ point * step < i.high * unit
  let below := i.centre * unit / step
  let above := below + 1
  let nearer := if above * step - i.centre * unit ≤ i.centre * unit - below * step
    then [above, below] else [below, above]
  nearer.find? fun point => decide (inside point)

def coarsestPoint (i : Interval) (q : Int) : Nat → Int → Option (Nat × Int)
  | 0, _ => none
  | rounds + 1, g =>
    match gridPoint i q g with
    | some point => some (point, g)
    | none => coarsestPoint i q rounds (g - 1)

/-- Digits d and exponent g with d·10^g the shortest decimal of m·2^q, for m > 0.  The search starts
at a power of ten above the number and ends within seventeen digits. -/
def shortest (m : Nat) (q : Int) : Option (Nat × Int) :=
  coarsestPoint (interval m q) q 40 ((q + m.log2 + 1) * 30103 / 100000 + 1)

end Reckon.Binary64
