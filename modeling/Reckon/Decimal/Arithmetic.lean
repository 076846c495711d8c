import Reckon.Decimal.Rounding

/-
The four operations on decimals.  Each is exact when the result has room; else digits are dropped,
half to even, and `none` means that even the whole part has no room.
-/
namespace Reckon.Decimal

/-- Digits are appended nine at a time.  Whether a number is past 64 bits before the last of these
steps. -/
def outgrows (m places : Nat) : Bool := decide (2 ^ 64 ≤ m * 10 ^ ((places - 1) / 9 * 9))

/-- What a sum with more than `maxScale` places borrows.  If the operand with fewer places, brought
to the other scale, has outgrown 64 bits and the other one takes away more than there is, the
difference wraps around at the capacity and keeps its sign. -/
def borrow (coarse fine : Decimal) : Int :=
  if maxScale < fine.scale ∧ coarse.negative ≠ fine.negative
      ∧ outgrows coarse.mantissa (fine.scale - coarse.scale)
      ∧ (coarse.unitsAt fine.scale).natAbs < fine.mantissa then
    if coarse.negative then -capacity else capacity
  else 0

/-- A zero operand leaves the other one as it is, and a zero sum is positive. -/
def add? (a b : Decimal) : Option Decimal :=
  if a.isZero then some b
  else if b.isZero then some a
  else
    let scale := max a.scale b.scale
    let exact := a.unitsAt scale + b.unitsAt scale
    let result := fun (total : Int) (m, s) => (⟨decide (total < 0) && m != 0, m, s⟩ : Decimal)
    if exact.natAbs < capacity ∧ (scale ≤ maxScale ∨ a.scale = b.scale) then
      some (result exact (exact.natAbs, scale))
    else
      let total := exact + (if a.scale < b.scale then a.borrow b else b.borrow a)
      (fit total.natAbs scale).map (result total)

def sub? (a b : Decimal) : Option Decimal := a.add? (if b.isZero then b else -b)

/-- Products of two short mantissas are rounded at the last decimal place and may vanish; longer
ones go through `fit`. -/
def mul? (a b : Decimal) : Option Decimal :=
  if a.isZero ∨ b.isZero then some zero
  else
    let negative := a.negative != b.negative
    let m := a.mantissa * b.mantissa
    let s := a.scale + b.scale
    if a.mantissa < 2 ^ 32 ∧ b.mantissa < 2 ^ 32 then
      if s > 47 then some zero
      else if s > maxScale then
        let m := halfEven m (s - maxScale)
        some ⟨negative && m != 0, m, maxScale⟩
      else some ⟨negative, m, s⟩
    else if m < capacity ∧ s ≤ maxScale then some ⟨negative, m, s⟩
    else (fit m s).map fun (m, s) => ⟨negative, m, s⟩

/-- A quotient during long division: the digits found, what is left to divide, the decimal places
of the digits (below zero while whole digits are missing), and whether a fraction was begun. -/
structure Quotient where
  whole : Nat
  rest : Nat
  scale : Int
  fractional : Bool
deriving DecidableEq, Repr

def Quotient.room (q : Quotient) : Nat :=
  ((List.range 10).reverse.find? fun (p : Nat) =>
    q.whole * 10 ^ p < capacity ∧ q.scale + p ≤ maxScale).getD 0

def Quotient.shorten (q : Quotient) : Option Quotient :=
  if q.scale ≤ 0 then none
  else
    let digit := q.whole % 10
    let kept := q.whole / 10
    let up := digit > 5 ∨ (digit = 5 ∧ (q.rest ≠ 0 ∨ kept % 2 = 1))
    some { q with whole := if up then kept + 1 else kept, scale := q.scale - 1 }

def Quotient.close (divisor : Nat) (q : Quotient) : Option Quotient :=
  let up := 2 * q.rest > divisor ∨ (2 * q.rest = divisor ∧ q.whole % 2 = 1)
  let whole := if up then q.whole + 1 else q.whole
  if whole < capacity then some { q with whole } else shorten { q with whole }

/-- Appends digits until nothing is left or there is no more room.  Every round raises the scale,
so the rounds between the first scale and `maxScale` suffice. -/
def Quotient.extend (divisor : Nat) : Nat → Quotient → Option Quotient
  | 0, _ => none
  | rounds + 1, q =>
    if q.rest = 0 ∧ 0 ≤ q.scale then some q
    else
      let fractional := q.fractional || q.rest != 0
      let p := if q.rest = 0 then min 9 (-q.scale).toNat else q.room
      if q.rest ≠ 0 ∧ p < 9 ∧ q.scale + p < 0 then none
      else if p = 0 then close divisor { q with fractional }
      else if capacity ≤ q.whole * 10 ^ p then none
      else
        let next : Quotient :=
          { whole := q.whole * 10 ^ p + q.rest * 10 ^ p / divisor
            rest := q.rest * 10 ^ p % divisor
            scale := q.scale + p
            fractional }
        if capacity ≤ next.whole then shorten next else extend divisor rounds next

def dropZeros (count : Nat) : Nat × Nat → Nat × Nat
  | (m, s) => if m % 10 ^ count = 0 ∧ count ≤ s then (m / 10 ^ count, s - count) else (m, s)

/-- Drops final zeros eight at a time while the mantissa is also a multiple of 2^32. -/
def dropEights : Nat → Nat × Nat → Nat × Nat
  | 0, d => d
  | rounds + 1, (m, s) =>
    if m % 2 ^ 32 = 0 ∧ m % 10 ^ 8 = 0 ∧ 8 ≤ s then dropEights rounds (m / 10 ^ 8, s - 8)
    else (m, s)

/-- Cleans a quotient that was carried into its fraction: long runs of zeros first, then four, two
and one, each once. -/
def tidy (m s : Nat) : Nat × Nat :=
  dropZeros 1 (dropZeros 2 (dropZeros 4 (dropEights s (m, s))))

def div? (a b : Decimal) : Option Decimal :=
  if a.isZero then some zero
  else
    let scale := (a.scale : Int) - b.scale
    let start : Quotient := ⟨a.mantissa / b.mantissa, a.mantissa % b.mantissa, scale, false⟩
    (Quotient.extend b.mantissa ((maxScale - scale).toNat + 1) start).map fun q =>
      let (m, s) := if q.fractional then tidy q.whole q.scale.toNat else (q.whole, q.scale.toNat)
      ⟨a.negative != b.negative, m, s⟩

def larger (a b : Decimal) : Decimal := if a < b then b else a
def smaller (a b : Decimal) : Decimal := if b < a then b else a

end Reckon.Decimal
