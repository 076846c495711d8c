import Reckon.Decimal.Arithmetic

/-
Wide decimals: signed decimals with mantissas below 2^192, which carry the power series of
exponentials, logarithms and trigonometric functions before the result becomes a decimal again.
-/
namespace Reckon

structure Wide where
  negative : Bool
  mantissa : Nat
  scale : Nat
deriving DecidableEq, Repr

namespace Wide

def capacity : Nat := 2 ^ 192

def maxScale : Nat := 57

def zero : Wide := ⟨false, 0, 0⟩
def one : Wide := ⟨false, 1, 0⟩

def ofDecimal (d : Decimal) : Wide := ⟨d.negative, d.mantissa, d.scale⟩

def bitLength (m : Nat) : Nat := if m = 0 then 0 else m.log2 + 1

/-- Drops digits up to nine at a time until `planned` digits are gone and the mantissa fits in
`words` 32-bit words.  Only the remainder of the last step decides the rounding. -/
def squeezeSteps (words : Nat) : Nat → Nat → Nat → Nat → Nat → Option (Nat × Nat × Nat)
  | 0, _, _, _, _ => none
  | rounds + 1, m, s, planned, rest =>
    if planned = 0 ∧ m < 2 ^ (32 * words) then some (m, s, rest)
    else
      let k := Nat.max 1 (Nat.min planned 9)
      let (m, s, planned, rest) := (m / 10 ^ k, s - k, planned - k, m % 10 ^ k)
      if planned = 0 ∧ 2 ^ (32 * words) ≤ m then
        if s = 0 then none else squeezeSteps words rounds m s 1 rest
      else squeezeSteps words rounds m s planned rest

def squeeze (words places m s : Nat) : Option (Nat × Nat) :=
  let oversized := 2 ^ (32 * words) ≤ m
  if ¬ oversized ∧ s ≤ Decimal.maxScale then some (m, s)
  else
    let planned := if oversized then (bitLength m - 32 * words) * 77 / 256 + 1 else 0
    let planned := if s > places + planned then s - places else planned
    if planned = 0 ∧ ¬ oversized then some (m, s)
    else if planned > s then none
    else
      match squeezeSteps words (s + 1) m s planned 0 with
      | none => none
      | some (m, s, rest) =>
        let m := if rest > 1 ∨ (rest = 1 ∧ m % 2 = 1) then m + 1 else m
        if m < 2 ^ (32 * words) then some (m, s)
        else if s = 0 then none
        else some (m / 10, s - 1)

def toDecimal? (w : Wide) : Option Decimal :=
  let fitted :=
    if w.mantissa < Decimal.capacity ∧ w.scale ≤ Decimal.maxScale then some (w.mantissa, w.scale)
    else squeeze 3 Decimal.maxScale w.mantissa w.scale
  fitted.map fun (m, s) => ⟨w.negative && m != 0, m, s⟩

/-- Rounds a product to `maxScale` places in chunks of at most nine digits, each half to even. -/
def trimPlaces : Nat → Nat → Nat → Nat × Nat
  | 0, m, s => (m, s)
  | rounds + 1, m, s =>
    if s ≤ maxScale then (m, s)
    else
      let k := Nat.min (s - maxScale) 9
      trimPlaces rounds (Decimal.halfEven m k) (s - k)

def mul? (a b : Wide) : Option Wide :=
  if a.mantissa = 0 ∨ b.mantissa = 0 then some zero
  else
    let m := a.mantissa * b.mantissa
    let s := a.scale + b.scale
    let fitted := if m < capacity then some (trimPlaces s m s) else squeeze 6 maxScale m s
    fitted.map fun (m, s) => ⟨a.negative != b.negative, m, s⟩

def add? (a b : Wide) : Option Wide :=
  if a.mantissa = 0 then some b
  else if b.mantissa = 0 then some a
  else
    let s := Nat.max a.scale b.scale
    let left := a.mantissa * 10 ^ (s - a.scale)
    let right := b.mantissa * 10 ^ (s - b.scale)
    if capacity ≤ left ∨ capacity ≤ right then none
    else if a.negative ≠ b.negative then
      if right ≤ left then some ⟨a.negative, left - right, s⟩
      else some ⟨!a.negative, right - left, s⟩
    else if left + right < capacity then some ⟨a.negative, left + right, s⟩
    else if s = 0 then none
    else some ⟨a.negative, Decimal.halfUp (left + right) 1, s - 1⟩

def divideSteps (divisor : Nat) : Nat → Nat → Nat → Nat → Nat × Nat × Nat
  | 0, q, r, s => (q, r, s)
  | rounds + 1, q, r, s =>
    let k := Nat.min 9 ((192 - bitLength q) * 77 / 256)
    if r = 0 ∨ k = 0 ∨ s + k > maxScale then (q, r, s)
    else
      let digits := r * 10 ^ k
      divideSteps divisor rounds (q * 10 ^ k + digits / divisor) (digits % divisor) (s + k)

def divSmall (w : Wide) (divisor : Nat) : Wide :=
  if w.mantissa = 0 ∨ divisor = 1 then w
  else
    let (q, r, s) := divideSteps divisor 64 (w.mantissa / divisor) (w.mantissa % divisor) w.scale
    let up := r > 0 ∧ (r > divisor / 2 ∨ (r = divisor / 2 ∧ q % 2 = 1))
    ⟨w.negative, if up then q + 1 else q, s⟩

def neg (w : Wide) : Wide := { w with negative := !w.negative }

def negligible (w : Wide) : Bool :=
  w.mantissa == 0 || (38 ≤ w.scale && w.mantissa < 2 ^ 32) || (48 ≤ w.scale && w.mantissa < 2 ^ 64)
    || (57 ≤ w.scale && w.mantissa < 2 ^ 96)

/-- Adds terms to a sum until one is negligible or `rounds` terms were added.  `next` takes the
index of a term and what the previous one left, and gives the term and what it leaves. -/
def sumSeries (next : Nat → Wide → Option (Wide × Wide)) : Nat → Nat → Wide → Wide → Option Wide
  | 0, _, sum, _ => some sum
  | rounds + 1, i, sum, state => do
    let (term, state) ← next i state
    let sum ← sum.add? term
    if term.negligible then some sum else sumSeries next rounds (i + 1) sum state

end Wide
end Reckon
