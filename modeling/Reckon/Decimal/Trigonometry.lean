import Reckon.Decimal.Power
import Reckon.Decimal.Remainder

/-
Sine, cosine and tangent.  Arguments are brought into the first eighth of a turn by symmetry, then
a power series is summed.
-/
namespace Reckon.Decimal

def pi : Decimal := ⟨false, 31415926535897932384626433833, 28⟩
def twoPi : Decimal := ⟨false, 62831853071795864769252867666, 28⟩
def halfPi : Decimal := ⟨false, 15707963267948966192313216916, 28⟩
def quarterPi : Decimal := ⟨false, 7853981633974483096156608458, 28⟩
def eighthPi : Decimal := ⟨false, 3926990816987241548078304229, 28⟩

inductive Wave where
  | sine
  | cosine
deriving DecidableEq, Repr

/-- The series at a small argument.  The terms of both alternate; those of the sine are x^(2n+1) /
(2n+1)!, those of the cosine x^(2n) / (2n)!. -/
def Wave.series? (wave : Wave) (x : Decimal) : Option Decimal := do
  let x := Wide.ofDecimal x
  let square ← x.mul? x
  let (first, divisor) := match wave with
    | .sine => (x, fun n => (2 * n + 2) * (2 * n + 3))
    | .cosine => (Wide.one, fun n => (2 * n + 1) * (2 * n + 2))
  let next := fun n (term : Wide) =>
    (term.mul? square).map fun t => let t := (t.divSmall (divisor n)).neg; (t, t)
  let sum ← Wide.sumSeries next 50 0 first first
  (← sum.toDecimal?).strip

/-- Each reduction either changes the sign, the turn, the half-turn or the wave, so ten reach the
first eighth. -/
def Wave.reduce : Nat → Wave → Decimal → Option Decimal
  | 0, _, _ => none
  | rounds + 1, wave, x =>
    if x.isZero then some (match wave with | .sine => zero | .cosine => one)
    else if x.negative then
      match wave with
      | .sine => (reduce rounds .sine (-x)).map neg
      | .cosine => reduce rounds .cosine (-x)
    else if twoPi ≤ x then do reduce rounds wave (← x.rem? twoPi)
    else if pi ≤ x then do (← reduce rounds wave (← x.sub? pi)).neg
    else if quarterPi < x then do
      let other := match wave with | .sine => .cosine | .cosine => .sine
      reduce rounds other (← halfPi.sub? x)
    else wave.series? x

def sin? (x : Decimal) : Option Decimal := Wave.reduce 10 .sine x
def cos? (x : Decimal) : Option Decimal := Wave.reduce 10 .cosine x

def tangentTerms : List (Nat × Decimal) :=
  [(3, ⟨false, 3333333333333333333333333333, 28⟩),
   (5, ⟨false, 1333333333333333333333333333, 28⟩),
   (7, ⟨false, 53968253968253968253968254, 27⟩),
   (9, ⟨false, 218694885361552028218694885, 28⟩),
   (11, ⟨false, 88632355299021965688632355, 28⟩),
   (13, ⟨false, 35921280365724810169254614, 28⟩)]

def tangentSeries? (x : Decimal) : Option Decimal :=
  tangentTerms.foldlM (fun sum (k, factor) => do sum.add? (← factor.mul? (← x.powNat? k))) x

def tangent : Nat → Decimal → Option Decimal
  | 0, _ => none
  | rounds + 1, x =>
    if x.isZero then some zero
    else if x.negative then (tangent rounds (-x)).map neg
    else if twoPi ≤ x then do tangent rounds (← x.rem? twoPi)
    else if pi ≤ x then do tangent rounds (← x.sub? pi)
    else if halfPi < x then do (← tangent rounds (← (← halfPi.sub? x).add? halfPi)).neg
    else if quarterPi < x then do
      let inverse ← tangent rounds (← halfPi.sub? x)
      if inverse.isZero then none else one.div? inverse
    else if eighthPi < x then do
      let half ← tangent rounds (← x.div? (ofNat 2))
      let divisor ← one.sub? (← half.mul? half)
      if divisor.isZero then none else (← (ofNat 2).mul? half).div? divisor
    else tangentSeries? x

def tan? (x : Decimal) : Option Decimal := tangent 10 x

end Reckon.Decimal
