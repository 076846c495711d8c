import Reckon.Binary64.Shortest

/-
The cube root of a double, correctly rounded: a root with two spare bits is found in whole numbers,
then rounded once.
-/
namespace Reckon.Binary64

/-- The greatest number whose cube is at most n, among those that add lower bits to `root`. -/
def cubeRootBits (n : Nat) : Nat → Nat → Nat
  | 0, root => root
  | bit + 1, root =>
    let next := root + 2 ^ bit
    cubeRootBits n bit (if next ^ 3 ≤ n then next else root)

def cubeRootOf (m : Nat) (q : Int) : UInt64 :=
  let t := (q + m.log2) / 3 - 54
  let n := m * 2 ^ (q - 3 * t).toNat
  let root := cubeRootBits n 56 0
  let spare := root % 4
  let up := spare = 3 ∨ (spare = 2 ∧ (root ^ 3 < n ∨ root / 4 % 2 = 1))
  let significand := if up then root / 4 + 1 else root / 4
  UInt64.ofNat ((t + 2 + 52 + 1023).toNat * hiddenBit + significand - hiddenBit)

def cubeRoot (x : Float) : Float :=
  match shape x with
  | .finite negative m q =>
    if m = 0 then x
    else
      let root := Float.ofBits (cubeRootOf m q)
      if negative then -root else root
  | _ => x

end Reckon.Binary64
