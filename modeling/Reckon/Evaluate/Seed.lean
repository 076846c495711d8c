import Reckon.Binary64.Conversion

/-
Random numbers without hidden state: a seed is split on the way down a tree, so that every call of
`random` draws from a seed of its own.
-/
namespace Reckon

structure Seed where
  state : UInt64
deriving DecidableEq, Repr

namespace Seed

def mix (state : UInt64) : UInt64 :=
  let z := state + 0x9E3779B97F4A7C15
  let z := (z ^^^ (z >>> 30)) * 0xBF58476D1CE4E5B9
  let z := (z ^^^ (z >>> 27)) * 0x94D049BB133111EB
  z ^^^ (z >>> 31)

def left (seed : Seed) : Seed := ⟨mix (2 * seed.state)⟩
def right (seed : Seed) : Seed := ⟨mix (2 * seed.state + 1)⟩

def fraction (seed : Seed) : Option Decimal :=
  Decimal.ofBinary64? (Decimal.nearest (mix seed.state >>> 11).toNat / Decimal.nearest (2 ^ 53))

end Seed
end Reckon
