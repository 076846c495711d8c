/-
Settings of a calculation: the significant digits that each operation keeps and the nesting levels
that the parser accepts.
-/
namespace Reckon

structure Settings where
  precision : Nat
  maxDepth : Nat
deriving DecidableEq, Repr

namespace Settings

def maxPrecision : Nat := 28

def standard : Settings := ⟨20, 256⟩

def clamp (precision : Nat) : Nat := min (max precision 1) maxPrecision

def workingPrecision (settings : Settings) : Nat := clamp settings.precision

def withPrecision (settings : Settings) (precision : Nat) : Settings :=
  { settings with precision := clamp precision }

def withMaxDepth (settings : Settings) (maxDepth : Nat) : Settings := { settings with maxDepth }

end Settings
end Reckon
