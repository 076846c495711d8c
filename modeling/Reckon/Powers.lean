/-
Powers with natural exponents are those that are evaluated, whatever other powers an algebraic
hierarchy offers for the same numbers.
-/
namespace Reckon

@[default_instance 20000]
instance (priority := 20000) naturalPower {α : Type} [NatPow α] : Pow α Nat := instPowNat

end Reckon
