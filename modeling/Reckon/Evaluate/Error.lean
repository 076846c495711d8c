import Reckon.Vocabulary

/-
Why an expression has no value.
-/
namespace Reckon

/-- `missingArgument` is reserved for calls with fewer arguments than their function needs, which no
well-formed tree has. -/
inductive NoValue where
  | divisionByZero
  | overflow (operation : String)
  | domain (operation input : String)
  | invalidLiteral (raw : String)
  | missingArgument (function : Function)
deriving DecidableEq, Repr

def NoValue.message : NoValue → String
  | divisionByZero => "division by zero"
  | overflow operation => "overflow in " ++ operation
  | domain operation input => operation ++ " is undefined for " ++ input
  | invalidLiteral raw => "'" ++ raw ++ "' is not a representable decimal"
  | missingArgument function => "missing argument of " ++ function.name

end Reckon
