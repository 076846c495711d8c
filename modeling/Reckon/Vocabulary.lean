import Reckon.Decimal.Basic
import Reckon.Text.Characters

/-
The closed vocabulary of expressions: constants, functions with their argument counts, binary
operators with their tiers, and signs.
-/
namespace Reckon

inductive Constant where
  | e | ln2 | ln10 | log2e | log10e | pi | sqrtHalf | sqrt2
deriving DecidableEq, Repr

namespace Constant

def all : List Constant := [e, ln2, ln10, log2e, log10e, pi, sqrtHalf, sqrt2]

def name : Constant → String
  | e => "E"
  | ln2 => "LN2"
  | ln10 => "LN10"
  | log2e => "LOG2E"
  | log10e => "LOG10E"
  | pi => "PI"
  | sqrtHalf => "SQRT1_2"
  | sqrt2 => "SQRT2"

def ofName? (name : String) : Option Constant := all.find? (·.name == name)

def value : Constant → Decimal
  | e => ⟨false, 2718281828459045, 15⟩
  | ln2 => ⟨false, 6931471805599453, 16⟩
  | ln10 => ⟨false, 2302585092994046, 15⟩
  | log2e => ⟨false, 14426950408889634, 16⟩
  | log10e => ⟨false, 4342944819032518, 16⟩
  | pi => ⟨false, 3141592653589793, 15⟩
  | sqrtHalf => ⟨false, 7071067811865476, 16⟩
  | sqrt2 => ⟨false, 14142135623730951, 16⟩

def double (c : Constant) : Float := Float.ofScientific c.value.mantissa true c.value.scale

def hasForm (name : String) : Bool :=
  match name.toList with
  | [] => false
  | first :: rest => Text.isCapital first && rest.all fun c => Text.isCapital c || Text.isDigit c

end Constant

structure Arity where
  least : Nat
  most : Option Nat
deriving DecidableEq, Repr

namespace Arity

def exactly (count : Nat) : Arity := ⟨count, some count⟩
def between (least most : Nat) : Arity := ⟨least, some most⟩
def atLeast (count : Nat) : Arity := ⟨count, none⟩

def accepts (arity : Arity) (count : Nat) : Bool :=
  arity.least ≤ count && arity.most.all (count ≤ ·)

def toText (arity : Arity) : String :=
  match arity.most with
  | some most =>
    if most = arity.least then toString most else toString arity.least ++ " to " ++ toString most
  | none => "at least " ++ toString arity.least

end Arity

inductive Function where
  | abs | acos | acosh | add | asin | asinh | atan | atanh | atan2 | cbrt | ceil | cos | cosh | div
  | exp | floor | hypot | ln | log | log2 | log10 | max | min | mod | mul | pow | random | round
  | sign | sin | sinh | sqrt | sub | tan | tanh | trunc
deriving DecidableEq, Repr

namespace Function

def all : List Function :=
  [abs, acos, acosh, add, asin, asinh, atan, atanh, atan2, cbrt, ceil, cos, cosh, div, exp, floor,
    hypot, ln, log, log2, log10, max, min, mod, mul, pow, random, round, sign, sin, sinh, sqrt, sub,
    tan, tanh, trunc]

def name : Function → String
  | abs => "abs" | acos => "acos" | acosh => "acosh" | add => "add" | asin => "asin"
  | asinh => "asinh" | atan => "atan" | atanh => "atanh" | atan2 => "atan2" | cbrt => "cbrt"
  | ceil => "ceil" | cos => "cos" | cosh => "cosh" | div => "div" | exp => "exp"
  | floor => "floor" | hypot => "hypot" | ln => "ln" | log => "log" | log2 => "log2"
  | log10 => "log10" | max => "max" | min => "min" | mod => "mod" | mul => "mul" | pow => "pow"
  | random => "random" | round => "round" | sign => "sign" | sin => "sin" | sinh => "sinh"
  | sqrt => "sqrt" | sub => "sub" | tan => "tan" | tanh => "tanh" | trunc => "trunc"

def ofName? (name : String) : Option Function := all.find? (·.name == name)

def arity : Function → Arity
  | add | atan2 | div | mod | mul | pow | sub => .exactly 2
  | log => .between 1 2
  | hypot | max | min => .atLeast 1
  | random => .between 0 1
  | _ => .exactly 1

end Function

inductive BadSymbol where
  | unknownConstant (name : String)
  | unknownFunction (name : String)
  | arity (function : Function) (found : Nat)
deriving DecidableEq, Repr

def BadSymbol.message : BadSymbol → String
  | unknownConstant name => "constant " ++ name ++ " does not exist"
  | unknownFunction name => "function " ++ name ++ " does not exist"
  | arity function found =>
    "function " ++ function.name ++ " expects " ++ function.arity.toText
      ++ " argument(s), found " ++ toString found

namespace Constant

def find (name : String) : Except BadSymbol Constant :=
  match ofName? name with
  | some c => .ok c
  | none => .error (.unknownConstant name)

theorem ofName?_eq_some {name : String} {c : Constant} : ofName? name = some c ↔ name = c.name := by
  constructor
  · intro found
    have same := List.find?_some found
    exact (eq_of_beq same).symm
  · intro same
    subst same
    cases c <;> rfl

theorem name_injective {c d : Constant} (same : c.name = d.name) : c = d := by
  have known := ofName?_eq_some.mpr same
  rw [ofName?_eq_some.mpr rfl] at known
  exact Option.some.inj known

theorem hasForm_name (c : Constant) : hasForm c.name := by
  cases c <;> decide

end Constant

namespace Function

def find (name : String) : Except BadSymbol Function :=
  match ofName? name with
  | some f => .ok f
  | none => .error (.unknownFunction name)

def checkArity (f : Function) (count : Nat) : Except BadSymbol Unit :=
  if f.arity.accepts count then .ok () else .error (.arity f count)

theorem ofName?_eq_some {name : String} {f : Function} : ofName? name = some f ↔ name = f.name := by
  constructor
  · intro found
    have same := List.find?_some found
    exact (eq_of_beq same).symm
  · intro same
    subst same
    cases f <;> rfl

theorem name_injective {f g : Function} (same : f.name = g.name) : f = g := by
  have known := ofName?_eq_some.mpr same
  rw [ofName?_eq_some.mpr rfl] at known
  exact Option.some.inj known

end Function

inductive Tier where
  | exponent | multiplicative | additive
deriving DecidableEq, Repr

inductive Operator where
  | add | sub | mul | div | mod | pow
deriving DecidableEq, Repr

namespace Operator

def all : List Operator := [add, sub, mul, div, mod, pow]

def symbol : Operator → String
  | add => "+"
  | sub => "-"
  | mul => "*"
  | div => "/"
  | mod => "%"
  | pow => "**"

def ofSymbol? (symbol : String) : Option Operator := all.find? (·.symbol == symbol)

def tier : Operator → Tier
  | pow => .exponent
  | mul | div | mod => .multiplicative
  | add | sub => .additive

end Operator

inductive Sign where
  | plus | minus
deriving DecidableEq, Repr

namespace Sign

def symbol : Sign → String
  | plus => "+"
  | minus => "-"

def ofSymbol? (symbol : String) : Option Sign := [plus, minus].find? (·.symbol == symbol)

end Sign
end Reckon
