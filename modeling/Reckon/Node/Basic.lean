import Reckon.Json
import Reckon.Vocabulary

/-
Expression trees.  Runs of signs are one node: `-(-x)` has two signs and one operand.
-/
namespace Reckon

inductive Node where
  | literal (raw : String)
  | constant (symbol : Constant)
  | call (function : Function) (args : List Node)
  | signed (signs : List Sign) (operand : Node)
  | binary (left : Node) (operator : Operator) (right : Node)
deriving Repr

namespace Node

def namedConstant (name : String) : Except BadSymbol Node :=
  (Constant.find name).map constant

def namedCall (name : String) (args : List Node) : Except BadSymbol Node := do
  let function ← Function.find name
  function.checkArity args.length
  return call function args

theorem namedConstant_ok {name : String} {node : Node} :
    namedConstant name = .ok node ↔ ∃ c : Constant, name = c.name ∧ node = constant c := by
  unfold namedConstant Constant.find
  cases found : Constant.ofName? name with
  | none =>
    simp only [Except.map, reduceCtorEq, false_iff]
    rintro ⟨c, same, _⟩
    simp [Constant.ofName?_eq_some.mpr same] at found
  | some c =>
    obtain rfl := Constant.ofName?_eq_some.mp found
    simp only [Except.map, Except.ok.injEq]
    constructor
    · intro run
      exact ⟨c, rfl, run.symm⟩
    · rintro ⟨d, same, rfl⟩
      rw [Constant.name_injective same]

theorem namedConstant_error {name : String} {bad : BadSymbol} :
    namedConstant name = .error bad ↔
      Constant.ofName? name = none ∧ bad = .unknownConstant name := by
  unfold namedConstant Constant.find
  cases Constant.ofName? name with
  | none => simp [Except.map, eq_comm]
  | some c => simp [Except.map]

theorem namedCall_ok {name : String} {args : List Node} {node : Node} :
    namedCall name args = .ok node ↔
      ∃ f : Function, name = f.name ∧ f.arity.accepts args.length ∧ node = call f args := by
  unfold namedCall Function.find Function.checkArity
  cases found : Function.ofName? name with
  | none =>
    simp only [bind, Except.bind, reduceCtorEq, false_iff]
    rintro ⟨f, same, _⟩
    simp [Function.ofName?_eq_some.mpr same] at found
  | some f =>
    obtain rfl := Function.ofName?_eq_some.mp found
    by_cases arity : f.arity.accepts args.length
    · simp only [bind, Except.bind, arity, ↓reduceIte, pure, Except.pure, Except.ok.injEq]
      constructor
      · intro run
        exact ⟨f, rfl, arity, run.symm⟩
      · rintro ⟨g, same, _, rfl⟩
        rw [Function.name_injective same]
    · simp only [bind, Except.bind, arity, Bool.false_eq_true, ↓reduceIte, reduceCtorEq, false_iff]
      rintro ⟨g, same, accepted, _⟩
      obtain rfl := Function.name_injective same
      exact arity accepted

theorem namedCall_error {name : String} {args : List Node} {bad : BadSymbol} :
    namedCall name args = .error bad ↔
      Function.ofName? name = none ∧ bad = .unknownFunction name ∨
        ∃ f : Function, name = f.name ∧ ¬ f.arity.accepts args.length ∧
          bad = .arity f args.length := by
  unfold namedCall Function.find Function.checkArity
  cases found : Function.ofName? name with
  | none =>
    constructor
    · intro refused
      exact .inl ⟨rfl, (Except.error.inj refused).symm⟩
    · rintro (⟨_, rfl⟩ | ⟨f, same, _⟩)
      · rfl
      · simp [Function.ofName?_eq_some.mpr same] at found
  | some f =>
    obtain rfl := Function.ofName?_eq_some.mp found
    by_cases arity : f.arity.accepts args.length
    · simp only [bind, Except.bind, arity, ↓reduceIte, pure, Except.pure, reduceCtorEq, false_and,
        false_or, false_iff]
      rintro ⟨g, same, refused, _⟩
      obtain rfl := Function.name_injective same
      exact refused arity
    · simp only [bind, Except.bind, arity, Bool.false_eq_true, ↓reduceIte, Except.error.injEq,
        reduceCtorEq, false_and, false_or]
      constructor
      · intro refused
        exact ⟨f, rfl, arity, refused.symm⟩
      · rintro ⟨g, same, _, rfl⟩
        rw [Function.name_injective same]

/-- Puts signs before an operand, joining them with the signs that it already has. -/
def sign (signs : List Sign) : Node → Node
  | signed inner operand => signed (signs ++ inner) operand
  | operand => signed signs operand

def kind : Node → String
  | literal _ => "DecimalLiteral"
  | constant _ => "Constant"
  | call _ _ => "FunctionCall"
  | signed _ _ => "UnaryExpr"
  | binary _ _ _ => "BinaryExpr"

mutual

def toJson : Node → Json
  | literal raw => .record [("type", .text "DecimalLiteral"), ("raw", .text raw)]
  | constant symbol => .record [("type", .text "Constant"), ("symbol", .text symbol.name)]
  | call function args =>
    .record
      [("type", .text "FunctionCall"), ("name", .text function.name),
        ("args", .list (allToJson args))]
  | signed signs operand =>
    .record
      [("type", .text "UnaryExpr"), ("operators", .list (signs.map fun s => .text s.symbol)),
        ("operand", operand.toJson)]
  | binary left operator right =>
    .record
      [("type", .text "BinaryExpr"), ("left", left.toJson), ("operator", .text operator.symbol),
        ("right", right.toJson)]

def allToJson : List Node → List Json
  | [] => []
  | node :: nodes => node.toJson :: allToJson nodes

end

def render (node : Node) : String := node.toJson.pretty

end Node
end Reckon
