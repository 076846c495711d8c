import Reckon.Evaluate.Tree

/-
When an evaluation succeeds, and trees as wholes with parts: induction over them, and the value of a
part before it is rounded.
-/
namespace Reckon

theorem bind_ok {ε α β : Type} {first : Except ε α} {next : α → Except ε β} {result : β} :
    first >>= next = .ok result ↔ ∃ value, first = .ok value ∧ next value = .ok result := by
  cases first with
  | error e => simp [bind, Except.bind]
  | ok value => simp [bind, Except.bind]

theorem orOverflow_ok {operation : String} {result : Option Decimal} {d : Decimal} :
    orOverflow operation result = .ok d ↔ result = some d := by
  cases result <;> simp [orOverflow]

theorem orDomain_ok {operation : String} {input : Decimal} {result : Option Decimal} {d : Decimal} :
    orDomain operation input result = .ok d ↔ result = some d := by
  cases result <;> simp [orDomain]

namespace Node

def children : Node → List Node
  | literal _ | constant _ => []
  | call _ args => args
  | signed _ operand => [operand]
  | binary left _ right => [left, right]

/-- The subtrees of a tree, the tree itself among them. -/
inductive Part : Node → Node → Prop where
  | whole : Part node node
  | inside (mem : child ∈ tree.children) (part : Part node child) : Part node tree

theorem Part.child {child node tree : Node} (part : Part node tree) (mem : child ∈ node.children) :
    Part child tree := by
  induction part with
  | whole => exact .inside mem .whole
  | inside below _ ih => exact .inside below (ih mem)

theorem Part.trans {inner node tree : Node} (part : Part node tree) (inside : Part inner node) :
    Part inner tree := by
  induction part with
  | whole => exact inside
  | inside below _ ih => exact .inside below (ih inside)

/-- What holds of a tree whenever it holds of its children holds of every tree. -/
theorem induction {P : Node → Prop} (step : ∀ node, (∀ child ∈ node.children, P child) → P node)
    (node : Node) : P node := by
  refine @Node.rec P (fun args => ∀ arg ∈ args, P arg) ?_ ?_ ?_ ?_ ?_ ?_ ?_ node
  · intro raw
    exact step _ (by simp [children])
  · intro symbol
    exact step _ (by simp [children])
  · intro f args all
    exact step _ all
  · intro signs operand inner
    exact step _ (by simpa [children] using inner)
  · intro left op right first second
    exact step _ (by simpa [children] using ⟨first, second⟩)
  · simp
  · intro head tail first others
    exact List.forall_mem_cons.mpr ⟨first, others⟩

def isOperation : Node → Bool
  | call _ _ | binary _ _ _ => true
  | _ => false

/-- The value of the tree with rounded operands, but not itself rounded. -/
def unrounded (precision : Nat) (seed : Seed) : Node → Except NoValue Decimal
  | call f args => do f.apply seed.right (← evaluateAll precision seed.left args)
  | binary left op right => do
    let left ← left.evaluate precision seed.left
    let right ← right.evaluate precision seed.right
    op.apply left right
  | node => node.evaluate precision seed

variable {precision : Nat} {seed : Seed} {node left right : Node} {op : Operator} {f : Function}
  {args : List Node} {d : Decimal} {values : List Decimal}

theorem evaluate_binary_ok :
    (binary left op right).evaluate precision seed = .ok d ↔
      ∃ a b v, left.evaluate precision seed.left = .ok a ∧
        right.evaluate precision seed.right = .ok b ∧ op.apply a b = .ok v ∧
        v.roundSignificant precision = d := by
  simp only [evaluate, bind_ok, pure, Except.pure, Except.ok.injEq]
  grind

theorem evaluate_call_ok :
    (call f args).evaluate precision seed = .ok d ↔
      ∃ values v, evaluateAll precision seed.left args = .ok values ∧
        f.apply seed.right values = .ok v ∧ v.roundSignificant precision = d := by
  simp only [evaluate, bind_ok, pure, Except.pure, Except.ok.injEq]
  grind

theorem evaluate_signed_ok {signs : List Sign} :
    (signed signs node).evaluate precision seed = .ok d ↔
      ∃ v, node.evaluate precision seed = .ok v ∧ Sign.applyAll signs v = d := by
  simp only [evaluate, bind_ok, pure, Except.pure, Except.ok.injEq]

theorem literalValue_ok {raw : String} :
    literalValue raw = .ok d ↔ Decimal.literal? raw = some d := by
  unfold literalValue
  split <;> simp_all

theorem evaluate_operation (operation : node.isOperation) :
    node.evaluate precision seed = .ok d ↔
      ∃ v, node.unrounded precision seed = .ok v ∧ v.roundSignificant precision = d := by
  cases node with
  | call f args =>
    simp only [evaluate_call_ok, unrounded, bind_ok]
    grind
  | binary left op right =>
    simp only [evaluate_binary_ok, unrounded, bind_ok]
    grind
  | literal raw => cases operation
  | constant symbol => cases operation
  | signed signs operand => cases operation

theorem evaluateAll_ok (run : evaluateAll precision seed args = .ok values) :
    ∀ x ∈ values, ∃ arg ∈ args, ∃ seed, arg.evaluate precision seed = .ok x := by
  induction args generalizing seed values with
  | nil =>
    obtain rfl := Except.ok.inj run
    simp
  | cons arg args ih =>
    simp only [evaluateAll, bind_ok, pure, Except.pure, Except.ok.injEq] at run
    obtain ⟨x, first, others, rest, rfl⟩ := run
    intro y mem
    rcases List.mem_cons.mp mem with rfl | mem
    · exact ⟨arg, List.mem_cons_self, seed.left, first⟩
    · obtain ⟨inner, inside, seed, value⟩ := ih rest y mem
      exact ⟨inner, List.mem_cons_of_mem arg inside, seed, value⟩

end Node
end Reckon
