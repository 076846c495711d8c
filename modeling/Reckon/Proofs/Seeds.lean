import Reckon.Proofs.TreeRange

/-
Only random calls look at the seed: a tree without them has the same value, or the same failure, for
every seed.
-/
namespace Reckon

theorem Function.apply_seed {f : Function} (drawn : f ≠ .random) (first second : Seed)
    (args : List Decimal) : f.apply first args = f.apply second args := by
  cases f
  case random => exact absurd rfl drawn
  all_goals
    rcases args with _ | ⟨x, _ | ⟨y, rest⟩⟩
    all_goals rfl

namespace Node

variable {tree : Node} {precision : Nat} {P Q : Function → Prop}

def Calls (P : Function → Prop) (tree : Node) : Prop := ∀ f args, Part (call f args) tree → P f

theorem Calls.child {child : Node} (calls : tree.Calls P) (mem : child ∈ tree.children) :
    child.Calls P :=
  fun f args part => calls f args (.inside mem part)

theorem Calls.mono (calls : tree.Calls P) (weaker : ∀ f, P f → Q f) : tree.Calls Q :=
  fun f args part => weaker f (calls f args part)

theorem calls_of_children (here : ∀ f args, tree = call f args → P f)
    (inner : ∀ child ∈ tree.children, child.Calls P) : tree.Calls P := by
  intro f args part
  cases part with
  | whole => exact here f args rfl
  | inside mem below => exact inner _ mem f args below

theorem Drawless.child {child : Node} (drawless : tree.Drawless) (mem : child ∈ tree.children) :
    child.Drawless :=
  Calls.child drawless mem

theorem drawless_of_children (here : ∀ f args, tree = call f args → f ≠ .random)
    (inner : ∀ child ∈ tree.children, child.Drawless) : tree.Drawless :=
  calls_of_children here inner

theorem drawless_literal (raw : String) : (literal raw).Drawless :=
  drawless_of_children (by simp) (by simp [children])

theorem evaluateAll_seed {args : List Node}
    (same : ∀ arg ∈ args, ∀ first second,
      arg.evaluate precision first = arg.evaluate precision second) (first second : Seed) :
    evaluateAll precision first args = evaluateAll precision second args := by
  induction args generalizing first second with
  | nil => rfl
  | cons arg args ih =>
    obtain ⟨here, others⟩ := List.forall_mem_cons.mp same
    simp only [evaluateAll, here first.left second.left, ih others first.right second.right]

theorem Drawless.evaluate_seed (drawless : tree.Drawless) (first second : Seed) :
    tree.evaluate precision first = tree.evaluate precision second := by
  induction tree using Node.induction generalizing first second with
  | step tree ih =>
    have inner : ∀ child ∈ tree.children, ∀ first second,
        child.evaluate precision first = child.evaluate precision second :=
      fun child mem => ih child mem (drawless.child mem)
    cases tree with
    | literal raw => rfl
    | constant symbol => rfl
    | call f args =>
      have drawn : f ≠ .random := drawless f args .whole
      have values : evaluateAll precision first.left args =
          evaluateAll precision second.left args := evaluateAll_seed inner first.left second.left
      rw [evaluate, evaluate, values]
      simp only [Function.apply_seed drawn first.right second.right]
    | signed signs operand =>
      rw [evaluate, evaluate, inner operand (by simp [children]) first second]
    | binary left op right =>
      rw [evaluate, evaluate, inner left (by simp [children]) first.left second.left,
        inner right (by simp [children]) first.right second.right]

end Node
end Reckon
