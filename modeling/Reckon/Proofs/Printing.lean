import Reckon.Proofs.Normal

/-
Trees written as text, with no more parentheses than needed.  What is read back goes through one
chain of operands and operators, so a tree is followed along the chain that its tokens spell.
-/
namespace Reckon
open Grammar

def Tier.strength : Tier → Nat
  | .exponent => 2
  | .multiplicative => 1
  | .additive => 0

namespace Node

/-- How strongly the root of a tree binds.  Only operators bind less than everything else. -/
def strength : Node → Nat
  | binary _ op _ => op.tier.strength
  | _ => 3

def isAtom : Node → Bool
  | signed _ _ | binary _ _ _ => false
  | _ => true

def enclosed (tokens : List Token) : List Token := .openParen :: (tokens ++ [.closeParen])

def enclosedIf (needed : Bool) (tokens : List Token) : List Token :=
  if needed then enclosed tokens else tokens

/-- A sign before another sign has parentheses after it. -/
def afterSigns (operand : List Token) : List Sign → List Token
  | [] => operand
  | [sign] => sign.token :: operand
  | sign :: others => sign.token :: enclosed (afterSigns operand others)

mutual

def tokens : Node → List Token
  | literal raw => [.number raw]
  | constant symbol => [.identifier symbol.name]
  | call function args => .identifier function.name :: enclosed (allTokens args)
  | signed signs operand => afterSigns (enclosedIf (!operand.isAtom) operand.tokens) signs
  | binary left op right =>
    enclosedIf (left.strength < op.tier.strength) left.tokens ++
      .operator op :: enclosedIf (right.strength ≤ op.tier.strength) right.tokens

def allTokens : List Node → List Token
  | [] => []
  | [last] => last.tokens
  | node :: nodes => node.tokens ++ .comma :: allTokens nodes

end

def printed (node : Node) : List Char := spaced node.tokens

namespace Pending

def pushAll (p : Pending) (links : List (Operator × Node)) : Pending :=
  links.foldl (fun p link => p.push link.1 link.2) p

theorem pushAll_append (p : Pending) (links : List (Operator × Node)) (op : Operator)
    (node : Node) (others : List (Operator × Node)) :
    p.pushAll (links ++ (op, node) :: others) =
      ((p.pushAll links).push op node).pushAll others := by
  simp [pushAll]

end Pending

/-- A chain that amounts to a tree, also after other links that bind less strongly than the given
strength.  At the greatest strength it is the tree alone. -/
def Settles (first : Node) (links : List (Operator × Node)) (node : Node) : Nat → Prop
  | 0 => (Pending.pushAll ⟨none, none, first⟩ links).total = node
  | 1 => ∀ sum,
      (Pending.pushAll ⟨sum, none, first⟩ links).sum = sum ∧
        (Pending.pushAll ⟨sum, none, first⟩ links).factor = node
  | 2 => ∀ sum product, Pending.pushAll ⟨sum, product, first⟩ links = ⟨sum, product, node⟩
  | _ => first = node ∧ links = []

variable {first : Node} {links : List (Operator × Node)} {node : Node}

theorem Settles.weaken (strength : Nat) (settles : Settles first links node (strength + 1)) :
    Settles first links node strength := by
  match strength with
  | 0 =>
    obtain ⟨sum, factor⟩ := settles none
    change Pending.close _ _ = node
    rw [sum, factor]
    rfl
  | 1 =>
    intro sum
    rw [settles sum none]
    exact ⟨rfl, rfl⟩
  | 2 =>
    obtain ⟨rfl, rfl⟩ := settles
    exact fun _ _ => rfl
  | _ + 3 => exact settles

theorem Settles.mono {strong weak : Nat} (settles : Settles first links node strong)
    (less : weak ≤ strong) : Settles first links node weak := by
  induction less with
  | refl => exact settles
  | step _ ih => exact ih (settles.weaken _)

theorem settles_alone (node : Node) (strength : Nat) (least : strength ≤ 3) :
    Settles node [] node strength := by
  have alone : Settles node [] node 3 := ⟨rfl, rfl⟩
  exact alone.mono least

theorem settles_binary {left right second : Node} {others : List (Operator × Node)} (op : Operator)
    (before : Settles first links left op.tier.strength)
    (after : Settles second others right (op.tier.strength + 1)) :
    Settles first (links ++ (op, second) :: others) (.binary left op right) op.tier.strength := by
  cases tier : op.tier with
  | exponent =>
    rw [tier] at before after
    obtain ⟨rfl, rfl⟩ := after
    intro sum product
    rw [Pending.pushAll_append, before sum product]
    simp [Pending.pushAll, Pending.push, tier]
  | multiplicative =>
    rw [tier] at before after
    intro sum
    obtain ⟨same, factor⟩ := before sum
    rw [Pending.pushAll_append]
    simp only [Pending.push, tier, same, factor]
    rw [after sum]
    exact ⟨rfl, rfl⟩
  | additive =>
    rw [tier] at before after
    change Pending.total _ = _
    rw [Pending.pushAll_append]
    simp only [Pending.push, tier, show Pending.total _ = _ from before]
    obtain ⟨sum, factor⟩ := after (some (left, op))
    change Pending.close _ _ = _
    rw [sum, factor]
    rfl

end Node
end Reckon
