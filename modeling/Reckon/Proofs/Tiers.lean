import Reckon.Proofs.Printing

/-
A chain read tier by tier.  It is cut at the operators of the weakest tier, each piece at those of
the next tier, and what no cut divides is joined from left to right, piece by piece.
-/
namespace Reckon.Node

abbrev Link := Operator × Node

abbrev Chain := Node × List Link

def joinLeft (first : Node) (links : List Link) : Node :=
  links.foldl (fun left link => binary left link.1 link.2) first

/-- The links before the first operator of a tier, and each operator of the tier with the chain
between it and the next one. -/
def cut (tier : Tier) : List Link → List Link × List (Operator × Chain)
  | [] => ([], [])
  | (op, operand) :: links =>
    let later := cut tier links
    if op.tier = tier then ([], (op, operand, later.1) :: later.2)
    else ((op, operand) :: later.1, later.2)

/-- Cuts a chain at the first tier, reads the pieces by the other tiers, and joins them from left to
right.  A chain that is not cut any more is joined as it is. -/
def readBy : List Tier → Chain → Node
  | [], chain => joinLeft chain.1 chain.2
  | tier :: stronger, chain =>
    let pieces := cut tier chain.2
    joinLeft (readBy stronger (chain.1, pieces.1))
      (pieces.2.map fun piece => (piece.1, readBy stronger piece.2))

def inOrder : Node → List (Node ⊕ Operator)
  | binary left op right => inOrder left ++ .inr op :: inOrder right
  | node => [.inl node]

def linksInOrder (links : List Link) : List (Node ⊕ Operator) :=
  links.flatMap fun link => .inr link.1 :: inOrder link.2

variable {tier : Tier} {first : Node} {links : List Link}

theorem cut_joined (tier : Tier) (links : List Link) :
    (cut tier links).1 ++
      (cut tier links).2.flatMap (fun piece => (piece.1, piece.2.1) :: piece.2.2) = links := by
  induction links with
  | nil => rfl
  | cons link links ih =>
    obtain ⟨op, operand⟩ := link
    rw [cut]
    split <;> simp [ih]

theorem linksInOrder_append (first second : List Link) :
    linksInOrder (first ++ second) = linksInOrder first ++ linksInOrder second :=
  List.flatMap_append

theorem inOrder_joinLeft (first : Node) (links : List Link) :
    inOrder (joinLeft first links) = inOrder first ++ linksInOrder links := by
  induction links generalizing first with
  | nil => simp [joinLeft, linksInOrder]
  | cons link links ih =>
    have step : joinLeft first (link :: links) = joinLeft (binary first link.1 link.2) links := rfl
    rw [step, ih, inOrder]
    simp [linksInOrder]

theorem inOrder_readBy (tiers : List Tier) (chain : Chain) :
    inOrder (readBy tiers chain) = inOrder chain.1 ++ linksInOrder chain.2 := by
  induction tiers generalizing chain with
  | nil => exact inOrder_joinLeft chain.1 chain.2
  | cons tier stronger ih =>
    have pieces : linksInOrder ((cut tier chain.2).2.map fun piece =>
        (piece.1, readBy stronger piece.2)) =
        linksInOrder ((cut tier chain.2).2.flatMap fun piece =>
          (piece.1, piece.2.1) :: piece.2.2) := by
      simp only [linksInOrder, List.flatMap_map, List.flatMap_assoc, List.flatMap_cons, ih]
      simp only [List.cons_append]
    have whole := congrArg linksInOrder (cut_joined tier chain.2)
    rw [linksInOrder_append] at whole
    rw [readBy, inOrder_joinLeft, ih, pieces, List.append_assoc, whole]

namespace Pending

/-- What the links after a pending chain make of it: the first piece of every tier continues what
waits at this tier. -/
theorem total_pushAll (p : Pending) (links : List Link) :
    (p.pushAll links).total =
      joinLeft
        (close p.sum (joinLeft
          (close p.product (joinLeft p.power (cut .multiplicative (cut .additive links).1).1))
          ((cut .multiplicative (cut .additive links).1).2.map fun piece =>
            (piece.1, readBy [] piece.2))))
        ((cut .additive links).2.map fun piece => (piece.1, readBy [.multiplicative] piece.2)) := by
  induction links generalizing p with
  | nil => rfl
  | cons link links ih =>
    obtain ⟨op, operand⟩ := link
    have step : p.pushAll ((op, operand) :: links) = (p.push op operand).pushAll links := rfl
    rw [step, ih]
    cases tier : op.tier <;> simp [push, cut, tier, joinLeft, readBy, factor, total, close]

end Pending

theorem ofChain_eq_readBy (first : Node) (links : List Link) :
    ofChain first links = readBy [.additive, .multiplicative] (first, links) :=
  Pending.total_pushAll ⟨none, none, first⟩ links

end Reckon.Node
