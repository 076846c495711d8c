import Reckon.Proofs.Tiers

/-
A chain resolved with a stack.  Operators wait on the stack with the operands on their right, the
last of them on top; one of a weaker tier first folds the stronger ones on top into the operand
under them.  The stack ends up empty, beside the tree that the chain amounts to.
-/
namespace Reckon

theorem Tier.strength_injective {first second : Tier} (same : first.strength = second.strength) :
    first = second := by
  cases first <;> cases second <;> simp_all [strength]

namespace Node

namespace Pending

variable {p : Pending} {run : List Link}

theorem pushAll_cons (p : Pending) (link : Link) (links : List Link) :
    p.pushAll (link :: links) = (p.push link.1 link.2).pushAll links := rfl

theorem pushAll_exponents (all : ∀ link ∈ run, link.1.tier = .exponent) :
    p.pushAll run = { p with power := joinLeft p.power run } := by
  induction run generalizing p with
  | nil => rfl
  | cons link run ih =>
    obtain ⟨here, later⟩ := List.forall_mem_cons.mp all
    rw [pushAll_cons, ih later, push, here]
    rfl

theorem pushAll_products (all : ∀ link ∈ run, link.1.tier = .multiplicative) :
    (p.pushAll run).sum = p.sum ∧ (p.pushAll run).factor = joinLeft p.factor run := by
  induction run generalizing p with
  | nil => exact ⟨rfl, rfl⟩
  | cons link run ih =>
    obtain ⟨here, later⟩ := List.forall_mem_cons.mp all
    obtain ⟨sum, factor⟩ := ih (p := p.push link.1 link.2) later
    rw [pushAll_cons, sum, factor, push, here]
    exact ⟨rfl, rfl⟩

theorem pushAll_sums (all : ∀ link ∈ run, link.1.tier = .additive) :
    (p.pushAll run).total = joinLeft p.total run := by
  induction run generalizing p with
  | nil => rfl
  | cons link run ih =>
    obtain ⟨here, later⟩ := List.forall_mem_cons.mp all
    rw [pushAll_cons, ih later, push, here]
    rfl

end Pending

/-- The first operand of a chain, and the links that wait, the top of the stack first. -/
structure Stack where
  first : Node
  rest : List Link

namespace Stack

def flush (tier : Tier) (s : Stack) : Stack :=
  let run := (s.rest.takeWhile (·.1.tier = tier)).reverse
  match s.rest.dropWhile (·.1.tier = tier) with
  | [] => ⟨joinLeft s.first run, []⟩
  | (op, base) :: below => ⟨s.first, (op, joinLeft base run) :: below⟩

def accept (s : Stack) (link : Link) : Stack :=
  let flushed :=
    match link.1.tier with
    | .exponent => s
    | .multiplicative => s.flush .exponent
    | .additive => (s.flush .exponent).flush .multiplicative
  ⟨flushed.first, link :: flushed.rest⟩

def resolve (first : Node) (links : List Link) : Stack :=
  (((links.foldl accept ⟨first, []⟩).flush .exponent).flush .multiplicative).flush .additive

def Ordered (s : Stack) : Prop :=
  s.rest.Pairwise fun above below => below.1.tier.strength ≤ above.1.tier.strength

def Below (strength : Nat) (s : Stack) : Prop := ∀ link ∈ s.rest, link.1.tier.strength < strength

def pending (s : Stack) : Pending := Pending.pushAll ⟨none, none, s.first⟩ s.rest.reverse

variable {s : Stack} {tier : Tier} {first : Node} {links : List Link}

theorem flush_cases (tier : Tier) (s : Stack) :
    ∃ run, (∀ link ∈ run, link.1.tier = tier) ∧
      (s.rest = run ∧ s.flush tier = ⟨joinLeft s.first run.reverse, []⟩ ∨
        ∃ op base below, op.tier ≠ tier ∧ s.rest = run ++ (op, base) :: below ∧
          s.flush tier = ⟨s.first, (op, joinLeft base run.reverse) :: below⟩) := by
  have whole := List.takeWhile_append_dropWhile
    (p := fun link : Link => decide (link.1.tier = tier)) (l := s.rest)
  refine ⟨s.rest.takeWhile (·.1.tier = tier), fun link mem => ?_, ?_⟩
  · simpa using List.mem_takeWhile_imp mem
  · rw [flush]
    cases under : s.rest.dropWhile (·.1.tier = tier) with
    | nil =>
      rw [under, List.append_nil] at whole
      exact .inl ⟨whole.symm, rfl⟩
    | cons link below =>
      have other : decide (link.1.tier = tier) = false := by
        have stops := List.head?_dropWhile_not
          (fun link : Link => decide (link.1.tier = tier)) s.rest
        rwa [under] at stops
      rw [under] at whole
      exact .inr ⟨link.1, link.2, below, by simpa using other, whole.symm, rfl⟩

theorem Ordered.flush (ordered : s.Ordered) (tier : Tier) (most : s.Below (tier.strength + 1)) :
    (s.flush tier).Ordered ∧ (s.flush tier).Below tier.strength := by
  obtain ⟨run, all, ⟨same, flushed⟩ | ⟨op, base, below, other, same, flushed⟩⟩ :=
    flush_cases tier s
  · rw [flushed]
    exact ⟨.nil, nofun⟩
  · rw [Ordered, same, List.pairwise_append, List.pairwise_cons] at ordered
    obtain ⟨_, ⟨weaker, rest⟩, _⟩ := ordered
    have here : op.tier.strength < tier.strength := by
      have least : op.tier.strength < tier.strength + 1 := most (op, base) (by rw [same]; simp)
      have unequal := mt Tier.strength_injective other
      omega
    rw [flushed]
    refine ⟨.cons weaker rest, List.forall_mem_cons.mpr ⟨here, fun link mem => ?_⟩⟩
    exact (weaker link mem).trans_lt here

theorem pending_cons (first : Node) (link : Link) (rest : List Link) :
    pending ⟨first, link :: rest⟩ = (pending ⟨first, rest⟩).push link.1 link.2 := by
  simp [pending, Pending.pushAll]

theorem pending_append (first : Node) (run rest : List Link) :
    pending ⟨first, run ++ rest⟩ = (pending ⟨first, rest⟩).pushAll run.reverse := by
  simp [pending, Pending.pushAll]

theorem pending_flush_exponent (s : Stack) : (s.flush .exponent).pending = s.pending := by
  obtain ⟨first, rest⟩ := s
  obtain ⟨run, all, ⟨rfl, flushed⟩ | ⟨op, base, below, other, rfl, flushed⟩⟩ :=
    flush_cases .exponent ⟨first, rest⟩
  · have turned : ∀ link ∈ rest.reverse, link.1.tier = .exponent := by simpa using all
    have power := Pending.pushAll_exponents (p := ⟨none, none, first⟩) turned
    rw [flushed]
    exact power.symm
  · rw [flushed, pending_cons, pending_append, pending_cons,
      Pending.pushAll_exponents (by simpa using all)]
    cases tier : op.tier with
    | exponent => exact absurd tier other
    | multiplicative => simp [Pending.push, tier]
    | additive => simp [Pending.push, tier]

theorem pending_flush_multiplicative (most : s.Below 2) :
    (s.flush .multiplicative).pending.sum = s.pending.sum ∧
      (s.flush .multiplicative).pending.factor = s.pending.factor := by
  obtain ⟨first, rest⟩ := s
  obtain ⟨run, all, ⟨rfl, flushed⟩ | ⟨op, base, below, other, rfl, flushed⟩⟩ :=
    flush_cases .multiplicative ⟨first, rest⟩
  · have turned : ∀ link ∈ rest.reverse, link.1.tier = .multiplicative := by simpa using all
    obtain ⟨sum, factor⟩ := Pending.pushAll_products (p := ⟨none, none, first⟩) turned
    rw [flushed]
    exact ⟨sum.symm, factor.symm⟩
  · have turned : ∀ link ∈ run.reverse, link.1.tier = .multiplicative := by simpa using all
    obtain ⟨sum, factor⟩ := Pending.pushAll_products
      (p := pending ⟨first, (op, base) :: below⟩) turned
    rw [flushed, pending_append, sum, factor, pending_cons, pending_cons]
    cases tier : op.tier with
    | exponent =>
      have weak := most (op, base) (by simp)
      rw [tier] at weak
      exact absurd weak (by decide)
    | multiplicative => exact absurd tier other
    | additive => simp [Pending.push, Pending.factor, Pending.close, tier]

theorem flush_additive (most : s.Below 1) : s.flush .additive = ⟨s.pending.total, []⟩ := by
  obtain ⟨run, all, ⟨same, flushed⟩ | ⟨op, base, below, other, same, flushed⟩⟩ :=
    flush_cases .additive s
  · have total : s.pending.total = joinLeft s.first run.reverse := by
      rw [pending, same, Pending.pushAll_sums (by simpa using all)]
      rfl
    rw [flushed, total]
  · have weak := most (op, base) (by rw [same]; simp)
    cases tier : op.tier with
    | additive => exact absurd tier other
    | exponent | multiplicative =>
      rw [tier] at weak
      exact absurd weak (by decide)

theorem below_three (s : Stack) : s.Below 3 := by
  intro link _
  cases link.1.tier <;> decide

/-- A new link keeps the stack in order, and continues what is pending on it. -/
theorem Ordered.accept (ordered : s.Ordered) (link : Link) :
    (s.accept link).Ordered ∧ (s.accept link).pending = s.pending.push link.1 link.2 := by
  obtain ⟨flat, weak⟩ := ordered.flush .exponent (below_three s)
  obtain ⟨flatter, weaker⟩ := flat.flush .multiplicative weak
  have top {under : Stack} (tidy : under.Ordered) (most : under.Below (link.1.tier.strength + 1)) :
      Ordered ⟨under.first, link :: under.rest⟩ :=
    .cons (fun other mem => Nat.le_of_lt_succ (most other mem)) tidy
  unfold Stack.accept
  cases tier : link.1.tier with
  | exponent =>
    rw [tier] at top
    exact ⟨top ordered (below_three s), pending_cons _ _ _⟩
  | multiplicative =>
    rw [tier] at top
    refine ⟨top flat weak, ?_⟩
    rw [pending_cons]
    exact congrArg (Pending.push · link.1 link.2) (pending_flush_exponent s)
  | additive =>
    rw [tier] at top
    refine ⟨top flatter weaker, ?_⟩
    -- An additive operator closes the product before it, so what matters is its value alone.
    obtain ⟨sum, factor⟩ := pending_flush_multiplicative (s := s.flush .exponent) weak
    rw [pending_flush_exponent] at sum factor
    rw [pending_cons]
    have total : (((s.flush .exponent).flush .multiplicative).pending).total = s.pending.total := by
      rw [Pending.total, sum, factor, Pending.total]
    change Pending.push (pending ((s.flush .exponent).flush .multiplicative)) _ _ = _
    simp only [Pending.push, tier, total]

theorem Ordered.foldl (ordered : s.Ordered) (links : List Link) :
    (links.foldl Stack.accept s).Ordered ∧
      (links.foldl Stack.accept s).pending = s.pending.pushAll links := by
  induction links generalizing s with
  | nil => exact ⟨ordered, rfl⟩
  | cons link links ih =>
    obtain ⟨kept, pending⟩ := ordered.accept link
    obtain ⟨all, total⟩ := ih kept
    rw [pending] at total
    exact ⟨all, total⟩

theorem resolve_eq (first : Node) (links : List Link) :
    resolve first links = ⟨ofChain first links, []⟩ := by
  have empty : Ordered ⟨first, []⟩ := .nil
  obtain ⟨ordered, pending⟩ := empty.foldl links
  obtain ⟨flat, weak⟩ := ordered.flush .exponent (below_three _)
  obtain ⟨flatter, weaker⟩ := flat.flush .multiplicative weak
  obtain ⟨sum, factor⟩ := pending_flush_multiplicative weak
  rw [resolve, flush_additive weaker, Pending.total, sum, factor, pending_flush_exponent, pending]
  rfl

end Stack

/-- The tree of a chain is its reading by tiers.  A stack resolves to it and ends up empty, and all
operands and operators are in it, once and in order. -/
theorem ofChain_readsByTiers (first : Node) (links : List Link) :
    ofChain first links = readBy [.additive, .multiplicative] (first, links) ∧
      Stack.resolve first links = ⟨readBy [.additive, .multiplicative] (first, links), []⟩ ∧
      inOrder (ofChain first links) = inOrder first ++ linksInOrder links := by
  have same := ofChain_eq_readBy first links
  refine ⟨same, ?_, ?_⟩
  · rw [Stack.resolve_eq, same]
  · rw [same, inOrder_readBy]

/-- `a - b ** c ** d * e + f` -/
example (a b c d e f : Node) :
    ofChain a [(.sub, b), (.pow, c), (.pow, d), (.mul, e), (.add, f)] =
      binary (binary a .sub (binary (binary (binary b .pow c) .pow d) .mul e)) .add f := rfl

end Node
end Reckon
