import Mathlib.Order.Bounds.Basic
import Reckon.Proofs.Combining
import Reckon.Proofs.Nesting
import Reckon.Proofs.RoundTrip
import Reckon.Proofs.Stacks

/-
How deep trees get.  The bound on the calls and operators around a node is met: at every limit there
is a text whose tree has a leaf with that many above it.  Its chains all begin with a call, which
takes one level and leaves all others to its argument, and go on with as many additions as there are
levels, each of which puts the call one step further down.
-/
namespace Reckon
open Grammar

namespace Node

def operationsOn (steps : List Step) (node : Node) : Nat :=
  steps.countP Step.isOperation + node.isOperation.toNat

def ones (count : Nat) : List (Operator × Node) := List.replicate count (.add, literal "1")

/-- Calls in one another, each with as many additions after it as there are levels around its
argument. -/
def tower : Nat → Node
  | 0 => literal "1"
  | level + 1 => ofChain (call .abs [tower level]) (ones (level + 1))

def onesTokens : Nat → List Token
  | 0 => []
  | count + 1 => .operator .add :: .number "1" :: onesTokens count

def towerTokens : Nat → List Token
  | 0 => [.number "1"]
  | level + 1 =>
    .identifier Function.abs.name :: enclosed (towerTokens level) ++ onesTokens (level + 1)

theorem path_joinLeft {first node : Node} {steps : List Step} (path : Path first steps node)
    (links : List (Operator × Node)) :
    Path (joinLeft first links) (List.replicate links.length .left ++ steps) node := by
  induction links generalizing first steps with
  | nil => exact path
  | cons link links ih =>
    have onward : Path (binary first link.1 link.2) (.left :: steps) node := .left path
    have below := ih onward
    rwa [List.append_cons, ← List.replicate_succ'] at below

theorem ofChain_ones (first : Node) (count : Nat) :
    ofChain first (ones count) = joinLeft first (ones count) := by
  refine Pending.pushAll_sums ?_
  intro link mem
  rw [List.eq_of_mem_replicate mem]
  rfl

theorem path_tower (level : Nat) :
    ∃ steps, Path (tower level) steps (literal "1") ∧
      2 * steps.countP Step.isOperation = level * (level + 3) := by
  induction level with
  | zero => exact ⟨[], .here, rfl⟩
  | succ level ih =>
    obtain ⟨steps, path, count⟩ := ih
    have called : Path (call .abs [tower level]) (.argument :: steps) (literal "1") :=
      .argument (List.mem_singleton_self _) path
    refine ⟨List.replicate (level + 1) .left ++ .argument :: steps, ?_, ?_⟩
    · rw [tower, ofChain_ones]
      simpa [ones] using path_joinLeft called (ones (level + 1))
    · rw [List.countP_append, List.countP_replicate, List.countP_cons]
      simp only [Step.isOperation, if_true, Nat.mul_add, Nat.add_mul] at count ⊢
      omega

end Node

namespace Grammar
open Node (ones onesTokens tower towerTokens)

theorem links_ones (count : Nat) (rest : List Token) :
    Links (onesTokens count ++ rest) (ones count) (List.replicate count 0) rest := by
  induction count with
  | zero => exact .nil
  | succ count ih => exact .cons (.bare (.number "1")) ih

theorem chainLevel_flat {k count bound : Nat} (room : k + count ≤ bound + 1) :
    chainLevel k (List.replicate count 0) ≤ bound := by
  induction count generalizing k with
  | zero => exact Nat.zero_le _
  | succ count ih =>
    exact Nat.max_le.mpr ⟨by omega, ih (by omega)⟩

theorem stands_tower (level : Nat) :
    ∃ deep ≤ level, Stands (towerTokens level) (tower level) deep := by
  induction level with
  | zero => exact ⟨0, Nat.le_refl 0, stands_operand fun rest => .bare (.number "1")⟩
  | succ level ih =>
    obtain ⟨deep, bound, stands⟩ := ih
    -- The call is the first operand, so its levels and those of the additions do not add up.
    refine ⟨chainLevel 0 ((1 + deepest [deep]) :: List.replicate (level + 1) 0), ?_, ?_⟩
    · refine Nat.max_le.mpr ⟨?_, chainLevel_flat (by omega)⟩
      simp only [deepest, List.foldr_cons, List.foldr_nil]
      omega
    · intro rest _
      have inside := stands (.closeParen :: (onesTokens (level + 1) ++ rest)) (by simp [Closes])
      have called := Unsigned.call .abs (.last inside) rfl
      have chain := Expression.chain (.bare called) (links_ones (level + 1) rest)
      simpa [towerTokens, tower, Node.enclosed] using chain

end Grammar

namespace Parse
open Node

theorem numeral_one : Lexer.Numeral "1".toList :=
  .intro ['1'] [] [] (.whole (Lexer.digits_of_all (by simp) rfl)) .none .none rfl

theorem words_tower (level : Nat) : Words (towerTokens level) := by
  have one : Lexer.Word (.number "1") := Lexer.word_number numeral_one
  have ones : ∀ count, Words (onesTokens count) := by
    intro count
    induction count with
    | zero => exact words_nil
    | succ count ih => exact .cons (Lexer.word_operator .add) (.cons one ih)
  induction level with
  | zero => exact .cons one words_nil
  | succ level ih => exact .cons (Lexer.word_function .abs) (ih.enclosed.append (ones (level + 1)))

theorem text_tower (limit : Nat) :
    (text limit (spaced (towerTokens limit))).value = .ok (tower limit) := by
  obtain ⟨level, bound, stands⟩ := stands_tower limit
  have words := words_tower limit
  have tokens : tokensOf (spaced (towerTokens limit)) = towerTokens limit ++ [.eof] :=
    Cursor.unplaced_lexemes_spaced words _ (Lexer.dropWhile_spaced words)
  refine text_ok.mpr ⟨level, bound, ?_⟩
  rw [tokens]
  exact .bare (stands _ (by simp [Closes]))

/-- At every limit the most calls and operators on a way from the root of a tree to a leaf, over all
texts that are read, are `limit * (limit + 3) / 2`. -/
theorem greatest_operations (limit : Nat) :
    IsGreatest {count | ∃ source tree steps leaf, (text limit source).value = .ok tree ∧
        Path tree steps leaf ∧ leaf.children = [] ∧ operationsOn steps leaf = count}
      (limit * (limit + 3) / 2) := by
  constructor
  · obtain ⟨steps, path, count⟩ := path_tower limit
    refine ⟨_, _, steps, literal "1", text_tower limit, path, rfl, ?_⟩
    change steps.countP Step.isOperation + 0 = _
    omega
  · rintro _ ⟨source, tree, steps, leaf, run, path, _, rfl⟩
    have most := within_text 1 run steps leaf path
    have twice := room_one limit
    rw [count_one, last_one, Nat.zero_add, Nat.one_mul] at most
    rw [operationsOn, Nat.le_div_iff_mul_le (by decide)]
    simp only [Nat.mul_add] at twice ⊢
    omega

end Parse
end Reckon
