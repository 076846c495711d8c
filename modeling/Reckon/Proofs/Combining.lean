import Mathlib.Data.List.Forall2
import Reckon.Proofs.Moving

/-
Texts put together from texts that are read.  In parentheses, after a sign, in a call and around an
operator each of them is read as it is by itself, and the levels add up as in trees.
-/
namespace Reckon

def parens (source : List Char) : List Char := '(' :: (source ++ [')'])

theorem bodyOf_parens (source after : List Char) :
    bodyOf (parens source ++ after) = Node.enclosed (bodyOf source) ++ bodyOf after := by
  have apart : Lexer.Apart (')' :: after) := Lexer.apart_cons (by decide) after
  have opened : bodyOf ('(' :: (source ++ ')' :: after)) =
      .openParen :: bodyOf (source ++ ')' :: after) := bodyOf_cons rfl _
  have closed : bodyOf (')' :: after) = .closeParen :: bodyOf after := bodyOf_cons rfl after
  simp only [parens, Node.enclosed, List.cons_append, List.append_assoc, List.nil_append]
  rw [opened, bodyOf_append apart, closed]

theorem bodyOf_parens_end (source : List Char) :
    bodyOf (parens source) = Node.enclosed (bodyOf source) := by
  have body := bodyOf_parens source []
  rwa [bodyOf_nil, List.append_nil, List.append_nil] at body

theorem bodyOf_word_parens {word : Token} (reads : Lexer.Word word) (source : List Char) :
    bodyOf (word.text ++ parens source) = word :: Node.enclosed (bodyOf source) := by
  have apart : Lexer.Apart (parens source) := Lexer.apart_cons (by decide) _
  rw [bodyOf_word reads apart, bodyOf_parens_end]

theorem Sign.text_token (sign : Sign) : sign.token.text = sign.symbol.toList := by
  cases sign <;> rfl

theorem Sign.word (sign : Sign) : Lexer.Word sign.token := by
  cases sign <;> exact Lexer.word_operator _

namespace Grammar

variable {body : List Token} {node : Node} {level : Nat}

theorem Stands.unsigned (stands : Stands body node level) (rest : List Token) :
    Unsigned (Node.enclosed body ++ rest) node (1 + level) rest := by
  simp only [Node.enclosed, List.cons_append, List.append_assoc, List.nil_append]
  exact .parens (stands _ (by simp [Closes]))

theorem stands_operand
    (operand : ∀ rest, Operand (body ++ rest) node level rest) : Stands body node level := by
  intro rest _
  have alone : chainLevel 0 [level] = level := by simp [chainLevel]
  have chain := Expression.chain (operand rest) .nil
  rwa [alone] at chain

theorem Stands.parens (stands : Stands body node level) :
    Stands (Node.enclosed body) node (1 + level) :=
  stands_operand fun rest => .bare (stands.unsigned rest)

theorem Stands.signed (sign : Sign) (stands : Stands body node level) :
    Stands (sign.token :: Node.enclosed body) (node.sign [sign]) (1 + level) :=
  stands_operand fun rest => .signed sign (stands.unsigned rest)

theorem Stands.binary {others : List Token} {right : Node} {deep : Nat} (op : Operator)
    (first : Stands body node level) (second : Stands others right deep) :
    Stands (Node.enclosed body ++ .operator op :: Node.enclosed others) (.binary node op right)
      (max (1 + level) (2 + deep)) := by
  intro rest _
  have tree : Node.ofChain node [(op, right)] = .binary node op right := by
    cases op <;> rfl
  have levels : chainLevel 0 [1 + level, 1 + deep] = max (1 + level) (2 + deep) := by
    simp only [chainLevel]
    omega
  have links : Links (.operator op :: (Node.enclosed others ++ rest)) [(op, right)] [1 + deep]
      rest :=
    .cons (.bare (second.unsigned rest)) .nil
  have chain := Expression.chain (.bare (first.unsigned _)) links
  rw [tree, levels] at chain
  rwa [List.append_assoc]

theorem stands_call (f : Function) {args : List Node} (arity : f.arity.accepts args.length)
    (inside : args = [] ∧ body = [] ∧ level = 0 ∨ ∃ levels, level = deepest levels ∧
      ∀ rest, Closes rest → Arguments (body ++ rest) args levels rest) :
    Stands (.identifier f.name :: Node.enclosed body) (.call f args) (1 + level) := by
  refine stands_operand fun rest => .bare ?_
  simp only [Node.enclosed, List.cons_append, List.append_assoc, List.nil_append]
  rcases inside with ⟨rfl, rfl, rfl⟩ | ⟨levels, rfl, phrases⟩
  · exact .callEmpty f arity
  · exact .call f (phrases _ (by simp [Closes])) arity

end Grammar

namespace Parse
open Grammar

variable {limit level : Nat} {source first second : List Char} {node left right : Node}
  {sources : List (List Char)} {args : List Node}

structure ReadsAs (limit : Nat) (source : List Char) (node : Node) : Prop where
  clear : '=' ∉ source
  read : (text limit source).value = .ok node

theorem ReadsAs.stands (reads : ReadsAs limit source node) :
    ∃ level ≤ limit, Stands (bodyOf source) node level :=
  (text_clear reads.clear).mp reads.read

theorem readsAs_of (clear : '=' ∉ source) (stands : Stands (bodyOf source) node level)
    (bound : level ≤ limit) : ReadsAs limit source node :=
  ⟨clear, (text_clear clear).mpr ⟨level, bound, stands⟩⟩

theorem clear_parens (clear : '=' ∉ source) : '=' ∉ parens source := by
  simp [parens, clear]

theorem readsAs_parens (reads : ReadsAs limit source node) :
    ReadsAs (limit + 1) (parens source) node := by
  obtain ⟨level, bound, stands⟩ := reads.stands
  have whole := stands.parens
  rw [← bodyOf_parens_end] at whole
  exact readsAs_of (clear_parens reads.clear) whole (by omega)

theorem readsAs_signed (sign : Sign) (reads : ReadsAs limit source node) :
    ReadsAs (limit + 1) (sign.symbol.toList ++ parens source) (node.sign [sign]) := by
  obtain ⟨level, bound, stands⟩ := reads.stands
  have clear : '=' ∉ sign.symbol.toList ++ parens source := by
    rw [List.mem_append, not_or]
    exact ⟨by cases sign <;> decide, clear_parens reads.clear⟩
  have whole := stands.signed sign
  rw [← bodyOf_word_parens sign.word, sign.text_token] at whole
  exact readsAs_of clear whole (by omega)

theorem readsAs_binary (op : Operator) (reads : ReadsAs limit first left)
    (others : ReadsAs limit second right) :
    ReadsAs (limit + 2) (parens first ++ op.symbol.toList ++ parens second)
      (.binary left op right) := by
  obtain ⟨level, bound, stands⟩ := reads.stands
  obtain ⟨deep, bound', stands'⟩ := others.stands
  have clear : '=' ∉ parens first ++ op.symbol.toList ++ parens second := by
    rw [List.mem_append, List.mem_append, not_or, not_or]
    exact ⟨⟨clear_parens reads.clear, by cases op <;> decide⟩, clear_parens others.clear⟩
  have whole := stands.binary op stands'
  rw [← bodyOf_word_parens (Lexer.word_operator op), ← bodyOf_parens, ← List.append_assoc] at whole
  exact readsAs_of clear whole (by omega)

theorem arguments_joined (all : List.Forall₂ (ReadsAs limit) sources args) (some : args ≠ []) :
    '=' ∉ [','].intercalate sources ∧ ∃ levels, deepest levels ≤ limit ∧ ∀ rest, Closes rest →
      Arguments (bodyOf ([','].intercalate sources) ++ rest) args levels rest := by
  induction all with
  | nil => exact absurd rfl some
  | @cons source arg sources args here others ih =>
    obtain ⟨level, bound, stands⟩ := here.stands
    cases others with
    | nil =>
      rw [List.intercalate_singleton]
      exact ⟨here.clear, [level], by simpa [deepest] using bound, fun rest closes =>
        .last (stands rest closes)⟩
    | @cons next _ more _ after others =>
      obtain ⟨clear, levels, bounds, phrases⟩ := ih (by simp)
      have comma (after : List Char) : bodyOf (',' :: after) = .comma :: bodyOf after :=
        bodyOf_cons rfl after
      have body : bodyOf ([','].intercalate (source :: next :: more)) =
          bodyOf source ++ .comma :: bodyOf ([','].intercalate (next :: more)) := by
        rw [List.intercalate_cons_cons, List.append_assoc, List.singleton_append,
          bodyOf_append (Lexer.apart_cons (by decide) _), comma]
      refine ⟨?_, level :: levels, Nat.max_le.mpr ⟨bound, bounds⟩, fun rest closes => ?_⟩
      · rw [List.intercalate_cons_cons]
        simp [here.clear, clear]
      · rw [body, List.append_assoc]
        exact .more (stands _ (by simp [Closes])) (phrases rest closes)

theorem readsAs_call (f : Function) (all : List.Forall₂ (ReadsAs limit) sources args)
    (arity : f.arity.accepts args.length) :
    ReadsAs (limit + 1) (f.name.toList ++ parens ([','].intercalate sources)) (.call f args) := by
  have inner : '=' ∉ [','].intercalate sources ∧ ∃ level ≤ limit,
      Stands (.identifier f.name :: Node.enclosed (bodyOf ([','].intercalate sources)))
        (.call f args) (1 + level) := by
    cases all with
    | nil =>
      rw [List.intercalate_nil, bodyOf_nil]
      exact ⟨by simp, 0, Nat.zero_le _, stands_call f arity (.inl ⟨rfl, rfl, rfl⟩)⟩
    | cons here others =>
      obtain ⟨clear, levels, bounds, phrases⟩ := arguments_joined (.cons here others) (by simp)
      exact ⟨clear, _, bounds, stands_call f arity (.inr ⟨levels, rfl, phrases⟩)⟩
  obtain ⟨clear, level, bound, whole⟩ := inner
  rw [← bodyOf_word_parens (Lexer.word_function f)] at whole
  refine readsAs_of ?_ whole (by omega)
  rw [List.mem_append, not_or]
  exact ⟨by cases f <;> decide, clear_parens clear⟩

/-- Texts that are read can be wrapped in parentheses, put after signs, passed to functions and
joined by operators, and are read as their trees there. -/
theorem readings_combine (limit : Nat) :
    (∀ source node, ReadsAs limit source node → ReadsAs (limit + 1) (parens source) node) ∧
    (∀ sign source node, ReadsAs limit source node →
      ReadsAs (limit + 1) (sign.symbol.toList ++ parens source) (node.sign [sign])) ∧
    (∀ f sources args, List.Forall₂ (ReadsAs limit) sources args → f.arity.accepts args.length →
      ReadsAs (limit + 1) (f.name.toList ++ parens ([','].intercalate sources)) (.call f args)) ∧
    ∀ op first left second right, ReadsAs limit first left → ReadsAs limit second right →
      ReadsAs (limit + 2) (parens first ++ op.symbol.toList ++ parens second)
        (.binary left op right) := by
  refine ⟨?_, ?_, ?_, ?_⟩
  · intro source node
    exact readsAs_parens
  · intro sign source node
    exact readsAs_signed sign
  · intro f sources args
    exact readsAs_call f
  · intro op first left second right
    exact readsAs_binary op

def smallSum : Node := .binary (.literal "1") .add (.literal "2")

theorem smallSum_combines :
    ReadsAs 1 "1 + 2".toList smallSum ∧ ReadsAs 2 "(1 + 2)".toList smallSum ∧
      ReadsAs 2 "-(1 + 2)".toList (.signed [.minus] smallSum) ∧
      ReadsAs 2 "max(1 + 2,1 + 2)".toList (.call .max [smallSum, smallSum]) ∧
      ReadsAs 3 "(1 + 2)**(1 + 2)".toList (.binary smallSum .pow smallSum) := by
  have body : bodyOf "1 + 2".toList = [.number "1", .operator .add, .number "2"] := by
    decide +kernel
  have stands : Stands (bodyOf "1 + 2".toList) smallSum 1 := by
    rw [body]
    exact fun rest _ => .chain (.bare (.number "1")) (.cons (.bare (.number "2")) .nil)
  have reads : ReadsAs 1 "1 + 2".toList smallSum := readsAs_of (by decide) stands (Nat.le_refl 1)
  obtain ⟨wrapped, signed, called, joined⟩ := readings_combine 1
  exact ⟨reads, wrapped _ _ reads, signed .minus _ _ reads,
    called .max _ _ (.cons reads (.cons reads .nil)) rfl, joined .pow _ _ _ _ reads reads⟩

end Parse
end Reckon
