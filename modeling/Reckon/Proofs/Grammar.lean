import Reckon.Node.Chain
import Reckon.Token.Basic

/-
The grammar of expressions.  A phrase of the grammar is a relation between the tokens where it
starts, its tree, the nesting levels that it opens, and the tokens that it leaves:

  expression := operand (operator operand)*
  operand    := ['+' | '-'] (number | constant | '(' expression ')' | call)
  call       := function '(' [expression (',' expression)*] ')'

Operators, signs and spans play no part in the levels except as said below; the budget that a reader
runs on is not mentioned here.
-/
namespace Reckon

def Sign.token : Sign → Token
  | .plus => .operator .add
  | .minus => .operator .sub

namespace Grammar

/-- Levels of a chain, given those of its operands: operand `k` stands `k` levels deeper. -/
def chainLevel : Nat → List Nat → Nat
  | _, [] => 0
  | k, level :: levels => max (k + level) (chainLevel (k + 1) levels)

def deepest (levels : List Nat) : Nat := levels.foldr max 0

mutual

inductive Expression : List Token → Node → Nat → List Token → Prop where
  | chain (first : Operand tokens node level middle) (more : Links middle links levels rest) :
      Expression tokens (Node.ofChain node links) (chainLevel 0 (level :: levels)) rest

inductive Links : List Token → List (Operator × Node) → List Nat → List Token → Prop where
  | nil : Links rest [] [] rest
  | cons (first : Operand tokens node level middle) (more : Links middle links levels rest) :
      Links (.operator operator :: tokens) ((operator, node) :: links) (level :: levels) rest

inductive Operand : List Token → Node → Nat → List Token → Prop where
  | bare (inner : Unsigned tokens node level rest) : Operand tokens node level rest
  | signed (sign : Sign) (inner : Unsigned tokens node level rest) :
      Operand (sign.token :: tokens) (node.sign [sign]) level rest

/-- An identifier before a parenthesis is the name of a function, never a constant. -/
inductive Unsigned : List Token → Node → Nat → List Token → Prop where
  | number (raw : String) : Unsigned (.number raw :: rest) (.literal raw) 0 rest
  | constant (c : Constant) (follow : rest.head? ≠ some .openParen) :
      Unsigned (.identifier c.name :: rest) (.constant c) 0 rest
  | parens (inside : Expression tokens node level (.closeParen :: rest)) :
      Unsigned (.openParen :: tokens) node (1 + level) rest
  | callEmpty (f : Function) (arity : f.arity.accepts 0) :
      Unsigned (.identifier f.name :: .openParen :: .closeParen :: rest) (.call f []) 1 rest
  | call (f : Function) (inside : Arguments tokens args levels (.closeParen :: rest))
      (arity : f.arity.accepts args.length) :
      Unsigned (.identifier f.name :: .openParen :: tokens) (.call f args) (1 + deepest levels) rest

inductive Arguments : List Token → List Node → List Nat → List Token → Prop where
  | last (only : Expression tokens node level rest) : Arguments tokens [node] [level] rest
  | more (first : Expression tokens node level (.comma :: middle))
      (others : Arguments middle args levels rest) :
      Arguments tokens (node :: args) (level :: levels) rest

end

inductive Line (tokens : List Token) (node : Node) (level : Nat) : Prop where
  | bare (expression : Expression tokens node level [.eof])
  | equals (expression : Expression tokens node level [.equals, .eof])

theorem chainLevel_succ (k budget : Nat) (levels : List Nat) :
    chainLevel (k + 1) levels ≤ budget + 1 ↔ chainLevel k levels ≤ budget := by
  induction levels generalizing k with
  | nil => simp [chainLevel]
  | cons level levels ih =>
    have tail := ih (k + 1)
    simp only [chainLevel]
    omega

def Takes (tokens rest : List Token) : Prop := ∃ used, tokens = used ++ rest ∧ .eof ∉ used

theorem Takes.refl (tokens : List Token) : Takes tokens tokens := ⟨[], rfl, by simp⟩

theorem Takes.trans (first : Takes tokens middle) (second : Takes middle rest) :
    Takes tokens rest := by
  obtain ⟨used, rfl, clean⟩ := first
  obtain ⟨more, rfl, clear⟩ := second
  exact ⟨used ++ more, by simp, by simp [clean, clear]⟩

theorem Takes.cons {token : Token} (h : token ≠ .eof) (takes : Takes tokens rest) :
    Takes (token :: tokens) rest := by
  obtain ⟨used, rfl, clean⟩ := takes
  exact ⟨token :: used, rfl, by simp [clean, h.symm]⟩

theorem Takes.length_le (takes : Takes tokens rest) : rest.length ≤ tokens.length := by
  obtain ⟨used, rfl, _⟩ := takes
  simp

mutual

theorem Expression.takes : Expression tokens node level rest → Takes tokens rest
  | .chain first more => first.takes.trans more.takes

theorem Links.takes : Links tokens links levels rest → Takes tokens rest
  | .nil => .refl _
  | .cons first more => (first.takes.trans more.takes).cons (by simp)

theorem Operand.takes : Operand tokens node level rest → Takes tokens rest
  | .bare inner => inner.takes
  | .signed sign inner => inner.takes.cons (by cases sign <;> simp [Sign.token])

theorem Unsigned.takes : Unsigned tokens node level rest → Takes tokens rest
  | .number _ => (Takes.refl _).cons (by simp)
  | .constant _ _ => (Takes.refl _).cons (by simp)
  | .parens inside => (inside.takes.trans ((Takes.refl _).cons (by simp))).cons (by simp)
  | .callEmpty _ _ => (((Takes.refl _).cons (by simp)).cons (by simp)).cons (by simp)
  | .call _ inside _ =>
    ((inside.takes.trans ((Takes.refl _).cons (by simp))).cons (by simp)).cons (by simp)

theorem Arguments.takes : Arguments tokens args levels rest → Takes tokens rest
  | .last only => only.takes
  | .more first others => first.takes.trans (others.takes.cons (by simp))

end

theorem Unsigned.shorter (phrase : Unsigned tokens node level rest) :
    rest.length < tokens.length := by
  cases phrase with
  | number | constant | callEmpty =>
    simp only [List.length_cons]
    omega
  | parens inside =>
    have := inside.takes.length_le
    simp only [List.length_cons] at *
    omega
  | call _ inside _ =>
    have := inside.takes.length_le
    simp only [List.length_cons] at *
    omega

theorem Operand.shorter (phrase : Operand tokens node level rest) :
    rest.length < tokens.length := by
  cases phrase with
  | bare inner => exact inner.shorter
  | signed _ inner => exact Nat.lt_succ_of_lt inner.shorter

theorem Expression.shorter (phrase : Expression tokens node level rest) :
    rest.length < tokens.length := by
  obtain ⟨first, more⟩ := phrase
  exact Nat.lt_of_le_of_lt more.takes.length_le first.shorter

theorem Arguments.shorter (phrase : Arguments tokens args levels rest) :
    rest.length < tokens.length := by
  cases phrase with
  | last only => exact only.shorter
  | more first others =>
    have := first.shorter
    have := others.takes.length_le
    simp only [List.length_cons] at *
    omega

theorem Unsigned.head_ne (phrase : Unsigned tokens node level rest) :
    tokens.head? ≠ some .closeParen := by
  cases phrase <;> simp

theorem Unsigned.head_ne_operator (phrase : Unsigned tokens node level rest)
    (operator : Operator) : tokens.head? ≠ some (.operator operator) := by
  cases phrase <;> simp

theorem Expression.head_ne (phrase : Expression tokens node level rest) :
    tokens.head? ≠ some .closeParen := by
  obtain ⟨first, _⟩ := phrase
  cases first with
  | bare inner => exact inner.head_ne
  | signed sign _ => cases sign <;> simp [Sign.token]

theorem Arguments.head_ne (phrase : Arguments tokens args levels rest) :
    tokens.head? ≠ some .closeParen := by
  cases phrase with
  | last only => exact only.head_ne
  | more first _ => exact first.head_ne

end Grammar
end Reckon
