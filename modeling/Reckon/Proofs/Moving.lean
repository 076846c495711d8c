import Reckon.Proofs.Joining
import Reckon.Proofs.RoundTrip

/-
Phrases stand anywhere.  What comes after a phrase has no part in it, so the tokens of a text that
is read as a tree are read as this tree inside any longer text as well.
-/
namespace Reckon
open Text

namespace Grammar

/-- A phrase that leaves some tokens would leave others as well, if these meet a condition.  None of
its own tokens is an equals sign. -/
def Movable (follow : List Token → Prop) (phrase : List Token → List Token → Prop)
    (tokens rest : List Token) : Prop :=
  ∃ used, tokens = used ++ rest ∧ .equals ∉ used ∧
    ∀ after, follow after → phrase (used ++ after) after

section
variable {follow follow' : List Token → Prop} {first second whole : List Token → List Token → Prop}
  {tokens middle rest : List Token} {token : Token}

theorem Movable.map (movable : Movable follow first tokens rest)
    (build : ∀ {tokens rest}, first tokens rest → whole tokens rest) :
    Movable follow whole tokens rest := by
  obtain ⟨used, same, clear, moves⟩ := movable
  exact ⟨used, same, clear, fun after met => build (moves after met)⟩

theorem Movable.cons (other : token ≠ .equals) (movable : Movable follow first tokens rest) :
    Movable follow (fun given rest => ∃ tokens, given = token :: tokens ∧ first tokens rest)
      (token :: tokens) rest := by
  obtain ⟨used, rfl, clear, moves⟩ := movable
  refine ⟨token :: used, rfl, by simp [clear, other.symm], fun after met => ?_⟩
  exact ⟨_, rfl, moves after met⟩

theorem Movable.upto (other : token ≠ .equals)
    (movable : Movable follow' first tokens (token :: rest))
    (met : ∀ after, follow' (token :: after)) :
    Movable follow (fun tokens rest => first tokens (token :: rest)) tokens rest := by
  obtain ⟨used, rfl, clear, moves⟩ := movable
  refine ⟨used ++ [token], by simp, by simp [clear, other.symm], fun after _ => ?_⟩
  rw [List.append_assoc, List.singleton_append]
  exact moves _ (met after)

theorem Movable.append (front : Movable follow' first tokens middle)
    (back : Movable follow second middle rest)
    (joins : ∀ {tokens rest}, second tokens rest → follow rest → follow' tokens) :
    Movable follow (fun tokens rest => ∃ middle, first tokens middle ∧ second middle rest)
      tokens rest := by
  obtain ⟨used, rfl, clear, moves⟩ := front
  obtain ⟨more, rfl, clear', moves'⟩ := back
  refine ⟨used ++ more, by simp, by simp [clear, clear'], fun after met => ⟨more ++ after, ?_⟩⟩
  have tail := moves' after met
  rw [List.append_assoc]
  exact ⟨moves _ (joins tail met), tail⟩

end

theorem Links.closes (phrase : Links tokens links levels rest) (closes : Closes rest) :
    Closes tokens := by
  cases phrase with
  | nil => exact closes
  | cons => simp [Closes]

mutual

theorem Expression.movable :
    Expression tokens node level rest → Movable Closes (Expression · node level ·) tokens rest
  | .chain first more =>
    (first.movable.append more.movable Links.closes).map fun ⟨_, head, tail⟩ => .chain head tail

theorem Links.movable :
    Links tokens links levels rest → Movable Closes (Links · links levels ·) tokens rest
  | .nil => ⟨[], rfl, by simp, fun _ _ => .nil⟩
  | .cons first more =>
    ((first.movable.append more.movable Links.closes).cons (by simp)).map
      fun ⟨_, same, _, head, tail⟩ => same ▸ .cons head tail

theorem Operand.movable :
    Operand tokens node level rest → Movable Closes (Operand · node level ·) tokens rest
  | .bare inner => inner.movable.map .bare
  | .signed sign inner =>
    (inner.movable.cons (by cases sign <;> simp [Sign.token])).map
      fun ⟨_, same, inside⟩ => same ▸ .signed sign inside

theorem Unsigned.movable :
    Unsigned tokens node level rest → Movable Closes (Unsigned · node level ·) tokens rest
  | .number raw => ⟨[.number raw], rfl, by simp, fun _ _ => .number raw⟩
  | .constant c _ => ⟨[.identifier c.name], rfl, by simp, fun _ closes => .constant c closes⟩
  | .parens inside =>
    ((inside.movable.upto (by simp) (by simp [Closes])).cons (by simp)).map
      fun ⟨_, same, inside⟩ => same ▸ .parens inside
  | .callEmpty f arity =>
    ⟨[.identifier f.name, .openParen, .closeParen], rfl, by simp, fun _ _ => .callEmpty f arity⟩
  | .call f inside arity =>
    (((inside.movable.upto (by simp) (by simp [Closes])).cons (by simp)).cons (by simp)).map
      fun ⟨_, same, _, same', inside⟩ => same ▸ same' ▸ .call f inside arity

theorem Arguments.movable :
    Arguments tokens args levels rest → Movable Closes (Arguments · args levels ·) tokens rest
  | .last only => only.movable.map .last
  | .more first others =>
    ((first.movable.upto (by simp) (by simp [Closes])).append others.movable
      fun _ _ => trivial).map fun ⟨_, head, tail⟩ => .more head tail

end

/-- Tokens that are an expression wherever they stand, if no parenthesis opens after them. -/
def Stands (used : List Token) (node : Node) (level : Nat) : Prop :=
  ∀ after, Closes after → Expression (used ++ after) node level after

theorem Line.stands (derived : Line tokens node level) :
    ∃ used, Stands used node level ∧ .equals ∉ used ∧
      (tokens = used ++ [.eof] ∨ tokens = used ++ [.equals, .eof]) := by
  cases derived with
  | bare phrase =>
    obtain ⟨used, same, clear, stands⟩ := phrase.movable
    exact ⟨used, stands, clear, .inl same⟩
  | equals phrase =>
    obtain ⟨used, same, clear, stands⟩ := phrase.movable
    exact ⟨used, stands, clear, .inr same⟩

end Grammar

namespace Parse
open Grammar

variable {limit : Nat} {source : List Char} {node : Node}

theorem text_stands :
    (Parse.text limit source).value = .ok node ↔
      ∃ used level, level ≤ limit ∧ Stands used node level ∧ .equals ∉ used ∧
        (bodyOf source = used ∨ bodyOf source = used ++ [.equals]) := by
  rw [text_ok, tokensOf_eq]
  constructor
  · rintro ⟨level, bound, derived⟩
    obtain ⟨used, stands, clear, same⟩ := derived.stands
    refine ⟨used, level, bound, stands, clear, same.imp List.append_cancel_right fun closed => ?_⟩
    rw [List.append_cons used] at closed
    exact List.append_cancel_right closed
  · rintro ⟨used, level, bound, stands, _, same | same⟩
    · rw [same]
      exact ⟨level, bound, .bare (stands _ (by simp [Closes]))⟩
    · rw [same, List.append_assoc]
      exact ⟨level, bound, .equals (stands _ (by simp [Closes]))⟩

theorem text_clear (clear : '=' ∉ source) :
    (Parse.text limit source).value = .ok node ↔
      ∃ level ≤ limit, Stands (bodyOf source) node level := by
  rw [← equals_mem_bodyOf] at clear
  rw [text_stands]
  constructor
  · rintro ⟨used, level, bound, stands, _, rfl | same⟩
    · exact ⟨level, bound, stands⟩
    · simp [same] at clear
  · rintro ⟨level, bound, stands⟩
    exact ⟨_, level, bound, stands, clear, .inl rfl⟩

end Parse
end Reckon
