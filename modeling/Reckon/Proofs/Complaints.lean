import Reckon.Proofs.Openings
import Reckon.Proofs.Spacing

/-
Parse errors and the token that they talk about.  An error stands where one of the tokens starts,
and what it says is true of this token and of those after it.
-/
namespace Reckon

namespace Grammar

inductive NamedCall : List Token → String → List Node → List Token → Prop where
  | empty (name : String) :
      NamedCall (.identifier name :: .openParen :: .closeParen :: rest) name [] rest
  | some (name : String) (inside : Arguments tokens args levels (.closeParen :: rest)) :
      NamedCall (.identifier name :: .openParen :: tokens) name args rest

/-- What a cause says about the token here and the tokens after it.  What was found instead of
something else is always this token. -/
inductive Blames (limit : Nat) (here : Token) (after : List Token) : ParseCause → Prop where
  | mismatch (expected : Expectation) (possible : expected ≠ .openParen) :
      Blames limit here after (.mismatch expected here)
  | trailing (more : here ≠ .eof) : Blames limit here after (.trailing here)
  | tooDeep (deeper : here = .openParen ∨ ∃ operator, here = .operator operator) :
      Blames limit here after (.tooDeep limit)
  | constant (name : String) (identifier : here = .identifier name) (form : Constant.hasForm name)
      (unknown : Constant.ofName? name = none) (alone : after.head? ≠ some .openParen) :
      Blames limit here after (.symbol (.unknownConstant name))
  | function (name : String) (complete : NamedCall (here :: after) name args rest)
      (unknown : Function.ofName? name = none) :
      Blames limit here after (.symbol (.unknownFunction name))
  | arity (f : Function) (complete : NamedCall (here :: after) f.name args rest)
      (refused : ¬ f.arity.accepts args.length) :
      Blames limit here after (.symbol (.arity f args.length))

end Grammar

namespace Parse
open Grammar

variable {limit : Nat} {tokens rest : List Lexeme} {error : ParseError}

theorem namedCall_of_argumentList (name : String) {tokens rest : List Token} {args : List Node}
    {level : Nat} (list : ArgumentList tokens args level (.closeParen :: rest)) :
    NamedCall (.identifier name :: .openParen :: tokens) name args rest := by
  cases list with
  | none _ nothing empty _ =>
    subst nothing empty
    exact .empty name
  | some _ inside _ => exact .some name inside

theorem blames_call {name : String} {here : Token} {after rest : List Token} {args : List Node}
    {bad : BadSymbol} (complete : NamedCall (here :: after) name args rest)
    (refused : Node.namedCall name args = .error bad) :
    Blames limit here after (.symbol bad) := by
  rcases Node.namedCall_error.mp refused with ⟨unknown, rfl⟩ | ⟨f, rfl, count, rfl⟩
  · exact .function name complete unknown
  · exact .arity f complete count

theorem Leaves.ne_nil (leaves : Leaves tokens rest) (ends : .eof ∈ unplaced tokens) :
    rest ≠ [] := by
  rintro rfl
  obtain ⟨used, rfl, clean⟩ := leaves
  obtain ⟨lexeme, mem, same⟩ := List.mem_map.mp ends
  rw [List.append_nil] at mem
  exact clean lexeme mem same

def Points (limit : Nat) (tokens : List Lexeme) (error : ParseError) : Prop :=
  ∃ before here after, tokens = before ++ here :: after ∧ here.first.char = error.position ∧
    Blames limit here.token (unplaced after) error.cause

theorem Leaves.points {here : Lexeme} {after : List Lexeme} {cause : ParseCause}
    (leaves : Leaves tokens (here :: after))
    (blames : Blames limit here.token (unplaced after) cause) :
    Points limit tokens ⟨here.first.char, cause⟩ := by
  obtain ⟨used, same, _⟩ := leaves
  exact ⟨used, here, after, same, rfl, blames⟩

theorem Raised.points (raised : Raised tokens error) (ends : .eof ∈ unplaced tokens)
    (lacks : ∀ levels, error.cause = .tooDeep levels → levels = limit) :
    Points limit tokens error := by
  cases raised with
  | missed expected possible rest leaves =>
    obtain ⟨here, after, rfl⟩ := List.exists_cons_of_ne_nil (leaves.ne_nil ends)
    exact leaves.points (.mismatch expected possible)
  | tooDeep levels here after leaves deeper =>
    obtain rfl := lacks levels rfl
    exact leaves.points (.tooDeep deeper)
  | constant name here after leaves identifier form alone unknown =>
    refine leaves.points (.constant name identifier form unknown ?_)
    intro opens
    exact alone ((head_unplaced (by simp)).mp opens)
  | call name here after leaves identifier parenthesis complete refused =>
    obtain ⟨opening, inside, rfl, same⟩ := (peek_eq (by simp)).mp parenthesis
    have whole := namedCall_of_argumentList name complete
    rw [List.tail_cons, ← identifier, ← same, ← unplaced_cons] at whole
    exact leaves.points (blames_call whole refused)

theorem leaves_afterEquals (tokens : List Lexeme) : Leaves tokens (afterEquals tokens) := by
  unfold afterEquals
  split
  · rename_i equals
    exact leaves_tail (by simp [equals])
  · exact .refl tokens

theorem line_points (ends : .eof ∈ unplaced tokens)
    (run : (line limit tokens).value = .error error) : Points limit tokens error := by
  rcases line_error.mp run with inner | ⟨node, left, read, more, rfl⟩
  · refine (expression_raises limit limit inner).points ends ?_
    intro levels deep
    exact (expression_lacks limit limit inner levels deep).1
  · have expression := (reads_expression limit limit).consumes Expression.takes read
    have leaves := expression.trans (leaves_afterEquals left)
    obtain ⟨here, after, same⟩ := List.exists_cons_of_ne_nil (leaves.ne_nil ends)
    rw [same] at leaves more ⊢
    exact leaves.points (.trailing more)

/-- Every error of a reading stands where a token of the text starts, and is right about it. -/
theorem text_points (limit : Nat) (source : List Char) (error : ParseError)
    (fails : (text limit source).value = .error error) :
    Points limit (lexemes source) error := by
  obtain ⟨body, same, _⟩ := (Cursor.endsOnce_lexemes (.ofText source)).unplaced
  refine line_points ?_ fails
  change .eof ∈ unplaced (Cursor.lexemes (.ofText source))
  simp [same]

theorem missingFunction_points :
    (text 2 "2*foo(1)".toList).value = .error ⟨2, .symbol (.unknownFunction "foo")⟩ ∧
      Points 2 (lexemes "2*foo(1)".toList) ⟨2, .symbol (.unknownFunction "foo")⟩ := by
  have spelled : lexemes "2*foo(1)".toList =
      [⟨.number "2", ⟨0, 0⟩, ⟨0, 0⟩⟩, ⟨.operator .mul, ⟨1, 1⟩, ⟨1, 1⟩⟩,
        ⟨.identifier "foo", ⟨2, 2⟩, ⟨4, 4⟩⟩, ⟨.openParen, ⟨5, 5⟩, ⟨5, 5⟩⟩,
        ⟨.number "1", ⟨6, 6⟩, ⟨6, 6⟩⟩, ⟨.closeParen, ⟨7, 7⟩, ⟨7, 7⟩⟩,
        ⟨.eof, ⟨8, 8⟩, ⟨8, 8⟩⟩] := by decide +kernel
  have fails : (text 2 "2*foo(1)".toList).value =
      .error ⟨2, .symbol (.unknownFunction "foo")⟩ := by
    rw [text, spelled]
    rfl
  exact ⟨fails, text_points _ _ _ fails⟩

end Parse
end Reckon
