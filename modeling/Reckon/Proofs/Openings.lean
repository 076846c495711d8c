import Reckon.Proofs.Failures

/-
Levels that tokens can take.  Only opening parentheses and operators behind an operand take one, so
a budget of as many levels is never too small; a smaller one is complained about by its own limit.
-/
namespace Reckon

namespace Token

def closes : Token → Bool
  | number _ | identifier _ | closeParen => true
  | _ => false

/-- The levels that the token can take.  The flag says whether it comes behind an operand; an
operator that does not is a sign. -/
def levels (behind : Bool) : Token → Nat
  | openParen => 1
  | operator _ => behind.toNat
  | _ => 0

end Token

namespace Grammar

def openings : Bool → List Token → Nat
  | _, [] => 0
  | behind, token :: others => token.levels behind + openings token.closes others

section
variable (behind : Bool) (rest : List Token)

@[simp] theorem openings_openParen :
    openings behind (.openParen :: rest) = 1 + openings false rest := rfl

@[simp] theorem openings_operator (op : Operator) :
    openings behind (.operator op :: rest) = behind.toNat + openings false rest := rfl

@[simp] theorem openings_comma : openings behind (.comma :: rest) = openings false rest :=
  Nat.zero_add _

@[simp] theorem openings_closeParen : openings behind (.closeParen :: rest) = openings true rest :=
  Nat.zero_add _

@[simp] theorem openings_number (raw : String) :
    openings behind (.number raw :: rest) = openings true rest := Nat.zero_add _

@[simp] theorem openings_identifier (name : String) :
    openings behind (.identifier name :: rest) = openings true rest := Nat.zero_add _

end

theorem openings_le (behind : Bool) (tokens : List Token) :
    openings false tokens ≤ openings behind tokens := by
  cases tokens with
  | nil => exact Nat.le_refl _
  | cons token others => cases token <;> simp [openings, Token.levels]

theorem openings_append (behind : Bool) (front rest : List Token) :
    ∃ after, openings behind (front ++ rest) = openings behind front + openings after rest := by
  induction front generalizing behind with
  | nil => exact ⟨behind, (Nat.zero_add _).symm⟩
  | cons token front ih =>
    obtain ⟨after, count⟩ := ih token.closes
    refine ⟨after, ?_⟩
    rw [List.cons_append, openings, openings, count, Nat.add_assoc]

theorem openings_suffix (behind : Bool) (front rest : List Token) :
    openings false rest ≤ openings behind (front ++ rest) := by
  obtain ⟨after, count⟩ := openings_append behind front rest
  rw [count]
  exact Nat.le_add_left_of_le (openings_le after rest)

theorem openings_end (behind : Bool) (front rest : List Token) :
    openings behind (front ++ [.eof]) ≤ openings behind (front ++ rest) := by
  obtain ⟨_, ended⟩ := openings_append behind front [.eof]
  obtain ⟨after, count⟩ := openings_append behind front rest
  rw [ended, count]
  exact Nat.add_le_add_left (Nat.zero_le _) _

mutual

theorem Expression.openings_le :
    Expression tokens node level rest → openings true rest ≤ openings false tokens
  | .chain first more => Nat.le_trans more.openings_le first.openings_le

theorem Links.openings_le :
    Links tokens links levels rest → openings true rest ≤ openings true tokens
  | .nil => Nat.le_refl _
  | .cons first more => by
    have later := Nat.le_trans more.openings_le first.openings_le
    rw [openings_operator, Bool.toNat_true]
    omega

theorem Operand.openings_le :
    Operand tokens node level rest → openings true rest ≤ openings false tokens
  | .bare inner => inner.openings_le
  | .signed sign inner => by
    have later := inner.openings_le
    cases sign <;> simpa [Sign.token] using later

theorem Unsigned.openings_le :
    Unsigned tokens node level rest → openings true rest ≤ openings false tokens
  | .number _ => by simp
  | .constant _ _ => by simp
  | .parens inside => by
    have later := inside.openings_le
    rw [openings_closeParen] at later
    rw [openings_openParen]
    omega
  | .callEmpty _ _ => by simp
  | .call _ inside _ => by
    have later := inside.openings_le
    rw [openings_closeParen] at later
    rw [openings_identifier, openings_openParen]
    omega

theorem Arguments.openings_le :
    Arguments tokens args levels rest → openings true rest ≤ openings false tokens
  | .last only => only.openings_le
  | .more first others => by
    have later := first.openings_le
    rw [openings_comma] at later
    exact Nat.le_trans others.openings_le later

end

end Grammar

namespace Parse
open Grammar

variable {α : Type} {limit budget : Nat} {behind : Bool} {inside : Option (Rule Node)}
  {rule : Rule Node} {tokens rest : List Lexeme} {error : ParseError}

/-- If the error is about a lack of levels, then it names the limit, and the tokens can take more
levels than the budget has. -/
def Lacks (limit budget : Nat) (behind : Bool) (tokens : List Lexeme) (error : ParseError) : Prop :=
  ∀ levels, error.cause = .tooDeep levels →
    levels = limit ∧ budget < openings behind (unplaced tokens)

def LacksOnly (limit budget : Nat) (behind : Bool) (rule : Rule α) : Prop :=
  ∀ {tokens error}, (rule tokens).value = .error error → Lacks limit budget behind tokens error

theorem Lacks.mono {more : Nat} {before : Bool} {given : List Lexeme}
    (lacks : Lacks limit budget behind rest error)
    (less : budget < openings behind (unplaced rest) → more < openings before (unplaced given)) :
    Lacks limit more before given error := by
  intro levels deep
  obtain ⟨named, short⟩ := lacks levels deep
  exact ⟨named, less short⟩

theorem mismatch_lacks {expected : Expectation}
    (run : (mismatch expected rest : Parsed α).value = .error error) :
    Lacks limit budget behind tokens error := by
  obtain rfl := Except.error.inj run
  intro levels deep
  cases deep

theorem expect_lacks {token : Token} {expected : Expectation}
    (run : (expect token expected rest).value = .error error) :
    Lacks limit budget behind tokens error := by
  obtain ⟨_, rfl⟩ := expect_error.mp run
  intro levels deep
  cases deep

theorem named_lacks {position : Nat} {node : Except BadSymbol Node}
    (run : (named position node).value = .error error) :
    Lacks limit budget behind tokens error := by
  obtain ⟨bad, _, rfl⟩ := named_error.mp run
  intro levels deep
  cases deep

theorem tooDeep_lacks (opening : (peek tokens).token = .openParen)
    (run : (parenthesized limit (none : Option (Rule α)) tokens).value = .error error) :
    Lacks limit 0 behind tokens error := by
  obtain ⟨here, more, rfl, same⟩ := (peek_eq (by simp)).mp opening
  obtain rfl := Except.error.inj run
  intro levels deep
  obtain rfl := ParseCause.tooDeep.inj deep
  refine ⟨rfl, ?_⟩
  rw [unplaced_cons, same, openings_openParen]
  omega

theorem parenthesized_lacks {rule : Rule α} (lacks : LacksOnly limit budget false rule)
    (opening : (peek tokens).token = .openParen)
    (run : (parenthesized limit (some rule) tokens).value = .error error) :
    Lacks limit (budget + 1) behind tokens error := by
  obtain ⟨here, more, rfl, same⟩ := (peek_eq (by simp)).mp opening
  rcases (parenthesized_error opening).mp run with first | ⟨value, rest, _, second⟩
  · refine (lacks first).mono ?_
    intro short
    rw [List.tail_cons] at short
    rw [unplaced_cons, same, openings_openParen]
    omega
  · exact expect_lacks second

theorem arguments_lacks (reads : Reads budget rule Expression Stops)
    (lacks : LacksOnly limit budget false rule) (count : Nat) :
    LacksOnly limit budget false (arguments rule count) := by
  induction count with
  | zero =>
    intro tokens error run
    exact mismatch_lacks run
  | succ count ih =>
    intro tokens error run
    rw [arguments] at run
    simp only [Attempt.value_bind_error, Prod.exists] at run
    rcases run with first | ⟨node, rest, first, after⟩
    · exact lacks first
    · obtain ⟨_, level, _, phrase⟩ := reads.sound first
      split at after
      · rename_i comma
        obtain ⟨here, more, rfl, same⟩ := (peek_eq (by simp)).mp comma
        simp only [Attempt.value_bind_error, Prod.exists] at after
        rcases after with others | ⟨_, _, _, final⟩
        · refine (ih others).mono ?_
          intro short
          have fewer := phrase.openings_le
          rw [List.tail_cons] at short
          rw [unplaced_cons, same, openings_comma] at fewer
          exact Nat.lt_of_lt_of_le short fewer
        · simp at final
      · simp at after

theorem argumentList_lacks (reads : Reads budget rule Expression Stops)
    (lacks : LacksOnly limit budget false rule) :
    LacksOnly limit budget false (argumentList rule) := by
  intro tokens error run
  unfold argumentList at run
  split at run
  · simp at run
  · exact arguments_lacks reads lacks _ run

inductive Nests (limit : Nat) : Option (Rule Node) → Nat → Prop where
  | closed : Nests limit none 0
  | opened {below : Rule Node} (reads : Reads levels below Expression Stops)
      (lacks : LacksOnly limit levels false below) : Nests limit (some below) (levels + 1)

theorem call_lacks (nests : Nests limit inside budget) (opening : (peek tokens).token = .openParen)
    (run : (parenthesized limit (inside.map argumentList) tokens).value = .error error) :
    Lacks limit budget behind tokens error := by
  cases nests with
  | closed => exact tooDeep_lacks opening run
  | opened reads lacks => exact parenthesized_lacks (argumentList_lacks reads lacks) opening run

theorem atom_lacks (nests : Nests limit inside budget) :
    LacksOnly limit budget false (atom limit inside) := by
  intro tokens error run
  cases tokens with
  | nil => exact mismatch_lacks run
  | cons here more =>
    simp only [atom, peek_cons, List.tail_cons] at run
    split at run
    · simp at run
    · rename_i name identifier
      by_cases opening : (peek more).token = .openParen
      · simp only [opening, ↓reduceIte, Attempt.value_bind_error, Prod.exists] at run
        rcases run with list | ⟨args, rest, _, refused | ⟨_, _, final⟩⟩
        · have lacks : Lacks limit budget true more error := call_lacks nests opening list
          refine lacks.mono ?_
          intro short
          rwa [unplaced_cons, identifier, openings_identifier]
        · exact named_lacks refused
        · simp at final
      · simp only [opening, ↓reduceIte] at run
        by_cases form : Constant.hasForm name
        · simp only [form, ↓reduceIte, Attempt.value_bind_error] at run
          rcases run with refused | ⟨_, _, final⟩
          · exact named_lacks refused
          · simp at final
        · simp only [form, Bool.false_eq_true, ↓reduceIte] at run
          exact mismatch_lacks run
    · exact mismatch_lacks run

theorem signedOperand_lacks (nests : Nests limit inside budget) :
    LacksOnly limit budget false (signedOperand limit inside) := by
  have bare : LacksOnly limit budget false (unsigned limit inside) := by
    intro tokens error run
    unfold unsigned at run
    split at run
    · rename_i opening
      cases nests with
      | closed => exact tooDeep_lacks opening run
      | opened reads lacks => exact parenthesized_lacks lacks opening run
    · exact atom_lacks nests run
  intro tokens error run
  unfold signedOperand at run
  split at run
  · rename_i sign signs
    obtain ⟨here, more, rfl, same⟩ := (peek_eq (by cases sign <;> simp [Sign.token])).mp
      (sign?_eq_some.mp signs)
    simp only [List.tail_cons, Attempt.value_bind_error, Prod.exists] at run
    rcases run with inner | ⟨_, _, _, final⟩
    · refine (bare inner).mono ?_
      intro short
      rw [unplaced_cons, same]
      cases sign <;> simpa [Sign.token] using short
    · simp at final
  · exact bare run

theorem chained_lacks {operand : Rule Node} {links : Rule (List (Operator × Node))}
    (reads : Reads budget operand Operand fun _ => True)
    (operands : LacksOnly limit budget false operand)
    (chains : LacksOnly limit budget true links) :
    LacksOnly limit budget false (chained operand links) := by
  intro tokens error run
  rcases chained_error run with head | ⟨_, _, head, tail⟩
  · exact operands head
  · obtain ⟨_, _, _, phrase⟩ := reads.sound head
    exact (chains tail).mono fun short => Nat.lt_of_lt_of_le short phrase.openings_le

theorem links_zero_lacks : LacksOnly limit 0 true (links limit 0) := by
  intro tokens error run
  rw [value_links_zero] at run
  split at run
  · simp at run
  · rename_i operator continues
    obtain ⟨here, after, rfl, same⟩ :=
      (peek_eq (by simp)).mp (Token.operator?_eq_some.mp continues)
    obtain rfl := Except.error.inj run
    intro levels deep
    obtain rfl := ParseCause.tooDeep.inj deep
    refine ⟨rfl, ?_⟩
    rw [unplaced_cons, same, openings_operator, Bool.toNat_true]
    omega

theorem links_succ_lacks (operands : LacksOnly limit budget false (operand limit budget))
    (chains : LacksOnly limit budget true (links limit budget)) :
    LacksOnly limit (budget + 1) true (links limit (budget + 1)) := by
  intro tokens error run
  rw [value_links_succ] at run
  split at run
  · simp at run
  · rename_i operator continues
    obtain ⟨here, after, rfl, same⟩ :=
      (peek_eq (by simp)).mp (Token.operator?_eq_some.mp continues)
    have count : openings true (unplaced (here :: after)) =
        1 + openings false (unplaced after) := by
      rw [unplaced_cons, same]
      rfl
    split at run
    · rename_i node middle read
      obtain ⟨_, _, _, phrase⟩ := (reads_operand_links limit budget).1.sound read
      have fewer := phrase.openings_le
      rw [List.tail_cons] at fewer
      cases more : (links limit budget middle).value with
      | ok others => simp [more, Except.map] at run
      | error failure =>
        obtain rfl : failure = error := by simpa [more, Except.map] using run
        refine (chains more).mono ?_
        intro short
        omega
    · rename_i failure missed
      split at run
      · simp at run
      · obtain rfl := Except.error.inj run
        refine (operands missed).mono ?_
        intro short
        rw [List.tail_cons] at short
        omega

theorem operand_links_lacks (limit budget : Nat) :
    LacksOnly limit budget false (operand limit budget) ∧
      LacksOnly limit budget true (links limit budget) := by
  -- Errors name the limit, which stays as it is; rules are made by the budget, which shrinks.
  induction budget with
  | zero => exact ⟨signedOperand_lacks .closed, links_zero_lacks⟩
  | succ budget ih =>
    obtain ⟨operands, chains⟩ := ih
    obtain ⟨readsOperand, readsLinks⟩ := reads_operand_links limit budget
    refine ⟨?_, links_succ_lacks operands chains⟩
    rw [operand_succ]
    exact signedOperand_lacks (.opened (reads_chained readsOperand readsLinks)
      (chained_lacks readsOperand operands chains))

theorem expression_lacks (limit budget : Nat) :
    LacksOnly limit budget false (expression limit budget) :=
  chained_lacks (reads_operand_links limit budget).1 (operand_links_lacks limit budget).1
    (operand_links_lacks limit budget).2

theorem line_lacks (run : (line limit tokens).value = .error error) :
    Lacks limit limit false tokens error := by
  rcases line_error.mp run with inner | ⟨node, rest, _, _, rfl⟩
  · exact expression_lacks limit limit inner
  · intro levels deep
    cases deep

end Parse
end Reckon
