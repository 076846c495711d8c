import Reckon.Proofs.Acceptance
import Reckon.Proofs.Budget
import Reckon.Proofs.Failures

/-
Where a line that is no expression goes wrong.  Short of a lack of levels and of unknown names, a
failure is a mismatch just when no expression stands in front; otherwise the reader has come to the
end of the longest one.
-/
namespace Reckon.Parse
open Grammar

variable {limit budget : Nat} {tokens : List Lexeme}

theorem takes_of_links {read : List (Operator × Node)} {left : List Lexeme}
    (run : (links limit budget tokens).value = .ok (read, left)) :
    Takes (unplaced tokens) (unplaced left) := by
  obtain ⟨_, _, _, levels, phrase, _⟩ := (reads_operand_links limit budget).2.sound run
  exact phrase.takes

/-- Operators that lack an operand are given back, so only the first operand can be missed. -/
theorem links_no_mismatch {error : ParseError}
    (run : (links limit budget tokens).value = .error error) : ¬ error.isMismatch := by
  induction budget generalizing tokens with
  | zero =>
    rw [value_links_zero] at run
    split at run
    · simp at run
    · obtain rfl := Except.error.inj run
      simp [ParseError.isMismatch]
  | succ budget ih =>
    rw [value_links_succ] at run
    split at run
    · simp at run
    · split at run
      · rename_i node middle _
        cases more : (links limit budget middle).value with
        | ok others => simp [more, Except.map] at run
        | error failure =>
          obtain rfl : failure = error := by simpa [more, Except.map] using run
          exact ih more
      · split at run
        · simp at run
        · rename_i kept
          obtain rfl := Except.error.inj run
          exact kept

theorem links_longest {found read : List (Operator × Node)} {levels : List Nat} {rest : List Token}
    {left : List Lexeme} (phrase : Links (unplaced tokens) found levels rest)
    (bound : chainLevel 1 levels ≤ budget)
    (run : (links limit budget tokens).value = .ok (read, left)) :
    (unplaced left).length ≤ rest.length := by
  induction budget generalizing tokens found levels read with
  | zero =>
    generalize spelled : unplaced tokens = given at phrase
    cases phrase with
    | nil =>
      subst spelled
      exact (takes_of_links run).length_le
    | cons first more =>
      simp only [chainLevel] at bound
      omega
  | succ budget ih =>
    generalize spelled : unplaced tokens = given at phrase
    cases phrase with
    | nil =>
      subst spelled
      exact (takes_of_links run).length_le
    | cons first more =>
      obtain ⟨here, after, rfl, same, rfl⟩ := unplaced_eq_cons.mp spelled
      obtain ⟨head, tail⟩ := Nat.max_le.mp bound
      obtain ⟨middle, read, rfl⟩ :=
        (reads_operand_links limit budget).1.complete first (by omega) trivial
      rw [value_links_succ] at run
      simp only [peek_cons, Token.operator?_eq_some.mpr same, List.tail_cons, read] at run
      cases others : (links limit budget middle).value with
      | error failure => simp [others, Except.map] at run
      | ok reading =>
        simp only [others, Except.map, Except.ok.injEq, Prod.mk.injEq] at run
        obtain ⟨_, rfl⟩ := run
        exact ih more ((chainLevel_succ _ _ _).mp tail) others

theorem expression_longest {node other : Node} {level : Nat} {rest : List Token}
    {left : List Lexeme} (phrase : Expression (unplaced tokens) node level rest)
    (run : (expression limit budget tokens).value = .ok (other, left)) :
    (unplaced left).length ≤ rest.length := by
  -- The phrase may be deeper than the budget, but a larger one ends the run in the same place.
  obtain ⟨large, enough, deep⟩ : ∃ large, budget ≤ large ∧ level ≤ large :=
    ⟨max budget level, Nat.le_max_left _ _, Nat.le_max_right _ _⟩
  rcases forerun_expression limit limit enough tokens with ⟨_, _, short⟩ | same
  · simp [run] at short
  · rw [run] at same
    obtain ⟨_, middle, found, head, tail, rfl⟩ := chained_ok.mp same.symm
    obtain ⟨first, more⟩ := phrase
    rw [chainLevel, Nat.zero_add] at deep
    obtain ⟨headDeep, tailDeep⟩ := Nat.max_le.mp deep
    obtain ⟨ends, read, rfl⟩ :=
      (reads_operand_links limit large).1.complete first headDeep trivial
    obtain ⟨rfl, rfl⟩ : _ = _ ∧ middle = ends := by simpa [head] using read
    exact links_longest more tailDeep tail

theorem no_expression_of_mismatch {error : ParseError} {node : Node} {level : Nat}
    {rest : List Token} (run : (expression limit budget tokens).value = .error error)
    (missed : error.isMismatch) : ¬ Expression (unplaced tokens) node level rest := by
  intro phrase
  obtain ⟨large, enough, deep⟩ : ∃ large, budget ≤ large ∧ level ≤ large :=
    ⟨max budget level, Nat.le_max_left _ _, Nat.le_max_right _ _⟩
  have operandRun : (operand limit budget tokens).value = .error error := by
    rcases chained_error run with head | ⟨_, _, _, tail⟩
    · exact head
    · exact absurd missed (links_no_mismatch tail)
  obtain ⟨first, more⟩ := phrase
  rw [chainLevel, Nat.zero_add] at deep
  obtain ⟨left, read, _⟩ :=
    (reads_operand_links limit large).1.complete first (Nat.max_le.mp deep).1 trivial
  rcases (forerun_operand_links limit limit enough).1 tokens with ⟨_, _, short⟩ | same
  · obtain rfl : error = _ := by simpa [operandRun] using short
    simp [ParseError.isMismatch] at missed
  · simp [operandRun, read] at same

def ExpressionAt (tokens : List Token) (count : Nat) : Prop :=
  0 < count ∧ count ≤ tokens.length ∧ ∃ node level, Expression tokens node level (tokens.drop count)

def LongestExpression (tokens : List Token) (count : Nat) : Prop :=
  ExpressionAt tokens count ∧ ∀ other, ExpressionAt tokens other → other ≤ count

theorem expressionAt_of {tokens rest : List Token} {node : Node} {level : Nat}
    (phrase : Expression tokens node level rest) :
    ExpressionAt tokens (tokens.length - rest.length) := by
  have shorter := phrase.shorter
  obtain ⟨used, rfl, _⟩ := phrase.takes
  refine ⟨by omega, by omega, node, level, ?_⟩
  simpa using phrase

theorem longest_of_read {node : Node} {left : List Lexeme}
    (run : (expression limit budget tokens).value = .ok (node, left)) :
    LongestExpression (unplaced tokens) (tokens.length - left.length) ∧
      tokens.drop (tokens.length - left.length) = left := by
  obtain ⟨⟨used, rfl⟩, level, _, phrase⟩ := (reads_expression limit budget).sound run
  have counted := expressionAt_of phrase
  simp only [unplaced, List.length_map] at counted
  have most : ∀ other, ExpressionAt (unplaced (used ++ left)) other →
      other ≤ (used ++ left).length - left.length := by
    intro other given
    obtain ⟨_, bound, _, _, found⟩ := given
    have longest := expression_longest found run
    simp only [unplaced, List.length_map, List.length_drop, List.length_append] at *
    omega
  exact ⟨⟨counted, most⟩, by simp⟩

theorem expression_not_trailing {error : ParseError} {found : Token}
    (run : (expression limit budget tokens).value = .error error) :
    error.cause ≠ .trailing found := by
  cases expression_raises limit budget run <;> simp

def afterLongest (tokens : List Token) (count : Nat) : Nat :=
  if tokens[count]? = some .equals then count + 1 else count

theorem drop_afterLongest {count : Nat} {left : List Lexeme} (same : tokens.drop count = left) :
    tokens.drop (afterLongest (unplaced tokens) count) = afterEquals left := by
  subst same
  have next : (unplaced tokens)[count]? = (unplaced (tokens.drop count)).head? := by
    simp [unplaced, List.head?_drop]
  unfold afterLongest afterEquals
  rw [next]
  by_cases equals : (peek (tokens.drop count)).token = .equals
  · rw [if_pos equals, if_pos ((head_unplaced (by simp)).mpr equals), List.tail_drop]
  · rw [if_neg equals, if_neg (fun same => equals ((head_unplaced (by simp)).mp same))]

/-- A line fails with a mismatch just when it starts with no expression, and otherwise at the token
after its longest one and an equals sign, if that is next. -/
theorem line_failure (limit : Nat) (tokens : List Lexeme) (error : ParseError)
    (fails : (line limit tokens).value = .error error)
    (shallow : ∀ levels, error.cause ≠ .tooDeep levels)
    (known : ∀ bad, error.cause ≠ .symbol bad) :
    (error.isMismatch ↔ ∀ count, ¬ ExpressionAt (unplaced tokens) count) ∧
      (¬ error.isMismatch → ∃ count found,
        LongestExpression (unplaced tokens) count ∧
        tokens[afterLongest (unplaced tokens) count]? = some found ∧ found.token ≠ .eof ∧
        error = ⟨found.first.char, .trailing found.token⟩ ∧
        (error.atOperator ↔ ∃ operator, found.token = .operator operator)) := by
  rcases line_error.mp fails with missed | ⟨node, left, read, more, rfl⟩
  · have mismatch : error.isMismatch := by
      cases cause : error.cause with
      | mismatch expected found => simp [ParseError.isMismatch, cause]
      | trailing found => exact absurd cause (expression_not_trailing missed)
      | tooDeep levels => exact absurd cause (shallow levels)
      | symbol bad => exact absurd cause (known bad)
    have nothing : ∀ count, ¬ ExpressionAt (unplaced tokens) count := by
      intro count given
      obtain ⟨_, _, _, _, phrase⟩ := given
      exact no_expression_of_mismatch missed mismatch phrase
    constructor
    · exact iff_of_true mismatch nothing
    · intro other
      exact absurd mismatch other
  · obtain ⟨longest, same⟩ := longest_of_read read
    constructor
    · constructor
      · intro mismatch
        simp [ParseError.isMismatch] at mismatch
      · intro nothing
        exact absurd longest.1 (nothing _)
    · intro _
      obtain ⟨found, after, here, rfl⟩ : ∃ found after, afterEquals left = found :: after ∧
          peek (afterEquals left) = found := by
        cases rest : afterEquals left with
        | nil => simp [rest, peek] at more
        | cons found after => exact ⟨found, after, rfl, rfl⟩
      refine ⟨_, _, longest, ?_, more, rfl, ?_⟩
      · rw [← List.head?_drop, drop_afterLongest same, here, List.head?_cons, peek_cons]
      · simp [ParseError.atOperator, Option.isSome_iff_exists, Token.operator?_eq_some]

/-- `1 * (2 + abs(3` -/
def openProduct : List Token :=
  [.number "1", .operator .mul, .openParen, .number "2", .operator .add, .identifier "abs",
    .openParen, .number "3", .eof]

theorem openProduct_fails_at_operator :
    (line 9 (placed openProduct)).value = .error ⟨1, .trailing (.operator .mul)⟩ ∧
      ∃ count found, LongestExpression (unplaced (placed openProduct)) count ∧
        (placed openProduct)[afterLongest (unplaced (placed openProduct)) count]? = some found ∧
        found.token = .operator .mul := by
  have fails : (line 9 (placed openProduct)).value = .error ⟨1, .trailing (.operator .mul)⟩ := rfl
  have located := (line_failure 9 _ _ fails (by simp) (by simp)).2 (by decide)
  obtain ⟨count, found, longest, here, _, same, _⟩ := located
  simp only [ParseError.mk.injEq, ParseCause.trailing.injEq] at same
  exact ⟨fails, count, found, longest, here, same.2.symm⟩

end Reckon.Parse
