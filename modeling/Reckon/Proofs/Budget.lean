import Reckon.Proofs.Reading

/-
More levels change nothing but the reports that there are too few.  A run on a small budget either
says that it is nested too deep, or ends as it would on every larger one.
-/
namespace Reckon.Parse

variable {α β : Type} {limit budget large : Nat}

/-- The first result reports a lack of levels, or else is the second. -/
def Foreshadows (first second : Except ParseError α) : Prop :=
  (∃ position limit, first = .error ⟨position, .tooDeep limit⟩) ∨ first = second

theorem Foreshadows.refl (result : Except ParseError α) : Foreshadows result result := .inr rfl

theorem Foreshadows.tooDeep (position limit : Nat) (second : Except ParseError α) :
    Foreshadows (.error ⟨position, .tooDeep limit⟩) second := .inl ⟨position, limit, rfl⟩

theorem Foreshadows.bind {first second : Parsed α} {next after : α → Parsed β}
    (head : Foreshadows first.value second.value)
    (tail : ∀ value, Foreshadows (next value).value (after value).value) :
    Foreshadows (first >>= next).value (second >>= after).value := by
  rw [Attempt.value_bind, Attempt.value_bind]
  rcases head with ⟨position, limit, deep⟩ | same
  · rw [deep]
    exact .tooDeep position limit _
  · rw [same]
    cases second.value with
    | ok value => exact tail value
    | error error => exact .refl _

def Forerun (first second : Rule α) : Prop :=
  ∀ tokens, Foreshadows (first tokens).value (second tokens).value

def ForerunInside (first second : Option (Rule α)) : Prop :=
  ∀ rule, first = some rule → ∃ other, second = some other ∧ Forerun rule other

theorem forerun_parenthesized {first second : Option (Rule α)} (inside : ForerunInside first second)
    (limit large : Nat) : Forerun (parenthesized limit first) (parenthesized large second) := by
  intro tokens
  cases first with
  | none => exact .tooDeep _ _ _
  | some rule =>
    obtain ⟨other, rfl, runs⟩ := inside rule rfl
    exact (Foreshadows.refl _).bind fun _ => (runs _).bind fun _ => .refl _

theorem forerun_arguments {rule other : Rule Node} (runs : Forerun rule other) (count : Nat) :
    Forerun (arguments rule count) (arguments other count) := by
  induction count with
  | zero => exact fun _ => .refl _
  | succ count ih =>
    intro tokens
    rw [arguments, arguments]
    refine (runs tokens).bind fun reading => ?_
    dsimp only
    split
    · exact (ih _).bind fun _ => .refl _
    · exact .refl _

theorem forerun_argumentList {first second : Option (Rule Node)}
    (inside : ForerunInside first second) :
    ForerunInside (first.map argumentList) (second.map argumentList) := by
  intro rule same
  obtain ⟨given, rfl, rfl⟩ := Option.map_eq_some_iff.mp same
  obtain ⟨other, rfl, runs⟩ := inside given rfl
  refine ⟨_, rfl, ?_⟩
  intro tokens
  unfold argumentList
  split
  · exact .refl _
  · exact forerun_arguments runs _ tokens

theorem forerun_atom {first second : Option (Rule Node)} (inside : ForerunInside first second)
    (limit large : Nat) : Forerun (atom limit first) (atom large second) := by
  intro tokens
  unfold atom
  dsimp only
  split
  · exact .refl _
  · split
    · exact (forerun_parenthesized (forerun_argumentList inside) _ _ _).bind fun _ => .refl _
    · exact .refl _
  · exact .refl _

theorem forerun_signedOperand {first second : Option (Rule Node)}
    (inside : ForerunInside first second) (limit large : Nat) :
    Forerun (signedOperand limit first) (signedOperand large second) := by
  have bare : Forerun (unsigned limit first) (unsigned large second) := by
    intro tokens
    unfold unsigned
    split
    · exact forerun_parenthesized inside _ _ _
    · exact forerun_atom inside _ _ _
  intro tokens
  unfold signedOperand
  split
  · exact (bare _).bind fun _ => .refl _
  · exact bare _

theorem forerun_chained {operand other : Rule Node} {links more : Rule (List (Operator × Node))}
    (operands : Forerun operand other) (chains : Forerun links more) :
    Forerun (chained operand links) (chained other more) := by
  intro tokens
  exact (operands tokens).bind fun reading => (chains _).bind fun _ => .refl _

theorem foreshadows_link (operator : Operator) (tokens : List Lexeme)
    {first second : Parsed (Reading Node)} (operands : Foreshadows first.value second.value) :
    Foreshadows (link operator tokens first).value (link operator tokens second).value := by
  rw [value_link, value_link]
  rcases operands with ⟨position, limit, deep⟩ | same
  · rw [deep]
    exact .tooDeep position limit _
  · rw [same]
    exact .refl _

theorem forerun_links_zero (limit given large : Nat) :
    Forerun (links limit 0) (links given large) := by
  intro tokens
  rw [value_links_zero]
  cases found : (peek tokens).token.operator? with
  | none =>
    cases large with
    | zero => rw [value_links_zero, found]; exact .refl _
    | succ large => rw [value_links_succ, found]; exact .refl _
  | some operator => exact .tooDeep _ _ _

theorem forerun_links_succ {limit given : Nat}
    (operands : Forerun (operand limit budget) (operand given large))
    (chains : Forerun (links limit budget) (links given large)) :
    Forerun (links limit (budget + 1)) (links given (large + 1)) := by
  intro tokens
  rw [links, links]
  split
  · exact .refl _
  · refine (foreshadows_link _ tokens (operands _)).bind fun reading => ?_
    dsimp only
    split
    · exact .refl _
    · exact (chains _).bind fun _ => .refl _

theorem forerun_operand_links (limit given : Nat) (enough : budget ≤ large) :
    Forerun (operand limit budget) (operand given large) ∧
      Forerun (links limit budget) (links given large) := by
  induction budget generalizing large with
  | zero =>
    refine ⟨?_, forerun_links_zero limit given large⟩
    have nothing : ∀ second, ForerunInside none (second : Option (Rule Node)) := by
      intro second rule same
      simp at same
    cases large with
    | zero => exact forerun_signedOperand (nothing _) _ _
    | succ large => exact forerun_signedOperand (nothing _) _ _
  | succ budget ih =>
    obtain ⟨large, rfl⟩ : ∃ smaller, large = smaller + 1 := ⟨large - 1, by omega⟩
    obtain ⟨operands, chains⟩ := ih (Nat.le_of_succ_le_succ enough)
    refine ⟨?_, forerun_links_succ operands chains⟩
    rw [operand_succ, operand_succ]
    refine forerun_signedOperand ?_ _ _
    intro rule same
    obtain rfl := Option.some.inj same
    exact ⟨_, rfl, forerun_chained operands chains⟩

theorem forerun_expression (limit given : Nat) (enough : budget ≤ large) :
    Forerun (expression limit budget) (expression given large) :=
  forerun_chained (forerun_operand_links limit given enough).1
    (forerun_operand_links limit given enough).2

theorem foreshadows_line {small : Nat} (enough : small ≤ large) (tokens : List Lexeme) :
    Foreshadows (line small tokens).value (line large tokens).value := by
  rw [line_eq, line_eq]
  exact (forerun_expression small large enough tokens).bind fun _ => .refl _

end Reckon.Parse
