import Reckon.Proofs.Reading

/-
Reading depends on the tokens alone.  Where they stand is reported with an error, but changes
neither the tree nor the cause of an error.
-/
namespace Reckon.Parse

variable {α β : Type} {limit budget : Nat} {tokens others : List Lexeme}

/-- Two outcomes that differ in places alone: both have values, which are the same in the given
sense, or both are errors of one cause. -/
inductive Alike (Same : α → α → Prop) : Except ParseError α → Except ParseError α → Prop where
  | ok (same : Same a b) : Alike Same (.ok a) (.ok b)
  | error (position other : Nat) (cause : ParseCause) :
      Alike Same (.error ⟨position, cause⟩) (.error ⟨other, cause⟩)

def SameReading (first second : Reading α) : Prop :=
  first.1 = second.1 ∧ unplaced first.2 = unplaced second.2

def Placeless (rule : Rule α) : Prop :=
  ∀ tokens others, unplaced tokens = unplaced others →
    Alike SameReading (rule tokens).value (rule others).value

def PlacelessInside (inside : Option (Rule α)) : Prop :=
  ∀ rule, inside = some rule → Placeless rule

theorem peek_congr (same : unplaced tokens = unplaced others) :
    (peek tokens).token = (peek others).token := by
  cases tokens <;> cases others <;> simp_all [peek]

theorem tail_congr (same : unplaced tokens = unplaced others) :
    unplaced tokens.tail = unplaced others.tail := by
  cases tokens <;> cases others <;> simp_all

theorem Alike.bind {Same : α → α → Prop} {Final : β → β → Prop} {first second : Parsed α}
    {next after : α → Parsed β} (head : Alike Same first.value second.value)
    (tail : ∀ a b, Same a b → Alike Final (next a).value (after b).value) :
    Alike Final (first >>= next).value (second >>= after).value := by
  rw [Attempt.value_bind, Attempt.value_bind]
  generalize first.value = one at head
  generalize second.value = two at head
  cases head with
  | ok same => exact tail _ _ same
  | error position other cause => exact .error position other cause

theorem alike_mismatch {Same : α → α → Prop} (same : unplaced tokens = unplaced others)
    (expected : Expectation) :
    Alike Same (mismatch expected tokens : Parsed α).value (mismatch expected others).value := by
  rw [value_mismatch, value_mismatch, peek_congr same]
  exact .error _ _ _

theorem alike_expect (same : unplaced tokens = unplaced others) (token : Token)
    (expected : Expectation) :
    Alike (fun rest left => unplaced rest = unplaced left) (expect token expected tokens).value
      (expect token expected others).value := by
  unfold expect
  rw [peek_congr same]
  split
  · exact .ok (tail_congr same)
  · exact alike_mismatch same _

theorem alike_named (position other : Nat) (node : Except BadSymbol Node) :
    Alike Eq (named position node).value (named other node).value := by
  cases node with
  | ok node => exact .ok rfl
  | error bad => exact .error _ _ _

theorem placeless_parenthesized {inside : Option (Rule α)} (within : PlacelessInside inside)
    (limit : Nat) : Placeless (parenthesized limit inside) := by
  intro tokens others same
  cases inside with
  | none => exact .error _ _ _
  | some rule =>
    refine (alike_expect same _ _).bind fun _ _ opened => ?_
    refine (within rule rfl _ _ opened).bind ?_
    rintro ⟨value, rest⟩ ⟨_, left⟩ ⟨rfl, after⟩
    exact (alike_expect after _ _).bind fun _ _ closed => .ok ⟨rfl, closed⟩

theorem placeless_arguments {rule : Rule Node} (reads : Placeless rule) (count : Nat) :
    Placeless (arguments rule count) := by
  induction count with
  | zero => exact fun _ _ same => alike_mismatch same _
  | succ count ih =>
    intro tokens others same
    rw [arguments, arguments]
    refine (reads _ _ same).bind ?_
    rintro ⟨node, rest⟩ ⟨_, left⟩ ⟨rfl, after⟩
    dsimp only
    rw [peek_congr after]
    split
    · refine (ih _ _ (tail_congr after)).bind ?_
      rintro ⟨more, rest⟩ ⟨_, left⟩ ⟨rfl, after⟩
      exact .ok ⟨rfl, after⟩
    · exact .ok ⟨rfl, after⟩

theorem placeless_argumentList {inside : Option (Rule Node)} (within : PlacelessInside inside) :
    PlacelessInside (inside.map argumentList) := by
  intro rule given
  obtain ⟨expression, here, rfl⟩ := Option.map_eq_some_iff.mp given
  intro tokens others same
  have count : tokens.length = others.length := by simpa [unplaced] using congrArg List.length same
  unfold argumentList
  rw [peek_congr same, count]
  split
  · exact .ok ⟨rfl, same⟩
  · exact placeless_arguments (within expression here) _ _ _ same

theorem placeless_atom {inside : Option (Rule Node)} (within : PlacelessInside inside)
    (limit : Nat) : Placeless (atom limit inside) := by
  intro tokens others same
  have rest := tail_congr same
  unfold atom
  dsimp only
  rw [peek_congr same, peek_congr rest]
  split
  · exact .ok ⟨rfl, rest⟩
  · split
    · refine (placeless_parenthesized (placeless_argumentList within) _ _ _ rest).bind ?_
      rintro ⟨args, rest⟩ ⟨_, left⟩ ⟨rfl, after⟩
      exact (alike_named _ _ _).bind fun _ _ known => .ok ⟨known, after⟩
    · split
      · exact (alike_named _ _ _).bind fun _ _ known => .ok ⟨known, rest⟩
      · exact alike_mismatch same _
  · exact alike_mismatch same _

theorem placeless_signedOperand {inside : Option (Rule Node)} (within : PlacelessInside inside)
    (limit : Nat) : Placeless (signedOperand limit inside) := by
  have bare : Placeless (unsigned limit inside) := by
    intro tokens others same
    unfold unsigned
    rw [peek_congr same]
    split
    · exact placeless_parenthesized within _ _ _ same
    · exact placeless_atom within _ _ _ same
  intro tokens others same
  unfold signedOperand
  rw [peek_congr same]
  split
  · refine (bare _ _ (tail_congr same)).bind ?_
    rintro ⟨node, rest⟩ ⟨_, left⟩ ⟨rfl, after⟩
    exact .ok ⟨rfl, after⟩
  · exact bare _ _ same

theorem placeless_chained {operand : Rule Node} {links : Rule (List (Operator × Node))}
    (operands : Placeless operand) (chains : Placeless links) :
    Placeless (chained operand links) := by
  intro tokens others same
  refine (operands _ _ same).bind ?_
  rintro ⟨first, rest⟩ ⟨_, left⟩ ⟨rfl, after⟩
  refine (chains _ _ after).bind ?_
  rintro ⟨found, rest⟩ ⟨_, left⟩ ⟨rfl, after⟩
  dsimp only
  split
  · exact .ok ⟨rfl, after⟩
  · exact .ok ⟨rfl, after⟩

theorem placeless_links_zero (limit : Nat) : Placeless (links limit 0) := by
  intro tokens others same
  rw [value_links_zero, value_links_zero, peek_congr same]
  split
  · exact .ok ⟨rfl, same⟩
  · exact .error _ _ _

theorem placeless_links_succ (operands : Placeless (operand limit budget))
    (chains : Placeless (links limit budget)) : Placeless (links limit (budget + 1)) := by
  intro tokens others same
  rw [value_links_succ, value_links_succ, peek_congr same]
  have next := operands _ _ (tail_congr same)
  generalize (operand limit budget tokens.tail).value = one at next
  generalize (operand limit budget others.tail).value = two at next
  cases (peek others).token.operator? with
  | none => exact .ok ⟨rfl, same⟩
  | some operator =>
    cases next with
    | @ok first second agree =>
      obtain ⟨node, rest⟩ := first
      obtain ⟨_, left⟩ := second
      obtain ⟨rfl, after⟩ := agree
      have more := chains _ _ after
      dsimp only
      generalize (links limit budget rest).value = one at more
      generalize (links limit budget left).value = two at more
      cases more with
      | @ok first second agree =>
        obtain ⟨found, rest⟩ := first
        obtain ⟨_, left⟩ := second
        obtain ⟨rfl, after⟩ := agree
        exact .ok ⟨rfl, after⟩
      | error position other cause => exact .error position other cause
    | error position other cause =>
      dsimp only [ParseError.isMismatch]
      split
      · exact .ok ⟨rfl, same⟩
      · exact .error position other cause

theorem placeless_operand_links (limit budget : Nat) :
    Placeless (operand limit budget) ∧ Placeless (links limit budget) := by
  induction budget with
  | zero =>
    have nothing : PlacelessInside (none : Option (Rule Node)) := by
      intro rule given
      cases given
    exact ⟨placeless_signedOperand nothing limit, placeless_links_zero limit⟩
  | succ budget ih =>
    obtain ⟨operands, chains⟩ := ih
    refine ⟨?_, placeless_links_succ operands chains⟩
    rw [operand_succ]
    refine placeless_signedOperand ?_ limit
    intro rule given
    obtain rfl := Option.some.inj given
    exact placeless_chained operands chains

theorem afterEquals_congr (same : unplaced tokens = unplaced others) :
    unplaced (afterEquals tokens) = unplaced (afterEquals others) := by
  unfold afterEquals
  rw [peek_congr same]
  split
  · exact tail_congr same
  · exact same

theorem alike_line (limit : Nat) (same : unplaced tokens = unplaced others) :
    Alike Eq (line limit tokens).value (line limit others).value := by
  obtain ⟨operands, chains⟩ := placeless_operand_links limit limit
  rw [line_eq, line_eq]
  refine (placeless_chained operands chains _ _ same).bind ?_
  rintro ⟨node, rest⟩ ⟨_, left⟩ ⟨rfl, after⟩
  dsimp only
  rw [peek_congr (afterEquals_congr after)]
  split
  · exact .ok rfl
  · exact .error _ _ _

end Reckon.Parse
