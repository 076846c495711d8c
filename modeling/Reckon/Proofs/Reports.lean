import Reckon.Parse.Descent

/-
What a reading reports: operators that are given back and chains that become trees, but never an
attempt at another place.
-/
namespace Reckon

def Event.attempt? : Event → Option (String × Nat)
  | .attempting remainder offset => some (remainder, offset)
  | _ => none

namespace Parse

variable {α β : Type} {limit budget : Nat} {inside : Option (Rule Node)} {rule : Rule Node}

def Quiet (run : Parsed α) : Prop := ∀ event ∈ run.events, event.attempt? = none

theorem quiet_ok (value : α) : Quiet (.ok value : Parsed α) := by
  intro event mem
  exact absurd mem List.not_mem_nil

theorem quiet_fail (error : ParseError) : Quiet (.fail error : Parsed α) := by
  intro event mem
  exact absurd mem List.not_mem_nil

theorem quiet_note {event : Event} (other : event.attempt? = none) :
    Quiet (Attempt.note event) := by
  intro event mem
  obtain rfl := List.mem_singleton.mp mem
  exact other

theorem Quiet.bind {first : Parsed α} {next : α → Parsed β} (head : Quiet first)
    (tail : ∀ value, Quiet (next value)) : Quiet (first >>= next) := by
  intro event mem
  rcases Attempt.mem_events_bind mem with before | ⟨value, _, after⟩
  · exact head event before
  · exact tail value event after

theorem quiet_expect (token : Token) (expected : Expectation) (tokens : List Lexeme) :
    Quiet (expect token expected tokens) := by
  unfold expect
  split
  · exact quiet_ok _
  · exact quiet_fail _

def QuietRule (rule : Rule α) : Prop := ∀ tokens, Quiet (rule tokens)

theorem quiet_parenthesized {inside : Option (Rule α)}
    (quiet : ∀ rule, inside = some rule → QuietRule rule) :
    QuietRule (parenthesized limit inside) := by
  intro tokens
  cases inside with
  | none => exact quiet_fail _
  | some rule =>
    refine (quiet_expect _ _ _).bind fun opened => ?_
    refine (quiet rule rfl _).bind fun reading => ?_
    exact (quiet_expect _ _ _).bind fun _ => quiet_ok _

theorem quiet_arguments (quiet : QuietRule rule) (count : Nat) :
    QuietRule (arguments rule count) := by
  induction count with
  | zero => exact fun _ => quiet_fail _
  | succ count ih =>
    intro tokens
    rw [arguments]
    refine (quiet tokens).bind fun reading => ?_
    dsimp only
    split
    · exact (ih _).bind fun _ => quiet_ok _
    · exact quiet_ok _

theorem quiet_argumentList (quiet : QuietRule rule) : QuietRule (argumentList rule) := by
  intro tokens
  unfold argumentList
  split
  · exact quiet_ok _
  · exact quiet_arguments quiet _ tokens

theorem quiet_named (position : Nat) (node : Except BadSymbol Node) :
    Quiet (named position node) := by
  cases node with
  | ok node => exact quiet_ok node
  | error error => exact quiet_fail _

theorem quiet_atom (quiet : ∀ rule, inside = some rule → QuietRule rule) :
    QuietRule (atom limit inside) := by
  have calls : ∀ rule, inside.map argumentList = some rule → QuietRule rule := by
    intro rule same
    obtain ⟨given, here, rfl⟩ := Option.map_eq_some_iff.mp same
    exact quiet_argumentList (quiet given here)
  intro tokens
  unfold atom
  dsimp only
  split
  · exact quiet_ok _
  · split
    · refine (quiet_parenthesized calls _).bind fun reading => ?_
      exact (quiet_named _ _).bind fun _ => quiet_ok _
    · split
      · exact (quiet_named _ _).bind fun _ => quiet_ok _
      · exact quiet_fail _
  · exact quiet_fail _

theorem quiet_signedOperand (quiet : ∀ rule, inside = some rule → QuietRule rule) :
    QuietRule (signedOperand limit inside) := by
  have bare : QuietRule (unsigned limit inside) := by
    intro tokens
    unfold unsigned
    split
    · exact quiet_parenthesized quiet tokens
    · exact quiet_atom quiet tokens
  intro tokens
  unfold signedOperand
  split
  · exact (bare _).bind fun _ => quiet_ok _
  · exact bare tokens

theorem quiet_chained {operand : Rule Node} {links : Rule (List (Operator × Node))}
    (operands : QuietRule operand) (chains : QuietRule links) :
    QuietRule (chained operand links) := by
  intro tokens
  refine (operands tokens).bind fun reading => (chains _).bind fun found => ?_
  dsimp only
  split
  · exact quiet_ok _
  · exact (quiet_note rfl).bind fun _ => quiet_ok _

theorem quiet_link (operator : Operator) (tokens : List Lexeme) {operand : Parsed (Reading Node)}
    (quiet : Quiet operand) : Quiet (link operator tokens operand) := by
  intro event mem
  rcases Attempt.mem_events_recover mem with first | ⟨error, second, _, rescue, again⟩
  · exact quiet.bind (fun _ => quiet_ok _) event first
  · split at rescue
    · obtain rfl := Option.some.inj rescue
      exact (quiet_note rfl).bind (fun _ => quiet_ok _) event again
    · simp at rescue

theorem quiet_operand_links (limit budget : Nat) :
    QuietRule (operand limit budget) ∧ QuietRule (links limit budget) := by
  induction budget with
  | zero =>
    constructor
    · exact quiet_signedOperand (by simp)
    · intro tokens
      rw [links]
      split
      · exact quiet_ok _
      · exact quiet_fail _
  | succ budget ih =>
    obtain ⟨operands, chains⟩ := ih
    constructor <;> intro tokens
    · have nested : ∀ rule, some (chained (operand limit budget) (links limit budget)) = some rule →
          QuietRule rule := by
        intro rule same
        obtain rfl := Option.some.inj same
        exact quiet_chained operands chains
      rw [operand]
      exact quiet_signedOperand nested tokens
    · rw [links]
      split
      · exact quiet_ok _
      · refine (quiet_link _ tokens (operands _)).bind fun reading => ?_
        dsimp only
        split
        · exact quiet_ok _
        · exact (chains _).bind fun _ => quiet_ok _

theorem quiet_text (limit : Nat) (source : List Char) : Quiet (text limit source) := by
  obtain ⟨operands, chains⟩ := quiet_operand_links limit limit
  have ends : ∀ (node : Node) (rest : List Lexeme),
      Quiet (if (peek rest).token = .eof then pure node
        else failAt rest (.trailing (peek rest).token)) := by
    intro node rest
    split
    · exact quiet_ok _
    · exact quiet_fail _
  exact (quiet_chained operands chains _).bind fun _ => ends _ _

end Parse
end Reckon
