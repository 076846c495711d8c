import Reckon.Proofs.Normal
import Reckon.Proofs.Threshold

/-
Chance comes into a calculation by name only.  The functions that a tree calls are named among its
tokens, so a line without the name of `random` has one outcome for all seeds.
-/
namespace Reckon
open Text

namespace Node

variable {P : Function → Prop}

theorem calls_binary {left right : Node} (op : Operator) (first : left.Calls P)
    (second : right.Calls P) : (binary left op right).Calls P :=
  calls_of_children nofun (by simp [children, first, second])

theorem calls_signed {operand : Node} (signs : List Sign) (calls : operand.Calls P) :
    (signed signs operand).Calls P :=
  calls_of_children nofun (by simp [children, calls])

theorem calls_sign {node : Node} (signs : List Sign) (calls : node.Calls P) :
    (node.sign signs).Calls P := by
  cases node with
  | signed inner operand => exact calls_signed _ (calls.child (by simp [children]))
  | _ => exact calls_signed signs calls

end Node

namespace Grammar

def Named (tokens : List Token) (f : Function) : Prop := .identifier f.name ∈ tokens

theorem Named.before {f : Function} (named : Named rest f) (takes : Takes tokens rest) :
    Named tokens f := by
  obtain ⟨used, rfl, _⟩ := takes
  exact List.mem_append_right used named

theorem Named.cons {f : Function} (token : Token) (named : Named tokens f) :
    Named (token :: tokens) f :=
  List.mem_cons_of_mem token named

mutual

theorem Expression.calls : Expression tokens node level rest → node.Calls (Named tokens)
  | .chain first more =>
    Node.ofChain_preserves Node.calls_binary first.calls fun link mem =>
      (more.calls link mem).mono fun _ named => named.before first.takes

theorem Links.calls :
    Links tokens links levels rest → ∀ link ∈ links, link.2.Calls (Named tokens)
  | .nil => by simp
  | .cons first more =>
    List.forall_mem_cons.mpr ⟨first.calls.mono fun _ named => named.cons _,
      fun link mem => (more.calls link mem).mono fun _ named => (named.before first.takes).cons _⟩

theorem Operand.calls : Operand tokens node level rest → node.Calls (Named tokens)
  | .bare inner => inner.calls
  | .signed sign inner =>
    Node.calls_sign [sign] (inner.calls.mono fun _ named => named.cons _)

theorem Unsigned.calls : Unsigned tokens node level rest → node.Calls (Named tokens)
  | .number raw => Node.calls_of_children nofun (by simp [Node.children])
  | .constant symbol _ => Node.calls_of_children nofun (by simp [Node.children])
  | .parens inside => inside.calls.mono fun _ named => named.cons _
  | .callEmpty f arity => Node.calls_of_children
      (by rintro _ _ ⟨⟩; exact List.mem_cons_self) (by simp [Node.children])
  | .call f inside arity => Node.calls_of_children
      (by rintro _ _ ⟨⟩; exact List.mem_cons_self)
      fun arg mem => (inside.calls arg mem).mono fun _ named => (named.cons _).cons _

theorem Arguments.calls :
    Arguments tokens args levels rest → ∀ arg ∈ args, arg.Calls (Named tokens)
  | .last only => by simpa using only.calls
  | .more first others =>
    List.forall_mem_cons.mpr ⟨first.calls, fun arg mem =>
      (others.calls arg mem).mono fun _ named => (named.cons _).before first.takes⟩

end

end Grammar

/-- A tree calls nothing that its text does not name. -/
theorem Parse.calls_of_text {limit : Nat} {source : List Char} {node : Node}
    (run : (text limit source).value = .ok node) :
    node.Calls (Grammar.Named (tokensOf source)) := by
  obtain ⟨_, _, derived⟩ := line_sound (Cursor.endsOnce_lexemes _) run
  cases derived with
  | bare phrase => exact phrase.calls
  | equals phrase => exact phrase.calls

namespace Locate

variable {settings : Settings} {line : List Char} {place : Nat} {node : Node}

theorem drawless_of_settled (clear : Token.identifier Function.random.name ∉ tokensOf line)
    (settled : Settled settings (dropWhileEnd isTrailer line) place (.ok node)) :
    node.Drawless := by
  obtain ⟨inside, start⟩ := settled.start
  obtain ⟨front, split⟩ := tokens_of_start inside start
  refine (Parse.calls_of_text settled.read).mono ?_
  rintro f named rfl
  have mem : Token.identifier Function.random.name ∈ tokensOf (dropWhileEnd isTrailer line) := by
    rw [split]
    exact List.mem_append_right front named
  rw [tokensOf_eq, List.mem_append] at mem
  rcases mem with body | last
  · obtain ⟨tail, whole⟩ := tokens_trimmed line
    rw [whole] at clear
    exact clear (List.mem_append_left _ body)
  · simp at last

end Locate
end Reckon
