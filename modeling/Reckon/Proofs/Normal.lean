import Reckon.Proofs.Spacing

/-
The trees that readings of texts can give: signs stand in runs, calls have arguments that their
functions accept, and literals are numerals.
-/
namespace Reckon
open Lexer (Numeral)

namespace Node

inductive Normal : Node → Prop where
  | literal (numeral : Numeral raw.toList) : Normal (.literal raw)
  | constant (symbol : Constant) : Normal (.constant symbol)
  | call (f : Function) (arity : f.arity.accepts args.length) (all : ∀ arg ∈ args, Normal arg) :
      Normal (.call f args)
  | signed (some : signs ≠ []) (flat : ∀ inner operand', operand ≠ .signed inner operand')
      (inside : Normal operand) : Normal (.signed signs operand)
  | binary (op : Operator) (first : Normal left) (second : Normal right) :
      Normal (.binary left op right)

theorem normal_sign {signs : List Sign} {node : Node} (some : signs ≠ []) (normal : node.Normal) :
    (node.sign signs).Normal := by
  cases normal with
  | signed inner flat inside => exact .signed (by simp [some]) flat inside
  | literal numeral => exact .signed some (by simp) (.literal numeral)
  | constant symbol => exact .signed some (by simp) (.constant symbol)
  | call f arity all => exact .signed some (by simp) (.call f arity all)
  | binary op first second => exact .signed some (by simp) (.binary op first second)

namespace Pending

structure All (P : Node → Prop) (p : Pending) : Prop where
  sum : ∀ left op, p.sum = some (left, op) → P left
  product : ∀ left op, p.product = some (left, op) → P left
  power : P p.power

variable {P : Node → Prop} {p : Pending} {node : Node}

theorem all_close (joins : ∀ {left right} op, P left → P right → P (.binary left op right))
    {waiting : Option (Node × Operator)} {right : Node}
    (held : ∀ left op, waiting = some (left, op) → P left) (last : P right) :
    P (close waiting right) := by
  cases waiting with
  | none => exact last
  | some link => exact joins link.2 (held link.1 link.2 rfl) last

theorem All.factor (all : p.All P)
    (joins : ∀ {left right} op, P left → P right → P (.binary left op right)) : P p.factor :=
  all_close joins all.product all.power

theorem All.total (all : p.All P)
    (joins : ∀ {left right} op, P left → P right → P (.binary left op right)) : P p.total :=
  all_close joins all.sum (all.factor joins)

theorem All.push (all : p.All P)
    (joins : ∀ {left right} op, P left → P right → P (.binary left op right)) (op : Operator)
    (operand : P node) : (p.push op node).All P := by
  unfold Pending.push
  cases op.tier with
  | exponent => exact ⟨all.sum, all.product, joins op all.power operand⟩
  | multiplicative =>
    refine ⟨all.sum, ?_, operand⟩
    intro left _ same
    obtain ⟨rfl, _⟩ : p.factor = left ∧ _ := by simpa using same
    exact all.factor joins
  | additive =>
    refine ⟨?_, by simp, operand⟩
    intro left _ same
    obtain ⟨rfl, _⟩ : p.total = left ∧ _ := by simpa using same
    exact all.total joins

end Pending

/-- What operators preserve holds for a chain if it holds for its operands. -/
theorem ofChain_preserves {P : Node → Prop}
    (joins : ∀ {left right} op, P left → P right → P (.binary left op right)) {first : Node}
    {links : List (Operator × Node)} (head : P first) (tail : ∀ link ∈ links, P link.2) :
    P (ofChain first links) := by
  have start : Pending.All P ⟨none, none, first⟩ := ⟨by simp, by simp, head⟩
  unfold ofChain
  generalize (⟨none, none, first⟩ : Pending) = p at start
  induction links generalizing p with
  | nil => exact start.total joins
  | cons link links ih =>
    obtain ⟨here, later⟩ := List.forall_mem_cons.mp tail
    exact ih later _ (start.push joins link.1 here)

end Node

namespace Grammar

def Numerals (tokens : List Token) : Prop := ∀ raw, .number raw ∈ tokens → Numeral raw.toList

theorem Numerals.after (numerals : Numerals tokens) (takes : Takes tokens rest) :
    Numerals rest := by
  obtain ⟨used, rfl, _⟩ := takes
  exact fun raw mem => numerals raw (List.mem_append_right used mem)

theorem Numerals.tail (numerals : Numerals (token :: tokens)) : Numerals tokens :=
  fun raw mem => numerals raw (List.mem_cons_of_mem token mem)

mutual

theorem Expression.normal : Expression tokens node level rest → Numerals tokens → node.Normal
  | .chain first more, numerals =>
    Node.ofChain_preserves .binary (first.normal numerals)
      (more.normal (numerals.after first.takes))

theorem Links.normal :
    Links tokens links levels rest → Numerals tokens → ∀ link ∈ links, link.2.Normal
  | .nil, _ => by simp
  | .cons first more, numerals =>
    List.forall_mem_cons.mpr ⟨first.normal numerals.tail,
      more.normal (numerals.tail.after first.takes)⟩

theorem Operand.normal : Operand tokens node level rest → Numerals tokens → node.Normal
  | .bare inner, numerals => inner.normal numerals
  | .signed _ inner, numerals => Node.normal_sign (by simp) (inner.normal numerals.tail)

theorem Unsigned.normal : Unsigned tokens node level rest → Numerals tokens → node.Normal
  | .number raw, numerals => .literal (numerals raw (by simp))
  | .constant symbol _, _ => .constant symbol
  | .parens inside, numerals => inside.normal numerals.tail
  | .callEmpty f arity, _ => .call f arity (by simp)
  | .call f inside arity, numerals => .call f arity (inside.normal numerals.tail.tail)

theorem Arguments.normal :
    Arguments tokens args levels rest → Numerals tokens → ∀ arg ∈ args, arg.Normal
  | .last only, numerals => by simpa using only.normal numerals
  | .more first others, numerals =>
    List.forall_mem_cons.mpr ⟨first.normal numerals,
      others.normal (numerals.after first.takes).tail⟩

end

end Grammar

namespace Parse

theorem normal_of_text {limit : Nat} {source : List Char} {node : Node}
    (run : (text limit source).value = .ok node) : node.Normal := by
  obtain ⟨_, _, derived⟩ := line_sound (Cursor.endsOnce_lexemes _) run
  cases derived with
  | bare phrase => exact phrase.normal fun _ => Cursor.numeral_of_lexemes
  | equals phrase => exact phrase.normal fun _ => Cursor.numeral_of_lexemes

end Parse
end Reckon
