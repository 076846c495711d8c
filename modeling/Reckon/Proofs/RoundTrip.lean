import Reckon.Proofs.Printing

/-
Reading undoes printing, on exactly the trees that readings can give.
-/
namespace Reckon
open Grammar Node

variable {node first left right : Node} {links others : List (Operator × Node)}
variable {tokens rest : List Token}

theorem Grammar.Links.append :
    Links before found levels middle → Links middle further deeper after →
      Links before (found ++ further) (levels ++ deeper) after
  | .nil, second => second
  | .cons first more, second => .cons first (more.append second)

def Closes (rest : List Token) : Prop := rest.head? ≠ some .openParen

/-- Tokens that are a chain wherever they stand. -/
def Spells (tokens : List Token) (first : Node) (links : List (Operator × Node)) : Prop :=
  ∀ rest, Closes rest → ∃ middle level levels,
    Operand (tokens ++ rest) first level middle ∧ Links middle links levels rest

theorem Spells.expression (spells : Spells tokens first links)
    (settles : Settles first links node 0) (closes : Closes rest) :
    ∃ level, Expression (tokens ++ rest) node level rest := by
  obtain ⟨middle, level, levels, operand, more⟩ := spells rest closes
  obtain rfl : Node.ofChain first links = node := settles
  exact ⟨_, .chain operand more⟩

theorem Spells.join {tokens' : List Token} {second : Node} (op : Operator)
    (before : Spells tokens first links) (after : Spells tokens' second others) :
    Spells (tokens ++ .operator op :: tokens') first (links ++ (op, second) :: others) := by
  intro rest closes
  obtain ⟨middle, level, levels, operand, more⟩ := after rest closes
  obtain ⟨front, level', levels', operand', more'⟩ :=
    before (.operator op :: (tokens' ++ rest)) (by simp [Closes])
  rw [List.append_assoc, List.cons_append]
  exact ⟨front, level', _, operand', more'.append (.cons operand more)⟩

theorem Spells.enclosed (spells : Spells tokens first links) (settles : Settles first links node 0)
    (rest : List Token) : ∃ level, Unsigned (enclosed tokens ++ rest) node level rest := by
  have closes : Closes (.closeParen :: rest) := by simp [Closes]
  obtain ⟨level, inside⟩ := spells.expression settles closes
  refine ⟨1 + level, ?_⟩
  simp only [Node.enclosed, List.cons_append, List.append_assoc, List.nil_append]
  exact .parens inside

theorem spells_operand
    (operand : ∀ rest, Closes rest → ∃ level, Operand (tokens ++ rest) node level rest) :
    Spells tokens node [] := by
  intro rest closes
  obtain ⟨level, phrase⟩ := operand rest closes
  exact ⟨rest, level, [], phrase, .nil⟩

structure Spelled (node : Node) : Prop where
  chain : ∃ first links, Spells node.tokens first links ∧ Settles first links node node.strength
  atom : node.isAtom → ∀ rest, Closes rest →
    ∃ level, Unsigned (node.tokens ++ rest) node level rest

theorem strength_le (node : Node) : node.strength ≤ 3 := by
  cases node with
  | binary _ op _ =>
    simp only [Node.strength]
    cases op.tier <;> simp [Tier.strength]
  | _ => exact Nat.le_refl 3

theorem Spelled.side (spelled : Spelled node) {needed : Nat} (least : needed ≤ 3) :
    ∃ first links, Spells (enclosedIf (node.strength < needed) node.tokens) first links ∧
      Settles first links node needed := by
  obtain ⟨first, links, spells, settles⟩ := spelled.chain
  by_cases weak : node.strength < needed
  · simp only [weak, decide_true, enclosedIf, ↓reduceIte]
    refine ⟨node, [], spells_operand ?_, settles_alone node needed least⟩
    intro rest _
    obtain ⟨level, inside⟩ := spells.enclosed (settles.mono (Nat.zero_le _)) rest
    exact ⟨level, .bare inside⟩
  · simp only [weak, decide_false, enclosedIf, Bool.false_eq_true, ↓reduceIte]
    exact ⟨first, links, spells, settles.mono (Nat.le_of_not_lt weak)⟩

theorem spelled_binary (op : Operator) (first : Spelled left) (second : Spelled right) :
    Spelled (.binary left op right) where
  chain := by
    have tiers : op.tier.strength + 1 ≤ 3 := by
      cases op.tier <;> simp [Tier.strength]
    obtain ⟨head, links, spells, settles⟩ := first.side (Nat.le_of_succ_le tiers)
    obtain ⟨head', links', spells', settles'⟩ := second.side tiers
    simp only [Nat.lt_succ_iff] at spells'
    exact ⟨head, _, spells.join op spells', settles_binary op settles settles'⟩
  atom := by simp [Node.isAtom]

theorem spelled_unsigned
    (phrase : ∀ rest, Closes rest → ∃ level, Unsigned (node.tokens ++ rest) node level rest) :
    Spelled node where
  chain := by
    refine ⟨node, [], spells_operand ?_, settles_alone node _ (strength_le node)⟩
    intro rest closes
    obtain ⟨level, inside⟩ := phrase rest closes
    exact ⟨level, .bare inside⟩
  atom := fun _ => phrase

theorem operand_afterSigns {signs : List Sign} (some : signs ≠ [])
    (flat : ∀ inner operand, node ≠ .signed inner operand)
    (phrase : ∀ rest, Closes rest → ∃ level, Unsigned (tokens ++ rest) node level rest) :
    ∀ rest, Closes rest →
      ∃ level, Operand (afterSigns tokens signs ++ rest) (.signed signs node) level rest := by
  induction signs with
  | nil => exact absurd rfl some
  | cons sign signs ih =>
    intro rest closes
    cases signs with
    | nil =>
      obtain ⟨level, inside⟩ := phrase rest closes
      have single : node.sign [sign] = .signed [sign] node := by
        cases node with
        | signed inner operand => exact absurd rfl (flat inner operand)
        | _ => rfl
      rw [← single]
      exact ⟨level, .signed sign inside⟩
    | cons second others =>
      have spells := spells_operand (ih (by simp))
      obtain ⟨level, inside⟩ := spells.enclosed rfl rest
      exact ⟨level, .signed sign inside⟩

theorem spelled_signed {signs : List Sign} (some : signs ≠ [])
    (flat : ∀ inner operand, node ≠ .signed inner operand) (spelled : Spelled node) :
    Spelled (.signed signs node) where
  chain := by
    have phrase : ∀ rest, Closes rest →
        ∃ level, Unsigned (enclosedIf (!node.isAtom) node.tokens ++ rest) node level rest := by
      intro rest closes
      cases simple : node.isAtom with
      | true => exact spelled.atom simple rest closes
      | false =>
        obtain ⟨first, links, spells, settles⟩ := spelled.chain
        exact spells.enclosed (settles.mono (Nat.zero_le _)) rest
    exact ⟨_, [], spells_operand (operand_afterSigns some flat phrase), settles_alone _ 3 (by simp)⟩
  atom := by simp [Node.isAtom]

theorem Spelled.expression (spelled : Spelled node) (closes : Closes rest) :
    ∃ level, Expression (node.tokens ++ rest) node level rest := by
  obtain ⟨first, links, spells, settles⟩ := spelled.chain
  exact spells.expression (settles.mono (Nat.zero_le _)) closes

theorem arguments_allTokens {args : List Node} (all : ∀ arg ∈ args, Spelled arg)
    (some : args ≠ []) (closes : Closes rest) :
    ∃ levels, Arguments (allTokens args ++ rest) args levels rest := by
  induction args with
  | nil => exact absurd rfl some
  | cons arg args ih =>
    obtain ⟨here, later⟩ := List.forall_mem_cons.mp all
    cases args with
    | nil =>
      obtain ⟨level, only⟩ := here.expression closes
      exact ⟨[level], .last only⟩
    | cons second args =>
      obtain ⟨levels, others⟩ := ih later (by simp)
      obtain ⟨level, first⟩ := here.expression
        (show Closes (.comma :: (allTokens (second :: args) ++ rest)) by simp [Closes])
      refine ⟨level :: levels, ?_⟩
      rw [allTokens, List.append_assoc, List.cons_append]
      · exact .more first others
      · simp

theorem spelled_call (f : Function) {args : List Node} (arity : f.arity.accepts args.length)
    (all : ∀ arg ∈ args, Spelled arg) : Spelled (.call f args) := by
  apply spelled_unsigned
  intro rest _
  simp only [Node.tokens, Node.enclosed, List.cons_append, List.append_assoc, List.nil_append]
  by_cases none : args = []
  · subst none
    exact ⟨1, .callEmpty f arity⟩
  · obtain ⟨levels, inside⟩ := arguments_allTokens all none
      (show Closes (.closeParen :: rest) by simp [Closes])
    exact ⟨_, .call f inside arity⟩

theorem Node.Normal.spelled (normal : Node.Normal node) : Spelled node := by
  induction normal with
  | literal _ => exact spelled_unsigned fun _ _ => ⟨0, .number _⟩
  | constant symbol => exact spelled_unsigned fun _ closes => ⟨0, .constant symbol closes⟩
  | call f arity _ all => exact spelled_call f arity all
  | signed some flat _ operand => exact spelled_signed some flat operand
  | binary op _ _ first second => exact spelled_binary op first second

def Words (tokens : List Token) : Prop := ∀ token ∈ tokens, Lexer.Word token

theorem Words.append {others : List Token} (first : Words tokens) (second : Words others) :
    Words (tokens ++ others) :=
  fun token mem => (List.mem_append.mp mem).elim (first token) (second token)

theorem Words.cons {token : Token} (here : Lexer.Word token) (words : Words tokens) :
    Words (token :: tokens) :=
  List.forall_mem_cons.mpr ⟨here, words⟩

theorem words_nil : Words [] := by simp [Words]

theorem Words.enclosed (words : Words tokens) : Words (Node.enclosed tokens) :=
  .cons Lexer.word_openParen (words.append (.cons Lexer.word_closeParen words_nil))

theorem Words.enclosedIf (words : Words tokens) (needed : Bool) :
    Words (Node.enclosedIf needed tokens) := by
  cases needed with
  | false => exact words
  | true => exact words.enclosed

theorem Words.afterSigns (words : Words tokens) (signs : List Sign) :
    Words (Node.afterSigns tokens signs) := by
  induction signs with
  | nil => exact words
  | cons sign signs ih =>
    have here : Lexer.Word sign.token := by
      cases sign <;> exact Lexer.word_operator _
    cases signs with
    | nil => exact .cons here words
    | cons second others => exact .cons here ih.enclosed

theorem words_allTokens {args : List Node} (all : ∀ arg ∈ args, Words arg.tokens) :
    Words (allTokens args) := by
  induction args with
  | nil => exact words_nil
  | cons arg args ih =>
    obtain ⟨here, later⟩ := List.forall_mem_cons.mp all
    cases args with
    | nil => exact here
    | cons second others =>
      rw [allTokens]
      · exact here.append (.cons Lexer.word_comma (ih later))
      · simp

theorem Node.Normal.words (normal : Node.Normal node) : Words node.tokens := by
  induction normal with
  | literal numeral => exact .cons (Lexer.word_number numeral) words_nil
  | constant symbol => exact .cons (Lexer.word_constant symbol) words_nil
  | call f _ _ all => exact .cons (Lexer.word_function f) (words_allTokens all).enclosed
  | signed _ _ _ operand => exact (operand.enclosedIf _).afterSigns _
  | binary op _ _ first second =>
    exact (first.enclosedIf _).append (.cons (Lexer.word_operator op) (second.enclosedIf _))

theorem unplaced_printed (normal : Node.Normal node) :
    Parse.unplaced (lexemes node.printed) = node.tokens ++ [.eof] := by
  refine Cursor.unplaced_lexemes_spaced normal.words _ ?_
  change (spaced node.tokens).dropWhile Text.isBlank = _
  exact Lexer.dropWhile_spaced normal.words

/-- Every tree that is read is normal, and every normal tree is read back from its printed form as
soon as enough levels are allowed. -/
theorem text_undoes_printed :
    (∀ limit source node, (Parse.text limit source).value = .ok node → Node.Normal node) ∧
      ∀ node, Node.Normal node →
        ∃ least, ∀ limit, least ≤ limit → (Parse.text limit node.printed).value = .ok node := by
  constructor
  · intro limit source node run
    exact Parse.normal_of_text run
  · intro node normal
    obtain ⟨level, phrase⟩ := normal.spelled.expression (show Closes [.eof] by simp [Closes])
    rw [← unplaced_printed normal] at phrase
    refine ⟨level, ?_⟩
    intro limit enough
    exact Parse.line_complete (.bare phrase) enough

/-- `-(-(2 ** .3e-4)) * (1 - max(PI))` -/
def nestedProduct : Node :=
  .binary (.signed [.minus, .minus] (.binary (.literal "2") .pow (.literal ".3e-4"))) .mul
    (.binary (.literal "1") .sub (.call .max [.constant .pi]))

theorem nestedProduct_undone :
    Node.Normal nestedProduct ∧
      nestedProduct.printed = "- ( - ( 2 ** .3e-4 ) ) * ( 1 - max ( PI ) )".toList ∧
      ∃ limit, (Parse.text limit nestedProduct.printed).value = .ok nestedProduct := by
  have two : Lexer.Numeral "2".toList :=
    .intro ['2'] [] [] (.whole (Lexer.digits_of_all (by simp) rfl)) .none .none rfl
  have small : Lexer.Numeral ".3e-4".toList :=
    .intro ['.', '3'] ['e', '-', '4'] [] (.point (Lexer.digits_of_all (by simp) rfl))
      (.signed (.inr rfl) (Lexer.digits_of_all (by simp) rfl)) .none rfl
  have one : Lexer.Numeral "1".toList :=
    .intro ['1'] [] [] (.whole (Lexer.digits_of_all (by simp) rfl)) .none .none rfl
  have normal : Node.Normal nestedProduct :=
    .binary .mul (.signed (by simp) (by simp) (.binary .pow (.literal two) (.literal small)))
      (.binary .sub (.literal one) (.call .max rfl (by simpa using .constant .pi)))
  obtain ⟨least, reads⟩ := text_undoes_printed.2 nestedProduct normal
  have read := reads least (Nat.le_refl least)
  exact ⟨text_undoes_printed.1 least _ _ read, by decide, least, read⟩

end Reckon
