import Reckon.Proofs.Acceptance

/-
Every failure of a reader of expressions, with the token that it talks about.  A name is refused
only where all of its call has been read.  The end is never read, so it may be what is found.
-/
namespace Reckon.Parse
open Grammar

variable {α : Type} {limit budget : Nat} {inside : Option (Rule Node)} {rule : Rule Node}
variable {tokens rest : List Lexeme} {error : ParseError}

def Leaves (tokens rest : List Lexeme) : Prop :=
  ∃ used, tokens = used ++ rest ∧ ∀ lexeme ∈ used, lexeme.token ≠ .eof

theorem Leaves.refl (tokens : List Lexeme) : Leaves tokens tokens := ⟨[], rfl, by simp⟩

theorem Leaves.trans {middle : List Lexeme} (first : Leaves tokens middle)
    (second : Leaves middle rest) : Leaves tokens rest := by
  obtain ⟨used, rfl, clean⟩ := first
  obtain ⟨more, rfl, clear⟩ := second
  exact ⟨used ++ more, by simp, List.forall_mem_append.mpr ⟨clean, clear⟩⟩

theorem Leaves.cons {here : Lexeme} (real : here.token ≠ .eof) (leaves : Leaves tokens rest) :
    Leaves (here :: tokens) rest := by
  obtain ⟨used, rfl, clean⟩ := leaves
  exact ⟨here :: used, rfl, List.forall_mem_cons.mpr ⟨real, clean⟩⟩

theorem leaves_tail (real : (peek tokens).token ≠ .eof) : Leaves tokens tokens.tail := by
  cases tokens with
  | nil => exact .refl []
  | cons here more => exact (Leaves.refl more).cons real

theorem leaves_of_takes (suffix : rest <:+ tokens)
    (takes : Takes (unplaced tokens) (unplaced rest)) : Leaves tokens rest := by
  obtain ⟨used, rfl⟩ := suffix
  obtain ⟨taken, same, clean⟩ := takes
  obtain rfl : unplaced used = taken := by simpa [unplaced] using same
  refine ⟨used, rfl, ?_⟩
  intro lexeme mem ends
  exact clean (ends ▸ List.mem_map_of_mem mem)

def Consumes (rule : Rule α) : Prop :=
  ∀ {tokens value rest}, (rule tokens).value = .ok (value, rest) → Leaves tokens rest

theorem Reads.consumes {rule : Rule α} {phrase : List Token → α → Nat → List Token → Prop}
    {follow : List Token → Prop} (reads : Reads budget rule phrase follow)
    (takes : ∀ {tokens value level rest}, phrase tokens value level rest → Takes tokens rest) :
    Consumes rule := by
  intro tokens value rest run
  obtain ⟨suffix, level, _, found⟩ := reads.sound run
  exact leaves_of_takes suffix (takes found)

theorem ArgumentList.takes {tokens rest : List Token} {args : List Node} {level : Nat} :
    ArgumentList tokens args level rest → Takes tokens rest
  | .none _ nothing _ _ => nothing ▸ .refl _
  | .some _ inside _ => inside.takes

/-- The kinds of failures.  No failure is about a missing opening parenthesis, which is looked for
only where one has been seen. -/
inductive Raised (tokens : List Lexeme) : ParseError → Prop where
  | missed (expected : Expectation) (possible : expected ≠ .openParen) (rest : List Lexeme)
      (leaves : Leaves tokens rest) :
      Raised tokens ⟨(peek rest).first.char, .mismatch expected (peek rest).token⟩
  | tooDeep (limit : Nat) (here : Lexeme) (rest : List Lexeme)
      (leaves : Leaves tokens (here :: rest))
      (deeper : here.token = .openParen ∨ ∃ operator, here.token = .operator operator) :
      Raised tokens ⟨here.first.char, .tooDeep limit⟩
  | constant (name : String) (here : Lexeme) (rest : List Lexeme)
      (leaves : Leaves tokens (here :: rest)) (identifier : here.token = .identifier name)
      (form : Constant.hasForm name) (alone : (peek rest).token ≠ .openParen)
      (unknown : Constant.ofName? name = none) :
      Raised tokens ⟨here.first.char, .symbol (.unknownConstant name)⟩
  | call (name : String) (here : Lexeme) (rest : List Lexeme)
      (leaves : Leaves tokens (here :: rest)) (identifier : here.token = .identifier name)
      (parenthesis : (peek rest).token = .openParen)
      (complete : ArgumentList (unplaced rest.tail) args level (.closeParen :: after))
      (refused : Node.namedCall name args = .error bad) :
      Raised tokens ⟨here.first.char, .symbol bad⟩

def Raises (rule : Rule α) : Prop :=
  ∀ {tokens error}, (rule tokens).value = .error error → Raised tokens error

theorem Raised.mono (raised : Raised rest error) (leaves : Leaves tokens rest) :
    Raised tokens error := by
  cases raised with
  | missed expected possible left inner => exact .missed expected possible left (leaves.trans inner)
  | tooDeep limit here after inner deeper =>
    exact .tooDeep limit here after (leaves.trans inner) deeper
  | constant name here after inner identifier form alone unknown =>
    exact .constant name here after (leaves.trans inner) identifier form alone unknown
  | call name here after inner identifier parenthesis complete refused =>
    exact .call name here after (leaves.trans inner) identifier parenthesis complete refused

theorem tooDeep_raises (opening : (peek tokens).token = .openParen)
    (run : (parenthesized limit (none : Option (Rule α)) tokens).value = .error error) :
    Raised tokens error := by
  obtain ⟨here, more, rfl, same⟩ := (peek_eq (by simp)).mp opening
  obtain rfl := Except.error.inj run
  exact .tooDeep _ here more (.refl _) (.inl same)

theorem parenthesized_raises {rule : Rule α} (consumes : Consumes rule) (raises : Raises rule)
    (opening : (peek tokens).token = .openParen)
    (run : (parenthesized limit (some rule) tokens).value = .error error) :
    Raised tokens error := by
  have opened : Leaves tokens tokens.tail := leaves_tail (by simp [opening])
  rcases (parenthesized_error opening).mp run with first | ⟨value, rest, first, second⟩
  · exact (raises first).mono opened
  · obtain ⟨_, rfl⟩ := expect_error.mp second
    exact .missed _ (by simp) rest (opened.trans (consumes first))

theorem arguments_raises (consumes : Consumes rule) (raises : Raises rule) (count : Nat) :
    Raises (arguments rule count) := by
  induction count with
  | zero =>
    intro tokens error run
    obtain rfl := Except.error.inj run
    exact .missed _ (by simp) tokens (.refl _)
  | succ count ih =>
    intro tokens error run
    rw [arguments] at run
    simp only [Attempt.value_bind_error, Prod.exists] at run
    rcases run with first | ⟨node, rest, first, after⟩
    · exact raises first
    · split at after
      · rename_i separates
        have onward : Leaves rest rest.tail := leaves_tail (by simp [separates])
        simp only [Attempt.value_bind_error, Prod.exists] at after
        rcases after with others | ⟨_, _, _, final⟩
        · exact (ih others).mono ((consumes first).trans onward)
        · simp at final
      · simp at after

theorem argumentList_raises (consumes : Consumes rule) (raises : Raises rule) :
    Raises (argumentList rule) := by
  intro tokens error run
  unfold argumentList at run
  split at run
  · simp at run
  · exact arguments_raises consumes raises _ run

def RaisesInside (inside : Option (Rule Node)) : Prop := ∀ rule, inside = some rule → Raises rule

theorem call_raises (opens : Opens inside budget) (raises : RaisesInside inside)
    (opening : (peek tokens).token = .openParen)
    (run : (parenthesized limit (inside.map argumentList) tokens).value = .error error) :
    Raised tokens error := by
  cases opens with
  | closed => exact tooDeep_raises opening run
  | opened reads =>
    exact parenthesized_raises ((reads_argumentList reads).consumes ArgumentList.takes)
      (argumentList_raises (reads.consumes Expression.takes) (raises _ rfl)) opening run

theorem named_error {position : Nat} {result : Except BadSymbol Node} {error : ParseError} :
    (named position result).value = .error error ↔
      ∃ bad, result = .error bad ∧ error = ⟨position, .symbol bad⟩ := by
  cases result with
  | ok node => simp [named]
  | error bad => simp [named, eq_comm]

theorem atom_raises (opens : Opens inside budget) (raises : RaisesInside inside) :
    Raises (atom limit inside) := by
  intro tokens error run
  cases tokens with
  | nil =>
    obtain rfl := Except.error.inj run
    exact .missed _ (by simp) [] (.refl _)
  | cons here more =>
    simp only [atom, peek_cons, List.tail_cons] at run
    split at run
    · simp at run
    · rename_i name identifier
      by_cases parenthesis : (peek more).token = .openParen
      · simp only [parenthesis, ↓reduceIte, Attempt.value_bind_error, Prod.exists] at run
        rcases run with list | ⟨args, rest, list, refused | ⟨_, _, final⟩⟩
        · have name : Leaves (here :: more) more := (Leaves.refl more).cons (by simp [identifier])
          exact (call_raises opens raises parenthesis list).mono name
        · obtain ⟨bad, cause, rfl⟩ := named_error.mp refused
          cases opens with
          | closed => simp [parenthesized] at list
          | opened reads =>
            obtain ⟨_, level, _, complete⟩ := parenthesized_sound (reads_argumentList reads) list
            exact .call name here more (.refl _) identifier parenthesis complete cause
        · simp at final
      · simp only [parenthesis, ↓reduceIte] at run
        by_cases form : Constant.hasForm name
        · simp only [form, ↓reduceIte, Attempt.value_bind_error] at run
          rcases run with refused | ⟨_, _, final⟩
          · obtain ⟨bad, cause, rfl⟩ := named_error.mp refused
            obtain ⟨unknown, rfl⟩ := Node.namedConstant_error.mp cause
            exact .constant name here more (.refl _) identifier form parenthesis unknown
          · simp at final
        · simp only [form, Bool.false_eq_true, ↓reduceIte] at run
          obtain rfl := Except.error.inj run
          exact .missed _ (by simp) (here :: more) (.refl _)
    · obtain rfl := Except.error.inj run
      exact .missed _ (by simp) (here :: more) (.refl _)

theorem signedOperand_raises (opens : Opens inside budget) (raises : RaisesInside inside) :
    Raises (signedOperand limit inside) := by
  have bare : Raises (unsigned limit inside) := by
    intro tokens error run
    unfold unsigned at run
    split at run
    · rename_i opening
      cases opens with
      | closed => exact tooDeep_raises opening run
      | opened reads =>
        exact parenthesized_raises (reads.consumes Expression.takes) (raises _ rfl) opening run
    · exact atom_raises opens raises run
  intro tokens error run
  unfold signedOperand at run
  split at run
  · rename_i sign signs
    have onward : Leaves tokens tokens.tail :=
      leaves_tail (by rw [sign?_eq_some.mp signs]; cases sign <;> simp [Sign.token])
    simp only [Attempt.value_bind_error, Prod.exists] at run
    rcases run with inner | ⟨_, _, _, final⟩
    · exact (bare inner).mono onward
    · simp at final
  · exact bare run

theorem chained_raises {operand : Rule Node} {links : Rule (List (Operator × Node))}
    (reads : Reads budget operand Operand fun _ => True) (operands : Raises operand)
    (chains : Raises links) : Raises (chained operand links) := by
  intro tokens error run
  rcases chained_error run with head | ⟨_, _, head, tail⟩
  · exact operands head
  · exact (chains tail).mono (reads.consumes Operand.takes head)

theorem links_zero_raises : Raises (links limit 0) := by
  intro tokens error run
  rw [value_links_zero] at run
  split at run
  · simp at run
  · rename_i operator continues
    obtain ⟨here, after, rfl, same⟩ :=
      (peek_eq (by simp)).mp (Token.operator?_eq_some.mp continues)
    obtain rfl := Except.error.inj run
    exact .tooDeep limit here after (.refl _) (.inr ⟨operator, same⟩)

theorem links_succ_raises (operands : Raises (operand limit budget))
    (chains : Raises (links limit budget)) : Raises (links limit (budget + 1)) := by
  intro tokens error run
  rw [value_links_succ] at run
  split at run
  · simp at run
  · rename_i operator continues
    have onward : Leaves tokens tokens.tail :=
      leaves_tail (by simp [Token.operator?_eq_some.mp continues])
    split at run
    · rename_i node middle read
      have left := (reads_operand_links limit budget).1.consumes Operand.takes read
      cases more : (links limit budget middle).value with
      | ok others => simp [more, Except.map] at run
      | error failure =>
        obtain rfl : failure = error := by simpa [more, Except.map] using run
        exact (chains more).mono (onward.trans left)
    · rename_i failure missed
      split at run
      · simp at run
      · obtain rfl := Except.error.inj run
        exact (operands missed).mono onward

theorem operand_links_raises (limit budget : Nat) :
    Raises (operand limit budget) ∧ Raises (links limit budget) := by
  induction budget with
  | zero =>
    have nothing : RaisesInside none := by
      intro rule same
      simp at same
    exact ⟨signedOperand_raises .closed nothing, links_zero_raises⟩
  | succ budget ih =>
    obtain ⟨operands, chains⟩ := ih
    obtain ⟨readsOperand, readsLinks⟩ := reads_operand_links limit budget
    refine ⟨?_, links_succ_raises operands chains⟩
    rw [operand_succ]
    refine signedOperand_raises (.opened (reads_chained readsOperand readsLinks)) ?_
    intro rule same
    obtain rfl := Option.some.inj same
    exact chained_raises readsOperand operands chains

theorem expression_raises (limit budget : Nat) : Raises (expression limit budget) :=
  chained_raises (reads_operand_links limit budget).1 (operand_links_raises limit budget).1
    (operand_links_raises limit budget).2

end Reckon.Parse
