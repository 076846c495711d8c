import Reckon.Proofs.Reading

/-
The reader accepts exactly the phrases of the grammar.  A budget is enough for a phrase just when
the phrase opens no more levels than the budget has.
-/
namespace Reckon.Parse
open Grammar

variable {α : Type} {limit budget : Nat} {inside : Option (Rule Node)} {rule : Rule Node}

def Stops (rest : List Token) : Prop := ∀ operator, rest.head? ≠ some (.operator operator)

/-- A rule that reads the phrases of at most `budget` levels, and nothing else, off the front of a
list.  What follows a phrase has to meet a condition where the phrase could otherwise go on. -/
structure Reads (budget : Nat) (rule : Rule α)
    (phrase : List Token → α → Nat → List Token → Prop) (follow : List Token → Prop) : Prop where
  sound : ∀ {tokens value rest}, (rule tokens).value = .ok (value, rest) →
    rest <:+ tokens ∧ ∃ level ≤ budget, phrase (unplaced tokens) value level (unplaced rest)
  complete : ∀ {tokens value level rest}, phrase (unplaced tokens) value level rest →
    level ≤ budget → follow rest → ∃ left, (rule tokens).value = .ok (value, left) ∧
      unplaced left = rest

inductive ArgumentList (tokens : List Token) (args : List Node) (level : Nat) (rest : List Token) :
    Prop where
  | none (closes : rest.head? = some .closeParen) (nothing : tokens = rest) (empty : args = [])
      (flat : level = 0)
  | some (levels : List Nat) (inside : Arguments tokens args levels rest)
      (deep : level = deepest levels)

theorem arguments_sound (reads : Reads budget rule Expression Stops) (count : Nat)
    {tokens rest : List Lexeme} {args : List Node}
    (run : (arguments rule count tokens).value = .ok (args, rest)) :
    rest <:+ tokens ∧ ∃ levels, deepest levels ≤ budget ∧
      Arguments (unplaced tokens) args levels (unplaced rest) := by
  induction count generalizing tokens args with
  | zero => simp [arguments] at run
  | succ count ih =>
    rcases arguments_ok.mp run with
      ⟨node, one, _, rfl⟩ | ⟨node, comma, middle, more, one, same, others, rfl⟩
    · obtain ⟨suffix, level, bound, phrase⟩ := reads.sound one
      exact ⟨suffix, [level], by simpa [deepest] using bound, .last phrase⟩
    · obtain ⟨suffix, level, bound, phrase⟩ := reads.sound one
      obtain ⟨further, levels, bounds, phrases⟩ := ih others
      rw [unplaced_cons, same] at phrase
      exact ⟨(further.trans (List.suffix_cons comma middle)).trans suffix,
        level :: levels, Nat.max_le.mpr ⟨bound, bounds⟩, .more phrase phrases⟩

theorem arguments_complete (reads : Reads budget rule Expression Stops) (count : Nat)
    {tokens : List Lexeme} {args : List Node} {levels : List Nat} {rest : List Token}
    (enough : tokens.length ≤ count) (phrase : Arguments (unplaced tokens) args levels rest)
    (bound : deepest levels ≤ budget) (closes : rest.head? = some .closeParen) :
    ∃ left, (arguments rule count tokens).value = .ok (args, left) ∧ unplaced left = rest := by
  induction count generalizing tokens args levels with
  | zero =>
    have := phrase.shorter
    simp [List.length_eq_zero_iff.mp (Nat.le_zero.mp enough)] at this
  | succ count ih =>
    cases phrase with
    | last only =>
      obtain ⟨left, run, same⟩ := reads.complete only (by simpa [deepest] using bound)
        (by simp [Stops, closes])
      refine ⟨left, arguments_ok.mpr (.inl ⟨_, run, ?_, rfl⟩), same⟩
      subst same
      rw [(head_unplaced (by simp)).mp closes]
      simp
    | more first others =>
      obtain ⟨head, tail⟩ := Nat.max_le.mp bound
      obtain ⟨left, run, same⟩ := reads.complete first head (by simp [Stops])
      obtain ⟨comma, middle, rfl, separates, rfl⟩ := unplaced_eq_cons.mp same
      have shorter := first.shorter
      simp only [unplaced, List.length_cons, List.length_map] at shorter
      obtain ⟨left, others, same⟩ := ih (by omega) others tail
      exact ⟨left, arguments_ok.mpr (.inr ⟨_, comma, middle, _, run, separates, others, rfl⟩), same⟩

theorem reads_argumentList (reads : Reads budget rule Expression Stops) :
    Reads budget (argumentList rule) ArgumentList
      (fun rest => rest.head? = some .closeParen) where
  sound := by
    intro tokens args rest run
    unfold argumentList at run
    split at run
    · rename_i closes
      simp only [Attempt.value_ok, Except.ok.injEq, Prod.mk.injEq] at run
      obtain ⟨rfl, rfl⟩ := run
      exact ⟨List.suffix_rfl, 0, Nat.zero_le _,
        .none ((head_unplaced (by simp)).mpr closes) rfl rfl rfl⟩
    · obtain ⟨suffix, levels, bound, phrase⟩ := arguments_sound reads _ run
      exact ⟨suffix, _, bound, .some levels phrase rfl⟩
  complete := by
    intro tokens args level rest phrase bound closes
    unfold argumentList
    cases phrase with
    | none closes nothing empty =>
      subst nothing empty
      rw [if_pos ((head_unplaced (by simp)).mp closes)]
      exact ⟨tokens, rfl, rfl⟩
    | some levels inside deep =>
      subst deep
      rw [if_neg (fun closed => inside.head_ne ((head_unplaced (by simp)).mpr closed))]
      exact arguments_complete reads _ (Nat.le_refl _) inside bound closes

theorem parenthesized_sound {rule : Rule α} {phrase : List Token → α → Nat → List Token → Prop}
    {follow : List Token → Prop} (reads : Reads budget rule phrase follow)
    {tokens rest : List Lexeme} {value : α}
    (run : (parenthesized limit (some rule) tokens).value = .ok (value, rest)) :
    rest <:+ tokens ∧ ∃ level ≤ budget,
      phrase (unplaced tokens.tail) value level (.closeParen :: unplaced rest) := by
  obtain ⟨_, opening, middle, close, same, rfl, _, inside, closes⟩ := parenthesized_ok.mp run
  obtain rfl := Option.some.inj same
  obtain ⟨suffix, level, bound, found⟩ := reads.sound inside
  rw [unplaced_cons, closes] at found
  exact ⟨((List.suffix_cons close rest).trans suffix).trans (List.suffix_cons opening middle),
    level, bound, found⟩

theorem parenthesized_complete (limit : Nat) {opening : Lexeme} {middle : List Lexeme}
    (opens : opening.token = .openParen) {rule : Rule α}
    {phrase : List Token → α → Nat → List Token → Prop} {follow : List Token → Prop}
    (reads : Reads budget rule phrase follow) {rest : List Token} {value : α} {level : Nat}
    (found : phrase (unplaced middle) value level (.closeParen :: rest))
    (bound : level ≤ budget) (closing : follow (.closeParen :: rest)) :
    ∃ left, (parenthesized limit (some rule) (opening :: middle)).value = .ok (value, left) ∧
      unplaced left = rest := by
  obtain ⟨left, run, same⟩ := reads.complete found bound closing
  obtain ⟨close, after, rfl, closes, rfl⟩ := unplaced_eq_cons.mp same
  refine ⟨after, parenthesized_ok.mpr ?_, rfl⟩
  exact ⟨rule, opening, middle, close, rfl, rfl, opens, run, closes⟩

inductive Opens : Option (Rule Node) → Nat → Prop where
  | closed : Opens none 0
  | opened {below : Rule Node} (reads : Reads levels below Expression Stops) :
      Opens (some below) (levels + 1)

theorem call_sound (opens : Opens inside budget) {f : Function} {tokens rest : List Lexeme}
    {args : List Node} (parenthesis : (peek tokens).token = .openParen)
    (run : (parenthesized limit (inside.map argumentList) tokens).value = .ok (args, rest))
    (arity : f.arity.accepts args.length) :
    rest <:+ tokens ∧ ∃ level ≤ budget,
      Unsigned (.identifier f.name :: unplaced tokens) (.call f args) level (unplaced rest) := by
  obtain ⟨here, more, rfl, opening⟩ := (peek_eq (by simp)).mp parenthesis
  cases opens with
  | closed => simp [parenthesized] at run
  | opened reads =>
    obtain ⟨suffix, level, bound, list⟩ := parenthesized_sound (reads_argumentList reads) run
    rw [unplaced_cons, opening]
    simp only [List.tail_cons] at list
    cases list with
    | none closes nothing empty =>
      subst empty
      rw [nothing]
      exact ⟨suffix, 1, by omega, .callEmpty f arity⟩
    | some levels list deep =>
      subst deep
      exact ⟨suffix, _, by omega, .call f list arity⟩

theorem atom_sound (opens : Opens inside budget) {tokens rest : List Lexeme} {node : Node}
    (run : (atom limit inside tokens).value = .ok (node, rest)) :
    rest <:+ tokens ∧ ∃ level ≤ budget, Unsigned (unplaced tokens) node level (unplaced rest) := by
  cases tokens with
  | nil => simp [atom, peek] at run
  | cons here more =>
    simp only [atom, peek_cons, List.tail_cons] at run
    split at run
    · rename_i raw number
      simp only [Attempt.value_ok, Except.ok.injEq, Prod.mk.injEq] at run
      obtain ⟨rfl, rfl⟩ := run
      exact ⟨List.suffix_cons here more, 0, Nat.zero_le _, by simpa [number] using .number raw⟩
    · rename_i name identifier
      rw [unplaced_cons, identifier]
      by_cases parenthesis : (peek more).token = .openParen
      · simp only [parenthesis, ↓reduceIte, Attempt.value_bind_ok, named_ok, Node.namedCall_ok,
          Attempt.value_pure, Except.ok.injEq, Prod.mk.injEq, Prod.exists] at run
        obtain ⟨args, _, list, _, ⟨f, rfl, arity, rfl⟩, rfl, rfl⟩ := run
        obtain ⟨suffix, phrase⟩ := call_sound opens parenthesis list arity
        exact ⟨suffix.trans (List.suffix_cons here more), phrase⟩
      · simp only [parenthesis, ↓reduceIte] at run
        by_cases form : Constant.hasForm name
        · simp only [form, ↓reduceIte, Attempt.value_bind_ok, named_ok, Node.namedConstant_ok,
            Attempt.value_pure, Except.ok.injEq, Prod.mk.injEq] at run
          obtain ⟨_, ⟨c, rfl, rfl⟩, rfl, rfl⟩ := run
          exact ⟨List.suffix_cons here more, 0, Nat.zero_le _,
            .constant c (fun opens => parenthesis ((head_unplaced (by simp)).mp opens))⟩
        · simp [form] at run
    · simp at run

theorem unsigned_sound (opens : Opens inside budget) {tokens rest : List Lexeme} {node : Node}
    (run : (unsigned limit inside tokens).value = .ok (node, rest)) :
    rest <:+ tokens ∧ ∃ level ≤ budget, Unsigned (unplaced tokens) node level (unplaced rest) := by
  unfold unsigned at run
  split at run
  · rename_i parenthesis
    obtain ⟨here, more, rfl, opening⟩ := (peek_eq (by simp)).mp parenthesis
    cases opens with
    | closed => simp [parenthesized] at run
    | opened reads =>
      obtain ⟨suffix, level, bound, found⟩ := parenthesized_sound reads run
      rw [unplaced_cons, opening]
      exact ⟨suffix, 1 + level, by omega, .parens found⟩
  · exact atom_sound opens run

theorem unsigned_constant {here : Lexeme} {more : List Lexeme} {c : Constant}
    (identifier : here.token = .identifier c.name) (alone : (peek more).token ≠ .openParen) :
    (unsigned limit inside (here :: more)).value = .ok (.constant c, more) := by
  have known : (named here.first.char (Node.namedConstant c.name)).value = .ok (.constant c) :=
    named_ok.mpr (Node.namedConstant_ok.mpr ⟨c, rfl, rfl⟩)
  simp [unsigned, atom, identifier, alone, c.hasForm_name, known]

theorem unsigned_call {here : Lexeme} {more left : List Lexeme} {f : Function} {args : List Node}
    (identifier : here.token = .identifier f.name) (parenthesis : (peek more).token = .openParen)
    (run : (parenthesized limit (inside.map argumentList) more).value = .ok (args, left))
    (arity : f.arity.accepts args.length) :
    (unsigned limit inside (here :: more)).value = .ok (.call f args, left) := by
  have known : (named here.first.char (Node.namedCall f.name args)).value = .ok (.call f args) :=
    named_ok.mpr (Node.namedCall_ok.mpr ⟨f, rfl, arity, rfl⟩)
  simp [unsigned, atom, identifier, parenthesis, run, known]

theorem unsigned_complete (limit : Nat) (opens : Opens inside budget) {tokens : List Lexeme}
    {rest : List Token} {node : Node} {level : Nat}
    (phrase : Unsigned (unplaced tokens) node level rest) (bound : level ≤ budget) :
    ∃ left, (unsigned limit inside tokens).value = .ok (node, left) ∧ unplaced left = rest := by
  generalize spelled : unplaced tokens = given at phrase
  cases phrase with
  | number raw =>
    obtain ⟨here, more, rfl, number, rfl⟩ := unplaced_eq_cons.mp spelled
    exact ⟨more, by simp [unsigned, atom, number], rfl⟩
  | constant c follow =>
    obtain ⟨here, more, rfl, identifier, rfl⟩ := unplaced_eq_cons.mp spelled
    have alone : (peek more).token ≠ .openParen := fun opens =>
      follow ((head_unplaced (by simp)).mpr opens)
    exact ⟨more, unsigned_constant identifier alone, rfl⟩
  | parens found =>
    obtain ⟨here, more, rfl, opening, rfl⟩ := unplaced_eq_cons.mp spelled
    cases opens with
    | closed => omega
    | opened reads =>
      simp only [unsigned, peek_cons, opening, ↓reduceIte]
      exact parenthesized_complete limit opening reads found (by omega) (by simp [Stops])
  | callEmpty f arity =>
    obtain ⟨here, _, rfl, identifier, spelled⟩ := unplaced_eq_cons.mp spelled
    obtain ⟨opening, more, rfl, parenthesis, spelled⟩ := unplaced_eq_cons.mp spelled
    cases opens with
    | closed => omega
    | opened reads =>
      obtain ⟨left, run, same⟩ := parenthesized_complete limit parenthesis
        (reads_argumentList reads) (.none rfl spelled rfl rfl) (Nat.zero_le _) rfl
      exact ⟨left, unsigned_call identifier parenthesis run arity, same⟩
  | call f list arity =>
    obtain ⟨here, _, rfl, identifier, spelled⟩ := unplaced_eq_cons.mp spelled
    obtain ⟨opening, more, rfl, parenthesis, rfl⟩ := unplaced_eq_cons.mp spelled
    cases opens with
    | closed => omega
    | opened reads =>
      obtain ⟨left, run, same⟩ := parenthesized_complete limit parenthesis
        (reads_argumentList reads) (.some _ list rfl) (by omega) rfl
      exact ⟨left, unsigned_call identifier parenthesis run arity, same⟩

theorem peek_ne_sign {tokens : List Lexeme} {node : Node} {level : Nat} {rest : List Token}
    (phrase : Unsigned (unplaced tokens) node level rest) (sign : Sign) :
    (peek tokens).token ≠ sign.token := by
  intro same
  cases sign with
  | plus => exact phrase.head_ne_operator .add ((head_unplaced (by simp)).mpr same)
  | minus => exact phrase.head_ne_operator .sub ((head_unplaced (by simp)).mpr same)

theorem reads_signedOperand (opens : Opens inside budget) :
    Reads budget (signedOperand limit inside) Operand (fun _ => True) where
  sound := by
    intro tokens node rest run
    unfold signedOperand at run
    split at run
    · rename_i sign signs
      obtain ⟨here, more, rfl, same⟩ := (peek_eq (by cases sign <;> simp [Sign.token])).mp
        (sign?_eq_some.mp signs)
      simp only [List.tail_cons, Attempt.value_bind_ok, Attempt.value_pure, Except.ok.injEq,
        Prod.mk.injEq, Prod.exists] at run
      obtain ⟨inner, _, read, rfl, rfl⟩ := run
      obtain ⟨suffix, level, bound, phrase⟩ := unsigned_sound opens read
      rw [unplaced_cons, same]
      exact ⟨suffix.trans (List.suffix_cons here more), level, bound, .signed sign phrase⟩
    · obtain ⟨suffix, level, bound, phrase⟩ := unsigned_sound opens run
      exact ⟨suffix, level, bound, .bare phrase⟩
  complete := by
    intro tokens node level rest phrase bound _
    generalize spelled : unplaced tokens = given at phrase
    unfold signedOperand
    cases phrase with
    | bare inner =>
      subst spelled
      obtain ⟨left, run, ends⟩ := unsigned_complete limit opens inner bound
      refine ⟨left, ?_, ends⟩
      split
      · rename_i sign signs
        exact absurd (sign?_eq_some.mp signs) (peek_ne_sign inner sign)
      · exact run
    | signed sign inner =>
      obtain ⟨here, more, rfl, same, rfl⟩ := unplaced_eq_cons.mp spelled
      obtain ⟨left, run, ends⟩ := unsigned_complete limit opens inner bound
      refine ⟨left, ?_, ends⟩
      rw [sign?_eq_some.mpr (show (peek (here :: more)).token = sign.token from same)]
      simp [run]

inductive LinkRun (tokens : List Token) (found : List (Operator × Node)) (level : Nat)
    (rest : List Token) : Prop where
  | intro (levels : List Nat) (links : Links tokens found levels rest)
      (deep : level = chainLevel 1 levels)

theorem reads_chained {operand : Rule Node} {links : Rule (List (Operator × Node))}
    (operands : Reads budget operand Operand fun _ => True)
    (chains : Reads budget links LinkRun Stops) :
    Reads budget (chained operand links) Expression Stops where
  sound := by
    intro tokens node rest run
    obtain ⟨first, middle, found, head, tail, rfl⟩ := chained_ok.mp run
    obtain ⟨suffix, level, bound, phrase⟩ := operands.sound head
    obtain ⟨further, _, bounds, levels, phrases, rfl⟩ := chains.sound tail
    refine ⟨further.trans suffix, _, ?_, .chain phrase phrases⟩
    rw [chainLevel, Nat.zero_add]
    exact Nat.max_le.mpr ⟨bound, bounds⟩
  complete := by
    intro tokens node level rest phrase bound stops
    obtain ⟨first, more⟩ := phrase
    rw [chainLevel, Nat.zero_add] at bound
    obtain ⟨bound, bounds⟩ := Nat.max_le.mp bound
    obtain ⟨middle, head, rfl⟩ := operands.complete first bound trivial
    obtain ⟨left, tail, ends⟩ := chains.complete (.intro _ more rfl) bounds stops
    exact ⟨left, chained_ok.mpr ⟨_, middle, _, head, tail, rfl⟩, ends⟩

theorem operator?_none_of_stops {tokens : List Lexeme} (stops : Stops (unplaced tokens)) :
    (peek tokens).token.operator? = none := by
  cases found : (peek tokens).token.operator? with
  | none => rfl
  | some operator =>
    exact absurd ((head_unplaced (by simp)).mpr (Token.operator?_eq_some.mp found)) (stops operator)

theorem reads_links_zero : Reads 0 (links limit 0) LinkRun Stops where
  sound := by
    intro tokens found rest run
    rw [value_links_zero] at run
    split at run
    · simp only [Except.ok.injEq, Prod.mk.injEq] at run
      obtain ⟨rfl, rfl⟩ := run
      exact ⟨List.suffix_rfl, 0, Nat.le_refl _, [], .nil, rfl⟩
    · simp at run
  complete := by
    rintro tokens found level rest ⟨levels, phrase, rfl⟩ bound stops
    generalize spelled : unplaced tokens = given at phrase
    cases phrase with
    | nil =>
      subst spelled
      rw [value_links_zero, operator?_none_of_stops stops]
      exact ⟨tokens, rfl, rfl⟩
    | cons first more =>
      simp only [chainLevel] at bound
      omega

theorem reads_links_succ (operands : Reads budget (operand limit budget) Operand fun _ => True)
    (chains : Reads budget (links limit budget) LinkRun Stops) :
    Reads (budget + 1) (links limit (budget + 1)) LinkRun Stops where
  sound := by
    intro tokens found rest run
    rw [value_links_succ] at run
    split at run
    · simp only [Except.ok.injEq, Prod.mk.injEq] at run
      obtain ⟨rfl, rfl⟩ := run
      exact ⟨List.suffix_rfl, 0, Nat.zero_le _, [], .nil, rfl⟩
    · rename_i operator continues
      obtain ⟨here, after, rfl, same⟩ :=
        (peek_eq (by simp)).mp (Token.operator?_eq_some.mp continues)
      split at run
      · rename_i node middle read
        obtain ⟨suffix, level, bound, phrase⟩ := operands.sound read
        cases more : (links limit budget middle).value with
        | error error => simp [more, Except.map] at run
        | ok others =>
          simp only [more, Except.map, Except.ok.injEq, Prod.mk.injEq] at run
          obtain ⟨rfl, rfl⟩ := run
          obtain ⟨further, _, bounds, levels, phrases, rfl⟩ := chains.sound more
          have bounds := (chainLevel_succ _ _ _).mpr bounds
          rw [unplaced_cons, same]
          exact ⟨(further.trans suffix).trans (List.suffix_cons here after), _,
            Nat.max_le.mpr ⟨by omega, bounds⟩, _, .cons phrase phrases, rfl⟩
      · split at run
        · simp only [Except.ok.injEq, Prod.mk.injEq] at run
          obtain ⟨rfl, rfl⟩ := run
          exact ⟨List.suffix_rfl, 0, Nat.zero_le _, [], .nil, rfl⟩
        · simp at run
  complete := by
    rintro tokens found level rest ⟨levels, phrase, rfl⟩ bound stops
    generalize spelled : unplaced tokens = given at phrase
    rw [value_links_succ]
    cases phrase with
    | nil =>
      subst spelled
      rw [operator?_none_of_stops stops]
      exact ⟨tokens, rfl, rfl⟩
    | cons first more =>
      obtain ⟨here, after, rfl, same, rfl⟩ := unplaced_eq_cons.mp spelled
      obtain ⟨head, tail⟩ := Nat.max_le.mp bound
      obtain ⟨middle, read, rfl⟩ := operands.complete first (by omega) trivial
      obtain ⟨left, others, ends⟩ :=
        chains.complete (.intro _ more rfl) ((chainLevel_succ _ _ _).mp tail) stops
      refine ⟨left, ?_, ends⟩
      simp only [peek_cons, Token.operator?_eq_some.mpr same, List.tail_cons, read, others]
      rfl

theorem reads_operand_links (limit budget : Nat) :
    Reads budget (operand limit budget) Operand (fun _ => True) ∧
      Reads budget (links limit budget) LinkRun Stops := by
  induction budget with
  | zero =>
    rw [operand_zero]
    exact ⟨reads_signedOperand .closed, reads_links_zero⟩
  | succ budget ih =>
    obtain ⟨operands, chains⟩ := ih
    rw [operand_succ]
    exact ⟨reads_signedOperand (.opened (reads_chained operands chains)),
      reads_links_succ operands chains⟩

theorem reads_expression (limit budget : Nat) :
    Reads budget (expression limit budget) Expression Stops :=
  reads_chained (reads_operand_links limit budget).1 (reads_operand_links limit budget).2

def EndsOnce (tokens : List Lexeme) : Prop :=
  ∃ body : List Lexeme, ∃ last : Lexeme,
    tokens = body ++ [last] ∧ last.token = .eof ∧ ∀ here ∈ body, here.token ≠ .eof

theorem EndsOnce.unplaced {tokens : List Lexeme} (ended : EndsOnce tokens) :
    ∃ body, Parse.unplaced tokens = body ++ [.eof] ∧ .eof ∉ body := by
  obtain ⟨body, last, rfl, ends, clean⟩ := ended
  exact ⟨Parse.unplaced body, by simp [Parse.unplaced, ends], by simpa [Parse.unplaced] using clean⟩

theorem rest_of_ended {used body rest : List Token} (same : used ++ rest = body ++ [.eof])
    (clean : .eof ∉ used) (once : .eof ∉ body) (ends : ∀ token ∈ rest.head?, token = .eof) :
    rest = [.eof] := by
  cases rest with
  | nil =>
    rw [List.append_nil] at same
    simp [same] at clean
  | cons token more =>
    obtain rfl : token = .eof := ends token rfl
    rcases List.append_eq_append_iff.mp same with ⟨front, rfl, tail⟩ | ⟨back, rfl, tail⟩
    · cases front with
      | nil => exact tail
      | cons first front =>
        obtain rfl : Token.eof = first := (List.cons.inj tail).1
        simp at once
    · cases back with
      | nil => exact tail.symm
      | cons first back => simp at tail

theorem peek_eof {tokens : List Lexeme} :
    (peek tokens).token = .eof ↔ ∀ token ∈ (unplaced tokens).head?, token = .eof := by
  cases tokens with
  | nil => simp [peek]
  | cons here more => simp

theorem line_sound {tokens : List Lexeme} {node : Node} (ended : EndsOnce tokens)
    (run : (line limit tokens).value = .ok node) :
    ∃ level, level ≤ limit ∧ Grammar.Line (unplaced tokens) node level := by
  obtain ⟨rest, read, last⟩ := line_ok.mp run
  obtain ⟨_, level, bound, phrase⟩ := (reads_expression limit limit).sound read
  obtain ⟨body, spelled, once⟩ := ended.unplaced
  obtain ⟨used, split, clean⟩ := phrase.takes
  refine ⟨level, bound, ?_⟩
  unfold afterEquals at last
  split at last
  · rename_i equals
    obtain ⟨sign, more, rfl, same⟩ := (peek_eq (by simp)).mp equals
    have whole : (used ++ [.equals]) ++ unplaced more = body ++ [.eof] := by
      rw [← spelled, split, unplaced_cons, same]
      simp
    have ends := rest_of_ended whole (by simp [clean]) once (peek_eof.mp last)
    rw [unplaced_cons, same, ends] at phrase
    exact .equals phrase
  · have ends := rest_of_ended (split.symm.trans spelled) clean once (peek_eof.mp last)
    rw [ends] at phrase
    exact .bare phrase

theorem line_complete {tokens : List Lexeme} {node : Node} {level : Nat}
    (derived : Grammar.Line (unplaced tokens) node level) (bound : level ≤ limit) :
    (line limit tokens).value = .ok node := by
  have reads := reads_expression limit limit
  refine line_ok.mpr ?_
  cases derived with
  | bare phrase =>
    obtain ⟨left, read, same⟩ := reads.complete phrase bound (by simp [Stops])
    obtain ⟨last, _, rfl, ends, _⟩ := unplaced_eq_cons.mp same
    exact ⟨_, read, by simp [afterEquals, ends]⟩
  | equals phrase =>
    obtain ⟨left, read, same⟩ := reads.complete phrase bound (by simp [Stops])
    obtain ⟨sign, _, rfl, equals, same⟩ := unplaced_eq_cons.mp same
    obtain ⟨last, _, rfl, ends, _⟩ := unplaced_eq_cons.mp same
    exact ⟨_, read, by simp [afterEquals, equals, ends]⟩

/-- A line is read just when the grammar derives it, end included, with no more levels than the
limit; the tree is that of the derivation. -/
theorem line_accepts (limit : Nat) (tokens : List Lexeme) (ended : EndsOnce tokens) (node : Node) :
    (line limit tokens).value = .ok node ↔
      ∃ level, level ≤ limit ∧ Grammar.Line (unplaced tokens) node level := by
  constructor
  · intro run
    exact line_sound ended run
  · intro derived
    obtain ⟨level, bound, derived⟩ := derived
    exact line_complete derived bound

/-- `-(2 ** PI) * max(1, 3) =` -/
def signedProduct : List Token :=
  [.operator .sub, .openParen, .number "2", .operator .pow, .identifier "PI", .closeParen,
    .operator .mul, .identifier "max", .openParen, .number "1", .comma, .number "3", .closeParen,
    .equals, .eof]

theorem signedProduct_needs_two_levels :
    EndsOnce (placed signedProduct) ∧
      (∃ level, level ≤ 2 ∧ Grammar.Line (unplaced (placed signedProduct))
        (.binary (.signed [.minus] (.binary (.literal "2") .pow (.constant .pi))) .mul
          (.call .max [.literal "1", .literal "3"])) level) ∧
      ∀ node, ¬ ∃ level, level ≤ 1 ∧ Grammar.Line (unplaced (placed signedProduct)) node level := by
  have ended : EndsOnce (placed signedProduct) :=
    ⟨(placed signedProduct).dropLast, (placed signedProduct).getLast (by decide), by decide,
      by decide, by decide⟩
  refine ⟨ended, (line_accepts 2 _ ended _).mp rfl, ?_⟩
  intro node derived
  have run := (line_accepts 1 _ ended node).mpr derived
  have fails : (line 1 (placed signedProduct)).value = .error ⟨3, .tooDeep 1⟩ := rfl
  simp [run] at fails

end Reckon.Parse
