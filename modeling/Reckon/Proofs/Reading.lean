import Reckon.Parse.Descent
import Reckon.Proofs.Grammar

/-
What each rule of the reader does with the tokens it is given: when it succeeds, and with what.
-/
namespace Reckon.Parse

variable {α : Type} {limit : Nat} {inside : Option (Rule Node)} {rule : Rule Node}
variable {tokens rest : List Lexeme} {node : Node} {args : List Node}

def unplaced (tokens : List Lexeme) : List Token := tokens.map (·.token)

def placed (tokens : List Token) : List Lexeme :=
  tokens.zipIdx.map fun (token, i) => ⟨token, ⟨i, i⟩, ⟨i, i⟩⟩

@[simp] theorem unplaced_nil : unplaced [] = [] := rfl

@[simp] theorem unplaced_cons (here : Lexeme) (tokens : List Lexeme) :
    unplaced (here :: tokens) = here.token :: unplaced tokens := rfl

theorem unplaced_eq_cons {token : Token} {others : List Token} :
    unplaced tokens = token :: others ↔
      ∃ here more, tokens = here :: more ∧ here.token = token ∧ unplaced more = others := by
  simp [unplaced, List.map_eq_cons_iff]

@[simp] theorem peek_cons (here : Lexeme) (tokens : List Lexeme) :
    peek (here :: tokens) = here := rfl

theorem peek_eq {token : Token} (h : token ≠ .eof) :
    (peek tokens).token = token ↔ ∃ here more, tokens = here :: more ∧ here.token = token := by
  cases tokens with
  | nil => simp [peek, h.symm]
  | cons here more => simp

theorem head_unplaced {token : Token} (h : token ≠ .eof) :
    (unplaced tokens).head? = some token ↔ (peek tokens).token = token := by
  cases tokens with
  | nil => simp [peek, h.symm]
  | cons here more => simp

@[simp] theorem value_failAt (tokens : List Lexeme) (cause : ParseCause) :
    (failAt tokens cause : Parsed α).value = .error ⟨(peek tokens).first.char, cause⟩ := rfl

@[simp] theorem value_mismatch (expected : Expectation) (tokens : List Lexeme) :
    (mismatch expected tokens : Parsed α).value =
      .error ⟨(peek tokens).first.char, .mismatch expected (peek tokens).token⟩ := rfl

theorem expect_ok {token : Token} {expected : Expectation} (real : token ≠ .eof) :
    (expect token expected tokens).value = .ok rest ↔
      ∃ here, tokens = here :: rest ∧ here.token = token := by
  unfold expect
  split
  · rename_i present
    obtain ⟨here, more, rfl, same⟩ := (peek_eq real).mp present
    constructor
    · intro run
      simp only [List.tail_cons, Attempt.value_ok, Except.ok.injEq] at run
      exact ⟨here, by rw [run], same⟩
    · rintro ⟨_, eq, _⟩
      simp_all
  · rename_i other
    simp only [value_mismatch, reduceCtorEq, false_iff]
    rintro ⟨here, rfl, same⟩
    exact other same

theorem expect_error {token : Token} {expected : Expectation} {error : ParseError} :
    (expect token expected tokens).value = .error error ↔
      (peek tokens).token ≠ token ∧
        error = ⟨(peek tokens).first.char, .mismatch expected (peek tokens).token⟩ := by
  unfold expect
  split <;> simp_all [eq_comm]

theorem parenthesized_ok {inside : Option (Rule α)} {value : α} :
    (parenthesized limit inside tokens).value = .ok (value, rest) ↔
      ∃ rule opening middle close, inside = some rule ∧ tokens = opening :: middle ∧
        opening.token = .openParen ∧ (rule middle).value = .ok (value, close :: rest) ∧
          close.token = .closeParen := by
  unfold parenthesized
  cases inside with
  | none => simp
  | some rule =>
    have openable : Token.openParen ≠ .eof := by simp
    have closable : Token.closeParen ≠ .eof := by simp
    simp only [Attempt.value_bind_ok, expect_ok openable, expect_ok closable, Attempt.value_pure,
      Except.ok.injEq, Prod.mk.injEq, Prod.exists, Option.some.injEq]
    constructor
    · rintro ⟨middle, ⟨opening, rfl, opens⟩, _, _, run, _, ⟨close, rfl, closes⟩, rfl, rfl⟩
      exact ⟨rule, opening, middle, close, rfl, rfl, opens, run, closes⟩
    · rintro ⟨_, opening, middle, close, rfl, rfl, opens, run, closes⟩
      exact ⟨middle, ⟨opening, rfl, opens⟩, value, _, run, rest, ⟨close, rfl, closes⟩, rfl, rfl⟩

theorem parenthesized_error {inside : Rule α} {error : ParseError}
    (opening : (peek tokens).token = .openParen) :
    (parenthesized limit (some inside) tokens).value = .error error ↔
      (inside tokens.tail).value = .error error ∨
        ∃ value rest, (inside tokens.tail).value = .ok (value, rest) ∧
          (expect .closeParen .closeParen rest).value = .error error := by
  have opened : (expect .openParen .openParen tokens).value = .ok tokens.tail := by
    rw [expect, if_pos opening, Attempt.value_ok]
  simp [parenthesized, opened]

theorem arguments_ok {count : Nat} :
    (arguments rule (count + 1) tokens).value = .ok (args, rest) ↔
      (∃ node, (rule tokens).value = .ok (node, rest) ∧ (peek rest).token ≠ .comma ∧
        args = [node]) ∨
      ∃ node comma middle more, (rule tokens).value = .ok (node, comma :: middle) ∧
        comma.token = .comma ∧ (arguments rule count middle).value = .ok (more, rest) ∧
        args = node :: more := by
  rw [arguments]
  simp only [Attempt.value_bind_ok, Prod.exists]
  constructor
  · rintro ⟨node, left, run, after⟩
    split at after
    · rename_i separates
      obtain ⟨comma, middle, rfl, same⟩ := (peek_eq (by simp)).mp separates
      simp only [Attempt.value_bind_ok, Attempt.value_pure, Except.ok.injEq, Prod.mk.injEq,
        Prod.exists] at after
      obtain ⟨more, _, others, rfl, rfl⟩ := after
      exact .inr ⟨node, comma, middle, more, run, same, others, rfl⟩
    · rename_i ends
      simp only [Attempt.value_pure, Except.ok.injEq, Prod.mk.injEq] at after
      obtain ⟨rfl, rfl⟩ := after
      exact .inl ⟨node, run, ends, rfl⟩
  · rintro (⟨node, run, ends, rfl⟩ | ⟨node, comma, middle, more, run, same, others, rfl⟩)
    · exact ⟨node, rest, run, by simp [ends]⟩
    · exact ⟨node, _, run, by simp [same, others]⟩

theorem named_ok {position : Nat} {result : Except BadSymbol Node} :
    (named position result).value = .ok node ↔ result = .ok node := by
  cases result <;> simp [named]

theorem sign?_eq_some {token : Token} {sign : Sign} :
    sign? token = some sign ↔ token = sign.token := by
  unfold sign?
  split <;> cases sign <;> simp_all [Sign.token]

theorem value_link (operator : Operator) (tokens : List Lexeme) (operand : Parsed (Reading Node)) :
    (link operator tokens operand).value =
      match operand.value with
      | .ok (node, rest) => .ok (some node, rest)
      | .error error => if error.isMismatch then .ok (none, tokens) else .error error := by
  unfold link
  rw [Attempt.value_recover, Attempt.value_bind]
  cases operand.value with
  | ok reading => rfl
  | error error =>
    simp only [Except.bind]
    split
    · rfl
    · rfl

theorem operand_zero (limit : Nat) : operand limit 0 = signedOperand limit none := rfl

theorem operand_succ (limit budget : Nat) :
    operand limit (budget + 1) = signedOperand limit (some (expression limit budget)) := rfl

theorem value_links_zero (limit : Nat) (tokens : List Lexeme) :
    (links limit 0 tokens).value =
      match (peek tokens).token.operator? with
      | none => .ok ([], tokens)
      | some _ => .error ⟨(peek tokens).first.char, .tooDeep limit⟩ := by
  rw [links]
  cases (peek tokens).token.operator? <;> rfl

theorem value_links_succ (limit budget : Nat) (tokens : List Lexeme) :
    (links limit (budget + 1) tokens).value =
      match (peek tokens).token.operator? with
      | none => .ok ([], tokens)
      | some operator =>
        match (operand limit budget tokens.tail).value with
        | .ok (node, middle) =>
          (links limit budget middle).value.map fun more => ((operator, node) :: more.1, more.2)
        | .error error => if error.isMismatch then .ok ([], tokens) else .error error := by
  rw [links]
  cases (peek tokens).token.operator? with
  | none => rfl
  | some operator =>
    simp only [Attempt.value_bind, value_link]
    cases (operand limit budget tokens.tail).value with
    | ok reading =>
      simp only [Except.bind, Attempt.value_bind]
      cases (links limit budget reading.2).value <;> rfl
    | error error =>
      by_cases givenBack : error.isMismatch
      · simp only [givenBack, ↓reduceIte, Except.bind, Attempt.value_pure]
      · simp only [givenBack, Bool.false_eq_true, ↓reduceIte, Except.bind]

theorem chained_ok {operand : Rule Node} {links : Rule (List (Operator × Node))} :
    (chained operand links tokens).value = .ok (node, rest) ↔
      ∃ first middle found, (operand tokens).value = .ok (first, middle) ∧
        (links middle).value = .ok (found, rest) ∧ node = Node.ofChain first found := by
  unfold chained
  simp only [Attempt.value_bind_ok, Prod.exists]
  constructor
  · rintro ⟨first, middle, run, found, left, more, final⟩
    refine ⟨first, middle, found, run, ?_⟩
    cases found with
    | nil =>
      simp only [List.isEmpty_nil, ↓reduceIte, Attempt.value_pure, Except.ok.injEq,
        Prod.mk.injEq] at final
      obtain ⟨rfl, rfl⟩ := final
      exact ⟨more, rfl⟩
    | cons link found =>
      simp at final
      obtain ⟨rfl, rfl⟩ := final
      exact ⟨more, rfl⟩
  · rintro ⟨first, middle, found, run, more, rfl⟩
    refine ⟨first, middle, run, found, rest, more, ?_⟩
    cases found <;> rfl

theorem chained_error {operand : Rule Node} {links : Rule (List (Operator × Node))}
    {error : ParseError} (run : (chained operand links tokens).value = .error error) :
    (operand tokens).value = .error error ∨
      ∃ first middle, (operand tokens).value = .ok (first, middle) ∧
        (links middle).value = .error error := by
  unfold chained at run
  simp only [Attempt.value_bind_error, Prod.exists] at run
  rcases run with head | ⟨first, middle, head, tail | ⟨found, rest, _, final⟩⟩
  · exact .inl head
  · exact .inr ⟨first, middle, head, tail⟩
  · cases found <;> simp at final

def afterEquals (tokens : List Lexeme) : List Lexeme :=
  if (peek tokens).token = .equals then tokens.tail else tokens

theorem line_eq (limit : Nat) (tokens : List Lexeme) :
    line limit tokens = (do
      let (node, rest) ← expression limit limit tokens
      if (peek (afterEquals rest)).token = .eof then return node
      else failAt (afterEquals rest) (.trailing (peek (afterEquals rest)).token)) := rfl

theorem line_ok {node : Node} :
    (line limit tokens).value = .ok node ↔
      ∃ rest, (expression limit limit tokens).value = .ok (node, rest) ∧
        (peek (afterEquals rest)).token = .eof := by
  simp only [line_eq, Attempt.value_bind_ok, Prod.exists]
  constructor
  · intro run
    obtain ⟨found, rest, read, ends⟩ := run
    by_cases last : (peek (afterEquals rest)).token = .eof
    · obtain rfl : found = node := by simpa [last] using ends
      exact ⟨rest, read, last⟩
    · simp [last] at ends
  · intro run
    obtain ⟨rest, read, last⟩ := run
    exact ⟨node, rest, read, by simp [last]⟩

theorem line_error {error : ParseError} :
    (line limit tokens).value = .error error ↔
      (expression limit limit tokens).value = .error error ∨
      ∃ node rest, (expression limit limit tokens).value = .ok (node, rest) ∧
        (peek (afterEquals rest)).token ≠ .eof ∧
        error = ⟨(peek (afterEquals rest)).first.char,
          .trailing (peek (afterEquals rest)).token⟩ := by
  simp only [line_eq, Attempt.value_bind_error, Prod.exists]
  refine or_congr Iff.rfl ?_
  constructor
  · intro run
    obtain ⟨node, rest, read, ends⟩ := run
    by_cases last : (peek (afterEquals rest)).token = .eof
    · simp [last] at ends
    · exact ⟨node, rest, read, last, by simpa [last] using ends.symm⟩
  · intro run
    obtain ⟨node, rest, read, more, rfl⟩ := run
    exact ⟨node, rest, read, by simp [more]⟩

end Reckon.Parse
