import Reckon.Parse.Descent
import Reckon.Proofs.Acceptance
import Reckon.Proofs.Numerals

/-
Separators end tokens.  What stands before one is read as if the text ended there, so texts of
tokens with blanks between them are cut where the blanks are.
-/
namespace Reckon

def Token.text : Token → List Char
  | .eof => []
  | .openParen => ['(']
  | .closeParen => [')']
  | .comma => [',']
  | .equals => ['=']
  | .operator op => op.symbol.toList
  | .identifier name => name.toList
  | .number raw => raw.toList
  | .unknown c => [c]

def spaced : List Token → List Char
  | [] => []
  | [last] => last.text
  | token :: others => token.text ++ ' ' :: spaced others

namespace Lexer
open Text

variable {text after : List Char} {c : Char}

theorem toNat_of_isBlank (blank : isBlank c) : c.toNat ≤ 32 ∨ 133 ≤ c.toNat := by
  simp only [isBlank, Bool.or_eq_true, Bool.and_eq_true, decide_eq_true_eq, beq_iff_eq] at blank
  omega

theorem toNat_of_isWordChar (word : isWordChar c) : 48 ≤ c.toNat ∧ c.toNat ≤ 122 := by
  simp only [isWordChar, isLetter, isCapital, isDigit, Bool.or_eq_true, Bool.and_eq_true,
    decide_eq_true_eq, beq_iff_eq, Char.le_def, UInt32.le_iff_toNat_le] at word
  change 48 ≤ c.val.toNat ∧ c.val.toNat ≤ 122
  rcases word with (lower | upper | rfl) | digit
  · exact ⟨Nat.le_trans (by decide) lower.1, lower.2⟩
  · exact ⟨Nat.le_trans (by decide) upper.1, Nat.le_trans upper.2 (by decide)⟩
  · decide
  · exact ⟨digit.1, Nat.le_trans digit.2 (by decide)⟩

theorem isWordChar_of_isBlank (blank : isBlank c) : isWordChar c = false := by
  have place := toNat_of_isBlank blank
  cases word : isWordChar c with
  | false => rfl
  | true =>
    have range := toNat_of_isWordChar word
    omega

theorem isDigit_of_isBlank (blank : isBlank c) : isDigit c = false := by
  have word := isWordChar_of_isBlank blank
  simp only [isWordChar, Bool.or_eq_false_iff] at word
  exact word.2

theorem ne_of_class {p : Char → Bool} (mark : Char) (inside : p c) (outside : p mark = false) :
    c ≠ mark := by
  intro same
  rw [same, outside] at inside
  exact absurd inside (by decide)

def isSeparator (c : Char) : Bool :=
  !isWordChar c && c != '.' && c != '+' && c != '-' && c != '*'

theorem isSeparator_of_isBlank (blank : isBlank c) : isSeparator c := by
  simp [isSeparator, isWordChar_of_isBlank blank, ne_of_class '.' blank (by decide),
    ne_of_class '+' blank (by decide), ne_of_class '-' blank (by decide),
    ne_of_class '*' blank (by decide)]

theorem isWordChar_of_isSeparator (separates : isSeparator c) : isWordChar c = false := by
  simp only [isSeparator, Bool.and_eq_true, Bool.not_eq_true'] at separates
  exact separates.1.1.1.1

theorem isDigit_of_isSeparator (separates : isSeparator c) : isDigit c = false := by
  have word := isWordChar_of_isSeparator separates
  simp only [isWordChar, Bool.or_eq_false_iff] at word
  exact word.2

def Apart (after : List Char) : Prop := ∀ c, after.head? = some c → isSeparator c

theorem apart_cons (separates : isSeparator c) (after : List Char) : Apart (c :: after) := by
  intro d head
  obtain rfl : c = d := by simpa using head
  exact separates

theorem takeWhile_apart {p : Char → Bool} (apart : Apart after)
    (out : ∀ c, isSeparator c → p c = false) :
    (text ++ after).takeWhile p = text.takeWhile p := by
  have stops : after.takeWhile p = [] := takeWhile_ends fun c head => out c (apart c head)
  rw [List.takeWhile_append, stops, List.append_nil]
  split
  · rename_i whole
    exact ((List.takeWhile_prefix p).eq_of_length whole).symm
  · rfl

theorem takeWhile_digit_apart (apart : Apart after) :
    (text ++ after).takeWhile isDigit = text.takeWhile isDigit :=
  takeWhile_apart apart fun _ => isDigit_of_isSeparator

theorem startsWithDigit_apart (apart : Apart after) :
    startsWithDigit (text ++ after) = startsWithDigit text := by
  rw [Bool.eq_iff_iff, startsWithDigit_iff, startsWithDigit_iff, takeWhile_digit_apart apart]

theorem fraction_apart (apart : Apart after) : fraction (text ++ after) = fraction text := by
  cases text with
  | nil =>
    cases after with
    | nil => rfl
    | cons c rest =>
      have other := ne_of_class '.' (apart c rfl) (by decide)
      unfold fraction
      split
      · rename_i same
        exact absurd (List.cons.inj same).1 other
      · rfl
  | cons c rest =>
    by_cases point : c = '.'
    · subst point
      simp only [List.cons_append, fraction, startsWithDigit_apart apart,
        takeWhile_digit_apart apart]
    · simp [fraction, point]

theorem signedDigits_apart (apart : Apart after) :
    signedDigits (text ++ after) = signedDigits text := by
  cases text with
  | nil =>
    cases after with
    | nil => rfl
    | cons c rest =>
      have separates := apart c rfl
      have plus := ne_of_class '+' separates (by decide)
      have minus := ne_of_class '-' separates (by decide)
      simp [signedDigits, isDigit_of_isSeparator separates, plus, minus]
  | cons c rest =>
    simp only [List.cons_append, signedDigits, startsWithDigit_apart apart,
      takeWhile_digit_apart apart]

theorem exponent_apart {marker : Char} (apart : Apart after) (joins : isSeparator marker = false) :
    exponent marker (text ++ after) = exponent marker text := by
  cases text with
  | nil =>
    cases after with
    | nil => rfl
    | cons c rest => exact exponent_other (ne_of_class marker (apart c rfl) joins) rest
  | cons c rest => simp only [List.cons_append, exponent, signedDigits_apart apart]

theorem number_apart (apart : Apart after) : number (text ++ after) = number text := by
  have front : mantissa (text ++ after) = mantissa text := by
    have whole : (text.takeWhile isDigit).length ≤ text.length :=
      (List.takeWhile_prefix isDigit).length_le
    unfold mantissa
    rw [takeWhile_digit_apart apart, List.drop_append_of_le_length whole, fraction_apart apart]
  rw [number_eq, number_eq, front]
  rw [List.drop_append_of_le_length (mantissa_isPrefix text).length_le]
  generalize text.drop (mantissa text).length = rest
  unfold exponents
  rw [exponent_apart apart (by decide)]
  rw [List.drop_append_of_le_length (exponent_isPrefix 'e' rest).length_le]
  rw [exponent_apart apart (by decide)]

theorem startsNumber_apart (apart : Apart after) :
    startsNumber (c :: text ++ after) = startsNumber (c :: text) := by
  by_cases point : c = '.'
  · subst point
    exact startsWithDigit_apart apart
  · simp [startsNumber, point, startsWithDigit]

/-- What a separator starts has no part in the token before it. -/
theorem token_apart (apart : Apart after) : token c (text ++ after) = token c text := by
  have starts : startsNumber (c :: (text ++ after)) = startsNumber (c :: text) :=
    startsNumber_apart apart
  have raw : number (c :: (text ++ after)) = number (c :: text) := by
    rw [← List.cons_append, number_apart apart]
  have word : (text ++ after).takeWhile isWordChar = text.takeWhile isWordChar :=
    takeWhile_apart apart fun _ => isWordChar_of_isSeparator
  have star : (text ++ after).head? = some '*' ↔ text.head? = some '*' := by
    cases text with
    | nil =>
      simp only [List.nil_append, List.head?_nil, reduceCtorEq, iff_false]
      intro head
      exact absurd (apart '*' head) (by decide)
    | cons d rest => simp
  simp only [token, starts, raw, word, star]

/-- A token whose text is read as this token, if a separator or nothing follows. -/
def Word (word : Token) : Prop :=
  ∃ c more, word.text = c :: more ∧ isBlank c = false ∧ token c more = (word, more)

theorem isLetter_of_isDigit (digit : isDigit c) : isLetter c = false := by
  simp only [isDigit, Bool.and_eq_true, decide_eq_true_eq, Char.le_def, UInt32.le_iff_toNat_le]
    at digit
  have last : c.toNat ≤ 57 := digit.2
  have line : c ≠ '_' := by
    intro same
    rw [same] at last
    exact absurd last (by decide)
  have lower : ¬ 97 ≤ c.toNat := by omega
  have upper : ¬ 65 ≤ c.toNat := by omega
  simp [isLetter, isCapital, Char.le_def, UInt32.le_iff_toNat_le, line, lower, upper]

theorem isBlank_of_isDigit (digit : isDigit c) : isBlank c = false := by
  cases blank : isBlank c with
  | false => rfl
  | true => simp [isDigit_of_isBlank blank] at digit

theorem word_number {raw : String} (numeral : Numeral raw.toList) : Word (.number raw) := by
  have starts := numeral.startsNumber
  have whole := numeral.number_eq
  have same : String.ofList raw.toList = raw := String.ofList_toList
  cases spelled : raw.toList with
  | nil => simp [spelled, startsNumber, startsWithDigit] at starts
  | cons c more =>
    rw [spelled] at starts whole same
    have visible : isBlank c = false ∧ isLetter c = false := by
      by_cases point : c = '.'
      · subst point
        decide
      · have digit : isDigit c := by simpa [startsNumber, point, startsWithDigit] using starts
        exact ⟨isBlank_of_isDigit digit, isLetter_of_isDigit digit⟩
    refine ⟨c, more, spelled, visible.1, ?_⟩
    simp [token, visible.2, starts, whole, same]

theorem word_constant (symbol : Constant) : Word (.identifier symbol.name) := by
  cases symbol <;> exact ⟨_, _, rfl, by decide, by decide⟩

theorem word_function (function : Function) : Word (.identifier function.name) := by
  cases function <;> exact ⟨_, _, rfl, by decide, by decide⟩

theorem word_operator (operator : Operator) : Word (.operator operator) := by
  cases operator <;> exact ⟨_, _, rfl, by decide, by decide⟩

theorem word_openParen : Word .openParen := ⟨_, _, rfl, by decide, by decide⟩

theorem word_closeParen : Word .closeParen := ⟨_, _, rfl, by decide, by decide⟩

theorem word_comma : Word .comma := ⟨_, _, rfl, by decide, by decide⟩

theorem dropWhile_spaced {tokens : List Token} (words : ∀ token ∈ tokens, Word token) :
    (spaced tokens).dropWhile isBlank = spaced tokens := by
  cases tokens with
  | nil => rfl
  | cons first others =>
    obtain ⟨c, more, spelled, visible, _⟩ := words first (by simp)
    cases others with
    | nil => simp [spaced, spelled, visible]
    | cons second others => simp [spaced, spelled, visible]

theorem spaced_cons (first : Token) {others : List Token} (words : ∀ token ∈ others, Word token) :
    ∃ after, spaced (first :: others) = first.text ++ after ∧ Apart after ∧
      after.dropWhile isBlank = spaced others := by
  cases others with
  | nil => exact ⟨[], by simp [spaced], by simp [Apart], rfl⟩
  | cons second others =>
    refine ⟨' ' :: spaced (second :: others), rfl, apart_cons (by decide) _, ?_⟩
    have space : isBlank ' ' := by decide
    rw [List.dropWhile_cons, if_pos space, dropWhile_spaced words]

theorem token_ne_eof (c : Char) (rest : List Char) : (token c rest).1 ≠ .eof := by
  have marked : mark c ≠ .eof := by
    unfold mark
    split <;> simp
  unfold token
  dsimp only
  split
  · simp
  · split
    · simp
    · split
      · simp
      · exact marked

theorem numeral_of_token {c : Char} {rest more : List Char} {raw : String}
    (read : token c rest = (.number raw, more)) : Numeral raw.toList := by
  have unmarked : mark c ≠ .number raw := by
    unfold mark
    split <;> simp
  unfold token at read
  dsimp only at read
  split at read
  · simp at read
  · split at read
    · rename_i starts
      obtain rfl : String.ofList (number (c :: rest)) = raw := by
        simpa using congrArg Prod.fst read
      rw [String.toList_ofList]
      exact numeral_number starts
    · split at read
      · simp at read
      · exact absurd (congrArg Prod.fst read) unmarked

end Lexer

namespace Cursor
open Text Lexer

theorem next_end {cursor : Cursor} (blank : cursor.rest.dropWhile isBlank = []) :
    cursor.next.1.token = .eof := by
  simp [next, skipBlanks, read, blank]

theorem next_cons {cursor : Cursor} {c : Char} {rest : List Char}
    (visible : cursor.rest.dropWhile isBlank = c :: rest) :
    cursor.next.1.token = (token c rest).1 ∧
      cursor.next.2.rest = rest.drop (token c rest).2.length := by
  simp [next, skipBlanks, read, visible]

theorem next_word {cursor : Cursor} {word : Token} {after : List Char} (reads : Word word)
    (apart : Apart after) (front : cursor.rest.dropWhile isBlank = word.text ++ after) :
    cursor.next.1.token = word ∧ cursor.next.2.rest = after := by
  obtain ⟨c, more, spelled, _, same⟩ := reads
  rw [spelled, List.cons_append] at front
  obtain ⟨first, second⟩ := next_cons front
  rw [token_apart apart, same] at first second
  exact ⟨first, by rw [second, List.drop_left]⟩

theorem lexemes_eof {cursor : Cursor} (ends : cursor.next.1.token = .eof) :
    cursor.lexemes = [cursor.next.1] := by
  rw [lexemes, dif_pos ends]

theorem lexemes_cons {cursor : Cursor} (more : cursor.next.1.token ≠ .eof) :
    cursor.lexemes = cursor.next.1 :: cursor.next.2.lexemes := by
  rw [lexemes, dif_neg more]

/-- Where texts of tokens are separated by spaces, exactly these tokens are read. -/
theorem unplaced_lexemes_spaced {tokens : List Token} (words : ∀ token ∈ tokens, Word token)
    (cursor : Cursor) (front : cursor.rest.dropWhile isBlank = spaced tokens) :
    Parse.unplaced cursor.lexemes = tokens ++ [.eof] := by
  induction tokens generalizing cursor with
  | nil =>
    have ends := next_end front
    simp [lexemes_eof ends, ends]
  | cons first others ih =>
    obtain ⟨reads, words⟩ := List.forall_mem_cons.mp words
    obtain ⟨after, spelled, apart, visible⟩ := spaced_cons first words
    obtain ⟨here, rest⟩ := next_word reads apart (front.trans spelled)
    have more : cursor.next.1.token ≠ .eof := by
      obtain ⟨c, more, _, _, same⟩ := reads
      have other := token_ne_eof c more
      rw [same] at other
      rwa [here]
    rw [lexemes_cons more, Parse.unplaced_cons, here, ih words _ (by rw [rest, visible])]
    rfl

theorem endsOnce_lexemes (cursor : Cursor) : Parse.EndsOnce cursor.lexemes := by
  fun_induction lexemes cursor with
  | case1 cursor ends => exact ⟨[], _, rfl, ends, by simp⟩
  | case2 cursor more ih =>
    obtain ⟨body, last, spelled, ends, clean⟩ := ih
    exact ⟨_ :: body, last, by rw [spelled]; rfl, ends, List.forall_mem_cons.mpr ⟨more, clean⟩⟩

theorem numeral_of_lexemes {cursor : Cursor} {raw : String}
    (mem : .number raw ∈ Parse.unplaced cursor.lexemes) : Numeral raw.toList := by
  fun_induction lexemes cursor with
  | case1 cursor ends => simp [ends] at mem
  | case2 cursor more ih =>
    rw [Parse.unplaced_cons, List.mem_cons] at mem
    rcases mem with here | later
    · cases front : cursor.rest.dropWhile isBlank with
      | nil => exact absurd (next_end front) more
      | cons c rest =>
        have read := (next_cons front).1
        rw [← here] at read
        exact numeral_of_token (Prod.ext read.symm rfl)
    · exact ih later

end Cursor
end Reckon
