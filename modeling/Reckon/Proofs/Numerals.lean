import Mathlib.Data.List.TakeWhile
import Reckon.Token.Lexer

/-
The written form of numbers, and that the number read from the front of a text is its longest
prefix of this form:

  numeral  := mantissa ['e' ['+' | '-'] digits] ['p' ['+' | '-'] digits]
  mantissa := digits ['.' digits] | '.' digits
-/
namespace Reckon.Lexer
open Text

def Digits (text : List Char) : Prop := text ≠ [] ∧ ∀ c ∈ text, isDigit c

theorem digits_of_all {text : List Char} (some : text ≠ []) (all : text.all isDigit) :
    Digits text :=
  ⟨some, List.all_eq_true.mp all⟩

inductive Mantissa : List Char → Prop where
  | whole (digits : Digits text) : Mantissa text
  | point (places : Digits text) : Mantissa ('.' :: text)
  | decimal (digits : Digits text) (places : Digits more) : Mantissa (text ++ '.' :: more)

inductive Exponent (marker : Char) : List Char → Prop where
  | none : Exponent marker []
  | plain (digits : Digits text) : Exponent marker (marker :: text)
  | signed (sign : c = '+' ∨ c = '-') (digits : Digits text) : Exponent marker (marker :: c :: text)

inductive Numeral (text : List Char) : Prop where
  | intro (front decimal binary : List Char) (mantissa : Mantissa front)
      (tens : Exponent 'e' decimal) (twos : Exponent 'p' binary)
      (parts : text = front ++ decimal ++ binary)

def Ends (p : Char → Bool) (text : List Char) : Prop := ∀ c, text.head? = some c → p c = false

theorem takeWhile_ends {p : Char → Bool} {text : List Char} (ends : Ends p text) :
    text.takeWhile p = [] := by
  cases text with
  | nil => rfl
  | cons c rest => simp [ends c rfl]

theorem Digits.takeWhile_append (digits : Digits text) (after : List Char) :
    (text ++ after).takeWhile isDigit = text ++ after.takeWhile isDigit :=
  List.takeWhile_append_of_pos digits.2

theorem startsWithDigit_iff {text : List Char} :
    startsWithDigit text ↔ text.takeWhile isDigit ≠ [] := by
  cases text with
  | nil => simp [startsWithDigit]
  | cons c rest => by_cases digit : isDigit c <;> simp [startsWithDigit, digit]

theorem digits_takeWhile {text : List Char} (starts : startsWithDigit text) :
    Digits (text.takeWhile isDigit) :=
  ⟨startsWithDigit_iff.mp starts, fun _ => List.mem_takeWhile_imp⟩

theorem Digits.startsWithDigit (digits : Digits text) (after : List Char) :
    startsWithDigit (text ++ after) := by
  rw [startsWithDigit_iff, digits.takeWhile_append]
  simp [digits.1]

theorem prefix_append_of_drop {front next text : List Char} (first : front <+: text)
    (second : next <+: text.drop front.length) : front ++ next <+: text := by
  obtain ⟨rest, rfl⟩ := first
  rw [List.drop_left] at second
  exact List.prefix_append_right_inj front |>.mpr second

theorem fraction_isPrefix (text : List Char) : fraction text <+: text := by
  unfold fraction
  split
  · split
    · exact List.cons_prefix_cons.mpr ⟨rfl, List.takeWhile_prefix _⟩
    · exact List.nil_prefix
  · exact List.nil_prefix

theorem signedDigits_isPrefix (text : List Char) : signedDigits text <+: text := by
  unfold signedDigits
  split
  · exact List.nil_prefix
  · split
    · exact List.cons_prefix_cons.mpr ⟨rfl, List.takeWhile_prefix _⟩
    · split
      · exact List.cons_prefix_cons.mpr ⟨rfl, List.takeWhile_prefix _⟩
      · exact List.nil_prefix

theorem exponent_isPrefix (marker : Char) (text : List Char) : exponent marker text <+: text := by
  unfold exponent
  split
  · exact List.nil_prefix
  · split
    · exact List.cons_prefix_cons.mpr ⟨rfl, signedDigits_isPrefix _⟩
    · exact List.nil_prefix

def mantissa (text : List Char) : List Char :=
  text.takeWhile isDigit ++ fraction (text.drop (text.takeWhile isDigit).length)

theorem mantissa_isPrefix (text : List Char) : mantissa text <+: text :=
  prefix_append_of_drop (List.takeWhile_prefix _) (fraction_isPrefix _)

def exponents (text : List Char) : List Char :=
  exponent 'e' text ++ exponent 'p' (text.drop (exponent 'e' text).length)

theorem exponents_isPrefix (text : List Char) : exponents text <+: text :=
  prefix_append_of_drop (exponent_isPrefix 'e' _) (exponent_isPrefix 'p' _)

theorem number_eq (text : List Char) :
    number text = mantissa text ++ exponents (text.drop (mantissa text).length) := by
  unfold number mantissa exponents
  simp only [List.append_assoc, List.length_append, List.drop_drop]

theorem number_isPrefix (text : List Char) : number text <+: text := by
  rw [number_eq]
  exact prefix_append_of_drop (mantissa_isPrefix _) (exponents_isPrefix _)

theorem mantissa_form {text : List Char} (starts : startsNumber text) :
    Mantissa (mantissa text) := by
  unfold mantissa
  by_cases digit : startsWithDigit text
  · have whole := digits_takeWhile digit
    unfold fraction
    split
    · split
      · rename_i places
        exact .decimal whole (digits_takeWhile places)
      · simpa using Mantissa.whole whole
    · simpa using Mantissa.whole whole
  · unfold startsNumber at starts
    split at starts
    · rename_i rest
      have none : isDigit '.' = false := by decide
      simp only [List.takeWhile_cons, none, Bool.false_eq_true, ↓reduceIte, List.length_nil,
        List.drop_zero, List.nil_append, fraction, starts]
      exact .point (digits_takeWhile starts)
    · exact absurd starts digit

theorem signedDigits_form {text : List Char} (some : signedDigits text ≠ []) :
    Exponent marker (marker :: signedDigits text) := by
  unfold signedDigits at *
  split at some
  · simp at some
  · rename_i c rest
    by_cases digit : isDigit c
    · simp only [digit, ↓reduceIte]
      have whole : Digits ((c :: rest).takeWhile isDigit) := digits_takeWhile digit
      rw [List.takeWhile_cons, if_pos digit] at whole
      exact .plain whole
    · simp only [digit, Bool.false_eq_true, ↓reduceIte] at some ⊢
      by_cases sign : (c = '+' ∨ c = '-') ∧ startsWithDigit rest
      · rw [if_pos sign]
        exact .signed sign.1 (digits_takeWhile sign.2)
      · simp [sign] at some

theorem exponent_form (marker : Char) (text : List Char) :
    Exponent marker (exponent marker text) := by
  unfold exponent
  split
  · exact .none
  · split
    · rename_i same
      rw [same.1]
      exact signedDigits_form same.2
    · exact .none

theorem numeral_number {text : List Char} (starts : startsNumber text) : Numeral (number text) := by
  rw [number_eq, exponents, ← List.append_assoc]
  exact .intro _ _ _ (mantissa_form starts) (exponent_form 'e' _) (exponent_form 'p' _) rfl

theorem signedDigits_digits (digits : Digits text) (after : List Char) :
    signedDigits (text ++ after) = text ++ after.takeWhile isDigit := by
  obtain ⟨some, all⟩ := digits
  cases text with
  | nil => exact absurd rfl some
  | cons c rest =>
    obtain ⟨digit, others⟩ := List.forall_mem_cons.mp all
    simp [signedDigits, digit, List.takeWhile_append_of_pos others]

theorem signedDigits_sign (sign : c = '+' ∨ c = '-') (digits : Digits text) (after : List Char) :
    signedDigits (c :: text ++ after) = c :: text ++ after.takeWhile isDigit := by
  have none : isDigit c = false := by
    rcases sign with rfl | rfl <;> decide
  simp [signedDigits, none, sign, digits.startsWithDigit after, digits.takeWhile_append]

theorem Exponent.read (form : Exponent marker text) (some : text ≠ []) (after : List Char) :
    exponent marker (text ++ after) = text ++ after.takeWhile isDigit := by
  cases form with
  | none => exact absurd rfl some
  | plain digits => simp [exponent, signedDigits_digits digits after, digits.1]
  | signed sign digits =>
    have read := signedDigits_sign sign digits after
    simp only [List.cons_append] at read
    simp [exponent, read]

theorem Exponent.marked (form : Exponent marker text) (some : text ≠ []) :
    ∃ rest, text = marker :: rest := by
  cases form with
  | none => exact absurd rfl some
  | plain _ => exact ⟨_, rfl⟩
  | signed _ _ => exact ⟨_, rfl⟩

theorem exponent_other {marker c : Char} (other : c ≠ marker) (rest : List Char) :
    exponent marker (c :: rest) = [] := by
  simp [exponent, other]

theorem exponents_longest (tens : Exponent 'e' decimal) (twos : Exponent 'p' binary)
    (after : List Char) : decimal ++ binary <+: exponents (decimal ++ binary ++ after) := by
  rw [List.append_assoc, exponents]
  by_cases bare : binary = []
  · subst bare
    by_cases flat : decimal = []
    · simp [flat]
    · rw [tens.read flat, List.append_nil, List.append_assoc]
      exact List.prefix_append _ _
  · obtain ⟨digits, marked⟩ := twos.marked bare
    have alone : exponent 'e' (decimal ++ (binary ++ after)) = decimal := by
      by_cases flat : decimal = []
      · rw [flat, marked]
        exact exponent_other (by decide) _
      · have stops : Ends isDigit (binary ++ after) := by
          intro c head
          obtain rfl : 'p' = c := by simpa [marked] using head
          decide
        rw [tens.read flat, takeWhile_ends stops, List.append_nil]
    rw [alone, List.drop_left, twos.read bare, ← List.append_assoc]
    exact List.prefix_append _ _

theorem Mantissa.read (form : Mantissa front) (after : List Char) :
    ∃ more, mantissa (front ++ after) = front ++ more ∧
      (Ends (fun c => isDigit c || c == '.') after → more = []) := by
  have stops : Ends (fun c => isDigit c || c == '.') after → after.takeWhile isDigit = [] := by
    intro ends
    apply takeWhile_ends
    intro c head
    have both := ends c head
    simp only [Bool.or_eq_false_iff] at both
    exact both.1
  have point : isDigit '.' = false := by decide
  cases form with
  | whole digits =>
    refine ⟨_, by rw [mantissa, digits.takeWhile_append, List.append_assoc], ?_⟩
    intro ends
    rw [stops ends, List.append_nil, List.drop_left, List.nil_append]
    cases after with
    | nil => rfl
    | cons c rest =>
      have both := ends c rfl
      simp only [Bool.or_eq_false_iff, beq_eq_false_iff_ne] at both
      unfold fraction
      split
      · rename_i same
        exact absurd (List.cons.inj same).1 both.2
      · rfl
  | point places =>
    refine ⟨after.takeWhile isDigit, ?_, stops⟩
    simp [mantissa, point, fraction, places.startsWithDigit after, places.takeWhile_append]
  | decimal digits places =>
    refine ⟨after.takeWhile isDigit, ?_, stops⟩
    simp [mantissa, digits.takeWhile_append, point, fraction, places.startsWithDigit after,
      places.takeWhile_append]

/-- No numeral at the front of a text is longer than the number that is read. -/
theorem number_longest (numeral : Numeral front) (after : List Char) :
    front <+: number (front ++ after) := by
  obtain ⟨front, decimal, binary, form, tens, twos, rfl⟩ := numeral
  obtain ⟨more, read, ends⟩ := form.read (decimal ++ binary ++ after)
  have spelled : front ++ decimal ++ binary ++ after = front ++ (decimal ++ binary ++ after) := by
    simp
  rw [spelled, number_eq, read]
  by_cases plain : decimal ++ binary = []
  · rw [List.append_assoc front, plain, List.append_nil, List.append_assoc]
    exact List.prefix_append _ _
  · have stops : Ends (fun c => isDigit c || c == '.') (decimal ++ binary ++ after) := by
      intro c head
      by_cases flat : decimal = []
      · rw [flat, List.nil_append] at plain head
        obtain ⟨digits, marked⟩ := twos.marked plain
        obtain rfl : 'p' = c := by simpa [marked] using head
        decide
      · obtain ⟨digits, marked⟩ := tens.marked flat
        obtain rfl : 'e' = c := by simpa [marked] using head
        decide
    rw [ends stops, List.append_nil, List.drop_left, List.append_assoc]
    exact (List.prefix_append_right_inj front).mpr (exponents_longest tens twos after)

theorem Numeral.number_eq (numeral : Numeral text) : number text = text := by
  have longest := number_longest numeral []
  rw [List.append_nil] at longest
  exact (number_isPrefix text).eq_of_length_le longest.length_le

theorem startsNumber_of_digit {text : List Char} (starts : startsWithDigit text) :
    startsNumber text := by
  unfold startsNumber
  split
  · have none : isDigit '.' = false := by decide
    simp [startsWithDigit, none] at starts
  · exact starts

theorem Numeral.startsNumber (numeral : Numeral text) : startsNumber text := by
  obtain ⟨front, decimal, binary, form, -, -, rfl⟩ := numeral
  cases form with
  | whole digits =>
    rw [List.append_assoc]
    exact startsNumber_of_digit (digits.startsWithDigit _)
  | point places =>
    rw [List.append_assoc]
    exact places.startsWithDigit _
  | decimal digits places =>
    rw [List.append_assoc, List.append_assoc]
    exact startsNumber_of_digit (digits.startsWithDigit _)

end Reckon.Lexer
