import Reckon.Proofs.Joining
import Reckon.Proofs.Placeless

/-
Blanks separate tokens and do nothing else.  A text with a gap in it has the tokens of what stands
before the gap and of what comes after it; how long the gap is, and what blanks it consists of, only
moves the latter.
-/
namespace Reckon
open Text

variable {before after gap other first second : List Char} {limit : Nat}

def Place.shift (origin place : Place) : Place :=
  ⟨origin.byte + place.byte, origin.char + place.char⟩

theorem Place.shift_advance (origin place : Place) (text : List Char) :
    (origin.shift place).advance text = origin.shift (place.advance text) := by
  induction text generalizing place with
  | nil => rfl
  | cons c rest ih =>
    have step : (origin.shift place).step c = origin.shift (place.step c) := by
      simp only [Place.step, Place.shift, Nat.add_assoc]
    rw [Place.advance, List.foldl_cons, step]
    exact ih (place.step c)

def Lexeme.shift (origin : Place) (lexeme : Lexeme) : Lexeme :=
  ⟨lexeme.token, origin.shift lexeme.first, origin.shift lexeme.last⟩

namespace Cursor

def shift (origin : Place) (cursor : Cursor) : Cursor := ⟨cursor.rest, origin.shift cursor.place⟩

theorem next_shift (origin : Place) (cursor : Cursor) :
    (cursor.shift origin).next = (cursor.next.1.shift origin, cursor.next.2.shift origin) := by
  unfold next skipBlanks read shift
  dsimp only
  split
  · simp only [Place.shift_advance, Lexeme.shift]
  · simp only [Place.shift_advance, Lexeme.shift]

theorem lexemes_shift (origin : Place) (cursor : Cursor) :
    (cursor.shift origin).lexemes = cursor.lexemes.map (Lexeme.shift origin) := by
  have step := next_shift origin cursor
  fun_induction lexemes cursor with
  | case1 cursor ends =>
    rw [lexemes_eof (by rw [step]; exact ends), step]
    rfl
  | case2 cursor more ih =>
    rw [lexemes_cons (by rw [step]; exact more), step, List.map_cons, ih (next_shift origin _)]

end Cursor

theorem Lexer.apart_of_gap (blank : ∀ c ∈ gap, isBlank c) (some : gap ≠ []) (after : List Char) :
    Lexer.Apart (gap ++ after) := by
  obtain ⟨c, rest, rfl⟩ := List.exists_cons_of_ne_nil some
  exact apart_cons (isSeparator_of_isBlank (blank c List.mem_cons_self)) _

theorem lexemes_gap (blank : ∀ c ∈ gap, isBlank c) (some : gap ≠ []) (before after : List Char) :
    lexemes (before ++ gap ++ after) = (lexemes before).dropLast ++
      (lexemes after).map (Lexeme.shift (Place.start.advance (before ++ gap))) := by
  have moved : Cursor.lexemes ⟨gap ++ after, Place.start.advance before⟩ =
      ((Cursor.ofText after).shift (Place.start.advance (before ++ gap))).lexemes := by
    apply Cursor.lexemes_congr
    rw [Cursor.next_blank blank, ← Place.advance_append]
    rfl
  rw [lexemes, Cursor.ofText, List.append_assoc,
    Cursor.lexemes_append (Lexer.apart_of_gap blank some after), moved, Cursor.lexemes_shift]
  rfl

theorem tokensOf_front (blank : ∀ c ∈ gap, isBlank c) (after : List Char) :
    tokensOf (gap ++ after) = tokensOf after :=
  tokensOf_congr (List.dropWhile_append_of_pos blank)

theorem tokensOf_gap (blank : ∀ c ∈ gap, isBlank c) (some : gap ≠ []) (before after : List Char) :
    tokensOf (before ++ gap ++ after) = bodyOf before ++ tokensOf after := by
  rw [List.append_assoc, tokensOf_append (Lexer.apart_of_gap blank some after),
    tokensOf_front blank, bodyOf]

theorem tokensOf_back (blank : ∀ c ∈ gap, isBlank c) (before : List Char) :
    tokensOf (before ++ gap) = tokensOf before := by
  by_cases none : gap = []
  · rw [none, List.append_nil]
  · have split := tokensOf_gap blank none before []
    rw [List.append_nil, tokensOf_nil] at split
    rw [split, tokensOf_eq before]

def Parse.outcome (limit : Nat) (source : List Char) : Except ParseCause Node :=
  (text limit source).value.mapError ParseError.cause

theorem Parse.outcome_congr (limit : Nat) (same : tokensOf first = tokensOf second) :
    outcome limit first = outcome limit second := by
  have alike : Alike Eq (text limit first).value (text limit second).value :=
    alike_line limit same
  unfold outcome
  generalize (text limit first).value = one at alike
  generalize (text limit second).value = two at alike
  cases alike with
  | ok same => rw [same]
  | error position other cause => rfl

/-- A gap separates what stands before it from what comes after it.  Another gap in its place, and
blanks at an end of the text, change neither the tree nor the cause of an error. -/
theorem gap_separates (before after : List Char) {gap : List Char} (blank : ∀ c ∈ gap, isBlank c)
    (some : gap ≠ []) :
    (∃ body, lexemes before = body ++ [Lexeme.ending before] ∧
      lexemes (before ++ gap ++ after) = body ++ (lexemes after).map (Lexeme.shift
        ⟨(String.ofList (before ++ gap)).utf8ByteSize, (before ++ gap).length⟩)) ∧
      ∀ limit,
        (∀ other, (∀ c ∈ other, isBlank c) → other ≠ [] →
          Parse.outcome limit (before ++ other ++ after) =
            Parse.outcome limit (before ++ gap ++ after)) ∧
        Parse.outcome limit (gap ++ after) = Parse.outcome limit after ∧
        Parse.outcome limit (before ++ gap) = Parse.outcome limit before := by
  constructor
  · have cut : Cut [] before (lexemes before) := (Cursor.ofText before).cut_lexemes [] rfl
    obtain ⟨body, whole, -⟩ := cut.ending
    rw [List.nil_append] at whole
    have split := lexemes_gap blank some before after
    rw [whole, List.dropLast_concat, Place.start_advance] at split
    exact ⟨body, whole, split⟩
  · intro limit
    refine ⟨?_, Parse.outcome_congr limit (tokensOf_front blank after),
      Parse.outcome_congr limit (tokensOf_back blank before)⟩
    intro other empty visible
    apply Parse.outcome_congr
    rw [tokensOf_gap empty visible, tokensOf_gap blank some]

theorem cutExponent_separated :
    (∀ c ∈ [' '], isBlank c) ∧ [' '] ≠ [] ∧
      (∃ body, lexemes "2e".toList = body ++ [Lexeme.ending "2e".toList] ∧
        lexemes "2e 5".toList =
          body ++ [⟨.number "5", ⟨3, 3⟩, ⟨3, 3⟩⟩, ⟨.eof, ⟨4, 4⟩, ⟨4, 4⟩⟩]) ∧
      Parse.outcome 9 "2e\t\u30005".toList = Parse.outcome 9 "2e 5".toList := by
  have blank : ∀ c ∈ [' '], isBlank c := List.all_eq_true.mp rfl
  obtain ⟨split, same⟩ := gap_separates "2e".toList "5".toList blank (by simp)
  have five : lexemes "5".toList = [⟨.number "5", ⟨0, 0⟩, ⟨0, 0⟩⟩, ⟨.eof, ⟨1, 1⟩, ⟨1, 1⟩⟩] := by
    decide +kernel
  have origin : (String.ofList ("2e".toList ++ [' '])).utf8ByteSize = 3 := by decide
  rw [five, origin] at split
  exact ⟨blank, by simp, split, (same 9).1 ['\t', '\u3000'] (List.all_eq_true.mp rfl) (by simp)⟩

end Reckon
