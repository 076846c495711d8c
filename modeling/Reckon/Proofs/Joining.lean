import Reckon.Proofs.Spans

/-
A text put together from two is cut into the lexemes of the first and those of the second, if the
second starts with a separator.  Tokens do not depend on where their text stands, nor on the blanks
before it.
-/
namespace Reckon
open Text

namespace Cursor
open Lexer

variable {before after : List Char} {place : Place}

def append (cursor : Cursor) (after : List Char) : Cursor := ⟨cursor.rest ++ after, cursor.place⟩

theorem next_place (cursor : Cursor) :
    cursor.next.2.place.advance cursor.next.2.rest = cursor.place.advance cursor.rest := by
  by_cases ends : cursor.next.1.token = .eof
  · rw [next_done (dropWhile_of_eof ends)]
    rfl
  · obtain ⟨gap, word, c, after, split, _, _, _, step⟩ := next_token ends
    rw [step, split, ← Place.advance_append]
    simp

theorem next_blank (blank : ∀ c ∈ before, isBlank c) :
    (⟨before ++ after, place⟩ : Cursor).next = (⟨after, place.advance before⟩ : Cursor).next := by
  simp [next, skipBlanks, List.dropWhile_append_of_pos blank, List.takeWhile_append_of_pos blank,
    Place.advance_append]

theorem read_append (apart : Apart after) {c : Char} (visible : isBlank c = false)
    (rest : List Char) (place : Place) :
    (⟨c :: rest ++ after, place⟩ : Cursor).read =
      ((⟨c :: rest, place⟩ : Cursor).read.1,
        (⟨c :: rest, place⟩ : Cursor).read.2.append after) := by
  have taken := (token_spec rest visible).2.1.length_le
  simp [read, append, token_apart apart, List.drop_append_of_le_length taken]

theorem next_append (apart : Apart after) (more : (⟨before, place⟩ : Cursor).next.1.token ≠ .eof) :
    (⟨before ++ after, place⟩ : Cursor).next =
      ((⟨before, place⟩ : Cursor).next.1, (⟨before, place⟩ : Cursor).next.2.append after) := by
  obtain ⟨gap, c, rest, rfl, blank, visible⟩ : ∃ gap c rest, before = gap ++ c :: rest ∧
      (∀ d ∈ gap, isBlank d) ∧ isBlank c = false := by
    cases front : before.dropWhile isBlank with
    | nil => exact absurd (next_end front) more
    | cons c rest =>
      refine ⟨before.takeWhile isBlank, c, rest, ?_, fun d => List.mem_takeWhile_imp,
        head_dropWhile front⟩
      rw [← front, List.takeWhile_append_dropWhile]
  have here (text : List Char) (place : Place) :
      (⟨c :: text, place⟩ : Cursor).next = (⟨c :: text, place⟩ : Cursor).read := by
    simp [next, skipBlanks, visible, Place.advance]
  rw [List.append_assoc, next_blank blank, next_blank blank, List.cons_append, here, here]
  exact read_append apart visible rest _

theorem lexemes_ne_nil (cursor : Cursor) : cursor.lexemes ≠ [] := by
  rw [lexemes]
  split <;> simp

theorem lexemes_congr {first second : Cursor} (same : first.next = second.next) :
    first.lexemes = second.lexemes := by
  by_cases ends : second.next.1.token = .eof
  · rw [lexemes_eof ends, lexemes_eof (same ▸ ends), same]
  · rw [lexemes_cons ends, lexemes_cons (same ▸ ends), same]

theorem lexemes_append (apart : Apart after) (before : List Char) (place : Place) :
    (⟨before ++ after, place⟩ : Cursor).lexemes =
      (⟨before, place⟩ : Cursor).lexemes.dropLast ++
        (⟨after, place.advance before⟩ : Cursor).lexemes := by
  generalize start : (⟨before, place⟩ : Cursor) = cursor
  fun_induction lexemes cursor generalizing before place with
  | case1 cursor ends =>
    subst start
    -- The first text is blank: its only lexeme is the end, which makes way for the second text.
    have blank := List.dropWhile_eq_nil_iff.mp (dropWhile_of_eof ends)
    exact lexemes_congr (next_blank blank)
  | case2 cursor more ih =>
    subst start
    have others := ih _ _ rfl
    rw [next_place] at others
    have step := next_append apart more
    rw [lexemes_cons (by rwa [step]), step, append, others,
      List.dropLast_cons_of_ne_nil (lexemes_ne_nil _)]
    rfl

/-- Tokens do not depend on where their text stands, nor on the blanks before it. -/
theorem unplaced_lexemes_congr {first second : Cursor}
    (same : first.rest.dropWhile isBlank = second.rest.dropWhile isBlank) :
    Parse.unplaced first.lexemes = Parse.unplaced second.lexemes := by
  fun_induction lexemes first generalizing second with
  | case1 first ends =>
    have ends' : second.next.1.token = .eof := next_end (same ▸ dropWhile_of_eof ends)
    rw [lexemes_eof ends', Parse.unplaced_cons, Parse.unplaced_cons, ends, ends']
  | case2 first more ih =>
    cases front : first.rest.dropWhile isBlank with
    | nil => exact absurd (next_end front) more
    | cons c rest =>
      obtain ⟨here, left⟩ := next_cons front
      obtain ⟨here', left'⟩ := next_cons (same ▸ front)
      have more' : second.next.1.token ≠ .eof := by rwa [here', ← here]
      have others : Parse.unplaced first.next.2.lexemes = Parse.unplaced second.next.2.lexemes :=
        ih (by rw [left, left'])
      rw [lexemes_cons more', Parse.unplaced_cons, Parse.unplaced_cons, here, here', others]

end Cursor

theorem Lexer.apart_of_trailers {tail : List Char} (trailers : ∀ c ∈ tail, isTrailer c) :
    Apart tail := by
  intro c head
  have trailer := trailers c (List.mem_of_head? head)
  simp only [isTrailer, Bool.or_eq_true, beq_iff_eq] at trailer
  rcases trailer with blank | rfl
  · exact isSeparator_of_isBlank blank
  · decide

def tokensOf (text : List Char) : List Token := Parse.unplaced (lexemes text)

variable {source before after first second : List Char} {c : Char} {word : Token}

theorem tokensOf_congr (same : first.dropWhile isBlank = second.dropWhile isBlank) :
    tokensOf first = tokensOf second :=
  Cursor.unplaced_lexemes_congr same

theorem tokensOf_nil : tokensOf [] = [.eof] := by
  have ends : (Cursor.ofText []).next.1.token = .eof := Cursor.next_end rfl
  rw [tokensOf, lexemes, Cursor.lexemes_eof ends, Parse.unplaced_cons, ends]
  rfl

theorem tokensOf_append (apart : Lexer.Apart after) (before : List Char) :
    tokensOf (before ++ after) = (tokensOf before).dropLast ++ tokensOf after := by
  have joined := Cursor.lexemes_append apart before .start
  have moved : Parse.unplaced (Cursor.lexemes ⟨after, Place.start.advance before⟩) =
      tokensOf after := Cursor.unplaced_lexemes_congr rfl
  rw [← moved, tokensOf, tokensOf, lexemes, lexemes, Cursor.ofText, joined, Parse.unplaced,
    List.map_append, List.map_dropLast]
  rfl

theorem tokensOf_blank (blank : isBlank c) (after : List Char) :
    tokensOf (c :: after) = tokensOf after := by
  apply tokensOf_congr
  rw [List.dropWhile_cons_of_pos blank]

theorem tokensOf_cons (visible : isBlank c = false) (after : List Char) :
    tokensOf (c :: after) =
      (Lexer.token c after).1 :: tokensOf (after.drop (Lexer.token c after).2.length) := by
  have front : (Cursor.ofText (c :: after)).rest.dropWhile isBlank = c :: after := by
    simp [Cursor.ofText, visible]
  obtain ⟨here, rest⟩ := Cursor.next_cons front
  have more : (Cursor.ofText (c :: after)).next.1.token ≠ .eof := by
    rw [here]
    exact Lexer.token_ne_eof c after
  have others : Parse.unplaced (Cursor.ofText (c :: after)).next.2.lexemes =
      tokensOf (after.drop (Lexer.token c after).2.length) :=
    Cursor.unplaced_lexemes_congr (congrArg _ rest)
  rw [tokensOf, lexemes, Cursor.lexemes_cons more, Parse.unplaced_cons, here, others]

theorem tokensOf_equals (after : List Char) :
    tokensOf ('=' :: after) = .equals :: tokensOf after :=
  tokensOf_cons rfl after

def bodyOf (text : List Char) : List Token := (tokensOf text).dropLast

theorem tokensOf_eq (text : List Char) : tokensOf text = bodyOf text ++ [.eof] := by
  obtain ⟨body, ended, _⟩ := (Cursor.endsOnce_lexemes (.ofText text)).unplaced
  change tokensOf text = body ++ [.eof] at ended
  rw [bodyOf, ended, List.dropLast_concat]

theorem bodyOf_append (apart : Lexer.Apart after) (before : List Char) :
    bodyOf (before ++ after) = bodyOf before ++ bodyOf after := by
  have joined := tokensOf_append apart before
  rw [tokensOf_eq (before ++ after), tokensOf_eq after, ← List.append_assoc] at joined
  exact List.append_cancel_right joined

theorem bodyOf_cons (visible : isBlank c = false) (after : List Char) :
    bodyOf (c :: after) =
      (Lexer.token c after).1 :: bodyOf (after.drop (Lexer.token c after).2.length) := by
  have step := tokensOf_cons visible after
  rw [tokensOf_eq (c :: after), tokensOf_eq (after.drop _), ← List.cons_append] at step
  exact List.append_cancel_right step

theorem bodyOf_word (reads : Lexer.Word word) (apart : Lexer.Apart after) :
    bodyOf (word.text ++ after) = word :: bodyOf after := by
  obtain ⟨c, more, spelled, visible, same⟩ := reads
  rw [spelled, List.cons_append, bodyOf_cons visible, Lexer.token_apart apart, same, List.drop_left]

theorem bodyOf_blank (blank : ∀ c ∈ source, isBlank c) : bodyOf source = [] := by
  have none : source.dropWhile isBlank = ([] : List Char).dropWhile isBlank :=
    List.dropWhile_eq_nil_iff.mpr blank
  rw [bodyOf, tokensOf_congr none, tokensOf_nil]
  rfl

theorem bodyOf_nil : bodyOf [] = [] := bodyOf_blank (by simp)

theorem blank_of_bodyOf (nothing : bodyOf source = []) (mem : c ∈ source) : isBlank c := by
  cases front : source.dropWhile isBlank with
  | nil => exact List.dropWhile_eq_nil_iff.mp front c mem
  | cons d rest =>
    have visible : isBlank d = false := head_dropWhile front
    have same : tokensOf source = tokensOf (d :: rest) :=
      tokensOf_congr (by simp [front, visible])
    have body : bodyOf source = bodyOf (d :: rest) := congrArg List.dropLast same
    simp [body, bodyOf_cons visible] at nothing

theorem bodyOf_split (before after : List Char) :
    bodyOf (before ++ '=' :: after) = bodyOf before ++ .equals :: bodyOf after := by
  rw [bodyOf_append (Lexer.apart_cons (by decide) after), bodyOf_cons rfl]
  rfl

theorem equals_mem_bodyOf : .equals ∈ bodyOf source ↔ '=' ∈ source := by
  constructor
  · intro mem
    have present : .equals ∈ tokensOf source := List.dropLast_subset _ mem
    obtain ⟨lexeme, here, same⟩ := List.mem_map.mp present
    have cut : Cut [] source (lexemes source) := (Cursor.ofText source).cut_lexemes [] rfl
    have span := (cut.spelled here (by simp [same])).2
    have sign : '=' ∈ lexeme.span source := by
      rw [List.nil_append] at span
      simp [span, same, Token.text]
    exact List.mem_of_mem_take (List.mem_of_mem_drop sign)
  · intro mem
    obtain ⟨before, after, rfl⟩ := List.append_of_mem mem
    rw [bodyOf_split]
    simp

/-- A text is read through its tokens; their places matter to errors alone. -/
theorem Parse.text_ok {limit : Nat} {source : List Char} {node : Node} :
    (text limit source).value = .ok node ↔
      ∃ level ≤ limit, Grammar.Line (tokensOf source) node level := by
  constructor
  · exact line_sound (Cursor.endsOnce_lexemes _)
  · rintro ⟨level, bound, derived⟩
    exact line_complete derived bound

end Reckon
