import Reckon.Proofs.Spacing

/-
Cutting a text into tokens loses nothing: the text is its blanks and the texts of its tokens, and
the places of the tokens say where these stand.
-/
namespace Reckon
open Text

namespace Place

theorem char_start_advance (text : List Char) : (start.advance text).char = text.length := by
  rw [char_advance, start, Nat.zero_add]

theorem start_advance (text : List Char) :
    start.advance text = ⟨(String.ofList text).utf8ByteSize, text.length⟩ := by
  have byte : (start.advance text).byte = _ := byte_advance start text
  rw [start, Nat.zero_add] at byte
  rw [← byte, ← char_start_advance text]
  rfl

def Before (earlier later : Place) : Prop :=
  earlier.char < later.char ∧ earlier.byte < later.byte

theorem before_advance (place : Place) {text : List Char} (some : text ≠ []) :
    place.Before (place.advance text) := by
  obtain ⟨c, rest, rfl⟩ := List.exists_cons_of_ne_nil some
  have wide := c.utf8Size_pos
  rw [Before, char_advance, byte_advance, String.ofList_cons, String.utf8ByteSize_append,
    String.utf8ByteSize_singleton, List.length_cons]
  omega

/-- A place between two characters of a text, or at one of its ends: as many bytes come before it as
the characters before it take. -/
def In (text : List Char) (place : Place) : Prop :=
  place.char ≤ text.length ∧ place.byte = (String.ofList (text.take place.char)).utf8ByteSize

theorem in_append (before after : List Char) : In (before ++ after) (start.advance before) := by
  rw [In, start_advance, List.take_left, List.length_append]
  exact ⟨Nat.le_add_right _ _, rfl⟩

end Place

namespace Lexer

variable {c d : Char} {rest : List Char}

theorem isBlank_of_isWordChar (word : isWordChar c) : isBlank c = false := by
  cases blank : isBlank c with
  | false => rfl
  | true => simp [isWordChar_of_isBlank blank] at word

theorem Digits.mem (digits : Digits text) (mem : d ∈ text) : isBlank d = false :=
  isBlank_of_isDigit (digits.2 d mem)

theorem Mantissa.visible (form : Mantissa text) (mem : d ∈ text) : isBlank d = false := by
  cases form with
  | whole digits => exact digits.mem mem
  | point places =>
    rcases List.mem_cons.mp mem with rfl | mem
    · decide
    · exact places.mem mem
  | decimal digits places =>
    rcases List.mem_append.mp mem with mem | mem
    · exact digits.mem mem
    · rcases List.mem_cons.mp mem with rfl | mem
      · decide
      · exact places.mem mem

theorem Exponent.visible (marked : isBlank marker = false) (form : Exponent marker text)
    (mem : d ∈ text) : isBlank d = false := by
  cases form with
  | none => simp at mem
  | plain digits =>
    rcases List.mem_cons.mp mem with rfl | mem
    · exact marked
    · exact digits.mem mem
  | signed sign digits =>
    rcases List.mem_cons.mp mem with rfl | mem
    · exact marked
    · rcases List.mem_cons.mp mem with rfl | mem
      · rcases sign with rfl | rfl <;> decide
      · exact digits.mem mem

theorem Numeral.visible (numeral : Numeral text) (mem : d ∈ text) : isBlank d = false := by
  obtain ⟨front, decimal, binary, form, tens, twos, rfl⟩ := numeral
  rcases List.mem_append.mp mem with mem | mem
  · rcases List.mem_append.mp mem with mem | mem
    · exact form.visible mem
    · exact tens.visible (by decide) mem
  · exact twos.visible (by decide) mem

theorem text_mark (c : Char) : (mark c).text = [c] := by
  unfold mark
  split <;> rfl

theorem number_cons (starts : startsNumber (c :: rest)) :
    ∃ more, number (c :: rest) = c :: more ∧ more <+: rest := by
  obtain ⟨after, whole⟩ := number_isPrefix (c :: rest)
  cases spelled : number (c :: rest) with
  | nil =>
    have numeral := numeral_number starts
    rw [spelled] at numeral
    simpa [Lexer.startsNumber, startsWithDigit] using numeral.startsNumber
  | cons d more =>
    rw [spelled, List.cons_append, List.cons.injEq] at whole
    obtain ⟨rfl, whole⟩ := whole
    exact ⟨more, rfl, after, whole⟩

theorem token_spec (rest : List Char) (visible : isBlank c = false) :
    (token c rest).1.text = c :: (token c rest).2 ∧ (token c rest).2 <+: rest ∧
      ∀ d ∈ (token c rest).2, isBlank d = false := by
  unfold token
  dsimp only
  split
  · refine ⟨String.toList_ofList, List.takeWhile_prefix _, ?_⟩
    intro d mem
    exact isBlank_of_isWordChar (List.mem_takeWhile_imp mem)
  · split
    · rename_i starts
      obtain ⟨more, spelled, front⟩ := number_cons starts
      have numeral := numeral_number starts
      rw [spelled] at numeral ⊢
      refine ⟨String.toList_ofList, front, ?_⟩
      intro d mem
      exact numeral.visible (List.mem_cons_of_mem c mem)
    · split
      · rename_i stars
        obtain ⟨rfl, head⟩ := stars
        obtain ⟨after, rfl⟩ := List.head?_eq_some_iff.mp head
        refine ⟨rfl, ⟨after, rfl⟩, ?_⟩
        rw [List.forall_mem_singleton]
        decide
      · exact ⟨text_mark c, List.nil_prefix, by simp⟩

end Lexer

/-- Lexemes that a text is cut into, after some text before it: blanks and a token as often as there
are tokens, and at the end blanks alone. -/
inductive Cut : List Char → List Char → List Lexeme → Prop where
  | done (blank : ∀ c ∈ gap, isBlank c) :
      Cut before gap
        [⟨.eof, Place.start.advance (before ++ gap), Place.start.advance (before ++ gap)⟩]
  | token (blank : ∀ c ∈ gap, isBlank c) (other : token ≠ .eof) (spelled : token.text = word ++ [c])
      (visible : ∀ d ∈ token.text, isBlank d = false)
      (more : Cut (before ++ gap ++ word ++ [c]) after others) :
      Cut before (gap ++ word ++ c :: after)
        (⟨token, Place.start.advance (before ++ gap), Place.start.advance (before ++ gap ++ word)⟩
          :: others)

namespace Cursor
open Lexer

theorem next_done {cursor : Cursor} (blank : cursor.rest.dropWhile isBlank = []) :
    cursor.next = (⟨.eof, cursor.place.advance cursor.rest, cursor.place.advance cursor.rest⟩,
      ⟨[], cursor.place.advance cursor.rest⟩) := by
  have gap : cursor.rest.takeWhile isBlank = cursor.rest := by
    have whole : cursor.rest.takeWhile isBlank ++ cursor.rest.dropWhile isBlank = cursor.rest :=
      List.takeWhile_append_dropWhile
    rwa [blank, List.append_nil] at whole
  simp [next, skipBlanks, read, blank, gap]

theorem dropWhile_of_eof {cursor : Cursor} (ends : cursor.next.1.token = .eof) :
    cursor.rest.dropWhile isBlank = [] := by
  cases front : cursor.rest.dropWhile isBlank with
  | nil => rfl
  | cons c rest =>
    rw [(next_cons front).1] at ends
    exact absurd ends (token_ne_eof c rest)

theorem next_token {cursor : Cursor} (more : cursor.next.1.token ≠ .eof) :
    ∃ gap word c after, cursor.rest = gap ++ word ++ c :: after ∧ (∀ d ∈ gap, isBlank d) ∧
      cursor.next.1.token.text = word ++ [c] ∧
      (∀ d ∈ cursor.next.1.token.text, isBlank d = false) ∧
      cursor.next =
        (⟨cursor.next.1.token, cursor.place.advance gap, cursor.place.advance (gap ++ word)⟩,
          ⟨after, cursor.place.advance (gap ++ word ++ [c])⟩) := by
  cases front : cursor.rest.dropWhile isBlank with
  | nil => exact absurd (next_end front) more
  | cons b rest =>
    have visible : isBlank b = false := head_dropWhile front
    obtain ⟨spelled, ⟨after, taken⟩, others⟩ := token_spec rest visible
    obtain ⟨word, c, ends⟩ : ∃ word c, b :: (token b rest).2 = word ++ [c] :=
      ⟨_, _, (List.dropLast_concat_getLast (by simp)).symm⟩
    have same : cursor.next.1.token = (token b rest).1 := (next_cons front).1
    have split : cursor.rest.takeWhile isBlank ++ word ++ c :: after = cursor.rest := by
      rw [List.append_cons, List.append_assoc _ word, ← ends, List.append_assoc, List.cons_append,
        taken, ← front, List.takeWhile_append_dropWhile]
    have left := congrArg (List.drop (token b rest).2.length) taken
    rw [List.drop_left] at left
    refine ⟨_, word, c, after, split.symm, fun d => List.mem_takeWhile_imp, ?_, ?_, ?_⟩
    · rw [same, spelled, ends]
    · rw [same, spelled]
      exact List.forall_mem_cons.mpr ⟨visible, others⟩
    · simp [next, skipBlanks, read, front, ← left, ends, Place.advance_append]

theorem cut_lexemes (cursor : Cursor) (before : List Char)
    (here : cursor.place = Place.start.advance before) :
    Cut before cursor.rest cursor.lexemes := by
  fun_induction lexemes cursor generalizing before with
  | case1 cursor ends =>
    have blank := dropWhile_of_eof ends
    rw [next_done blank, here, ← Place.advance_append]
    exact .done (List.dropWhile_eq_nil_iff.mp blank)
  | case2 cursor more ih =>
    obtain ⟨gap, word, c, after, split, blank, spelled, visible, step⟩ := next_token more
    have others := ih (before ++ gap ++ word ++ [c])
    rw [step, here] at others
    simp only [← Place.advance_append, ← List.append_assoc, forall_const] at others
    rw [step, here, split]
    simp only [← Place.advance_append, ← List.append_assoc]
    exact .token blank more spelled visible others

end Cursor

namespace Lexeme

def ending (text : List Char) : Lexeme :=
  ⟨.eof, ⟨(String.ofList text).utf8ByteSize, text.length⟩,
    ⟨(String.ofList text).utf8ByteSize, text.length⟩⟩

def Covers (lexeme : Lexeme) (i : Nat) : Prop := lexeme.first.char ≤ i ∧ i ≤ lexeme.last.char

def span (text : List Char) (lexeme : Lexeme) : List Char :=
  (text.take (lexeme.last.char + 1)).drop lexeme.first.char

end Lexeme

namespace Cut

variable {text before after word : List Char} {lexemes : List Lexeme} {lexeme : Lexeme}

theorem ending (cut : Cut before after lexemes) :
    ∃ body, lexemes = body ++ [Lexeme.ending (before ++ after)] ∧
      ∀ lexeme ∈ body, lexeme.token ≠ .eof := by
  induction cut with
  | done blank => exact ⟨[], by simp [Lexeme.ending, Place.start_advance], by simp⟩
  | token blank other spelled visible more ih =>
    obtain ⟨body, rfl, clean⟩ := ih
    exact ⟨_ :: body, by simp; rfl, List.forall_mem_cons.mpr ⟨other, clean⟩⟩

theorem first (cut : Cut before after lexemes) (mem : lexeme ∈ lexemes) :
    ∃ more, lexeme.first = Place.start.advance (before ++ more) := by
  induction cut with
  | done blank =>
    obtain rfl := List.mem_singleton.mp mem
    exact ⟨_, rfl⟩
  | @token gap token word c before after others blank other spelled visible more ih =>
    rcases List.mem_cons.mp mem with rfl | later
    · exact ⟨gap, rfl⟩
    · obtain ⟨front, place⟩ := ih later
      exact ⟨gap ++ word ++ [c] ++ front, by rw [place]; simp⟩

theorem ordered (cut : Cut before after lexemes) :
    lexemes.Pairwise fun earlier later => earlier.last.Before later.first := by
  induction cut with
  | done blank => exact List.pairwise_singleton _ _
  | @token gap token word c before after others blank other spelled visible more ih =>
    refine List.pairwise_cons.mpr ⟨?_, ih⟩
    intro later mem
    obtain ⟨front, place⟩ := more.first mem
    rw [place, List.append_assoc _ [c], Place.advance_append _ (before ++ gap ++ word)]
    exact Place.before_advance _ (by simp)

theorem spelled (cut : Cut before after lexemes) (mem : lexeme ∈ lexemes)
    (other : lexeme.token ≠ .eof) :
    lexeme.first.char ≤ lexeme.last.char ∧
      lexeme.span (before ++ after) = lexeme.token.text := by
  induction cut with
  | done blank =>
    obtain rfl := List.mem_singleton.mp mem
    exact absurd rfl other
  | @token gap token word c before after others blank _ spelled visible more ih =>
    rcases List.mem_cons.mp mem with rfl | later
    · have whole : before ++ (gap ++ word ++ c :: after) =
          before ++ gap ++ (word ++ [c]) ++ after := by simp
      have upto : (before ++ gap ++ word).length + 1 = (before ++ gap ++ (word ++ [c])).length := by
        simp only [List.length_append, List.length_singleton]
        omega
      simp only [Lexeme.span, Place.char_start_advance]
      rw [whole, upto, List.take_left, List.drop_left, spelled]
      exact ⟨by simp, rfl⟩
    · simpa using ih later

theorem places (cut : Cut before after lexemes) (mem : lexeme ∈ lexemes) :
    lexeme.first.In (before ++ after) ∧ lexeme.last.In (before ++ after) := by
  induction cut with
  | @done gap before blank =>
    obtain rfl := List.mem_singleton.mp mem
    have ends := Place.in_append (before ++ gap) []
    rw [List.append_nil] at ends
    exact ⟨ends, ends⟩
  | @token gap token word c before after others blank other spelled visible more ih =>
    rcases List.mem_cons.mp mem with rfl | later
    · have front := Place.in_append (before ++ gap) (word ++ c :: after)
      have back := Place.in_append (before ++ gap ++ word) (c :: after)
      simp only [List.append_assoc] at front back ⊢
      exact ⟨front, back⟩
    · simpa using ih later

theorem mem_of_between {front middle back : List Char} {i : Nat} {d : Char}
    (least : front.length ≤ i) (less : i < (front ++ middle).length)
    (here : (front ++ middle ++ back)[i]? = some d) : d ∈ middle := by
  rw [List.getElem?_append_left less, List.getElem?_append_right least] at here
  exact List.mem_of_getElem? here

theorem covers (cut : Cut before after lexemes) {i : Nat} {d : Char} (least : before.length ≤ i)
    (here : (before ++ after)[i]? = some d) :
    isBlank d ↔ ∀ lexeme ∈ lexemes, ¬ lexeme.Covers i := by
  have inside := (List.getElem?_eq_some_iff.mp here).1
  induction cut with
  | @done gap before blank =>
    rw [← List.append_nil (before ++ gap)] at here
    refine iff_of_true (blank d (mem_of_between least inside here)) ?_
    intro lexeme mem covered
    obtain rfl := List.mem_singleton.mp mem
    rw [Lexeme.Covers, Place.char_start_advance] at covered
    exact absurd covered.1 (Nat.not_le_of_lt inside)
  | @token gap token word c before after others blank other spelled visible more ih =>
    have whole : before ++ (gap ++ word ++ c :: after) = before ++ gap ++ word ++ [c] ++ after := by
      simp
    rw [whole] at here inside
    simp only [List.forall_mem_cons, Lexeme.Covers, Place.char_start_advance]
    by_cases early : i < (before ++ gap).length
    · have skipped : before ++ gap ++ word ++ [c] ++ after =
          before ++ gap ++ (word ++ c :: after) := by simp
      rw [skipped] at here
      refine iff_of_true (blank d (mem_of_between least early here)) ⟨by omega, ?_⟩
      intro lexeme mem covered
      obtain ⟨front, place⟩ := more.first mem
      rw [place, Place.char_start_advance] at covered
      simp only [List.length_append] at covered early
      omega
    · have behind : (before ++ gap ++ word ++ [c]).length = (before ++ gap ++ word).length + 1 :=
        List.length_append
      by_cases taken : i < (before ++ gap ++ word ++ [c]).length
      · rw [List.append_assoc _ word] at here taken
        have mem : d ∈ token.text := by
          rw [spelled]
          exact mem_of_between (Nat.le_of_not_lt early) taken here
        rw [← List.append_assoc, behind] at taken
        simp only [visible d mem, Bool.false_eq_true, false_iff]
        intro apart
        exact apart.1 ⟨by omega, by omega⟩
      · rw [behind] at taken
        exact (ih (by omega) here inside).trans (and_iff_right (by omega)).symm

end Cut

namespace Cursor

/-- What the tokenizer answers when it is called for the nth time, counted from zero. -/
def call (cursor : Cursor) : Nat → Lexeme
  | 0 => cursor.next.1
  | n + 1 => cursor.next.2.call n

theorem call_of_eof {cursor : Cursor} (ends : cursor.next.1.token = .eof) (n : Nat) :
    cursor.call n = cursor.next.1 := by
  induction n generalizing cursor with
  | zero => rfl
  | succ n ih =>
    have step := next_done (dropWhile_of_eof ends)
    have again : cursor.next.2.next = cursor.next := by
      rw [step, next_done rfl]
      rfl
    rw [call, ih (by rw [again, ends]), again]

theorem call_lexemes (cursor : Cursor) (n : Nat) :
    cursor.lexemes[n]?.or cursor.lexemes.getLast? = some (cursor.call n) := by
  induction n generalizing cursor with
  | zero =>
    rw [lexemes]
    split <;> rfl
  | succ n ih =>
    by_cases ends : cursor.next.1.token = .eof
    · rw [lexemes_eof ends, call_of_eof ends]
      rfl
    · have later := ih cursor.next.2
      rw [lexemes_cons ends, List.getElem?_cons_succ, List.getLast?_cons, call]
      cases found : cursor.next.2.lexemes[n]? with
      | some lexeme => simpa [found] using later
      | none =>
        rw [found, Option.none_or] at later
        rw [later]
        rfl

end Cursor

/-- The lexemes before the end of a text account for each of its characters: they stand one behind
another, their places delimit the texts of their tokens, and what they leave out is the blanks. -/
structure Lossless (text : List Char) (body : List Lexeme) : Prop where
  tokens : ∀ lexeme ∈ body, lexeme.token ≠ .eof
  ordered : (body ++ [Lexeme.ending text]).Pairwise fun earlier later =>
    earlier.last.Before later.first
  spelled : ∀ lexeme ∈ body, lexeme.first.char ≤ lexeme.last.char ∧
    lexeme.span text = lexeme.token.text
  covers : ∀ i c, text[i]? = some c → (isBlank c ↔ ∀ lexeme ∈ body, ¬ lexeme.Covers i)
  places : ∀ lexeme ∈ body, lexeme.first.In text ∧ lexeme.last.In text

/-- A text is cut into tokens without loss, and the end is reached once and for all. -/
theorem lexemes_lossless (text : List Char) :
    ∃ body, lexemes text = body ++ [Lexeme.ending text] ∧ Lossless text body ∧
      ∀ n, (Cursor.ofText text).call n = ((lexemes text)[n]?).getD (Lexeme.ending text) := by
  have cut : Cut [] text (lexemes text) := (Cursor.ofText text).cut_lexemes [] rfl
  obtain ⟨body, whole, clean⟩ := cut.ending
  rw [List.nil_append] at whole
  have part : ∀ lexeme ∈ body, lexeme ∈ lexemes text := by
    intro lexeme mem
    rw [whole]
    exact List.mem_append_left _ mem
  refine ⟨body, whole, ⟨clean, whole ▸ cut.ordered, ?_, ?_, ?_⟩, ?_⟩
  · intro lexeme mem
    exact cut.spelled (part lexeme mem) (clean lexeme mem)
  · intro i c here
    have inside := (List.getElem?_eq_some_iff.mp here).1
    rw [cut.covers (Nat.zero_le i) here, whole, List.forall_mem_append]
    -- The end stands behind all characters.
    refine and_iff_left ?_
    intro lexeme mem covered
    obtain rfl := List.mem_singleton.mp mem
    exact absurd covered.1 (Nat.not_le_of_lt inside)
  · intro lexeme mem
    exact cut.places (part lexeme mem)
  · intro n
    have answer := (Cursor.ofText text).call_lexemes n
    change (lexemes text)[n]?.or (lexemes text).getLast? = _ at answer
    rw [whole, List.getLast?_concat, Option.or_some] at answer
    rw [whole]
    exact (Option.some.inj answer).symm

end Reckon
