import Reckon.Proofs.Spans

/-
Numbers and identifiers are cut off by the longest match: such a token is read where the text goes
on with a word of its grammar, and it is the longest of these words.
-/
namespace Reckon

namespace Lexer
open Text

variable {Form : List Char → Prop} {text word rest before : List Char} {c : Char} {token : Token}

example : number "1e5p-2.5".toList = "1e5p-2".toList := by decide

example : number "1pe3".toList = "1".toList := by decide

end Lexer

namespace Cursor
open Text Lexer

variable {cursor : Cursor} {source : List Char}

/-- A cursor of a text: what is left stands behind as many characters as its place counts. -/
def Of (cursor : Cursor) (source : List Char) : Prop := source.drop cursor.place.char = cursor.rest

theorem Of.advance (inside : cursor.Of source) {front after : List Char}
    (split : cursor.rest = front ++ after) : source.drop (cursor.place.advance front).char = after := by
  rw [Place.char_advance, ← List.drop_drop, inside, split, List.drop_left]

theorem Of.next (inside : cursor.Of source) : cursor.next.2.Of source := by
  by_cases ends : cursor.next.1.token = .eof
  · rw [next_done (dropWhile_of_eof ends)]
    exact inside.advance (by simp)
  · obtain ⟨gap, word, c, after, split, -, -, -, step⟩ := next_token ends
    rw [step]
    exact inside.advance (by simp [split])

theorem Of.first (inside : cursor.Of source) :
    source.drop cursor.next.1.first.char = cursor.rest.dropWhile isBlank := by
  have place : cursor.next.1.first = cursor.place.advance (cursor.rest.takeWhile isBlank) := by
    unfold Cursor.next skipBlanks read
    dsimp only
    split <;> rfl
  rw [place]
  exact inside.advance List.takeWhile_append_dropWhile.symm

end Cursor
end Reckon
