import Reckon.Text.Characters
import Reckon.Token.Basic

/-
Cutting a text into tokens.  Blanks separate; identifiers and numbers extend as far as they can;
every other character is a token of its own, except that two stars make one.
-/
namespace Reckon

structure Cursor where
  rest : List Char
  place : Place
deriving DecidableEq, Repr

namespace Lexer
open Text

def startsWithDigit : List Char → Bool
  | c :: _ => isDigit c
  | [] => false

def fraction : List Char → List Char
  | '.' :: rest => if startsWithDigit rest then '.' :: rest.takeWhile isDigit else []
  | _ => []

def signedDigits : List Char → List Char
  | [] => []
  | c :: rest =>
    if isDigit c then c :: rest.takeWhile isDigit
    else if (c = '+' ∨ c = '-') ∧ startsWithDigit rest then c :: rest.takeWhile isDigit
    else []

def exponent (marker : Char) : List Char → List Char
  | [] => []
  | c :: rest => if c = marker ∧ signedDigits rest ≠ [] then c :: signedDigits rest else []

def number (text : List Char) : List Char :=
  let whole := text.takeWhile isDigit
  let rest := text.drop whole.length
  let point := fraction rest
  let rest := rest.drop point.length
  let decimal := exponent 'e' rest
  let rest := rest.drop decimal.length
  whole ++ point ++ decimal ++ exponent 'p' rest

def startsNumber : List Char → Bool
  | '.' :: rest => startsWithDigit rest
  | text => startsWithDigit text

def mark : Char → Token
  | '(' => .openParen
  | ')' => .closeParen
  | ',' => .comma
  | '=' => .equals
  | '+' => .operator .add
  | '-' => .operator .sub
  | '*' => .operator .mul
  | '/' => .operator .div
  | '%' => .operator .mod
  | c => .unknown c

def token (c : Char) (rest : List Char) : Token × List Char :=
  if isLetter c then
    let more := rest.takeWhile isWordChar
    (.identifier (String.ofList (c :: more)), more)
  else if startsNumber (c :: rest) then
    let raw := number (c :: rest)
    (.number (String.ofList raw), raw.tail)
  else if c = '*' ∧ rest.head? = some '*' then (.operator .pow, ['*'])
  else (mark c, [])

end Lexer

namespace Cursor

def ofText (text : List Char) : Cursor := ⟨text, .start⟩

def skipBlanks (cursor : Cursor) : Cursor :=
  ⟨cursor.rest.dropWhile Text.isBlank, cursor.place.advance (cursor.rest.takeWhile Text.isBlank)⟩

def read (cursor : Cursor) : Lexeme × Cursor :=
  match cursor.rest with
  | [] => (⟨.eof, cursor.place, cursor.place⟩, cursor)
  | c :: rest =>
    let (token, more) := Lexer.token c rest
    (⟨token, cursor.place, cursor.place.advance (c :: more).dropLast⟩,
      ⟨rest.drop more.length, cursor.place.advance (c :: more)⟩)

def next (cursor : Cursor) : Lexeme × Cursor := cursor.skipBlanks.read

theorem length_read (cursor : Cursor) (h : cursor.read.1.token ≠ .eof) :
    cursor.read.2.rest.length < cursor.rest.length := by
  unfold read at *
  split at h
  · simp at h
  · rename_i c rest same
    simp only [same, List.length_drop, List.length_cons]
    omega

theorem length_next (cursor : Cursor) (h : cursor.next.1.token ≠ .eof) :
    cursor.next.2.rest.length < cursor.rest.length :=
  Nat.lt_of_lt_of_le (length_read cursor.skipBlanks h)
    (List.dropWhile_suffix Text.isBlank).length_le

def lexemes (cursor : Cursor) : List Lexeme :=
  if _h : cursor.next.1.token = .eof then [cursor.next.1]
  else cursor.next.1 :: lexemes cursor.next.2
termination_by cursor.rest.length
decreasing_by exact length_next cursor _h

end Cursor

def lexemes (text : List Char) : List Lexeme := (Cursor.ofText text).lexemes

end Reckon
