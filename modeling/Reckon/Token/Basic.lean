import Reckon.Vocabulary
import Reckon.Text.Quoted

/-
Tokens, their places in a text, and how messages and listings show them.
-/
namespace Reckon

inductive Token where
  | eof
  | openParen
  | closeParen
  | comma
  | equals
  | operator (op : Operator)
  | identifier (name : String)
  | number (raw : String)
  | unknown (c : Char)
deriving DecidableEq, Repr

namespace Token

def describe : Token → String
  | eof => "end of input"
  | openParen => "'('"
  | closeParen => "')'"
  | comma => "','"
  | equals => "'='"
  | operator op => "'" ++ op.symbol ++ "'"
  | identifier name => "identifier '" ++ name ++ "'"
  | number raw => "number '" ++ raw ++ "'"
  | unknown c => "'" ++ Text.strayChar c ++ "'"

def kind : Token → String
  | eof => "Eof"
  | openParen => "OpenParen"
  | closeParen => "CloseParen"
  | comma => "Comma"
  | equals => "Equals"
  | operator .add => "Plus"
  | operator .sub => "Minus"
  | operator .mul => "Star"
  | operator .pow => "StarStar"
  | operator .div => "Slash"
  | operator .mod => "Percent"
  | identifier _ => "Identifier"
  | number _ => "Number"
  | unknown _ => "Unknown"

def listed (token : Token) : String :=
  match token with
  | identifier name => token.kind ++ "(" ++ Text.quoted name ++ ")"
  | number raw => token.kind ++ "(" ++ Text.quoted raw ++ ")"
  | unknown c => token.kind ++ "(" ++ Text.quotedChar c ++ ")"
  | _ => token.kind

def operator? : Token → Option Operator
  | operator op => some op
  | _ => none

theorem operator?_eq_some {token : Token} {op : Operator} :
    token.operator? = some op ↔ token = operator op := by
  cases token <;> simp [operator?]

end Token

structure Place where
  byte : Nat
  char : Nat
deriving DecidableEq, Repr

namespace Place

def start : Place := ⟨0, 0⟩

def step (place : Place) (c : Char) : Place := ⟨place.byte + c.utf8Size, place.char + 1⟩

def advance (place : Place) (text : List Char) : Place := text.foldl step place

theorem advance_append (place : Place) (first second : List Char) :
    place.advance (first ++ second) = (place.advance first).advance second :=
  List.foldl_append

theorem char_advance (place : Place) (text : List Char) :
    (place.advance text).char = place.char + text.length := by
  induction text generalizing place with
  | nil => rfl
  | cons c rest ih =>
    rw [advance, List.foldl_cons, ← advance, ih]
    simp only [step, List.length_cons]
    omega

theorem byte_advance (place : Place) (text : List Char) :
    (place.advance text).byte = place.byte + (String.ofList text).utf8ByteSize := by
  induction text generalizing place with
  | nil => simp [advance]
  | cons c rest ih =>
    rw [advance, List.foldl_cons, ← advance, ih, String.ofList_cons, String.utf8ByteSize_append,
      String.utf8ByteSize_singleton]
    exact Nat.add_assoc _ _ _

end Place

structure Lexeme where
  token : Token
  first : Place
  last : Place
deriving DecidableEq, Repr

namespace Lexeme

def listed (lexeme : Lexeme) : String :=
  lexeme.token.listed ++ "[char " ++ toString lexeme.first.char
    ++ (if lexeme.first = lexeme.last then "" else " -> char " ++ toString lexeme.last.char) ++ "]"

end Lexeme
end Reckon
