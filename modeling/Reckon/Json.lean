/-
JSON documents of texts, lists and records, and their indented form: two spaces a level, one item a
line, fields in the order given.
-/
namespace Reckon

inductive Json where
  | text (value : String)
  | list (items : List Json)
  | record (fields : List (String × Json))
deriving Repr

namespace Json

def hexDigits (n : Nat) : List Char :=
  let digits := Nat.toDigits 16 n
  List.replicate (4 - digits.length) '0' ++ digits

def escaped (c : Char) : List Char :=
  if c = '"' then ['\\', '"']
  else if c = '\\' then ['\\', '\\']
  else if c = '\n' then ['\\', 'n']
  else if c = '\r' then ['\\', 'r']
  else if c = '\t' then ['\\', 't']
  else if c = '\x08' then ['\\', 'b']
  else if c = '\x0c' then ['\\', 'f']
  else if c.toNat < 0x20 then ['\\', 'u'] ++ hexDigits c.toNat
  else [c]

def quoted (text : String) : List Char := '"' :: text.toList.flatMap escaped ++ ['"']

def newline (level : Nat) : List Char := '\n' :: List.replicate (2 * level) ' '

mutual

def render (level : Nat) : Json → List Char
  | .text value => quoted value
  | .list [] => ['[', ']']
  | .list (item :: items) =>
    '[' :: newline (level + 1) ++ render (level + 1) item ++ renderItems level items
  | .record [] => ['\x7b', '\x7d']
  | .record ((key, value) :: fields) =>
    '\x7b' :: newline (level + 1) ++ quoted key ++ [':', ' '] ++ render (level + 1) value
      ++ renderFields level fields

def renderItems (level : Nat) : List Json → List Char
  | [] => newline level ++ [']']
  | item :: items =>
    ',' :: newline (level + 1) ++ render (level + 1) item ++ renderItems level items

def renderFields (level : Nat) : List (String × Json) → List Char
  | [] => newline level ++ ['\x7d']
  | (key, value) :: fields =>
    ',' :: newline (level + 1) ++ quoted key ++ [':', ' '] ++ render (level + 1) value
      ++ renderFields level fields

end

def pretty (document : Json) : String := String.ofList (render 0 document)

end Json
end Reckon
