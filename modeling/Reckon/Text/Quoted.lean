import Reckon.Text.Hidden

/-
Quoted texts and characters as messages show them.  A backslash is written twice, the enclosing
quote mark and the common control characters have short escapes, and every hidden character is
written by its code point.
-/
namespace Reckon.Text

def codePoint (c : Char) : List Char :=
  ['\\', 'u', '\x7b'] ++ Nat.toDigits 16 c.toNat ++ ['\x7d']

def escaped (mark c : Char) : List Char :=
  if c = '\x00' then ['\\', '0']
  else if c = '\t' then ['\\', 't']
  else if c = '\n' then ['\\', 'n']
  else if c = '\r' then ['\\', 'r']
  else if c = '\\' then ['\\', '\\']
  else if c = mark then ['\\', mark]
  else if isHidden c then codePoint c
  else [c]

def quote (mark : Char) (text : List Char) : String :=
  String.ofList (mark :: text.flatMap (escaped mark) ++ [mark])

def quoted (text : String) : String := quote '"' text.toList

def quotedChar (c : Char) : String := quote '\'' [c]

def strayChar (c : Char) : String :=
  String.ofList <|
    if c = '\t' then ['\\', 't']
    else if c = '\n' then ['\\', 'n']
    else if c = '\r' then ['\\', 'r']
    else if c = '\\' ∨ c = '\'' ∨ c = '"' then ['\\', c]
    else if 0x20 ≤ c.toNat ∧ c.toNat ≤ 0x7E then [c]
    else codePoint c

end Reckon.Text
