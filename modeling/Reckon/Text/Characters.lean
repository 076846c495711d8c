/-
Classes of characters, and cutting a class off the end of a text.  Blanks are the Unicode property
White_Space, which leaves out the zero-width U+200B and U+FEFF; digits and letters are ASCII.
-/
namespace Reckon.Text

def isBlank (c : Char) : Bool :=
  let n := c.toNat
  (9 ≤ n && n ≤ 13) || n == 0x20 || n == 0x85 || n == 0xA0 || n == 0x1680
    || (0x2000 ≤ n && n ≤ 0x200A) || n == 0x2028 || n == 0x2029 || n == 0x202F || n == 0x205F
    || n == 0x3000

def isDigit (c : Char) : Bool := '0' ≤ c && c ≤ '9'

def isCapital (c : Char) : Bool := ('A' ≤ c && c ≤ 'Z') || c == '_'

def isLetter (c : Char) : Bool := ('a' ≤ c && c ≤ 'z') || isCapital c

def isWordChar (c : Char) : Bool := isLetter c || isDigit c

def dropWhileEnd (p : Char → Bool) (text : List Char) : List Char :=
  (text.reverse.dropWhile p).reverse

theorem head_dropWhile {p : Char → Bool} {text rest : List Char} {c : Char}
    (same : text.dropWhile p = c :: rest) : p c = false := by
  have stops := List.head?_dropWhile_not p text
  rw [same] at stops
  exact stops

def isTrailer (c : Char) : Bool := isBlank c || c == '='

end Reckon.Text
