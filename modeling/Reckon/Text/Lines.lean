/-
Lines of a byte stream.  A line ends at a newline, with one carriage return before it dropped; a
last line without a newline is kept whole, and a stream that ends in a newline has no further line.
-/
namespace Reckon.Text

def splitLines : List UInt8 → List UInt8 → List (List UInt8)
  | [], [] => []
  | [], current => [current.reverse]
  | byte :: rest, current =>
    if byte = 10 then
      (match current with
        | 13 :: line => line.reverse
        | line => line.reverse) :: splitLines rest []
    else splitLines rest (byte :: current)

def decodeLine (bytes : List UInt8) : Option String := String.fromUTF8? ⟨bytes.toArray⟩

def lines? (stream : List UInt8) : Option (List String) := (splitLines stream []).mapM decodeLine

end Reckon.Text
