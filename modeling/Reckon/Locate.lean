import Reckon.Settings
import Reckon.Decimal.Canonical
import Reckon.Evaluate.Tree
import Reckon.Parse.Descent

/-
Finding the expression inside a line of free text.  The search starts after the last equals sign
that does not merely close the line; while nothing parses, the next word and the blanks after it are
given up.  An expression with more words after it is such a word, but an operator without an operand
ends the search.
-/
namespace Reckon

inductive Failure where
  | exhausted (text marker : String)
  | parse (error : ParseError)
  | arithmetic (error : NoValue)
deriving DecidableEq, Repr

def Failure.message : Failure → String
  | exhausted text marker => "no expression found:\n" ++ text ++ "\n" ++ marker
  | parse error => error.message
  | arithmetic error => error.message

namespace Calculation

def expression (calculation : Calculation) (text : List Char) : List Char :=
  Text.dropWhileEnd Text.isTrailer ((text.drop calculation.skip).dropWhile Text.isBlank)

end Calculation

namespace Locate
open Text

def word (text : List Char) : List Char :=
  text.takeWhile (!isBlank ·) ++ (text.dropWhile (!isBlank ·)).takeWhile isBlank

def afterWord (text : List Char) : List Char := (text.dropWhile (!isBlank ·)).dropWhile isBlank

theorem length_afterWord {text : List Char} (h : text ≠ []) :
    (afterWord text).length < text.length := by
  cases text with
  | nil => exact absurd rfl h
  | cons c rest =>
    have stops : ((rest.dropWhile (!isBlank ·)).dropWhile isBlank).length ≤ _ :=
      (List.dropWhile_suffix isBlank).length_le
    have shrinks : (rest.dropWhile (!isBlank ·)).length ≤ _ :=
      (List.dropWhile_suffix (!isBlank ·)).length_le
    have blanks : (rest.dropWhile isBlank).length ≤ _ := (List.dropWhile_suffix isBlank).length_le
    cases same : isBlank c <;> simp [afterWord, same] <;> omega

def uptoEquals (text : List Char) : List Char := (text.reverse.dropWhile (· != '=')).reverse

def canSkip (error : ParseError) : Bool :=
  match error.cause with
  | .mismatch _ _ => true
  | .trailing found => found.operator?.isNone
  | _ => false

def isMiss (error : ParseError) : Bool :=
  match error.cause with
  | .mismatch _ _ | .trailing _ => true
  | _ => false

/-- A line as long as the text, with a mark under every place where an attempt was made.  Tabs are
kept, so that the marks line up. -/
def marker (text : List Char) (attempts : List Nat) : List Char :=
  match text with
  | [] => []
  | c :: rest =>
    let mark := if attempts.contains 0 then '^' else if c = '\t' then '\t' else ' '
    mark :: marker rest ((attempts.filter (c.utf8Size ≤ ·)).map (· - c.utf8Size))

def conclude (settings : Settings) (seed : Seed) (place : Place) (node : Node) :
    Attempt Failure Calculation :=
  match node.evaluate settings.workingPrecision seed with
  | .error error => .fail (.arithmetic error)
  | .ok value =>
    let calculation : Calculation := ⟨place.char, value.toCanonical⟩
    ⟨.ok calculation, [.found calculation]⟩

def giveUp (line : List Char) (attempts : List Nat) (error : ParseError) :
    Attempt Failure Calculation :=
  if isMiss error then
    let marks := String.ofList (marker line attempts)
    ⟨.error (.exhausted (String.ofList line) marks), [.givingUp error]⟩
  else .fail (.parse error)

/-- Tries the remainder of a line from the given place on, and gives up a word at a time.  The list
holds the byte offsets of earlier attempts. -/
def search (settings : Settings) (seed : Seed) (line remainder : List Char) (place : Place)
    (attempts : List Nat) : Attempt Failure Calculation :=
  let attempts := place.byte :: attempts
  let reading := Parse.text settings.maxDepth remainder
  Logged.after (.attempting (String.ofList remainder) place.byte :: reading.events) <|
    match reading.value with
    | .ok node => conclude settings seed place node
    | .error error =>
      if _h : remainder ≠ [] ∧ canSkip error then
        Logged.after [.skipping error (String.ofList (word remainder))]
          (search settings seed line (afterWord remainder) (place.advance (word remainder))
            attempts)
      else giveUp line attempts error
termination_by remainder.length
decreasing_by exact length_afterWord _h.1

end Locate

def calculate (settings : Settings) (seed : Seed) (line : List Char) :
    Attempt Failure Calculation :=
  let trimmed := Text.dropWhileEnd Text.isTrailer line
  let lead := Locate.uptoEquals trimmed
  Locate.search settings seed line (trimmed.drop lead.length) (Place.start.advance lead) []

end Reckon
