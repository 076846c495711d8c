import Reckon.Token.Basic

/-
Why a text is not an expression, and at which character.
-/
namespace Reckon

inductive Expectation where
  | operand
  | openParen
  | closeParen
deriving DecidableEq, Repr

def Expectation.message : Expectation → String
  | operand => "a number, constant or function call"
  | openParen => "'('"
  | closeParen => "')'"

inductive ParseCause where
  | mismatch (expected : Expectation) (found : Token)
  | trailing (found : Token)
  | tooDeep (limit : Nat)
  | symbol (error : BadSymbol)
deriving DecidableEq, Repr

def ParseCause.message : ParseCause → String
  | mismatch expected found => "expected " ++ expected.message ++ ", found " ++ found.describe
  | trailing found => "unexpected " ++ found.describe ++ " after expression"
  | tooDeep limit => "expression nested deeper than " ++ toString limit ++ " levels"
  | symbol error => error.message

/-- Positions count characters from the start of the parsed text. -/
structure ParseError where
  position : Nat
  cause : ParseCause
deriving DecidableEq, Repr

namespace ParseError

def message (error : ParseError) : String :=
  error.cause.message ++ " at position " ++ toString error.position

def isMismatch (error : ParseError) : Bool :=
  match error.cause with
  | .mismatch _ _ => true
  | _ => false

def atOperator (error : ParseError) : Bool :=
  match error.cause with
  | .trailing found => found.operator?.isSome
  | _ => false

end ParseError
end Reckon
