import Reckon.Journal
import Reckon.Node.Chain
import Reckon.Token.Lexer

/-
Reading a list of tokens as an expression:

  line       := expression ['='] eof
  expression := operand (operator operand)*
  operand    := ['+' | '-'] (atom | '(' expression ')')
  atom       := number | constant | function '(' [expression (',' expression)*] ')'

A budget counts the nesting levels that may still be opened.  Parentheses and calls take one level
for what is inside them; every operator takes one for the rest of its expression.
-/
namespace Reckon.Parse

abbrev Parsed : Type → Type := Attempt ParseError

abbrev Reading (α : Type) : Type := α × List Lexeme

abbrev Rule (α : Type) : Type := List Lexeme → Parsed (Reading α)

variable {α : Type}

/-- The next token.  A list that ran out reads as the end of the input. -/
def peek : List Lexeme → Lexeme
  | [] => ⟨.eof, .start, .start⟩
  | lexeme :: _ => lexeme

def failAt (tokens : List Lexeme) (cause : ParseCause) : Parsed α :=
  .fail ⟨(peek tokens).first.char, cause⟩

def mismatch (expected : Expectation) (tokens : List Lexeme) : Parsed α :=
  failAt tokens (.mismatch expected (peek tokens).token)

def named (position : Nat) (node : Except BadSymbol Node) : Parsed Node :=
  match node with
  | .ok node => .ok node
  | .error error => .fail ⟨position, .symbol error⟩

def expect (token : Token) (expected : Expectation) (tokens : List Lexeme) :
    Parsed (List Lexeme) :=
  if (peek tokens).token = token then .ok tokens.tail else mismatch expected tokens

def arguments (expression : Rule Node) : Nat → Rule (List Node)
  | 0, tokens => mismatch .operand tokens
  | count + 1, tokens => do
    let (first, rest) ← expression tokens
    if (peek rest).token = .comma then
      let (more, rest) ← arguments expression count rest.tail
      return (first :: more, rest)
    else return ([first], rest)

/-- What stands between an opening parenthesis, which is the next token, and the closing one.
Without a level left for the inside, the opening parenthesis is one too many. -/
def parenthesized (limit : Nat) (inside : Option (Rule α)) : Rule α := fun tokens =>
  match inside with
  | none => failAt tokens (.tooDeep limit)
  | some inside => do
    let rest ← expect .openParen .openParen tokens
    let (value, rest) ← inside rest
    let rest ← expect .closeParen .closeParen rest
    return (value, rest)

def argumentList (expression : Rule Node) : Rule (List Node) := fun tokens =>
  if (peek tokens).token = .closeParen then .ok ([], tokens)
  else arguments expression tokens.length tokens

def atom (limit : Nat) (inside : Option (Rule Node)) : Rule Node := fun tokens =>
  let here := peek tokens
  let rest := tokens.tail
  match here.token with
  | .number raw => .ok (.literal raw, rest)
  | .identifier name =>
    if (peek rest).token = .openParen then do
      let (args, rest) ← parenthesized limit (inside.map argumentList) rest
      let node ← named here.first.char (Node.namedCall name args)
      return (node, rest)
    else if Constant.hasForm name then do
      let node ← named here.first.char (Node.namedConstant name)
      return (node, rest)
    else mismatch .operand tokens
  | _ => mismatch .operand tokens

def unsigned (limit : Nat) (inside : Option (Rule Node)) : Rule Node := fun tokens =>
  if (peek tokens).token = .openParen then parenthesized limit inside tokens
  else atom limit inside tokens

def sign? : Token → Option Sign
  | .operator .add => some .plus
  | .operator .sub => some .minus
  | _ => none

def signedOperand (limit : Nat) (inside : Option (Rule Node)) : Rule Node := fun tokens =>
  match sign? (peek tokens).token with
  | some sign => do
    let (node, rest) ← unsigned limit inside tokens.tail
    return (node.sign [sign], rest)
  | none => unsigned limit inside tokens

def chained (operand : Rule Node) (links : Rule (List (Operator × Node))) : Rule Node :=
    fun tokens => do
  let (first, rest) ← operand tokens
  let (links, rest) ← links rest
  if links.isEmpty then return (first, rest)
  else
    Attempt.note (.resolved links.length)
    return (Node.ofChain first links, rest)

/-- An operator that no operand follows is given back, and the links end before it. -/
def link (operator : Operator) (tokens : List Lexeme) (operand : Parsed (Reading Node)) :
    Parsed (Reading (Option Node)) :=
  Attempt.recover (do let (node, rest) ← operand; return (some node, rest)) fun error =>
    if error.isMismatch then
      some (do Attempt.note (.retracted operator error); return (none, tokens))
    else none

mutual

def operand (limit : Nat) : Nat → Rule Node
  | 0, tokens => signedOperand limit none tokens
  | budget + 1, tokens =>
    signedOperand limit (some (chained (operand limit budget) (links limit budget))) tokens

def links (limit : Nat) : Nat → Rule (List (Operator × Node))
  | 0, tokens =>
    match (peek tokens).token.operator? with
    | none => .ok ([], tokens)
    | some _ => failAt tokens (.tooDeep limit)
  | budget + 1, tokens =>
    match (peek tokens).token.operator? with
    | none => .ok ([], tokens)
    | some operator => do
      let (node, rest) ← link operator tokens (operand limit budget tokens.tail)
      match node with
      | none => return ([], rest)
      | some node =>
        let (more, rest) ← links limit budget rest
        return ((operator, node) :: more, rest)

end

def expression (limit budget : Nat) : Rule Node :=
  chained (operand limit budget) (links limit budget)

def line (limit : Nat) (tokens : List Lexeme) : Parsed Node := do
  let (node, rest) ← expression limit limit tokens
  let rest := if (peek rest).token = .equals then rest.tail else rest
  if (peek rest).token = .eof then return node
  else failAt rest (.trailing (peek rest).token)

def text (limit : Nat) (source : List Char) : Parsed Node :=
  line limit (lexemes source)

end Reckon.Parse
