import Reckon.CommandLine.Request
import Reckon.Locate
import Reckon.Text.Lines

/-
Running a request on the lines that it is given.  A line that fails is reported and does not stop
the lines after it.
-/
namespace Reckon.CommandLine

inductive Print where
  | out (text : String)
  | err (text : String)
deriving DecidableEq, Repr

structure Outcome where
  prints : List Print
  code : Nat
deriving DecidableEq, Repr

namespace Outcome

def stdout (outcome : Outcome) : String :=
  String.join (outcome.prints.filterMap fun | .out text => some text | .err _ => none)

def stderr (outcome : Outcome) : String :=
  String.join (outcome.prints.filterMap fun | .err text => some text | .out _ => none)

end Outcome

def errorLine (message : String) : Print := .err ("error: " ++ message ++ "\n")

def logLines (verbosity : Nat) (events : List Event) : List Print :=
  (events.filter (·.level.shownAt verbosity)).map fun event => .err (event.line ++ "\n")

structure LineOutcome where
  prints : List Print
  succeeded : Bool
deriving DecidableEq, Repr

def calcLine (settings : Settings) (verbosity : Nat) (seed : Seed) (line : List Char) :
    LineOutcome :=
  let attempt := calculate settings seed line
  match attempt.value with
  | .ok calculation =>
    let expression := String.ofList (calculation.expression line)
    let events := attempt.events ++ [.evaluated expression calculation.skip]
    ⟨logLines verbosity events ++ [.out (calculation.result ++ "\n")], true⟩
  | .error error => ⟨logLines verbosity attempt.events ++ [errorLine error.message], false⟩

def astLine (settings : Settings) (verbosity : Nat) (line : List Char) : LineOutcome :=
  let attempt := Parse.text settings.maxDepth line
  let log := logLines verbosity attempt.events
  match attempt.value with
  | .ok node => ⟨log ++ [.out (node.render ++ "\n")], true⟩
  | .error error =>
    let message := "could not parse " ++ Text.quote '"' line ++ ": " ++ error.message
    ⟨log ++ [errorLine message], false⟩

def listing : Nat → List Lexeme → List Print
  | _, [] => []
  | depth, lexeme :: rest =>
    let depth := if lexeme.token = .closeParen then depth - 1 else depth
    let inside := if lexeme.token = .openParen then depth + 1 else depth
    .out ("".pushn '\t' depth ++ lexeme.listed ++ "\n") :: listing inside rest

def tokenizeLine (line : List Char) : LineOutcome := ⟨listing 0 (lexemes line), true⟩

def runLine (settings : Settings) (verbosity : Nat) (seed : Seed) (line : String) :
    Command → LineOutcome
  | .calc => calcLine settings verbosity seed line.toList
  | .ast => astLine settings verbosity line.toList
  | .tokenize => tokenizeLine line.toList

def runLines (settings : Settings) (verbosity : Nat) (command : Command) :
    Seed → List String → List LineOutcome
  | _, [] => []
  | seed, line :: rest =>
    runLine settings verbosity seed.left line command
      :: runLines settings verbosity command seed.right rest

def failure (message : String) : Outcome := ⟨[errorLine message], 2⟩

def usage : String :=
  "usage: editor_calc [-p PRECISION] [--depth DEPTH] [-v] calc|ast|tokenize [INPUT]\n"

def run (request : Request) (stdin : List UInt8) (seed : Seed) : Outcome :=
  match request with
  | .version => ⟨[.out "editor_calc 0.1.0\n"], 0⟩
  | .help => ⟨[.out usage], 0⟩
  | .misuse reason => ⟨[errorLine reason.message, .err usage], 1⟩
  | .run options command input =>
    match options.settings with
    | .error message => failure message
    | .ok settings =>
      let lines := match input with
        | some line => some [line]
        | none => Text.lines? stdin
      match lines with
      | none => failure "could not read stdin: stream did not contain valid UTF-8"
      | some lines =>
        let outcomes := runLines settings options.verbosity command seed lines
        ⟨outcomes.flatMap (·.prints), if outcomes.all (·.succeeded) then 0 else 1⟩

end Reckon.CommandLine
