import Reckon.Powers
import Reckon.Settings
import Reckon.Text.Characters

/-
What the arguments of the command line ask for.  Options stand before the command; the argument
after it may start with a hyphen.
-/
namespace Reckon.CommandLine

inductive Command where
  | calc | ast | tokenize
deriving DecidableEq, Repr

def Command.ofName? : String → Option Command
  | "calc" => some .calc
  | "ast" => some .ast
  | "tokenize" => some .tokenize
  | _ => none

/-- Numbers stay texts until the settings are made. -/
structure Options where
  precision : Option String
  depth : Option String
  verbosity : Nat
deriving DecidableEq, Repr

inductive Misuse where
  | noCommand
  | unexpected (argument : String)
  | repeated (option : String)
  | missingValue (option : String)
deriving DecidableEq, Repr

def Misuse.message : Misuse → String
  | noCommand => "no command given"
  | unexpected argument => "unexpected argument '" ++ argument ++ "'"
  | repeated option => "option " ++ option ++ " given more than once"
  | missingValue option => "option " ++ option ++ " requires a value"

inductive Request where
  | run (options : Options) (command : Command) (input : Option String)
  | version
  | help
  | misuse (reason : Misuse)
deriving DecidableEq, Repr

inductive NumberError where
  | empty | invalidDigit | tooLarge
deriving DecidableEq, Repr

def NumberError.message : NumberError → String
  | empty => "cannot parse integer from empty string"
  | invalidDigit => "invalid digit found in string"
  | tooLarge => "number too large to fit in target type"

def readDigits (bound : Nat) : Nat → List Char → Except NumberError Nat
  | n, [] => .ok n
  | n, c :: rest =>
    if Text.isDigit c then
      let n := 10 * n + (c.toNat - '0'.toNat)
      if n < bound then readDigits bound n rest else .error .tooLarge
    else .error .invalidDigit

def readNumber (bound : Nat) (text : String) : Except NumberError Nat :=
  match text.toList with
  | [] => .error .empty
  | ['+'] => .error .invalidDigit
  | '+' :: digits => readDigits bound 0 digits
  | digits => readDigits bound 0 digits

def setting (name : String) (bound : Nat) (text : String) : Except String Nat :=
  match readNumber bound text with
  | .ok n => .ok n
  | .error error => .error ("invalid " ++ name ++ " '" ++ text ++ "': " ++ error.message)

namespace Options

def empty : Options := ⟨none, none, 0⟩

def settings (options : Options) : Except String Settings := do
  let precise ← match options.precision with
    | none => pure Settings.standard
    | some text => (setting "precision" (2 ^ 32) text).map Settings.standard.withPrecision
  match options.depth with
  | none => pure precise
  | some text => (setting "depth" (2 ^ 64) text).map precise.withMaxDepth

def setPrecision (options : Options) (text : String) : Except Misuse Options :=
  if options.precision.isSome then .error (.repeated "--precision")
  else .ok { options with precision := some text }

def setDepth (options : Options) (text : String) : Except Misuse Options :=
  if options.depth.isSome then .error (.repeated "--depth")
  else .ok { options with depth := some text }

end Options

/-- What a run of short options leaves to do: nothing, take the next argument as the precision, or
answer at once. -/
inductive Short where
  | done (options : Options)
  | takesPrecision (options : Options)
  | answer (request : Request)

def readShort (options : Options) : List Char → Short
  | [] => .done options
  | 'v' :: rest => readShort { options with verbosity := options.verbosity + 1 } rest
  | 'h' :: _ => .answer .help
  | 'V' :: _ => .answer .version
  | ['p'] => .takesPrecision options
  | 'p' :: value =>
    match options.setPrecision (String.ofList (value.dropWhile (· == '='))) with
    | .ok options => .done options
    | .error reason => .answer (.misuse reason)
  | c :: _ => .answer (.misuse (.unexpected (String.ofList ['-', c])))

def takeValue (option : String) (attached : Option String) (rest : List String) :
    Except Misuse (String × List String) :=
  match attached, rest with
  | some value, rest => .ok (value, rest)
  | none, [] => .error (.missingValue option)
  | none, value :: rest =>
    if value.startsWith "-" ∧ value ≠ "-" then .error (.missingValue option) else .ok (value, rest)

def readInput (options : Options) (command : Command) : List String → Request
  | [] => .run options command none
  | ["--"] => .run options command none
  | ["-h"] | ["--help"] => .help
  | ["-V"] | ["--version"] => .version
  | [input] => .run options command (some input)
  | ["--", input] => .run options command (some input)
  | _ :: extra :: _ => .misuse (.unexpected extra)

def splitEquals (argument : String) : String × Option String :=
  match argument.toList.dropWhile (· != '=') with
  | [] => (argument, none)
  | _ :: value =>
    (String.ofList (argument.toList.takeWhile (· != '=')), some (String.ofList value))

/-- Reads the options up to the command.  Every step takes at least one argument, so as many steps
as there are arguments suffice. -/
def readOptions : Nat → Options → List String → Request
  | 0, _, _ => .misuse .noCommand
  | _ + 1, _, [] => .misuse .noCommand
  | steps + 1, options, argument :: rest =>
    let next := fun (taken : Except Misuse (Options × List String)) =>
      match taken with
      | .ok (options, rest) => readOptions steps options rest
      | .error reason => .misuse reason
    let precision := fun (options : Options) (attached : Option String) => next do
      let (value, rest) ← takeValue "--precision" attached rest
      return (← options.setPrecision value, rest)
    if argument.startsWith "--" then
      match splitEquals argument with
      | ("--precision", attached) => precision options attached
      | ("--depth", attached) => next do
        let (value, rest) ← takeValue "--depth" attached rest
        return (← options.setDepth value, rest)
      | ("--version", none) => .version
      | ("--help", none) => .help
      | _ => .misuse (.unexpected argument)
    else
      match argument.toList with
      | '-' :: first :: more =>
        match readShort options (first :: more) with
        | .done options => readOptions steps options rest
        | .takesPrecision options => precision options none
        | .answer request => request
      | _ =>
        match Command.ofName? argument with
        | some command => readInput options command rest
        | none => if argument = "help" then .help else .misuse (.unexpected argument)

def Request.ofArguments (arguments : List String) : Request :=
  readOptions (arguments.length + 1) Options.empty arguments

/-- Whether the request reads the standard input: settings are checked first, and a line among the
arguments takes its place. -/
def Request.readsInput : Request → Bool
  | .run options _ none => options.settings.toBool
  | _ => false

end Reckon.CommandLine
