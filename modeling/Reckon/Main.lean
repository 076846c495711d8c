import Reckon.CommandLine.Run

/-
The program: hands arguments, standard input and a random seed to the command line, and prints what
it answers.
-/

def randomSeed : IO Reckon.Seed := do
  let bytes ← IO.getRandomBytes 8
  return ⟨bytes.toList.foldl (fun state byte => state * 256 + byte.toUInt64) 0⟩

def main (arguments : List String) : IO UInt32 := do
  let request := Reckon.CommandLine.Request.ofArguments arguments
  let stdin ← if request.readsInput then (← IO.getStdin).readBinToEnd else pure ByteArray.empty
  let outcome := Reckon.CommandLine.run request stdin.toList (← randomSeed)
  for print in outcome.prints do
    match print with
    | .out text => (← IO.getStdout).putStr text
    | .err text => (← IO.getStderr).putStr text
  return UInt32.ofNat outcome.code
