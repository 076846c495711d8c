import Reckon.CommandLine.Run
import Reckon.Proofs.Chance
import Reckon.Proofs.Options
import Reckon.Proofs.Streams

/-
A run of the command line on a stream.  It is refused as a whole, before any line is looked at, or
it is put together from the runs on its single lines.
-/
namespace Reckon.CommandLine
open Text

structure Refused (message : String) (outcome : Outcome) : Prop where
  code : outcome.code = 2
  stdout : outcome.stdout = ""
  stderr : outcome.stderr = "error: " ++ message ++ "\n"

/-- The outcome is made of others: what they print in their order, and a code that says whether all
of them succeeded. -/
structure Composed (parts : List Outcome) (whole : Outcome) : Prop where
  prints : whole.prints = parts.flatMap (·.prints)
  stdout : whole.stdout = String.join (parts.map (·.stdout))
  stderr : whole.stderr = String.join (parts.map (·.stderr))
  code : whole.code = if ∀ part ∈ parts, part.code = 0 then 0 else 1

/-- Whether a line is handled in the same way every time: without a log, and with no random calls
in the tree that is found in it. -/
def Steady (settings : Settings) (verbosity : Nat) (text : String) : Command → Prop
  | .calc => verbosity = 0 ∧ ∀ place node,
      Locate.Settled settings (dropWhileEnd isTrailer text.toList) place (.ok node) → node.Drawless
  | .ast | .tokenize => True

variable {options : Options} {settings : Settings} {verbosity : Nat} {command : Command}
  {text : String} {texts : List String} {seed : Seed} {stdin : List UInt8}

theorem refused_failure (message : String) : Refused message (failure message) where
  code := rfl
  stdout := rfl
  stderr := by
    change String.join ["error: " ++ message ++ "\n"] = _
    simp

theorem join_flatMap (parts : List Outcome) (texts : Print → Option String) :
    String.join ((parts.flatMap (·.prints)).filterMap texts) =
      String.join (parts.map fun part => String.join (part.prints.filterMap texts)) := by
  induction parts with
  | nil => rfl
  | cons part parts ih =>
    rw [List.flatMap_cons, List.filterMap_append, String.join_append, ih, List.map_cons,
      String.join_cons]

theorem composed_of_prints {parts : List Outcome} {whole : Outcome}
    (prints : whole.prints = parts.flatMap (·.prints))
    (code : whole.code = if ∀ part ∈ parts, part.code = 0 then 0 else 1) :
    Composed parts whole where
  prints := prints
  stdout := by
    rw [Outcome.stdout, prints]
    exact join_flatMap parts _
  stderr := by
    rw [Outcome.stderr, prints]
    exact join_flatMap parts _
  code := code

theorem logLines_zero (events : List Event) : logLines 0 events = [] := by
  have hidden : ∀ event ∈ events, ¬ event.level.shownAt 0 = true := by
    intro event _
    cases event.level <;> decide
  rw [logLines, List.filter_eq_nil_iff.mpr hidden]
  rfl

theorem calcLine_quiet (settings : Settings) (seed : Seed) (line : List Char) :
    calcLine settings 0 seed line =
      match (calculate settings seed line).value with
      | .ok calculation => ⟨[.out (calculation.result ++ "\n")], true⟩
      | .error error => ⟨[errorLine error.message], false⟩ := by
  unfold calcLine
  simp only [logLines_zero]
  cases (calculate settings seed line).value <;> rfl

theorem runLine_steady (steady : Steady settings verbosity text command) (seed other : Seed) :
    runLine settings verbosity seed text command =
      runLine settings verbosity other text command := by
  match command, steady with
  | .ast, _ | .tokenize, _ => rfl
  | .calc, ⟨quiet, drawless⟩ =>
    have value := Locate.calculate_seed drawless seed other
    rw [quiet, runLine, runLine, calcLine_quiet, calcLine_quiet, value]

theorem steady_of_clear (quiet : verbosity = 0)
    (clear : Token.identifier Function.random.name ∉ tokensOf text.toList) (settings : Settings)
    (command : Command) : Steady settings verbosity text command := by
  match command with
  | .ast | .tokenize => trivial
  | .calc => exact ⟨quiet, fun place node => Locate.drawless_of_settled clear⟩

theorem runLines_eq (steady : ∀ text ∈ texts, Steady settings verbosity text command)
    (seed : Seed) (seeds : String → Seed) :
    runLines settings verbosity command seed texts =
      texts.map fun text => runLine settings verbosity (seeds text) text command := by
  induction texts generalizing seed with
  | nil => rfl
  | cons text texts ih =>
    obtain ⟨first, rest⟩ := List.forall_mem_cons.mp steady
    rw [runLines, List.map_cons, ih rest, runLine_steady first seed.left (seeds text)]

theorem run_refused {message : String} (bad : options.settings = .error message) :
    run (.run options command none) stdin seed = failure message := by
  rw [run, bad]

theorem run_undecoded (read : options.settings = .ok settings) (bad : lines? stdin = none) :
    run (.run options command none) stdin seed =
      failure "could not read stdin: stream did not contain valid UTF-8" := by
  simp only [run, read, bad]

theorem run_stdin (read : options.settings = .ok settings) (lines : lines? stdin = some texts) :
    run (.run options command none) stdin seed =
      ⟨(runLines settings options.verbosity command seed texts).flatMap (·.prints),
        if (runLines settings options.verbosity command seed texts).all (·.succeeded)
        then 0 else 1⟩ := by
  simp only [run, read, lines]

theorem run_input (read : options.settings = .ok settings) :
    run (.run options command (some text)) stdin seed =
      ⟨(runLine settings options.verbosity seed.left text command).prints,
        if (runLine settings options.verbosity seed.left text command).succeeded
        then 0 else 1⟩ := by
  simp only [run, read, runLines, List.flatMap_cons, List.flatMap_nil, List.append_nil,
    List.all_cons, List.all_nil, Bool.and_true]

theorem run_composed (read : options.settings = .ok settings) (lines : lines? stdin = some texts)
    (steady : ∀ text ∈ texts, Steady settings options.verbosity text command)
    (seed : Seed) (seeds : String → Seed) :
    Composed (texts.map fun text => run (.run options command (some text)) [] (seeds text))
      (run (.run options command none) stdin seed) := by
  have alone : runLines settings options.verbosity command seed texts = _ :=
    runLines_eq steady seed fun text => (seeds text).left
  rw [run_stdin read lines, alone]
  simp only [run_input read]
  refine composed_of_prints ?_ ?_
  · simp only [List.flatMap_map]
  · simp

/-- A run whose options are not numbers, or with a line that is not UTF-8, prints nothing but a
complaint, which is the same for every command.  Any other run is put together from the runs on each
of its lines alone. -/
theorem run_lineByLine (options : Options) (stdin : List UInt8) :
    (∃ raws, Lined stdin raws) ∧ ∀ raws, Lined stdin raws →
      (¬ options.Readable ∨ (∃ raw ∈ raws, ∀ text, ¬ Decodes raw text) →
        ∃ message, ∀ command seed, Refused message (run (.run options command none) stdin seed)) ∧
      (options.Readable → ∃ settings, options.settings = .ok settings ∧
        ∀ texts, List.Forall₂ Decodes raws texts →
        ∀ command, (∀ text ∈ texts, Steady settings options.verbosity text command) →
        ∀ (seed : Seed) (seeds : String → Seed),
          Composed (texts.map fun text => run (.run options command (some text)) [] (seeds text))
            (run (.run options command none) stdin seed)) := by
  refine ⟨exists_lined stdin, fun raws lined => ⟨fun bad => ?_, fun readable => ?_⟩⟩
  · cases read : options.settings with
    | error message =>
      refine ⟨message, fun command seed => ?_⟩
      rw [run_refused read]
      exact refused_failure message
    | ok settings =>
      have undecoded := bad.resolve_left (not_not.mpr (Options.exists_settings.mp ⟨settings, read⟩))
      refine ⟨"could not read stdin: stream did not contain valid UTF-8", fun command seed => ?_⟩
      rw [run_undecoded read ((lines?_eq_none lined).mpr undecoded)]
      exact refused_failure _
  · obtain ⟨settings, read⟩ := Options.exists_settings.mpr readable
    refine ⟨settings, read, fun texts decodes command steady seed seeds => ?_⟩
    exact run_composed read ((lines?_eq_some lined).mpr decodes) steady seed seeds

theorem strayParenthesis_lineByLine :
    let stdin : List UInt8 := [50, 47, 51, 13, 10, 41, 10, 55]
    let whole := run (.run ⟨some "+3", none, 0⟩ .calc none) stdin ⟨1⟩
    whole.stdout = "0.667\n7\n" ∧ whole.stderr = "error: no expression found:\n)\n^\n" ∧
      whole.code = 1 := by
  intro stdin whole
  have last : Lined [55] [[55]] := .last (by decide) (by decide)
  have second : Lined [41, 10, 55] [[41, 10], [55]] :=
    .line (by decide : 10 ∉ ([41] : List UInt8)) last
  have lined : Lined stdin [[50, 47, 51, 13, 10], [41, 10], [55]] :=
    .line (by decide : 10 ∉ ([50, 47, 51, 13] : List UInt8)) second
  have readable : Options.Readable ⟨some "+3", none, 0⟩ := by
    refine ⟨?_, nofun⟩
    rintro _ ⟨⟩
    have three : ∀ c ∈ ['3'], isDigit c := by simp [isDigit]
    exact ⟨3, .plus (by decide) three (by decide)⟩
  have decodes : List.Forall₂ Decodes [[50, 47, 51, 13, 10], [41, 10], [55]] ["2/3", ")", "7"] :=
    .cons rfl (.cons rfl (.cons rfl .nil))
  obtain ⟨settings, _, composed⟩ :=
    ((run_lineByLine ⟨some "+3", none, 0⟩ stdin).2 _ lined).2 readable
  have clear : ∀ text ∈ ["2/3", ")", "7"],
      Token.identifier Function.random.name ∉ tokensOf text.toList := by
    decide +kernel
  have parts := composed _ decodes .calc
    (fun text mem => steady_of_clear rfl (clear text mem) settings .calc) ⟨1⟩ fun _ => ⟨0⟩
  have alone : (["2/3", ")", "7"].map fun text =>
        run (.run ⟨some "+3", none, 0⟩ .calc (some text)) [] ⟨0⟩) =
      [⟨[.out "0.667\n"], 0⟩, ⟨[.err "error: no expression found:\n)\n^\n"], 1⟩,
        ⟨[.out "7\n"], 0⟩] := by
    decide +kernel
  rw [alone] at parts
  exact ⟨parts.stdout, parts.stderr, parts.code⟩

end Reckon.CommandLine
