import Reckon.Proofs.Joining
import Reckon.Proofs.Search
import Reckon.Proofs.Seeds

/-
The expression of a calculation stands for the calculation.  It is cut out of the line between the
place that the search came to and what closes the line; it reads as the tree that was evaluated
there, and calculates to the same result by itself.
-/
namespace Reckon
open Text

namespace Parse

variable {limit : Nat} {first second source : List Char} {node : Node}

theorem text_congr (same : tokensOf first = tokensOf second)
    (read : (text limit first).value = .ok node) : (text limit second).value = .ok node := by
  rw [text_ok] at read ⊢
  rwa [← same]

theorem visible_of_text (read : (text limit source).value = .ok node) :
    source.dropWhile isBlank ≠ [] := by
  intro blank
  have ends : tokensOf source = tokensOf [] := tokensOf_congr blank
  obtain ⟨level, _, derived⟩ := text_ok.mp read
  rw [ends, tokensOf_nil] at derived
  cases derived with
  | bare phrase => exact absurd phrase.shorter (by decide)
  | equals phrase => exact absurd phrase.shorter (by decide)

end Parse

namespace Locate

variable {settings : Settings} {seed : Seed} {line text expression : List Char} {place : Nat}
  {result : Except ParseError Node} {calculation : Calculation}

/-- The place that a search of a text comes to, and what is read there: the first start whose
reading settles the matter. -/
structure Settled (settings : Settings) (text : List Char) (place : Nat)
    (result : Except ParseError Node) : Prop where
  first : (starts text).find? (fun place => decisive (reading settings text place)) = some place
  read : reading settings text place = result

theorem Settled.start (settled : Settled settings text place result) :
    place ≤ text.length ∧ isStart text place :=
  mem_starts.mp (List.mem_of_find?_eq_some settled.first)

theorem Settled.clear (settled : Settled settings text place result) : '=' ∉ text.drop place := by
  have start := settled.start.2
  rw [isStart, Bool.and_eq_true] at start
  simpa using start.1

theorem calculate_answers (settled : Settled settings (dropWhileEnd isTrailer line) place result)
    (seed : Seed) :
    Answers settings seed line place result (calculate settings seed line).value := by
  obtain ⟨before, after, trimmed, clear, start, first, run⟩ := calculate_search line
  have found := settled.first
  have decided := search_decided settings seed line before after [] start clear
  rw [trimmed, first] at found
  have answer := decided.first place found
  rwa [← trimmed, settled.read, ← run] at answer

theorem calculate_settled (settings : Settings) (seed : Seed) (line : List Char) :
    (∃ place result, Settled settings (dropWhileEnd isTrailer line) place result) ∨
      ∃ marker, (calculate settings seed line).value =
        .error (.exhausted (String.ofList line) marker) := by
  cases found : (starts (dropWhileEnd isTrailer line)).find? fun place =>
    decisive (reading settings (dropWhileEnd isTrailer line) place) with
  | some place => exact .inl ⟨place, _, found, rfl⟩
  | none =>
    obtain ⟨before, after, trimmed, clear, start, first, run⟩ := calculate_search line
    have decided := search_decided settings seed line before after [] start clear
    rw [trimmed, first] at found
    rw [run]
    exact .inr (decided.none found)

theorem calculate_located (run : (calculate settings seed line).value = .ok calculation) :
    ∃ node value, Settled settings (dropWhileEnd isTrailer line) calculation.skip (.ok node) ∧
      node.evaluate settings.workingPrecision seed = .ok value ∧
      calculation.result = value.toCanonical := by
  rcases calculate_settled settings seed line with ⟨place, result, settled⟩ | ⟨marker, failed⟩
  · have answer := calculate_answers settled seed
    rw [run] at answer
    cases answer with
    | value evaluated => exact ⟨_, _, settled, evaluated, rfl⟩
  · simp [run] at failed

/-- A calculation depends on nothing but the readings at the places that are tried, and on the value
of the tree that is found. -/
theorem calculate_congr {first second : Settings} {seed other : Seed}
    (agree : ∀ place ∈ tried first (dropWhileEnd isTrailer line)
        (starts (dropWhileEnd isTrailer line)),
      reading first (dropWhileEnd isTrailer line) place =
        reading second (dropWhileEnd isTrailer line) place)
    (settle : ∀ place node, Settled first (dropWhileEnd isTrailer line) place (.ok node) →
      node.evaluate first.workingPrecision seed = node.evaluate second.workingPrecision other) :
    (calculate first seed line).value = (calculate second other line).value := by
  obtain ⟨before, after, trimmed, clear, start, onward, run⟩ := calculate_search line
  rw [trimmed] at agree settle
  rw [onward] at agree
  rw [run, run]
  refine search_congr start clear agree ?_
  intro place node found read
  rw [← onward] at found
  exact settle place node ⟨found, read⟩

/-- An expression that a line holds behind some of its characters: blanks come before it, and blanks
and equals signs after it, none of which is part of it. -/
structure CutOut (line : List Char) (skip : Nat) (expression : List Char) : Prop where
  spelled : ∃ front gap tail, line = front ++ gap ++ expression ++ tail ∧ front.length = skip ∧
    (∀ c ∈ gap, isBlank c) ∧ ∀ c ∈ tail, isTrailer c
  some : expression ≠ []
  clear : '=' ∉ expression
  head : ∀ c, expression.head? = .some c → isBlank c = false
  last : ∀ c, expression.getLast? = .some c → isBlank c = false

theorem expression_eq {front rest : List Char} (split : dropWhileEnd isTrailer line = front ++ rest)
    (length : front.length = calculation.skip) (clear : '=' ∉ rest)
    (visible : rest.dropWhile isBlank ≠ []) :
    calculation.expression line = rest.dropWhile isBlank ∧
      CutOut line calculation.skip (rest.dropWhile isBlank) := by
  obtain ⟨tail, spelled, drops⟩ := dropWhileEnd_append isTrailer line
  rw [split] at spelled
  have body : rest.takeWhile isBlank ++ rest.dropWhile isBlank = rest :=
    List.takeWhile_append_dropWhile
  -- No equals sign is left before the blanks at the end, so both trimmings stop at one character.
  have last : ∀ c, (rest.dropWhile isBlank).getLast? = some c → isTrailer c = false := by
    intro c ends
    have whole : (dropWhileEnd isTrailer line).getLast? = some c := by
      rw [split, ← body, ← List.append_assoc, List.getLast?_append, ends, Option.some_or]
    exact dropWhileEnd_getLast? whole
  have rear : line.drop calculation.skip = rest ++ tail := by
    rw [spelled, List.append_assoc, ← length, List.drop_left]
  constructor
  · have kept : (rest ++ tail).dropWhile isBlank = rest.dropWhile isBlank ++ tail := by
      rw [List.dropWhile_append, if_neg (by simpa using visible)]
    rw [Calculation.expression, rear, kept, dropWhileEnd_eq last drops]
  · refine ⟨⟨front, rest.takeWhile isBlank, tail, ?_, length, ?_, drops⟩, visible, ?_, ?_, ?_⟩
    · rw [List.append_assoc front (rest.takeWhile isBlank), body, spelled]
    · exact fun c => List.mem_takeWhile_imp
    · exact fun mem => clear ((List.dropWhile_suffix isBlank).mem mem)
    · intro c head
      obtain ⟨more, same⟩ := List.head?_eq_some_iff.mp head
      exact head_dropWhile same
    · intro c ends
      have other := last c ends
      rw [isTrailer, Bool.or_eq_false_iff] at other
      exact other.1

/-- The expression of a calculation is cut out of its line, reads as the tree that was evaluated,
and calculates to the same result, if that is not a matter of chance. -/
theorem calculate_expression {settings : Settings} {seed : Seed} {line : List Char}
    {calculation : Calculation} (run : (calculate settings seed line).value = .ok calculation) :
    CutOut line calculation.skip (calculation.expression line) ∧
      ∃ node value, Settled settings (dropWhileEnd isTrailer line) calculation.skip (.ok node) ∧
        node.evaluate settings.workingPrecision seed = .ok value ∧
        calculation.result = value.toCanonical ∧
        (Parse.text settings.maxDepth (calculation.expression line)).value = .ok node ∧
        (node.Drawless → ∀ other, (calculate settings other (calculation.expression line)).value =
          .ok ⟨0, calculation.result⟩) := by
  obtain ⟨node, value, settled, evaluated, result⟩ := calculate_located run
  have inside := settled.start.1
  have split : dropWhileEnd isTrailer line =
      (dropWhileEnd isTrailer line).take calculation.skip ++
        (dropWhileEnd isTrailer line).drop calculation.skip := (List.take_append_drop _ _).symm
  have visible := Parse.visible_of_text settled.read
  obtain ⟨same, cut⟩ := expression_eq split (List.length_take_of_le inside) settled.clear visible
  rw [← same] at cut
  have read : (Parse.text settings.maxDepth (calculation.expression line)).value = .ok node := by
    refine Parse.text_congr (tokensOf_congr ?_) settled.read
    rw [same, List.dropWhile_idempotent]
  refine ⟨cut, node, value, settled, evaluated, result, read, ?_⟩
  intro drawless other
  rw [drawless.evaluate_seed seed other] at evaluated
  -- By itself the expression has nothing to skip at either end: its search ends where it starts.
  have closes : ∀ c, (calculation.expression line).getLast? = some c → isTrailer c = false := by
    intro c last
    have unequal : c ≠ '=' := ne_of_mem_of_not_mem (List.mem_of_getLast? last) cut.clear
    simpa [isTrailer, cut.last c last] using unequal
  rw [calculate_clear closes cut.clear, search_ok read]
  change (conclude settings other Place.start node).value = _
  rw [conclude, evaluated, result]
  rfl

theorem assigned_sum_expression :
    (calculate .standard ⟨0⟩ "x = 1 + 2 =".toList).value = .ok ⟨3, "3"⟩ ∧
      CutOut "x = 1 + 2 =".toList 3 "1 + 2".toList ∧
      ∀ other, (calculate .standard other "1 + 2".toList).value = .ok ⟨0, "3"⟩ := by
  have run : (calculate .standard ⟨0⟩ "x = 1 + 2 =".toList).value = .ok ⟨3, "3"⟩ := by
    decide +kernel
  have same : Calculation.expression ⟨3, "3"⟩ "x = 1 + 2 =".toList = "1 + 2".toList := by decide
  obtain ⟨cut, node, value, _, _, _, read, again⟩ := calculate_expression run
  rw [same] at cut read again
  have spelled : tokensOf "1 + 2".toList = [.number "1", .operator .add, .number "2", .eof] := by
    decide +kernel
  have derived : Grammar.Line (tokensOf "1 + 2".toList)
      (.binary (.literal "1") .add (.literal "2")) 1 := by
    rw [spelled]
    exact .bare (.chain (.bare (.number "1")) (.cons (.bare (.number "2")) .nil))
  have tree : (Parse.text 256 "1 + 2".toList).value =
      .ok (.binary (.literal "1") .add (.literal "2")) :=
    Parse.text_ok.mpr ⟨1, by decide, derived⟩
  obtain rfl : node = _ := Except.ok.inj (read.symm.trans tree)
  refine ⟨run, cut, again ?_⟩
  intro f args part
  cases part with
  | inside mem below =>
    rcases List.mem_pair.mp mem with rfl | rfl
    all_goals
      cases below with
      | inside mem _ => cases mem

end Locate
end Reckon
