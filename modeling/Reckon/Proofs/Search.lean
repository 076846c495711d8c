import Reckon.Proofs.Reports
import Reckon.Proofs.Starts

/-
What a search of a line comes to.  Its starts are tried one after another, up to the first whose
reading settles the matter; that reading alone is the answer.
-/
namespace Reckon.Locate
open Text

variable {settings : Settings} {seed : Seed} {line text : List Char} {place : Nat}

def reading (settings : Settings) (text : List Char) (place : Nat) : Except ParseError Node :=
  (Parse.text settings.maxDepth (text.drop place)).value

def decisive : Except ParseError Node → Bool
  | .ok _ => true
  | .error error =>
    match error.cause with
    | .mismatch _ _ => false
    | .trailing _ => error.atOperator
    | .tooDeep _ | .symbol _ => true

theorem decisive_error (error : ParseError) : decisive (.error error) = !canSkip error := by
  obtain ⟨position, cause⟩ := error
  cases cause with
  | trailing found =>
    simp only [decisive, canSkip, ParseError.atOperator]
    cases found.operator? <;> rfl
  | _ => rfl

inductive Answers (settings : Settings) (seed : Seed) (line : List Char) (place : Nat) :
    Except ParseError Node → Except Failure Calculation → Prop where
  | value (run : node.evaluate settings.workingPrecision seed = .ok result) :
      Answers settings seed line place (.ok node) (.ok ⟨place, result.toCanonical⟩)
  | noValue (run : node.evaluate settings.workingPrecision seed = .error reason) :
      Answers settings seed line place (.ok node) (.error (.arithmetic reason))
  | tooDeep (position limit : Nat) :
      Answers settings seed line place (.error ⟨position, .tooDeep limit⟩)
        (.error (.parse ⟨position, .tooDeep limit⟩))
  | symbol (position : Nat) (bad : BadSymbol) :
      Answers settings seed line place (.error ⟨position, .symbol bad⟩)
        (.error (.parse ⟨position, .symbol bad⟩))
  | operator (position : Nat) (op : Operator) (marker : String) :
      Answers settings seed line place (.error ⟨position, .trailing (.operator op)⟩)
        (.error (.exhausted (String.ofList line) marker))

def attempts (events : List Event) : List (String × Nat) := events.filterMap Event.attempt?

def attemptAt (text : List Char) (place : Nat) : String × Nat :=
  (String.ofList (text.drop place), (String.ofList (text.take place)).utf8ByteSize)

def tried (settings : Settings) (text : List Char) (places : List Nat) : List Nat :=
  places.takeWhile (fun place => !decisive (reading settings text place)) ++
    (places.find? fun place => decisive (reading settings text place)).toList

/-- A search of a text tries the given places in turn, and the first decisive one settles it. -/
structure Decided (settings : Settings) (seed : Seed) (line text : List Char) (places : List Nat)
    (search : Attempt Failure Calculation) : Prop where
  first : ∀ place, places.find? (fun place => decisive (reading settings text place)) = some place →
    Answers settings seed line place (reading settings text place) search.value
  none : places.find? (fun place => decisive (reading settings text place)) = none →
    ∃ marker, search.value = .error (.exhausted (String.ofList line) marker)
  attempts : attempts search.events = (tried settings text places).map (attemptAt text)

theorem attempts_after {remainder : String} {offset : Nat} (run : Parse.Parsed Node)
    (quiet : Parse.Quiet run) (next : Attempt Failure Calculation) :
    attempts (Logged.after (.attempting remainder offset :: run.events) next).events =
      (remainder, offset) :: attempts next.events := by
  have silent : run.events.filterMap Event.attempt? = [] :=
    List.filterMap_eq_nil_iff.mpr quiet
  change _ :: (run.events ++ next.events).filterMap Event.attempt? = _
  rw [List.filterMap_append, silent]
  rfl

theorem decided_here {others : List Nat} {search : Attempt Failure Calculation}
    (decides : decisive (reading settings text place))
    (answer : Answers settings seed line place (reading settings text place) search.value)
    (once : attempts search.events = [attemptAt text place]) :
    Decided settings seed line text (place :: others) search where
  first := by
    intro other found
    obtain rfl : place = other := by simpa [decides] using found
    exact answer
  none := by simp [decides]
  attempts := by simp [tried, decides, once]

theorem decided_later {others : List Nat} {search next : Attempt Failure Calculation}
    (undecided : decisive (reading settings text place) = false)
    (later : Decided settings seed line text others next) (value : search.value = next.value)
    (more : attempts search.events = attemptAt text place :: attempts next.events) :
    Decided settings seed line text (place :: others) search where
  first := by
    intro other found
    rw [value]
    exact later.first other (by simpa [undecided] using found)
  none := by
    intro nothing
    rw [value]
    exact later.none (by simpa [undecided] using nothing)
  attempts := by
    rw [more, later.attempts]
    simp [tried, undecided]

theorem answers_conclude (place : Place) (settings : Settings) (seed : Seed) (line : List Char)
    (node : Node) :
    Answers settings seed line place.char (.ok node) (conclude settings seed place node).value ∧
      attempts (conclude settings seed place node).events = [] := by
  unfold conclude
  cases run : node.evaluate settings.workingPrecision seed with
  | error reason => exact ⟨.noValue run, rfl⟩
  | ok value => exact ⟨.value run, rfl⟩

theorem attempts_giveUp (line : List Char) (earlier : List Nat) (error : ParseError) :
    attempts (giveUp line earlier error).events = [] := by
  obtain ⟨position, cause⟩ := error
  cases cause <;> rfl

/-- An error that does not let the search go on settles it: an operator without an operand means
that nothing was found, and all else is reported as it is. -/
theorem answers_giveUp {error : ParseError} (stops : canSkip error = false) (place : Nat)
    (settings : Settings) (seed : Seed) (line : List Char) (earlier : List Nat) :
    Answers settings seed line place (.error error) (giveUp line earlier error).value := by
  obtain ⟨position, cause⟩ := error
  cases cause with
  | mismatch expected found => simp [canSkip] at stops
  | trailing found =>
    cases found with
    | operator op => exact .operator position op _
    | _ => simp [canSkip, Token.operator?] at stops
  | tooDeep limit => exact .tooDeep position limit
  | symbol bad => exact .symbol position bad

theorem giveUp_of_canSkip {error : ParseError} (skips : canSkip error) (line : List Char)
    (earlier : List Nat) :
    ∃ marker, (giveUp line earlier error).value =
      .error (.exhausted (String.ofList line) marker) := by
  obtain ⟨position, cause⟩ := error
  cases cause with
  | mismatch expected found => exact ⟨_, rfl⟩
  | trailing found => exact ⟨_, rfl⟩
  | tooDeep limit => simp [canSkip] at skips
  | symbol bad => simp [canSkip] at skips

section
variable {remainder : List Char} {here : Place} {earlier : List Nat} {error : ParseError}

theorem search_ok {node : Node}
    (value : (Parse.text settings.maxDepth remainder).value = .ok node) :
    search settings seed line remainder here earlier =
      Logged.after
        (.attempting (String.ofList remainder) here.byte ::
          (Parse.text settings.maxDepth remainder).events)
        (conclude settings seed here node) := by
  rw [search, value]

theorem search_skip (value : (Parse.text settings.maxDepth remainder).value = .error error)
    (some : remainder ≠ []) (skips : canSkip error) :
    search settings seed line remainder here earlier =
      Logged.after
        (.attempting (String.ofList remainder) here.byte ::
          (Parse.text settings.maxDepth remainder).events)
        (Logged.after [.skipping error (String.ofList (word remainder))]
          (search settings seed line (afterWord remainder) (here.advance (word remainder))
            (here.byte :: earlier))) := by
  rw [search, value]
  simp only [some, skips, ne_eq, not_false_eq_true, and_self, ↓reduceDIte]
  rfl

theorem search_giveUp (value : (Parse.text settings.maxDepth remainder).value = .error error)
    (stuck : ¬ (remainder ≠ [] ∧ canSkip error)) :
    search settings seed line remainder here earlier =
      Logged.after
        (.attempting (String.ofList remainder) here.byte ::
          (Parse.text settings.maxDepth remainder).events)
        (giveUp line (here.byte :: earlier) error) := by
  rw [search, value]
  simp only [stuck, ↓reduceDIte]
  rfl

end

variable {before after : List Char} {earlier : List Nat}

theorem reading_append (settings : Settings) (before after : List Char) :
    reading settings (before ++ after) before.length =
      (Parse.text settings.maxDepth after).value := by
  rw [reading, List.drop_left]

theorem attemptAt_append (before after : List Char) :
    attemptAt (before ++ after) before.length =
      (String.ofList after, (Place.start.advance before).byte) := by
  rw [attemptAt, List.drop_left, List.take_left, Place.byte_advance, Place.start, Nat.zero_add]

theorem decided_ok {node : Node} (start : isStart (before ++ after) before.length)
    (value : (Parse.text settings.maxDepth after).value = .ok node) :
    Decided settings seed line (before ++ after) (startsFrom (before ++ after) before.length)
      (search settings seed line after (Place.start.advance before) earlier) := by
  have read := reading_append settings before after
  have quiet := Parse.quiet_text settings.maxDepth after
  have char : (Place.start.advance before).char = before.length := by
    rw [Place.char_advance, Place.start, Nat.zero_add]
  obtain ⟨answer, silent⟩ := answers_conclude (Place.start.advance before) settings seed line node
  rw [char, ← value, ← read] at answer
  rw [startsFrom_cons start (by simp), search_ok value]
  refine decided_here (by rw [read, value]; rfl) answer ?_
  rw [attempts_after _ quiet, silent, attemptAt_append]

theorem decided_giveUp {error : ParseError} (start : isStart (before ++ after) before.length)
    (value : (Parse.text settings.maxDepth after).value = .error error)
    (stuck : ¬ (after ≠ [] ∧ canSkip error)) :
    Decided settings seed line (before ++ after) (startsFrom (before ++ after) before.length)
      (search settings seed line after (Place.start.advance before) earlier) := by
  have read := reading_append settings before after
  have quiet := Parse.quiet_text settings.maxDepth after
  have silent := attempts_giveUp line ((Place.start.advance before).byte :: earlier) error
  rw [startsFrom_cons start (by simp), search_giveUp value stuck]
  cases skips : canSkip error with
  | false =>
    refine decided_here (by rw [read, value, decisive_error, skips]; rfl) ?_ ?_
    · rw [read, value]
      exact answers_giveUp skips _ settings seed line _
    · rw [attempts_after _ quiet, silent, attemptAt_append]
  | true =>
    -- Nothing is left to skip, so this was the last start.
    obtain rfl : after = [] := by
      by_contra some
      exact stuck ⟨some, skips⟩
    have ended : startsFrom (before ++ []) (before.length + 1) = [] := by
      simp [startsFrom]
    have last : Decided settings seed line (before ++ []) []
        (giveUp line ((Place.start.advance before).byte :: earlier) error) :=
      ⟨by simp, fun _ => giveUp_of_canSkip skips line _, silent⟩
    rw [ended]
    refine decided_later (by rw [read, value, decisive_error, skips]; rfl) last rfl ?_
    rw [attempts_after _ quiet, attemptAt_append]

theorem decided_skip {error : ParseError} (start : isStart (before ++ after) before.length)
    (clear : '=' ∉ after) (value : (Parse.text settings.maxDepth after).value = .error error)
    (some : after ≠ []) (skips : canSkip error)
    (next : Decided settings seed line (before ++ after)
      (startsFrom (before ++ after) (before ++ word after).length)
      (search settings seed line (afterWord after) (Place.start.advance (before ++ word after))
        ((Place.start.advance before).byte :: earlier))) :
    Decided settings seed line (before ++ after) (startsFrom (before ++ after) before.length)
      (search settings seed line after (Place.start.advance before) earlier) := by
  have read := reading_append settings before after
  have quiet := Parse.quiet_text settings.maxDepth after
  rw [Place.advance_append] at next
  rw [startsFrom_append start some clear, search_skip value some skips]
  refine decided_later (by rw [read, value, decisive_error, skips]; rfl) next rfl ?_
  exact (attempts_after _ quiet _).trans (by rw [attemptAt_append]; rfl)

theorem search_decided (settings : Settings) (seed : Seed) (line before after : List Char)
    (earlier : List Nat) (start : isStart (before ++ after) before.length) (clear : '=' ∉ after) :
    Decided settings seed line (before ++ after) (startsFrom (before ++ after) before.length)
      (search settings seed line after (Place.start.advance before) earlier) := by
  -- Every word that is given up makes the rest of the line shorter.
  induction count : after.length using Nat.strong_induction_on
    generalizing before after earlier with
  | _ count ih =>
    cases value : (Parse.text settings.maxDepth after).value with
    | ok node => exact decided_ok start value
    | error error =>
      by_cases goes : after ≠ [] ∧ canSkip error
      · obtain ⟨some, skips⟩ := goes
        have less := length_afterWord some
        have whole : before ++ word after ++ afterWord after = before ++ after := by
          rw [List.append_assoc, word_append]
        have next := isStart_afterWord before clear
        rw [← whole] at next
        have more := ih _ (by omega) (before ++ word after) (afterWord after)
          ((Place.start.advance before).byte :: earlier) next (clear_afterWord clear) rfl
        rw [whole] at more
        exact decided_skip start clear value some skips more
      · exact decided_giveUp start value goes

section
variable {first second : Settings} {other : Seed} {places : List Nat}

theorem mem_tried (settings : Settings) (text : List Char) (place : Nat) (places : List Nat) :
    place ∈ tried settings text (place :: places) := by
  cases decides : decisive (reading settings text place) <;> simp [tried, decides]

theorem tried_later (undecided : decisive (reading settings text place) = false) :
    tried settings text (place :: places) = place :: tried settings text places := by
  simp [tried, undecided]

/-- A search depends on nothing but the readings at the places that it tries, and on the value of
the tree that it finds. -/
theorem search_congr (start : isStart (before ++ after) before.length) (clear : '=' ∉ after)
    (agree : ∀ place ∈ tried first (before ++ after) (startsFrom (before ++ after) before.length),
      reading first (before ++ after) place = reading second (before ++ after) place)
    (settle : ∀ place node, (startsFrom (before ++ after) before.length).find?
        (fun place => decisive (reading first (before ++ after) place)) = some place →
      reading first (before ++ after) place = .ok node →
      node.evaluate first.workingPrecision seed = node.evaluate second.workingPrecision other) :
    (search first seed line after (Place.start.advance before) earlier).value =
      (search second other line after (Place.start.advance before) earlier).value := by
  -- Every word that is given up makes the rest of the line shorter.
  induction count : after.length using Nat.strong_induction_on
    generalizing before after earlier with
  | _ count ih =>
    have onward := startsFrom_cons start (by simp)
    have same := agree before.length (by rw [onward]; exact mem_tried _ _ _ _)
    have read := reading_append first before after
    rw [reading_append, reading_append] at same
    cases value : (Parse.text first.maxDepth after).value with
    | ok node =>
      rw [value] at read
      have found := settle before.length node (by simp [onward, read, decisive]) read
      rw [search_ok value, search_ok (same.symm.trans value)]
      change (conclude first seed _ node).value = (conclude second other _ node).value
      rw [conclude, conclude, found]
    | error error =>
      rw [value] at read
      by_cases goes : after ≠ [] ∧ canSkip error
      · obtain ⟨some, skips⟩ := goes
        have undecided : decisive (reading first (before ++ after) before.length) = false := by
          rw [read, decisive_error, skips]
          rfl
        have less := length_afterWord some
        have whole : before ++ word after ++ afterWord after = before ++ after := by
          rw [List.append_assoc, word_append]
        have next := isStart_afterWord before clear
        rw [startsFrom_append start some clear, tried_later undecided] at agree
        simp only [startsFrom_append start some clear, List.find?_cons, undecided] at settle
        rw [← whole] at next agree settle
        have others : (search first seed line (afterWord after)
              (Place.start.advance (before ++ word after))
              ((Place.start.advance before).byte :: earlier)).value =
            (search second other line (afterWord after)
              (Place.start.advance (before ++ word after))
              ((Place.start.advance before).byte :: earlier)).value :=
          ih _ (by omega) next (clear_afterWord clear)
            (fun place mem => agree place (List.mem_cons_of_mem _ mem)) settle rfl
        rw [Place.advance_append] at others
        rw [search_skip value some skips, search_skip (same.symm.trans value) some skips]
        exact others
      · rw [search_giveUp value goes, search_giveUp (same.symm.trans value) goes]
        rfl

end

theorem calculate_search (line : List Char) :
    ∃ before after, dropWhileEnd isTrailer line = before ++ after ∧ '=' ∉ after ∧
      isStart (before ++ after) before.length ∧
      starts (before ++ after) = startsFrom (before ++ after) before.length ∧
      ∀ settings seed, calculate settings seed line =
        search settings seed line after (Place.start.advance before) [] := by
  obtain ⟨tail, spelled, clear⟩ := uptoEquals_append (dropWhileEnd isTrailer line)
  have start := isStart_uptoEquals (dropWhileEnd isTrailer line)
  have first := starts_uptoEquals (dropWhileEnd isTrailer line)
  have rest := congrArg (List.drop (uptoEquals (dropWhileEnd isTrailer line)).length) spelled
  rw [List.drop_left] at rest
  refine ⟨_, tail, spelled, clear, by rwa [← spelled], by rwa [← spelled], ?_⟩
  intro settings seed
  rw [calculate, rest]

/-- A calculation tries the starts of its line in order.  The first decisive reading is answered:
by its value and the characters before it, or by its error; without one nothing is found. -/
theorem calculate_decided (settings : Settings) (seed : Seed) (line : List Char) :
    Decided settings seed line (dropWhileEnd isTrailer line)
      (starts (dropWhileEnd isTrailer line)) (calculate settings seed line) := by
  obtain ⟨before, after, trimmed, clear, start, first, run⟩ := calculate_search line
  rw [run, trimmed, first]
  exact search_decided settings seed line before after [] start clear

theorem calculate_of_split (trimmed : dropWhileEnd isTrailer line = before ++ after)
    (front : ∀ c, before.getLast? = some c → c = '=') (clear : '=' ∉ after)
    (settings : Settings) (seed : Seed) :
    calculate settings seed line =
      search settings seed line after (Place.start.advance before) [] := by
  have stops : ∀ c, before.getLast? = some c → (c != '=') = false := by
    intro c last
    simp [front c last]
  have others : ∀ c ∈ after, (c != '=') = true := by
    intro c mem
    simpa using ne_of_mem_of_not_mem mem clear
  have lead : uptoEquals (before ++ after) = before := dropWhileEnd_eq stops others
  rw [calculate, trimmed]
  simp only [lead, List.drop_left]

theorem calculate_plain (clear : '=' ∉ dropWhileEnd isTrailer line) (settings : Settings)
    (seed : Seed) :
    calculate settings seed line =
      search settings seed line (dropWhileEnd isTrailer line) .start [] := by
  have front : ∀ c, ([] : List Char).getLast? = some c → c = '=' := by simp
  exact calculate_of_split rfl front clear settings seed

theorem calculate_clear (ends : ∀ c, text.getLast? = some c → isTrailer c = false)
    (clear : '=' ∉ text) (settings : Settings) (seed : Seed) :
    calculate settings seed text = search settings seed text text .start [] := by
  have nothing : ∀ c ∈ ([] : List Char), isTrailer c := by simp
  have trimmed := dropWhileEnd_eq ends nothing
  rw [List.append_nil] at trimmed
  have plain := calculate_plain (show '=' ∉ dropWhileEnd isTrailer text by rwa [trimmed]) settings seed
  rwa [trimmed] at plain

end Reckon.Locate
