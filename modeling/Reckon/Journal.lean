import Reckon.Parse.Error

/-
What a calculation reports while it runs.  Events are data; their wording, level and topic are
fixed here.  `Logged` carries a result together with the events before it.
-/
namespace Reckon

structure Calculation where
  skip : Nat
  result : String
deriving DecidableEq, Repr

inductive Event where
  | attempting (remainder : String) (offset : Nat)
  | found (calculation : Calculation)
  | skipping (error : ParseError) (word : String)
  | givingUp (error : ParseError)
  | retracted (operator : Operator) (error : ParseError)
  | resolved (count : Nat)
  | evaluated (expression : String) (skip : Nat)
deriving DecidableEq, Repr

inductive Level where
  | info | debug | trace
deriving DecidableEq, Repr

namespace Level

def name : Level → String
  | info => "INFO"
  | debug => "DEBUG"
  | trace => "TRACE"

def shownAt (verbosity : Nat) : Level → Bool
  | info | debug => 1 ≤ verbosity
  | trace => 2 ≤ verbosity

end Level

namespace Event

def level : Event → Level
  | attempting .. | found .. | skipping .. | givingUp .. => .debug
  | retracted .. | resolved .. => .trace
  | evaluated .. => .info

def topic : Event → String
  | attempting .. | found .. | skipping .. | givingUp .. => "editor_calc::scanner"
  | retracted .. => "editor_calc::parser"
  | resolved .. => "editor_calc::precedence"
  | evaluated .. => "editor_calc"

def message : Event → String
  | attempting remainder offset =>
    "attempting " ++ Text.quoted remainder ++ " at byte " ++ toString offset
  | found calculation =>
    "found Calculation \x7b skip: " ++ toString calculation.skip ++ ", result: "
      ++ Text.quoted calculation.result ++ " \x7d"
  | skipping error word => error.message ++ ", skipping " ++ Text.quoted word
  | givingUp error => error.message ++ ", giving up"
  | retracted operator error =>
    "no operand after '" ++ operator.symbol ++ "' (" ++ error.message ++ "), backtracking"
  | resolved count => "resolved " ++ toString count ++ " operator(s) into one tree"
  | evaluated expression skip =>
    "evaluated " ++ Text.quoted expression ++ " found at char " ++ toString skip

def line (event : Event) : String :=
  let name := event.level.name
  "[" ++ name ++ "".pushn ' ' (5 - name.length) ++ " " ++ event.topic ++ "] " ++ event.message

end Event

variable {α β ε : Type}

structure Logged (α : Type) where
  value : α
  events : List Event

namespace Logged

def of (value : α) : Logged α := ⟨value, []⟩

def after (events : List Event) (result : Logged α) : Logged α :=
  ⟨result.value, events ++ result.events⟩

end Logged

/-- A logged result that may be an error; its events are kept either way. -/
def Attempt (ε α : Type) : Type := Logged (Except ε α)

namespace Attempt

def ok (value : α) : Attempt ε α := Logged.of (.ok value)
def fail (error : ε) : Attempt ε α := Logged.of (.error error)

def bind (first : Attempt ε α) (next : α → Attempt ε β) : Attempt ε β :=
  match first.value with
  | .ok value => Logged.after first.events (next value)
  | .error error => ⟨.error error, first.events⟩

def note (event : Event) : Attempt ε Unit := ⟨.ok (), [event]⟩

def recover (first : Attempt ε α) (rescue : ε → Option (Attempt ε α)) : Attempt ε α :=
  match first.value with
  | .ok _ => first
  | .error error =>
    match rescue error with
    | some second => Logged.after first.events second
    | none => first

instance : Monad (Attempt ε) where
  pure := ok
  bind := bind

@[simp] theorem value_ok (value : α) : (ok value : Attempt ε α).value = .ok value := rfl

@[simp] theorem value_pure (value : α) : (pure value : Attempt ε α).value = .ok value := rfl

@[simp] theorem value_fail (error : ε) : (fail error : Attempt ε α).value = .error error := rfl

@[simp] theorem value_note (event : Event) : (note event : Attempt ε Unit).value = .ok () := rfl

theorem value_bind (first : Attempt ε α) (next : α → Attempt ε β) :
    (first >>= next).value = first.value.bind fun value => (next value).value := by
  change (bind first next).value = _
  unfold bind
  split <;> simp_all [Logged.after, Except.bind]

@[simp] theorem value_bind_ok {first : Attempt ε α} {next : α → Attempt ε β} {result : β} :
    (first >>= next).value = .ok result ↔
      ∃ value, first.value = .ok value ∧ (next value).value = .ok result := by
  rw [value_bind]
  cases first.value <;> simp [Except.bind]

@[simp] theorem value_bind_error {first : Attempt ε α} {next : α → Attempt ε β} {error : ε} :
    (first >>= next).value = .error error ↔
      first.value = .error error ∨
        ∃ value, first.value = .ok value ∧ (next value).value = .error error := by
  rw [value_bind]
  cases first.value <;> simp [Except.bind]

theorem value_recover (first : Attempt ε α) (rescue : ε → Option (Attempt ε α)) :
    (recover first rescue).value =
      match first.value with
      | .ok value => .ok value
      | .error error => (rescue error).elim (.error error) (·.value) := by
  unfold recover
  split
  · simp_all
  · rename_i error same
    cases answer : rescue error <;> simp_all [Logged.after]

theorem mem_events_bind {first : Attempt ε α} {next : α → Attempt ε β} {event : Event}
    (mem : event ∈ (first >>= next).events) :
    event ∈ first.events ∨ ∃ value, first.value = .ok value ∧ event ∈ (next value).events := by
  change event ∈ (bind first next).events at mem
  unfold bind at mem
  split at mem
  · rename_i value same
    rcases List.mem_append.mp mem with before | after
    · exact .inl before
    · exact .inr ⟨value, same, after⟩
  · exact .inl mem

theorem mem_events_recover {first : Attempt ε α} {rescue : ε → Option (Attempt ε α)}
    {event : Event} (mem : event ∈ (recover first rescue).events) :
    event ∈ first.events ∨ ∃ error second, first.value = .error error ∧
      rescue error = some second ∧ event ∈ second.events := by
  unfold recover at mem
  split at mem
  · exact .inl mem
  · rename_i error same
    cases answer : rescue error with
    | none => exact .inl (by simpa [answer] using mem)
    | some second =>
      rw [answer] at mem
      rcases List.mem_append.mp mem with before | after
      · exact .inl before
      · exact .inr ⟨error, second, same, answer, after⟩

end Attempt
end Reckon
