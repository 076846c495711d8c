import Reckon.Proofs.Normal
import Reckon.Proofs.PowerFailures

/-
No call reads an argument that it was not given.  A function reads a list of arguments from the
front up to some place, and fails if the list ends before it.  The table of argument counts, which
says nothing about reading, accepts only lists that are read just to their end.  Calls are checked
against the table when they are made, and evaluating arguments keeps their number, so at any depth
of a tree a function is given what it reads.
-/
namespace Reckon

def Supplied {α : Type} (outcome : Except NoValue α) : Prop :=
  ∀ f, outcome ≠ .error (.missingArgument f)

variable {α β : Type}

theorem supplied_ok (value : α) : Supplied (.ok value) := by
  intro f missing
  cases missing

theorem supplied_error {failure : NoValue} (other : ∀ f, failure ≠ .missingArgument f) :
    Supplied (.error failure : Except NoValue α) := by
  intro f missing
  exact other f (Except.error.inj missing)

theorem Supplied.bind {first : Except NoValue α} {next : α → Except NoValue β}
    (supplied : Supplied first) (later : ∀ value, first = .ok value → Supplied (next value)) :
    Supplied (first >>= next) := by
  cases first with
  | ok value => exact later value rfl
  | error failure =>
    have other : ∀ f, failure ≠ .missingArgument f := fun f same => supplied f (congrArg _ same)
    exact supplied_error other

theorem supplied_orOverflow (operation : String) (result : Option Decimal) :
    Supplied (orOverflow operation result) := by
  cases result with
  | none => exact supplied_error nofun
  | some value => exact supplied_ok value

theorem supplied_orDomain (operation : String) (input : Decimal) (result : Option Decimal) :
    Supplied (orDomain operation input result) := by
  cases result with
  | none => exact supplied_error nofun
  | some value => exact supplied_ok value

theorem supplied_ofDouble (operation : String) (x : Float) : Supplied (ofDouble operation x) := by
  unfold ofDouble
  split
  · exact supplied_error nofun
  · exact supplied_error nofun
  · exact supplied_orOverflow operation _

theorem supplied_power (base exponent : Decimal) : Supplied (power base exponent) := by
  have outcome := power_outcome base exponent
  generalize power base exponent = result at outcome ⊢
  cases outcome with
  | reciprocal => exact supplied_error nofun
  | vanishing _ _ d => exact supplied_ok d
  | undefined => exact supplied_error nofun
  | regular _ _ result => exact supplied_orOverflow "**" result

theorem Operator.supplied_apply (op : Operator) (left right : Decimal) :
    Supplied (op.apply left right) := by
  cases op with
  | add | sub | mul => exact supplied_orOverflow _ _
  | div | mod =>
    dsimp only [apply]
    split
    · exact supplied_error nofun
    · exact supplied_orOverflow _ _
  | pow => exact supplied_power left right

namespace Function

variable {f : Function}

theorem supplied_viaDouble (f : Function) (operation : Float → Float) (x : Decimal) :
    Supplied (f.viaDouble operation x) := by
  unfold viaDouble
  dsimp only
  split
  · exact supplied_ofDouble f.name _
  · exact supplied_error nofun

theorem supplied_naturalLog (f : Function) (x : Decimal) : Supplied (f.naturalLog x) := by
  unfold naturalLog
  split
  · exact supplied_error nofun
  · exact supplied_orDomain f.name x _

theorem supplied_logBase (f : Function) (x base : Decimal) : Supplied (f.logBase x base) := by
  refine (supplied_naturalLog f x).bind fun numerator _ => ?_
  refine (supplied_naturalLog f base).bind fun denominator _ => ?_
  split
  · exact supplied_error nofun
  · exact supplied_orOverflow f.name _

theorem supplied_draw (f : Function) (seed : Seed) (digits : Option Decimal) :
    Supplied (f.draw seed digits) := by
  refine (supplied_orOverflow f.name seed.fraction).bind fun value _ => ?_
  cases digits with
  | none => exact supplied_ok value
  | some d =>
    dsimp only
    split
    · exact supplied_ok _
    · exact supplied_error nofun

/-- How many arguments, from the first one on, a function reads of a list of so many.  The base of
`log` and the digits of `random` are read if they are there; `max` and `min` start from a first
argument that has to be there, and `hypot` from zero. -/
def reach (f : Function) (count : Nat) : Nat :=
  match f with
  | add | atan2 | div | mod | mul | pow | sub => 2
  | log => if 1 < count then 2 else 1
  | random => if 0 < count then 1 else 0
  | hypot => count
  | max | min => if 0 < count then count else 1
  | _ => 1

/-- The function reads the places before `reach` and no others: among lists of one length they
decide the outcome, and an argument is missing just when the list has nothing at one of them. -/
structure Reads (f : Function) (args : List Decimal) (reach : Nat) : Prop where
  decided : ∀ (seed : Seed) (others : List Decimal), others.length = args.length →
    (∀ place < reach, others[place]? = args[place]?) → f.apply seed others = f.apply seed args
  missing : ∀ (seed : Seed) (g : Function), f.apply seed args = .error (.missingArgument g) ↔
    g = f ∧ ∃ place < reach, args[place]? = none

theorem accepts_iff_reach {count : Nat} :
    f.arity.accepts count ↔ f.reach count = count ∧ (f = hypot → count ≠ 0) := by
  cases f
  all_goals
    simp only [arity, Arity.exactly, Arity.between, Arity.atLeast, Arity.accepts, reach]
    grind

theorem apply_of_reached {args others : List Decimal} (seed : Seed)
    (lengths : others.length = args.length)
    (same : others.take (f.reach args.length) = args.take (f.reach args.length)) :
    f.apply seed others = f.apply seed args := by
  -- Where all places are read, the two lists are the same.
  have whole (all : f.reach args.length = args.length) : others = args := by
    rwa [all, List.take_length, ← lengths, List.take_length] at same
  cases args with
  | nil => rw [List.length_eq_zero_iff.mp lengths]
  | cons x rest =>
    cases others with
    | nil => simp at lengths
    | cons x' rest' =>
      cases f
      case hypot | max | min => rw [whole (by simp [reach])]
      case add | sub | mul | div | mod | pow | atan2 | log =>
        cases rest with
        | nil =>
          obtain rfl := List.length_eq_zero_iff.mp (Nat.succ.inj lengths)
          obtain rfl : x' = x := by simpa [reach] using same
          rfl
        | cons y rest =>
          cases rest' with
          | nil => simp at lengths
          | cons y' rest' =>
            obtain ⟨rfl, rfl⟩ : x' = x ∧ y' = y := by simpa [reach] using same
            rfl
      all_goals
        obtain rfl : x' = x := by simpa [reach] using same
        rfl

theorem apply_of_short {args : List Decimal} (seed : Seed)
    (short : args.length < f.reach args.length) :
    f.apply seed args = .error (.missingArgument f) := by
  rcases args with _ | ⟨x, _ | ⟨y, rest⟩⟩
  · cases f
    case hypot | random => exact absurd short (Nat.lt_irrefl 0)
    all_goals rfl
  · cases f
    case add | sub | mul | div | mod | pow | atan2 => rfl
    all_goals exact absurd short (Nat.lt_irrefl 1)
  · have long : f.reach (x :: y :: rest).length ≤ (x :: y :: rest).length := by
      cases f
      all_goals simp [reach]
    exact absurd short long.not_gt

theorem supplied_apply {args : List Decimal} (seed : Seed)
    (enough : f.reach args.length ≤ args.length) : Supplied (f.apply seed args) := by
  cases args with
  | nil =>
    -- A sum of no squares and a draw are all that can be had from nothing.
    cases f
    case hypot =>
      dsimp only [apply]
      exact supplied_orOverflow _ _
    case random => exact supplied_draw random seed none
    all_goals exact absurd enough (Nat.not_succ_le_zero _)
  | cons x rest =>
    cases f
    case abs | ceil | floor | trunc | round | sign | max | min => exact supplied_ok _
    case hypot | exp => exact supplied_orOverflow _ _
    case sqrt | sin | cos | tan => exact supplied_orDomain _ x _
    case ln => exact supplied_naturalLog ln x
    case log2 => exact supplied_logBase log2 x _
    case log10 =>
      dsimp only [apply]
      split
      · exact supplied_error nofun
      · exact supplied_orDomain _ x _
    case log =>
      cases rest with
      | nil => exact supplied_logBase log x _
      | cons base rest => exact supplied_logBase log x base
    case asin | acos | atan | sinh | cosh | tanh | asinh | acosh | atanh | cbrt =>
      exact supplied_viaDouble _ _ x
    case random => exact supplied_draw random seed (some x)
    case add | sub | mul | div | mod | pow =>
      cases rest with
      | nil => exact absurd enough (Nat.lt_irrefl 1)
      | cons y rest =>
        dsimp only [apply]
        exact Operator.supplied_apply _ x y
    case atan2 =>
      cases rest with
      | nil => exact absurd enough (Nat.lt_irrefl 1)
      | cons y rest => exact supplied_ofDouble _ _

theorem reads_reach (f : Function) (args : List Decimal) :
    f.Reads args (f.reach args.length) where
  decided := by
    intro seed others lengths same
    refine apply_of_reached seed lengths (List.ext_getElem? ?_)
    intro place
    rw [List.getElem?_take, List.getElem?_take]
    split
    · exact same place (by assumption)
    · rfl
  missing := by
    intro seed g
    have ends : (∃ place < f.reach args.length, args[place]? = none) ↔
        args.length < f.reach args.length := by
      simp only [List.getElem?_eq_none_iff]
      constructor
      · rintro ⟨place, before, after⟩
        omega
      · intro short
        exact ⟨args.length, short, Nat.le_refl _⟩
    rw [ends]
    by_cases short : args.length < f.reach args.length
    · rw [apply_of_short seed short]
      simp [short, eq_comm]
    · have supplied := supplied_apply seed (Nat.not_lt.mp short) g
      exact iff_of_false supplied fun both => short both.2

end Function

namespace Node

/-- Trees built from the leaves up, with every call made by name and its arguments counted then. -/
inductive Built : Node → Prop where
  | literal (raw : String) : Built (.literal raw)
  | constant (symbol : Constant) : Built (.constant symbol)
  | call (all : ∀ arg ∈ args, Built arg) (made : namedCall name args = .ok node) : Built node
  | signed (signs : List Sign) (inside : Built operand) : Built (.signed signs operand)
  | binary (op : Operator) (first : Built left) (second : Built right) :
      Built (.binary left op right)

variable {tree node : Node} {f : Function} {args : List Node} {precision : Nat} {seed : Seed}
  {values : List Decimal}

theorem Built.accepts (built : (Node.call f args).Built) : f.arity.accepts args.length := by
  cases built with
  | call all made =>
    obtain ⟨g, -, accepted, same⟩ := namedCall_ok.mp made
    cases same
    exact accepted

theorem Built.child {child : Node} (built : tree.Built) (mem : child ∈ tree.children) :
    child.Built := by
  cases built with
  | literal raw => simp [children] at mem
  | constant symbol => simp [children] at mem
  | call all made =>
    obtain ⟨g, -, -, rfl⟩ := namedCall_ok.mp made
    exact all child mem
  | signed signs inside =>
    obtain rfl := List.mem_singleton.mp mem
    exact inside
  | binary op first second =>
    simp only [children, List.mem_cons, List.not_mem_nil, or_false] at mem
    rcases mem with rfl | rfl
    · exact first
    · exact second

theorem Built.part (built : tree.Built) (part : Part node tree) : node.Built := by
  induction part with
  | whole => exact built
  | inside mem _ ih => exact ih (built.child mem)

theorem Built.sign (signs : List Sign) (built : node.Built) : (node.sign signs).Built := by
  cases node with
  | signed inner operand => exact .signed _ (built.child (List.mem_singleton_self operand))
  | _ => exact .signed signs built

theorem Normal.built (normal : node.Normal) : node.Built := by
  induction normal with
  | literal numeral => exact .literal _
  | constant symbol => exact .constant symbol
  | call f arity all ih => exact .call ih (namedCall_ok.mpr ⟨f, rfl, arity, rfl⟩)
  | signed some flat inside ih => exact .signed _ ih
  | binary op first second ih ih' => exact .binary op ih ih'

theorem supplied_literalValue (raw : String) : Supplied (literalValue raw) := by
  unfold literalValue
  split
  · exact supplied_ok _
  · exact supplied_error nofun

theorem length_evaluateAll (run : evaluateAll precision seed args = .ok values) :
    values.length = args.length := by
  induction args generalizing seed values with
  | nil =>
    obtain rfl := Except.ok.inj run
    rfl
  | cons arg args ih =>
    simp only [evaluateAll, bind_ok, pure, Except.pure, Except.ok.injEq] at run
    obtain ⟨x, -, others, rest, rfl⟩ := run
    rw [List.length_cons, List.length_cons, ih rest]

theorem supplied_evaluateAll
    (each : ∀ arg ∈ args, ∀ seed, Supplied (arg.evaluate precision seed)) (seed : Seed) :
    Supplied (evaluateAll precision seed args) := by
  induction args generalizing seed with
  | nil => exact supplied_ok []
  | cons arg args ih =>
    obtain ⟨first, others⟩ := List.forall_mem_cons.mp each
    refine (first seed.left).bind fun value _ => ?_
    exact (ih others seed.right).bind fun values _ => supplied_ok _

/-- If every call of a tree has as many arguments as its function reads, none of them is missed when
the tree is evaluated. -/
theorem supplied_evaluate
    (enough : ∀ f args, Part (call f args) tree → f.reach args.length ≤ args.length) (seed : Seed) :
    Supplied (tree.evaluate precision seed) := by
  induction tree using Node.induction generalizing seed with
  | step tree ih =>
    have inner : ∀ child ∈ tree.children, ∀ seed, Supplied (child.evaluate precision seed) := by
      intro child mem seed
      exact ih child mem (fun f args part => enough f args (.inside mem part)) seed
    cases tree with
    | literal raw => exact supplied_literalValue raw
    | constant symbol => exact supplied_ok symbol.value
    | call f args =>
      rw [evaluate]
      refine (supplied_evaluateAll inner seed.left).bind fun values run => ?_
      -- There are as many values as arguments, so what the tree has is what is passed on.
      have lengths := length_evaluateAll run
      have reached : f.reach values.length ≤ values.length := by
        rw [lengths]
        exact enough f args .whole
      exact (Function.supplied_apply seed.right reached).bind fun value _ => supplied_ok _
    | signed signs operand =>
      rw [evaluate]
      have value := inner operand (List.mem_singleton_self operand) seed
      exact value.bind fun value _ => supplied_ok _
    | binary left op right =>
      rw [evaluate]
      refine (inner left (by simp [children]) seed.left).bind fun a _ => ?_
      refine (inner right (by simp [children]) seed.right).bind fun b _ => ?_
      exact (op.supplied_apply a b).bind fun value _ => supplied_ok _

/-- An addition with one summand, which cannot be built, has no value. -/
example : (call .add [.literal "1"]).evaluate 20 ⟨0⟩ = .error (.missingArgument .add) := rfl

/-- Functions read the arguments that they are given.  A list of an accepted length is read to its
end and not past it; calls of trees that were built call by call, or read from a text, pass lists of
accepted lengths at any depth, whatever the values are; and so nothing in such a tree fails for a
missing argument. -/
theorem calls_supplied :
    (∀ (f : Function) (args : List Decimal), f.Reads args (f.reach args.length) ∧
      (f.arity.accepts args.length →
        f.reach args.length = args.length ∧ ∀ seed, Supplied (f.apply seed args))) ∧
    ∀ tree : Node, (tree.Built ∨ ∃ limit source, (Parse.text limit source).value = .ok tree) →
      ∀ precision seed,
        (∀ f args values, Part (call f args) tree →
          evaluateAll precision seed args = .ok values → f.arity.accepts values.length) ∧
        ∀ node, Part node tree → Supplied (node.evaluate precision seed) := by
  constructor
  · intro f args
    refine ⟨f.reads_reach args, ?_⟩
    intro accepted
    have reached := (Function.accepts_iff_reach.mp accepted).1
    exact ⟨reached, fun seed => Function.supplied_apply seed reached.le⟩
  · intro tree origin precision seed
    have built : tree.Built := by
      rcases origin with built | ⟨limit, source, read⟩
      · exact built
      · exact (Parse.normal_of_text read).built
    constructor
    · intro f args values part run
      rw [length_evaluateAll run]
      exact (built.part part).accepts
    · intro node part
      refine supplied_evaluate ?_ seed
      intro f args below
      have accepted := (built.part (part.trans below)).accepts
      exact (Function.accepts_iff_reach.mp accepted).1.le

def nestedPower : Node := .call .pow [.literal "2", .call .max [.literal "3"]]

def drawnLogarithm : Node := sign [.minus] (.call .log [.literal "8", .call .random []])

theorem nestedPower_supplied :
    (Parse.text 2 "pow(2,max(3))".toList).value = .ok nestedPower ∧
      evaluateAll 5 ⟨0⟩ [.literal "2", .call .max [.literal "3"]] =
        .ok [⟨false, 2, 0⟩, ⟨false, 30000, 4⟩] ∧
      Function.pow.arity.accepts 2 ∧ Function.pow.reach 2 = 2 ∧
      (∀ seed, Supplied (nestedPower.evaluate 5 seed)) ∧
      drawnLogarithm.Built ∧ ∀ seed, Supplied (drawnLogarithm.evaluate 5 seed) := by
  have spelled : lexemes "pow(2,max(3))".toList =
      [⟨.identifier "pow", ⟨0, 0⟩, ⟨2, 2⟩⟩, ⟨.openParen, ⟨3, 3⟩, ⟨3, 3⟩⟩,
        ⟨.number "2", ⟨4, 4⟩, ⟨4, 4⟩⟩, ⟨.comma, ⟨5, 5⟩, ⟨5, 5⟩⟩,
        ⟨.identifier "max", ⟨6, 6⟩, ⟨8, 8⟩⟩, ⟨.openParen, ⟨9, 9⟩, ⟨9, 9⟩⟩,
        ⟨.number "3", ⟨10, 10⟩, ⟨10, 10⟩⟩, ⟨.closeParen, ⟨11, 11⟩, ⟨11, 11⟩⟩,
        ⟨.closeParen, ⟨12, 12⟩, ⟨12, 12⟩⟩, ⟨.eof, ⟨13, 13⟩, ⟨13, 13⟩⟩] := by decide +kernel
  have read : (Parse.text 2 "pow(2,max(3))".toList).value = .ok nestedPower := by
    rw [Parse.text, spelled]
    rfl
  have built : drawnLogarithm.Built := by
    refine .sign [.minus] (.call ?_ (namedCall_ok.mpr ⟨.log, rfl, rfl, rfl⟩))
    intro arg mem
    simp only [List.mem_cons, List.not_mem_nil, or_false] at mem
    rcases mem with rfl | rfl
    · exact .literal "8"
    · exact .call (by simp) (namedCall_ok.mpr ⟨.random, rfl, rfl, rfl⟩)
  have fromText := calls_supplied.2 nestedPower (.inr ⟨2, _, read⟩) 5
  have values : evaluateAll 5 ⟨0⟩ [.literal "2", .call .max [.literal "3"]] =
      .ok [⟨false, 2, 0⟩, ⟨false, 30000, 4⟩] := rfl
  have accepted : Function.pow.arity.accepts 2 := (fromText ⟨0⟩).1 _ _ _ .whole values
  have reached := (calls_supplied.1 .pow [⟨false, 2, 0⟩, ⟨false, 30000, 4⟩]).2 accepted
  exact ⟨read, values, accepted, reached.1, fun seed => (fromText seed).2 _ .whole, built,
    fun seed => (calls_supplied.2 drawnLogarithm (.inl built) 5 seed).2 _ .whole⟩

end Node
end Reckon
