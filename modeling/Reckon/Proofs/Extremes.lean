import Reckon.Proofs.Projection
import Reckon.Proofs.Seeds
import Reckon.Proofs.Signs

/-
The greatest and the least of the arguments of a call.  Both are found in one pass that keeps a
value and compares it with the next one; what comes out is an argument, and as a number it depends
on the set of the numbers alone: not on their order, on repetitions or on the spelling of equal
ones.  Arguments are evaluated from left to right, and the first failure is that of the call.
-/
namespace Reckon

def Seed.share (seed : Seed) : Nat → Seed
  | 0 => seed.left
  | place + 1 => seed.right.share place

namespace Decimal
open Number

structure Greatest (values : List Decimal) (d : Decimal) : Prop where
  mem : d ∈ values
  bound : ∀ v ∈ values, v ≤ d

structure Least (values : List Decimal) (d : Decimal) : Prop where
  mem : d ∈ values
  bound : ∀ v ∈ values, d ≤ v

/-- The same numbers occur in both lists, in whatever order, spelling and multiplicity. -/
def SameNumbers (first second : List Decimal) : Prop :=
  ∀ x : ℚ, x ∈ first.map toRat ↔ x ∈ second.map toRat

structure Extremes (precision : ℕ) (values : List Decimal) (low high : Decimal) : Prop where
  least : ∃ d, Least values d ∧ low.Same (d.roundSignificant precision)
  greatest : ∃ d, Greatest values d ∧ high.Same (d.roundSignificant precision)

variable {a b d x : Decimal} {p : ℕ} {values others : List Decimal} {low high low' high' : Decimal}

theorem lt_iff_toRat : a < b ↔ a.toRat < b.toRat := by
  rw [← compare_lt_iff_lt, ← cmp_eq_compare]
  rfl

theorem larger_cases (a b : Decimal) :
    a.larger b = a ∧ b ≤ a ∨ a.larger b = b ∧ a ≤ b := by
  unfold larger
  by_cases less : a < b
  · have below : a ≤ b := le_iff_toRat.mpr (lt_iff_toRat.mp less).le
    exact .inr ⟨if_pos less, below⟩
  · have above : b ≤ a := le_iff_toRat.mpr (not_lt.mp (mt lt_iff_toRat.mpr less))
    exact .inl ⟨if_neg less, above⟩

theorem le_trans_toRat (first : a ≤ b) (second : b ≤ d) : a ≤ d :=
  le_iff_toRat.mpr ((le_iff_toRat.mp first).trans (le_iff_toRat.mp second))

theorem greatest_foldl_larger (x : Decimal) (rest : List Decimal) :
    Greatest (x :: rest) (rest.foldl larger x) := by
  induction rest generalizing x with
  | nil =>
    refine ⟨List.mem_singleton_self x, ?_⟩
    intro v mem
    rw [List.mem_singleton.mp mem]
    exact le_iff_toRat.mpr le_rfl
  | cons y rest ih =>
    rw [List.foldl_cons]
    -- The pass goes on with the larger one of the first two, which bounds the other.
    obtain ⟨mem, bound⟩ := ih (x.larger y)
    obtain ⟨kept, others⟩ := List.forall_mem_cons.mp bound
    rcases larger_cases x y with ⟨same, other⟩ | ⟨same, other⟩
    · rw [same] at mem kept others ⊢
      refine ⟨?_, List.forall_mem_cons.mpr ⟨kept, List.forall_mem_cons.mpr ⟨?_, others⟩⟩⟩
      · rcases List.mem_cons.mp mem with first | later
        · rw [first]
          exact List.mem_cons_self
        · exact List.mem_cons_of_mem x (List.mem_cons_of_mem y later)
      · exact le_trans_toRat other kept
    · rw [same] at mem kept others ⊢
      refine ⟨List.mem_cons_of_mem x mem, ?_⟩
      exact List.forall_mem_cons.mpr
        ⟨le_trans_toRat other kept, List.forall_mem_cons.mpr ⟨kept, others⟩⟩

theorem neg_le_neg_iff_toRat : -a ≤ -b ↔ b ≤ a := by
  rw [le_iff_toRat, le_iff_toRat, toRat_neg, toRat_neg, neg_le_neg_iff]

theorem neg_smaller (a b : Decimal) : -(a.smaller b) = (-a).larger (-b) := by
  have turned : -a < -b ↔ b < a := by
    rw [lt_iff_toRat, lt_iff_toRat, toRat_neg, toRat_neg, neg_lt_neg_iff]
  unfold smaller larger
  by_cases less : b < a
  · rw [if_pos less, if_pos (turned.mpr less)]
  · rw [if_neg less, if_neg (mt turned.mp less)]

/-- The least value is the greatest one seen from the other side of zero. -/
theorem neg_foldl_smaller (x : Decimal) (rest : List Decimal) :
    -(rest.foldl smaller x) = (rest.map (- ·)).foldl larger (-x) := by
  induction rest generalizing x with
  | nil => rfl
  | cons y rest ih => rw [List.foldl_cons, ih, neg_smaller, List.map_cons, List.foldl_cons]

theorem mem_map_neg : -d ∈ values.map (- ·) ↔ d ∈ values := by
  constructor
  · intro mem
    obtain ⟨v, inside, same⟩ := List.mem_map.mp mem
    have turned := congrArg (- ·) same
    rw [double_neg, double_neg] at turned
    rwa [← turned]
  · exact List.mem_map_of_mem

theorem greatest_neg : Greatest (values.map (- ·)) (-d) ↔ Least values d := by
  constructor
  · intro greatest
    refine ⟨mem_map_neg.mp greatest.mem, ?_⟩
    intro v mem
    exact neg_le_neg_iff_toRat.mp (greatest.bound (-v) (mem_map_neg.mpr mem))
  · intro least
    refine ⟨mem_map_neg.mpr least.mem, ?_⟩
    intro v mem
    obtain ⟨w, inside, rfl⟩ := List.mem_map.mp mem
    exact neg_le_neg_iff_toRat.mpr (least.bound w inside)

theorem least_neg : Least (values.map (- ·)) (-d) ↔ Greatest values d := by
  have back : (values.map (- ·)).map (- ·) = values := by
    rw [List.map_map]
    exact List.map_id'' double_neg values
  rw [← greatest_neg, back, double_neg]

theorem least_foldl_smaller (x : Decimal) (rest : List Decimal) :
    Least (x :: rest) (rest.foldl smaller x) := by
  rw [← greatest_neg, neg_foldl_smaller]
  exact greatest_foldl_larger (-x) (rest.map (- ·))

theorem SameNumbers.neg (same : SameNumbers values others) :
    SameNumbers (values.map (- ·)) (others.map (- ·)) := by
  have numbers (list : List Decimal) (x : ℚ) :
      x ∈ (list.map (- ·)).map toRat ↔ -x ∈ list.map toRat := by
    simp only [List.mem_map, exists_exists_and_eq_and, toRat_neg, neg_eq_iff_eq_neg]
  intro x
  rw [numbers, numbers]
  exact same (-x)

theorem Greatest.number_eq (first : Greatest values a) (second : Greatest others b)
    (same : SameNumbers values others) : a.toRat = b.toRat := by
  have below {list list' : List Decimal} {c c' : Decimal} (inside : Greatest list c)
      (above : Greatest list' c') (sub : ∀ x ∈ list.map toRat, x ∈ list'.map toRat) :
      c.toRat ≤ c'.toRat := by
    obtain ⟨v, mem, number⟩ := List.mem_map.mp (sub _ (List.mem_map_of_mem inside.mem))
    rw [← number]
    exact le_iff_toRat.mp (above.bound v mem)
  exact le_antisymm (below first second fun x => (same x).mp)
    (below second first fun x => (same x).mpr)

theorem Least.number_eq (first : Least values a) (second : Least others b)
    (same : SameNumbers values others) : a.toRat = b.toRat := by
  have turned := (greatest_neg.mpr first).number_eq (greatest_neg.mpr second) same.neg
  rwa [toRat_neg, toRat_neg, neg_inj] at turned

theorem same_roundSignificant (digits : 0 < p) (most : p ≤ 28) (same : a.toRat = b.toRat) :
    (a.roundSignificant p).toRat = (b.roundSignificant p).toRat := by
  rw [toRat_roundSignificant_eq digits most, toRat_roundSignificant_eq digits most, same]

theorem Extremes.same (digits : 0 < p) (most : p ≤ 28) (first : Extremes p values low high)
    (second : Extremes p others low' high') (numbers : SameNumbers values others) :
    low.Same low' ∧ high.Same high' := by
  obtain ⟨⟨bottom, least, lows⟩, ⟨top, greatest, highs⟩⟩ := first
  obtain ⟨⟨bottom', least', lows'⟩, ⟨top', greatest', highs'⟩⟩ := second
  rw [same_iff_toRat] at lows lows' highs highs'
  rw [same_iff_toRat, same_iff_toRat, lows, lows', highs, highs']
  exact ⟨same_roundSignificant digits most (least.number_eq least' numbers),
    same_roundSignificant digits most (greatest.number_eq greatest' numbers)⟩

theorem Extremes.le (digits : 0 < p) (most : p ≤ 28) (extremes : Extremes p values low high) :
    low ≤ high := by
  obtain ⟨⟨bottom, least, lows⟩, ⟨top, greatest, highs⟩⟩ := extremes
  have order := (roundSignificant_projects digits most bottom).1 top
    (greatest.bound bottom least.mem)
  rw [same_iff_toRat] at lows highs
  rwa [le_iff_toRat, lows, highs, ← le_iff_toRat]

theorem Extremes.neg (digits : 0 < p) (most : p ≤ 28) (extremes : Extremes p values low high) :
    Extremes p (values.map (- ·)) (-high) (-low) := by
  obtain ⟨⟨bottom, least, lows⟩, ⟨top, greatest, highs⟩⟩ := extremes
  have turned (c : Decimal) : ((-c).roundSignificant p).toRat = -(c.roundSignificant p).toRat := by
    rw [toRat_roundSignificant_eq digits most, toRat_roundSignificant_eq digits most, toRat_neg,
      roundedIfRoom_neg]
  rw [same_iff_toRat] at lows highs
  refine ⟨⟨-top, least_neg.mpr greatest, ?_⟩, ⟨-bottom, greatest_neg.mpr least, ?_⟩⟩
  · rw [same_iff_toRat, toRat_neg, highs, turned]
  · rw [same_iff_toRat, toRat_neg, lows, turned]

end Decimal

namespace Node
open Decimal

def outcomes (precision : Nat) (seed : Seed) (args : List Node) :
    List (Except NoValue Decimal) :=
  args.mapIdx fun place arg => arg.evaluate precision (seed.share place)

def HasExtremes (precision : Nat) (seed : Seed) (args : List Node) (low high : Decimal) : Prop :=
  ∃ least greatest, (call .min args).evaluate precision seed = .ok least ∧
    (call .max args).evaluate precision seed = .ok greatest ∧
    least.Same low ∧ greatest.Same high

variable {p : Nat} {seed : Seed} {args : List Node} {values : List Decimal} {f : Function}
  {failure : NoValue}

theorem outcomes_cons (p : Nat) (seed : Seed) (arg : Node) (args : List Node) :
    outcomes p seed (arg :: args) = arg.evaluate p seed.left :: outcomes p seed.right args :=
  List.mapIdx_cons

theorem evaluateAll_of_values (all : outcomes p seed args = values.map .ok) :
    evaluateAll p seed args = .ok values := by
  induction args generalizing seed values with
  | nil =>
    obtain rfl := List.map_eq_nil_iff.mp all.symm
    rfl
  | cons arg args ih =>
    cases values with
    | nil => simp [outcomes_cons] at all
    | cons value values =>
      rw [outcomes_cons, List.map_cons, List.cons.injEq] at all
      obtain ⟨first, others⟩ := all
      rw [evaluateAll, first, ih others]
      rfl

theorem evaluateAll_of_failure {before : List Decimal} {after : List (Except NoValue Decimal)}
    (fails : outcomes p seed args = before.map .ok ++ .error failure :: after) :
    evaluateAll p seed args = .error failure := by
  induction args generalizing seed before with
  | nil => simp [outcomes] at fails
  | cons arg args ih =>
    rw [outcomes_cons] at fails
    cases before with
    | nil =>
      have first := (List.cons.inj fails).1
      rw [evaluateAll, first]
      rfl
    | cons value before =>
      -- The failure of the rest is met after the first value, and passed on.
      obtain ⟨first, others⟩ := List.cons.inj fails
      rw [evaluateAll, first, ih others]
      rfl

theorem exists_first_failure {outcomes : List (Except NoValue Decimal)}
    (mem : .error failure ∈ outcomes) :
    ∃ before first after, outcomes = List.map .ok before ++ .error first :: after := by
  induction outcomes with
  | nil => cases mem
  | cons outcome outcomes ih =>
    cases outcome with
    | error first => exact ⟨[], first, outcomes, rfl⟩
    | ok value =>
      rcases List.mem_cons.mp mem with same | later
      · cases same
      · obtain ⟨before, first, after, rfl⟩ := ih later
        exact ⟨value :: before, first, after, rfl⟩

theorem call_of_failure (f : Function) (fails : evaluateAll p seed.left args = .error failure) :
    (call f args).evaluate p seed = .error failure := by
  rw [evaluate, fails]
  rfl

theorem call_of_values {value : Decimal} (all : outcomes p seed.left args = values.map .ok)
    (applied : f.apply seed.right values = .ok value) :
    (call f args).evaluate p seed = .ok (value.roundSignificant p) := by
  rw [evaluate_call_ok]
  exact ⟨values, value, evaluateAll_of_values all, applied, rfl⟩

theorem evaluate_extremes (some : args ≠ [])
    (all : outcomes p seed.left args = values.map .ok) :
    ∃ low high, (call .min args).evaluate p seed = .ok low ∧
      (call .max args).evaluate p seed = .ok high ∧ Extremes p values low high := by
  cases values with
  | nil =>
    have none := List.mapIdx_eq_nil_iff.mp all
    exact absurd none some
  | cons x rest =>
    have least : Function.min.apply seed.right (x :: rest) = .ok (rest.foldl smaller x) := rfl
    have greatest : Function.max.apply seed.right (x :: rest) = .ok (rest.foldl larger x) := rfl
    have extremes : Extremes p (x :: rest) ((rest.foldl smaller x).roundSignificant p)
        ((rest.foldl larger x).roundSignificant p) :=
      ⟨⟨_, least_foldl_smaller x rest, same_iff_toRat.mpr rfl⟩,
        ⟨_, greatest_foldl_larger x rest, same_iff_toRat.mpr rfl⟩⟩
    exact ⟨_, _, call_of_values all least, call_of_values all greatest, extremes⟩

theorem outcomes_negated (p : Nat) (seed : Seed) (args : List Node) :
    outcomes p seed (args.map (sign [.minus])) = (outcomes p seed args).map (Except.map (- ·)) := by
  induction args generalizing seed with
  | nil => rfl
  | cons arg args ih =>
    rw [List.map_cons, outcomes_cons, outcomes_cons, List.map_cons, ih, evaluate_sign]
    rfl

theorem outcomes_drawless (drawless : ∀ arg ∈ args, arg.Drawless) (seed : Seed) :
    outcomes p seed args = args.map (·.evaluate p ⟨0⟩) := by
  induction args generalizing seed with
  | nil => rfl
  | cons arg args ih =>
    obtain ⟨first, others⟩ := List.forall_mem_cons.mp drawless
    rw [outcomes_cons, List.map_cons, ih others, first.evaluate_seed seed.left ⟨0⟩]

theorem exists_values {outcome : Node → Except NoValue Decimal}
    (all : ∀ arg ∈ args, ∃ value, outcome arg = .ok value) :
    ∃ values : List Decimal, args.map outcome = values.map .ok := by
  induction args with
  | nil => exact ⟨[], rfl⟩
  | cons arg args ih =>
    obtain ⟨⟨value, first⟩, others⟩ := List.forall_mem_cons.mp all
    obtain ⟨values, rest⟩ := ih others
    exact ⟨value :: values, by rw [List.map_cons, first, rest, List.map_cons]⟩

theorem mem_values {outcome : Node → Except NoValue Decimal}
    (all : args.map outcome = values.map .ok) {value : Decimal} :
    value ∈ values ↔ ∃ arg ∈ args, outcome arg = .ok value := by
  have inside : value ∈ values ↔ Except.ok value ∈ args.map outcome := by
    rw [all, List.mem_map_of_injective fun _ _ => Except.ok.inj]
  rw [inside, List.mem_map]

theorem values_of_drawless {args' : List Node} (drawless : ∀ arg ∈ args, arg.Drawless)
    (same : ∀ arg, arg ∈ args' ↔ arg ∈ args)
    (all : outcomes p seed args = values.map .ok) (seed' : Seed) :
    ∃ values', outcomes p seed' args' = values'.map .ok ∧ SameNumbers values' values := by
  have drawless' : ∀ arg ∈ args', arg.Drawless := fun arg mem => drawless arg ((same arg).mp mem)
  rw [outcomes_drawless drawless] at all
  have each : ∀ arg ∈ args', ∃ value, arg.evaluate p ⟨0⟩ = .ok value := by
    intro arg mem
    have outcome : arg.evaluate p ⟨0⟩ ∈ values.map .ok := by
      rw [← all]
      exact List.mem_map_of_mem ((same arg).mp mem)
    obtain ⟨value, -, ends⟩ := List.mem_map.mp outcome
    exact ⟨value, ends.symm⟩
  obtain ⟨values', all'⟩ := exists_values each
  have members (value : Decimal) : value ∈ values' ↔ value ∈ values := by
    rw [mem_values all', mem_values all]
    exact exists_congr fun arg => and_congr_left fun _ => same arg
  refine ⟨values', by rw [outcomes_drawless drawless', all'], ?_⟩
  intro x
  simp only [List.mem_map, members]

theorem hasExtremes_of_numbers (digits : 0 < p) (most : p ≤ 28) {args' : List Node} {seed' : Seed}
    {values' : List Decimal} {low high : Decimal} (extremes : Extremes p values low high)
    (some : args' ≠ []) (all : outcomes p seed'.left args' = values'.map .ok)
    (same : SameNumbers values' values) : HasExtremes p seed' args' low high := by
  obtain ⟨least, greatest, minimum, maximum, extremes'⟩ := evaluate_extremes some all
  obtain ⟨lows, highs⟩ := extremes'.same digits most extremes same
  exact ⟨least, greatest, minimum, maximum, lows, highs⟩

/-- The least and the greatest argument: where all arguments have values, the numbers of these alone
decide; otherwise the first failure does. -/
theorem extremes_select (digits : 0 < p) (most : p ≤ 28) (some : args ≠ []) (seed : Seed) :
    (∀ values, outcomes p seed.left args = values.map .ok → ∃ low high,
      (call .min args).evaluate p seed = .ok low ∧ (call .max args).evaluate p seed = .ok high ∧
      Extremes p values low high ∧ low ≤ high ∧
      HasExtremes p seed (args.map (sign [.minus])) (-high) (-low) ∧
      (∀ args' seed' values', args' ≠ [] → outcomes p seed'.left args' = values'.map .ok →
        SameNumbers values' values → HasExtremes p seed' args' low high) ∧
      ((∀ arg ∈ args, arg.Drawless) → ∀ args' seed', (∀ arg, arg ∈ args' ↔ arg ∈ args) →
        HasExtremes p seed' args' low high)) ∧
    ∀ failure, .error failure ∈ outcomes p seed.left args → ∃ before first after,
      outcomes p seed.left args = List.map .ok before ++ .error first :: after ∧
      (call .min args).evaluate p seed = .error first ∧
      (call .max args).evaluate p seed = .error first := by
  constructor
  · intro values all
    obtain ⟨low, high, minimum, maximum, extremes⟩ := evaluate_extremes some all
    refine ⟨low, high, minimum, maximum, extremes, extremes.le digits most, ?_, ?_, ?_⟩
    · have negated : outcomes p seed.left (args.map (sign [.minus])) =
          (values.map (- ·)).map .ok := by
        rw [outcomes_negated, all, List.map_map, List.map_map]
        rfl
      exact hasExtremes_of_numbers digits most (extremes.neg digits most) (by simpa using some)
        negated fun _ => Iff.rfl
    · intro args' seed' values' some' all' same
      exact hasExtremes_of_numbers digits most extremes some' all' same
    · intro drawless args' seed' same
      obtain ⟨arg, mem⟩ := List.exists_mem_of_ne_nil args some
      obtain ⟨values', all', numbers⟩ := values_of_drawless drawless same all seed'.left
      exact hasExtremes_of_numbers digits most extremes
        (List.ne_nil_of_mem ((same arg).mpr mem)) all' numbers
  · intro failure mem
    obtain ⟨before, first, after, fails⟩ := exists_first_failure mem
    have stops := evaluateAll_of_failure fails
    exact ⟨before, first, after, fails, call_of_failure .min stops, call_of_failure .max stops⟩

def twoTwos : List Node :=
  [.literal "2", .binary (.literal "1") .add (.literal "1"), .signed [.minus] (.literal "3")]

def twoFailures : List Node := [.literal "1e99", .binary (.literal "1") .div (.literal "0")]

theorem twoTwos_select :
    (call .max twoTwos).evaluate 5 ⟨0⟩ = .ok ⟨false, 20000, 4⟩ ∧
      (call .min twoTwos).evaluate 5 ⟨0⟩ = .ok ⟨true, 30000, 4⟩ ∧
      HasExtremes 5 ⟨0⟩ (twoTwos.map (sign [.minus])) ⟨true, 20000, 4⟩ ⟨false, 30000, 4⟩ ∧
      HasExtremes 5 ⟨1⟩ [twoTwos[2], twoTwos[1], twoTwos[1]] ⟨true, 30000, 4⟩ ⟨false, 20000, 4⟩ ∧
      (call .max twoFailures).evaluate 5 ⟨0⟩ = .error (.invalidLiteral "1e99") := by
  have values : outcomes 5 (Seed.left ⟨0⟩) twoTwos =
      [⟨false, 2, 0⟩, ⟨false, 20000, 4⟩, ⟨true, 3, 0⟩].map .ok := rfl
  have failures : outcomes 5 (Seed.left ⟨0⟩) twoFailures =
      [.error (.invalidLiteral "1e99"), .error .divisionByZero] := rfl
  obtain ⟨low, high, minimum, maximum, -, -, negated, others, -⟩ :=
    (extremes_select (p := 5) (by decide) (by decide) (by decide) ⟨0⟩).1 _ values
  obtain rfl : ⟨true, 30000, 4⟩ = low := Except.ok.inj minimum
  obtain rfl : ⟨false, 20000, 4⟩ = high := Except.ok.inj maximum
  have same : SameNumbers [⟨true, 3, 0⟩, ⟨false, 20000, 4⟩, ⟨false, 20000, 4⟩]
      [⟨false, 2, 0⟩, ⟨false, 20000, 4⟩, ⟨true, 3, 0⟩] := by
    have two : toRat ⟨false, 2, 0⟩ = toRat ⟨false, 20000, 4⟩ := same_iff_toRat.mp (by decide)
    intro x
    simp only [List.map_cons, List.map_nil, List.mem_cons, List.not_mem_nil, two]
    tauto
  refine ⟨maximum, minimum, negated, others _ ⟨1⟩ _ (by simp) rfl same, ?_⟩
  have fails : .error .divisionByZero ∈ outcomes 5 (Seed.left ⟨0⟩) twoFailures := by
    simp [failures]
  obtain ⟨before, first, after, split, -, stops⟩ :=
    (extremes_select (p := 5) (by decide) (by decide) (by decide) ⟨0⟩).2 _ fails
  rw [failures] at split
  cases before with
  | nil =>
    obtain rfl := Except.error.inj (List.cons.inj split).1
    exact stops
  | cons value before => cases (List.cons.inj split).1

end Node
end Reckon
