import Reckon.Proofs.Parts
import Reckon.Proofs.Range

/-
Operators and functions give decimals of the range when they are given such decimals.  Whatever
comes out of wide decimals or of doubles is in the range by itself.
-/
namespace Reckon

namespace Wide

variable {words places rounds m s planned rest : Nat} {m' s' rest' : Nat}

theorem squeezeSteps_bounds
    (run : squeezeSteps words rounds m s planned rest = some (m', s', rest')) :
    m' < 2 ^ (32 * words) ∧ s' ≤ s - planned := by
  induction rounds generalizing m s planned rest with
  | zero => simp [squeezeSteps] at run
  | succ rounds ih =>
    rw [squeezeSteps] at run
    split at run
    · rename_i finished
      obtain ⟨rfl, rfl, rfl⟩ := by simpa using run
      exact ⟨finished.2, by omega⟩
    · dsimp only at run
      generalize chosen : Nat.max 1 (Nat.min planned 9) = k at run
      have step : 1 ≤ k ∧ (planned ≠ 0 → k ≤ planned) := by
        subst chosen
        have one := Nat.le_max_left 1 (Nat.min planned 9)
        have less := Nat.min_le_left planned 9
        refine ⟨one, fun some => Nat.max_le.mpr ⟨Nat.pos_of_ne_zero some, less⟩⟩
      split at run
      · split at run
        · simp at run
        · have inner := ih run
          omega
      · have inner := ih run
        omega

theorem squeeze_bounds (few : Decimal.maxScale ≤ places)
    (run : squeeze words places m s = some (m', s')) : m' < 2 ^ (32 * words) ∧ s' ≤ places := by
  unfold squeeze at run
  dsimp only at run
  split at run
  · rename_i fits
    obtain ⟨rfl, rfl⟩ := by simpa using run
    exact ⟨Nat.lt_of_not_le fits.1, Nat.le_trans fits.2 few⟩
  · generalize first : (if 2 ^ (32 * words) ≤ m then
      (bitLength m - 32 * words) * 77 / 256 + 1 else 0) = least at run
    generalize second : (if s > places + least then s - places else least) = planned at run
    have enough : s - planned ≤ places := by
      subst second
      split <;> omega
    split at run
    · rename_i fits
      obtain ⟨rfl, rfl⟩ := by simpa using run
      exact ⟨Nat.lt_of_not_le fits.2, by omega⟩
    · split at run
      · simp at run
      · split at run
        · simp at run
        · rename_i m₁ s₁ rest stepped
          have bounds := squeezeSteps_bounds stepped
          generalize rounded : (if rest > 1 ∨ rest = 1 ∧ m₁ % 2 = 1 then m₁ + 1 else m₁) = m₂ at run
          have near : m₂ ≤ m₁ + 1 := by
            subst rounded
            split <;> omega
          split at run
          · rename_i fits
            obtain ⟨rfl, rfl⟩ := by simpa using run
            exact ⟨fits, by omega⟩
          · split at run
            · simp at run
            · obtain ⟨rfl, rfl⟩ := by simpa using run
              omega

theorem valid_toDecimal? {w : Wide} {d : Decimal} (run : w.toDecimal? = some d) : d.Valid := by
  unfold toDecimal? at run
  obtain ⟨⟨m, s⟩, fitted, rfl⟩ := Option.map_eq_some_iff.mp run
  split at fitted
  · rename_i fits
    obtain ⟨rfl, rfl⟩ := by simpa using fitted
    exact fits
  · exact squeeze_bounds (Nat.le_refl _) fitted

end Wide

theorem foldlM_keeps {α β : Type} {P : β → Prop} {step : β → α → Option β} {list : List α}
    {start final : β} (keeps : ∀ before x after, P before → step before x = some after → P after)
    (holds : P start) (run : list.foldlM step start = some final) : P final := by
  induction list generalizing start with
  | nil =>
    obtain rfl := Option.some.inj run
    exact holds
  | cons x list ih =>
    rw [List.foldlM_cons] at run
    obtain ⟨next, first, rest⟩ := Option.bind_eq_some_iff.mp run
    exact ih (keeps start x next holds first) rest

theorem chosen_eq_some {α β : Type} {c : Prop} [Decidable c] {first second : Option α}
    {next : α → Option β} {final : β}
    (run : (if c then first.bind next else second.bind next) = some final) :
    ∃ value, (if c then first else second) = some value ∧ next value = some final := by
  split at run
  · rename_i holds
    rw [if_pos holds]
    exact Option.bind_eq_some_iff.mp run
  · rename_i fails
    rw [if_neg fails]
    exact Option.bind_eq_some_iff.mp run

namespace Decimal

variable {a b c d x y : Decimal}

theorem Valid.trunc (valid : d.Valid) : d.trunc.Valid := by
  unfold Decimal.trunc
  split
  · exact valid
  · exact ⟨Nat.lt_of_le_of_lt (Nat.div_le_self _ _) valid.1, Nat.zero_le _⟩

/-- A number with a fraction has a digit less before it, and so there is room for one more unit. -/
theorem Valid.next (valid : d.Valid) (places : d.scale ≠ 0) :
    d.mantissa / 10 ^ d.scale + 1 < capacity := by
  have bound := valid.1
  have unit : 10 ^ 1 ≤ 10 ^ d.scale := Nat.pow_le_pow_right (by decide) (Nat.pos_of_ne_zero places)
  have less : d.mantissa / 10 ^ d.scale ≤ d.mantissa / 10 ^ 1 := Nat.div_le_div_left unit (by decide)
  have large : 10 < capacity := by decide
  omega

theorem Valid.trunc_next (valid : d.Valid) (part : d.isWhole = false) :
    Valid { d.trunc with mantissa := d.trunc.mantissa + 1 } := by
  have places : d.scale ≠ 0 := by
    intro none
    rw [isWhole, none, Nat.pow_zero, Nat.mod_one] at part
    contradiction
  rw [Decimal.trunc, if_neg places]
  exact ⟨valid.next places, Nat.zero_le _⟩

theorem Valid.floor (valid : d.Valid) : d.floor.Valid := by
  unfold Decimal.floor
  split
  · rename_i below
    exact valid.trunc_next (by simpa using (Bool.and_eq_true_iff.mp below).2)
  · exact valid.trunc

theorem Valid.ceil (valid : d.Valid) : d.ceil.Valid := by
  unfold Decimal.ceil
  split
  · rename_i above
    exact valid.trunc_next (by simpa using (Bool.and_eq_true_iff.mp above).2)
  · exact valid.trunc

theorem Valid.round (valid : d.Valid) : d.round.Valid := by
  unfold Decimal.round
  split
  · exact valid
  · rename_i places
    have next := valid.next places
    refine ⟨?_, Nat.zero_le _⟩
    dsimp only
    split <;> omega

theorem Valid.larger (first : a.Valid) (second : b.Valid) : (a.larger b).Valid := by
  unfold Decimal.larger
  split
  · exact second
  · exact first

theorem Valid.smaller (first : a.Valid) (second : b.Valid) : (a.smaller b).Valid := by
  unfold Decimal.smaller
  split
  · exact second
  · exact first

theorem valid_ofInt {i : Int} (room : i.natAbs < capacity) : (ofInt i).Valid :=
  ⟨room, Nat.zero_le _⟩

theorem valid_raise {digits : List Bool} {product square : Decimal} (valid : product.Valid)
    (run : raise mul? digits product square = some d) : d.Valid := by
  induction digits generalizing product square with
  | nil =>
    obtain rfl := Option.some.inj run
    exact valid
  | cons bit digits ih =>
    rw [raise] at run
    obtain ⟨next, selected, run⟩ := chosen_eq_some run
    have inner : next.Valid := by
      split at selected
      · exact valid_mul? selected
      · obtain rfl := Option.some.inj selected
        exact valid
    split at run
    · obtain rfl := Option.some.inj run
      exact inner
    · obtain ⟨again, _, run⟩ := Option.bind_eq_some_iff.mp run
      exact ih inner run

theorem Valid.powNat? {n : Nat} (valid : a.Valid) (run : a.powNat? n = some d) : d.Valid := by
  unfold Decimal.powNat? at run
  split at run
  · obtain rfl := Option.some.inj run
    exact valid_one
  split at run
  · obtain rfl := Option.some.inj run
    exact valid_zero
  split at run
  · obtain rfl := Option.some.inj run
    exact valid_one
  split at run
  · obtain rfl := Option.some.inj run
    exact valid
  split at run
  · exact valid_mul? run
  split at run
  · obtain ⟨product, raised, rfl⟩ := Option.map_eq_some_iff.mp run
    exact (valid_raise valid_one raised).strip
  · obtain ⟨product, raised, rfl⟩ := Option.map_eq_some_iff.mp run
    obtain ⟨wide, _, narrowed⟩ := Option.bind_eq_some_iff.mp raised
    exact (Wide.valid_toDecimal? narrowed).strip

theorem Valid.powInt? {n : Int} (valid : a.Valid) (run : a.powInt? n = some d) : d.Valid := by
  unfold Decimal.powInt? at run
  split at run
  · exact valid.powNat? run
  · obtain ⟨power, _, run⟩ := Option.bind_eq_some_iff.mp run
    split at run
    · simp at run
    · exact valid_one.div? run

theorem Valid.sqrtSteps {rounds : Nat} {last guess : Decimal} (valid : a.Valid)
    (holds : guess.Valid) (run : a.sqrtSteps rounds last guess = some d) : d.Valid := by
  induction rounds generalizing last guess with
  | zero => simp [Decimal.sqrtSteps] at run
  | succ rounds ih =>
    rw [Decimal.sqrtSteps] at run
    split at run
    · obtain rfl := Option.some.inj run
      exact holds
    · obtain ⟨quotient, divided, run⟩ := Option.bind_eq_some_iff.mp run
      obtain ⟨sum, added, run⟩ := Option.bind_eq_some_iff.mp run
      obtain ⟨next, halved, run⟩ := Option.bind_eq_some_iff.mp run
      exact ih ((holds.add? (valid.div? divided) added).div? halved) run

theorem Valid.sqrt? (valid : a.Valid) (run : a.sqrt? = some d) : d.Valid := by
  unfold Decimal.sqrt? at run
  split at run
  · simp at run
  split at run
  · obtain rfl := Option.some.inj run
    exact valid_zero
  · obtain ⟨half, halved, run⟩ := Option.bind_eq_some_iff.mp run
    obtain ⟨last, _, run⟩ := Option.bind_eq_some_iff.mp run
    refine valid.sqrtSteps ?_ run
    split
    · exact valid
    · exact valid.div? halved

theorem valid_expPositive? (run : expPositive? x = some d) : d.Valid := by
  unfold expPositive? at run
  split at run
  · obtain rfl := Option.some.inj run
    exact valid_one
  · obtain ⟨r, _, run⟩ := Option.bind_eq_some_iff.mp run
    obtain ⟨fraction, _, run⟩ := chosen_eq_some run
    split at run
    · exact Wide.valid_toDecimal? run
    split at run
    · simp at run
    · obtain ⟨power, _, run⟩ := Option.bind_eq_some_iff.mp run
      obtain ⟨product, _, run⟩ := Option.bind_eq_some_iff.mp run
      obtain ⟨value, narrowed, run⟩ := Option.bind_eq_some_iff.mp run
      obtain rfl := Option.some.inj run
      exact (Wide.valid_toDecimal? narrowed).strip

theorem valid_exp? (run : x.exp? = some d) : d.Valid := by
  unfold exp? at run
  split at run
  · obtain ⟨power, _, run⟩ := Option.bind_eq_some_iff.mp run
    split at run
    · simp at run
    · exact valid_one.div? run
  · exact valid_expPositive? run

theorem scaleWhile_count {outside : Decimal → Bool} {step : Decimal → Option Decimal}
    {rounds count total : Nat} (run : scaleWhile outside step rounds x count = some (y, total)) :
    total ≤ count + rounds := by
  induction rounds generalizing x count with
  | zero => simp [scaleWhile] at run
  | succ rounds ih =>
    rw [scaleWhile] at run
    split at run
    · obtain ⟨next, _, run⟩ := Option.bind_eq_some_iff.mp run
      have inner := ih run
      omega
    · obtain ⟨rfl, rfl⟩ := by simpa using run
      omega

theorem valid_lnSeries? {a b : Wide} (run : lnSeries? a b = some d) : d.Valid := by
  unfold lnSeries? at run
  obtain ⟨_, _, run⟩ := Option.bind_eq_some_iff.mp run
  obtain ⟨_, _, run⟩ := Option.bind_eq_some_iff.mp run
  obtain ⟨_, _, run⟩ := Option.bind_eq_some_iff.mp run
  obtain ⟨_, _, run⟩ := Option.bind_eq_some_iff.mp run
  obtain ⟨_, _, run⟩ := Option.bind_eq_some_iff.mp run
  obtain ⟨wide, _, narrowed⟩ := Option.bind_eq_some_iff.mp run
  exact Wide.valid_toDecimal? narrowed

theorem valid_ln? (run : x.ln? = some d) : d.Valid := by
  unfold ln? at run
  split at run
  · obtain rfl := Option.some.inj run
    exact valid_zero
  · obtain ⟨⟨x₁, ups⟩, _, run⟩ := Option.bind_eq_some_iff.mp run
    obtain ⟨⟨x₂, downs⟩, _, run⟩ := Option.bind_eq_some_iff.mp run
    obtain ⟨tens, scaled, run⟩ := chosen_eq_some run
    have valid : tens.Valid := by
      split at scaled
      · obtain rfl := Option.some.inj scaled
        exact valid_zero
      · exact valid_mul? scaled
    dsimp only at run
    split at run
    · obtain rfl := Option.some.inj run
      exact valid.strip
    · obtain ⟨⟨x₃, shrinks⟩, shrunk, run⟩ := Option.bind_eq_some_iff.mp run
      obtain ⟨⟨x₄, grows⟩, grown, run⟩ := Option.bind_eq_some_iff.mp run
      obtain ⟨above, _, run⟩ := Option.bind_eq_some_iff.mp run
      obtain ⟨below, _, run⟩ := Option.bind_eq_some_iff.mp run
      -- The loops that find the whole part of the logarithm take a hundred rounds at most.
      have ones : (ofInt ((shrinks : Int) - grows)).Valid := by
        have first := scaleWhile_count shrunk
        have second := scaleWhile_count grown
        have large : 200 < capacity := by decide
        exact valid_ofInt (by omega)
      split at run
      · obtain rfl := Option.some.inj run
        exact ones
      · obtain ⟨whole, added, run⟩ := Option.bind_eq_some_iff.mp run
        obtain ⟨rest, summed, run⟩ := Option.bind_eq_some_iff.mp run
        obtain ⟨total, joined, run⟩ := Option.bind_eq_some_iff.mp run
        obtain rfl := Option.some.inj run
        exact ((valid.add? ones added).add? (valid_lnSeries? summed) joined).strip

theorem Valid.log10? (valid : x.Valid) (run : x.log10? = some d) : d.Valid := by
  have places := valid.2
  have large : 100 < capacity := by decide
  unfold maxScale at places
  unfold Decimal.log10? at run
  split at run
  · obtain rfl := Option.some.inj run
    exact valid_zero
  split at run
  · obtain rfl := Option.some.inj run
    exact valid_ofInt (by omega)
  split at run
  · rename_i j found
    obtain rfl := Option.some.inj run
    have some := (Option.filter_eq_some_iff.mp found).1
    have mem := List.mem_range.mp (List.mem_of_find?_eq_some some)
    exact valid_ofInt (by omega)
  · obtain ⟨logarithm, _, run⟩ := Option.bind_eq_some_iff.mp run
    exact valid_mul? run

theorem valid_pow? (run : a.pow? b = some d) : d.Valid := by
  unfold pow? at run
  split at run
  · obtain rfl := Option.some.inj run
    exact valid_one
  split at run
  · simp at run
  · obtain ⟨_, _, run⟩ := Option.bind_eq_some_iff.mp run
    obtain ⟨_, _, run⟩ := Option.bind_eq_some_iff.mp run
    exact valid_exp? run

theorem valid_series? {wave : Wave} (run : wave.series? x = some d) : d.Valid := by
  unfold Wave.series? at run
  obtain ⟨square, _, run⟩ := Option.bind_eq_some_iff.mp run
  dsimp only at run
  obtain ⟨sum, _, run⟩ := Option.bind_eq_some_iff.mp run
  obtain ⟨value, narrowed, run⟩ := Option.bind_eq_some_iff.mp run
  obtain rfl := Option.some.inj run
  exact (Wide.valid_toDecimal? narrowed).strip

theorem valid_reduce {rounds : Nat} {wave : Wave} (run : wave.reduce rounds x = some d) :
    d.Valid := by
  induction rounds generalizing wave x d with
  | zero => simp [Wave.reduce] at run
  | succ rounds ih =>
    unfold Wave.reduce at run
    split at run
    · obtain rfl := Option.some.inj run
      split <;> decide
    split at run
    · split at run
      · obtain ⟨value, reduced, rfl⟩ := Option.map_eq_some_iff.mp run
        exact (ih reduced).neg
      · exact ih run
    split at run
    · obtain ⟨rest, _, run⟩ := Option.bind_eq_some_iff.mp run
      exact ih run
    split at run
    · obtain ⟨rest, _, run⟩ := Option.bind_eq_some_iff.mp run
      obtain ⟨value, reduced, run⟩ := Option.bind_eq_some_iff.mp run
      obtain rfl := Option.some.inj run
      exact (ih reduced).neg
    split at run
    · obtain ⟨rest, _, run⟩ := Option.bind_eq_some_iff.mp run
      exact ih run
    · exact valid_series? run

theorem Valid.tangentSeries? (valid : x.Valid) (run : x.tangentSeries? = some d) : d.Valid := by
  refine foldlM_keeps ?_ valid run
  intro sum term next holds step
  obtain ⟨power, _, step⟩ := Option.bind_eq_some_iff.mp step
  obtain ⟨product, multiplied, step⟩ := Option.bind_eq_some_iff.mp step
  exact holds.add? (valid_mul? multiplied) step

theorem Valid.tangent {rounds : Nat} (valid : x.Valid) (run : tangent rounds x = some d) :
    d.Valid := by
  have turn : ¬ twoPi.isZero := by decide
  have half : halfPi.Valid := by decide
  induction rounds generalizing x d with
  | zero => simp [Decimal.tangent] at run
  | succ rounds ih =>
    rw [Decimal.tangent] at run
    split at run
    · obtain rfl := Option.some.inj run
      exact valid_zero
    split at run
    · obtain ⟨value, reduced, rfl⟩ := Option.map_eq_some_iff.mp run
      exact (ih valid.neg reduced).neg
    split at run
    · obtain ⟨rest, divided, run⟩ := Option.bind_eq_some_iff.mp run
      exact ih (valid.rem? (by decide) turn divided) run
    split at run
    · obtain ⟨rest, reduced, run⟩ := Option.bind_eq_some_iff.mp run
      exact ih (valid.sub? (by decide) reduced) run
    split at run
    · obtain ⟨left, subtracted, run⟩ := Option.bind_eq_some_iff.mp run
      obtain ⟨rest, added, run⟩ := Option.bind_eq_some_iff.mp run
      obtain ⟨value, reduced, run⟩ := Option.bind_eq_some_iff.mp run
      obtain rfl := Option.some.inj run
      exact (ih ((half.sub? valid subtracted).add? half added) reduced).neg
    split at run
    · obtain ⟨rest, _, run⟩ := Option.bind_eq_some_iff.mp run
      obtain ⟨inverse, _, run⟩ := Option.bind_eq_some_iff.mp run
      split at run
      · simp at run
      · exact valid_one.div? run
    split at run
    · obtain ⟨rest, _, run⟩ := Option.bind_eq_some_iff.mp run
      obtain ⟨value, _, run⟩ := Option.bind_eq_some_iff.mp run
      obtain ⟨square, _, run⟩ := Option.bind_eq_some_iff.mp run
      obtain ⟨divisor, _, run⟩ := Option.bind_eq_some_iff.mp run
      split at run
      · simp at run
      · obtain ⟨double, doubled, run⟩ := Option.bind_eq_some_iff.mp run
        exact (valid_mul? doubled).div? run
    · exact valid.tangentSeries? run

theorem valid_ofScientific? {negative : Bool} {m : Nat} {g : Int}
    (run : ofScientific? negative m g = some d) : d.Valid := by
  unfold ofScientific? at run
  dsimp only at run
  split at run
  · split at run
    · rename_i room
      obtain rfl := Option.some.inj run
      exact ⟨room, Nat.le_refl _⟩
    · simp at run
  · rename_i few
    split at run
    · rename_i room
      obtain rfl := Option.some.inj run
      exact ⟨room, Nat.le_of_not_lt few⟩
    · simp at run

theorem valid_ofBinary64? {f : Float} (run : ofBinary64? f = some d) : d.Valid := by
  unfold ofBinary64? at run
  split at run
  · split at run
    · obtain rfl := Option.some.inj run
      exact valid_zero
    · obtain ⟨shortest, _, run⟩ := Option.bind_eq_some_iff.mp run
      exact valid_ofScientific? run
  · simp at run

end Decimal

open Decimal

variable {a b c d x : Decimal} {f : Function} {operation : String} {result : Option Decimal}

theorem valid_ofDouble {value : Float} (run : ofDouble operation value = .ok d) : d.Valid := by
  unfold ofDouble at run
  split at run
  · simp at run
  · simp at run
  · exact valid_ofBinary64? (orOverflow_ok.mp run)

theorem valid_power (valid : a.Valid) (run : power a b = .ok d) : d.Valid := by
  unfold power at run
  split at run
  · split at run
    · simp at run
    · exact valid.powInt? (orOverflow_ok.mp run)
  · split at run
    · split at run
      · simp at run
      · obtain rfl := Except.ok.inj run
        exact valid_zero
    · split at run
      · simp at run
      · exact valid_pow? (orOverflow_ok.mp run)

theorem Operator.valid_apply {op : Operator} (first : a.Valid) (second : b.Valid)
    (run : op.apply a b = .ok d) : d.Valid := by
  cases op with
  | add => exact first.add? second (orOverflow_ok.mp run)
  | sub => exact first.sub? second (orOverflow_ok.mp run)
  | mul => exact valid_mul? (orOverflow_ok.mp run)
  | div =>
    simp only [Operator.apply] at run
    split at run
    · simp at run
    · exact first.div? (orOverflow_ok.mp run)
  | mod =>
    simp only [Operator.apply] at run
    split at run
    · simp at run
    · rename_i nonzero
      exact first.rem? second nonzero (orOverflow_ok.mp run)
  | pow => exact valid_power first run

namespace Function

theorem valid_viaDouble {operation : Float → Float} (run : f.viaDouble operation x = .ok d) :
    d.Valid := by
  unfold viaDouble at run
  dsimp only at run
  split at run
  · exact valid_ofDouble run
  · simp at run

theorem valid_naturalLog (run : f.naturalLog x = .ok d) : d.Valid := by
  unfold naturalLog at run
  split at run
  · simp at run
  · exact valid_ln? (orDomain_ok.mp run)

theorem valid_logBase (run : f.logBase x b = .ok d) : d.Valid := by
  unfold logBase at run
  cases top : f.naturalLog x with
  | error e => simp [top, bind, Except.bind] at run
  | ok numerator =>
    cases bottom : f.naturalLog b with
    | error e => simp [top, bottom, bind, Except.bind] at run
    | ok denominator =>
      simp only [top, bottom, bind, Except.bind] at run
      split at run
      · simp at run
      · exact (valid_naturalLog top).div? (orOverflow_ok.mp run)

theorem valid_hypotenuse {args : List Decimal} (run : hypotenuse args = some d) : d.Valid := by
  obtain ⟨sum, folded, run⟩ := Option.bind_eq_some_iff.mp run
  have valid : sum.Valid := by
    refine foldlM_keeps ?_ valid_zero folded
    intro before x after holds step
    obtain ⟨square, multiplied, step⟩ := Option.bind_eq_some_iff.mp step
    exact holds.add? (valid_mul? multiplied) step
  exact valid.sqrt? run

theorem valid_signOf (x : Decimal) : (signOf x).Valid := by
  unfold signOf
  split
  · exact valid_zero
  · split
    · decide
    · exact valid_one

theorem valid_foldl {choose : Decimal → Decimal → Decimal} {rest : List Decimal}
    (chooses : ∀ a b : Decimal, a.Valid → b.Valid → (choose a b).Valid) (first : x.Valid)
    (others : ∀ y ∈ rest, y.Valid) : (rest.foldl choose x).Valid := by
  induction rest generalizing x with
  | nil => exact first
  | cons y rest ih =>
    have ⟨head, tail⟩ := List.forall_mem_cons.mp others
    exact ih (chooses x y first head) tail

/-- A draw alone may give more places, since it is rounded to the digits that are asked for. -/
theorem valid_apply {seed : Seed} {args : List Decimal} (drawn : f ≠ random)
    (valid : ∀ x ∈ args, x.Valid) (run : f.apply seed args = .ok d) : d.Valid := by
  cases args with
  | nil =>
    cases f
    case random => exact absurd rfl drawn
    case hypot =>
      dsimp only [apply] at run
      exact valid_hypotenuse (orOverflow_ok.mp run)
    all_goals cases run
  | cons x rest =>
    have ⟨first, others⟩ := List.forall_mem_cons.mp valid
    cases f
    case random => exact absurd rfl drawn
    case hypot => exact valid_hypotenuse (orOverflow_ok.mp run)
    case abs => exact Except.ok.inj run ▸ first.abs
    case ceil => exact Except.ok.inj run ▸ first.ceil
    case floor => exact Except.ok.inj run ▸ first.floor
    case trunc => exact Except.ok.inj run ▸ first.trunc
    case round => exact Except.ok.inj run ▸ first.round
    case sign => exact Except.ok.inj run ▸ valid_signOf x
    case max => exact Except.ok.inj run ▸ valid_foldl (fun _ _ => Valid.larger) first others
    case min => exact Except.ok.inj run ▸ valid_foldl (fun _ _ => Valid.smaller) first others
    case sqrt => exact first.sqrt? (orDomain_ok.mp run)
    case exp => exact valid_exp? (orOverflow_ok.mp run)
    case ln => exact valid_naturalLog run
    case log10 =>
      dsimp only [apply] at run
      split at run
      · simp at run
      · exact first.log10? (orDomain_ok.mp run)
    case log2 => exact valid_logBase run
    case log =>
      cases rest with
      | nil => exact valid_logBase run
      | cons base rest => exact valid_logBase run
    case sin => exact valid_reduce (orDomain_ok.mp run)
    case cos => exact valid_reduce (orDomain_ok.mp run)
    case tan => exact first.tangent (orDomain_ok.mp run)
    case add | sub | mul | div | mod | pow =>
      cases rest with
      | nil => cases run
      | cons y rest =>
        dsimp only [apply] at run
        exact Operator.valid_apply first (others y List.mem_cons_self) run
    case atan2 =>
      cases rest with
      | nil => cases run
      | cons y rest => exact valid_ofDouble run
    case asin | acos | atan | sinh | cosh | tanh | asinh | acosh | atanh | cbrt =>
      exact valid_viaDouble run

end Function
end Reckon
