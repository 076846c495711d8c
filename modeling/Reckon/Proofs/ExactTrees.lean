import Reckon.Proofs.ExactArithmetic
import Reckon.Proofs.Literals
import Reckon.Proofs.Parts

/-
Trees of literals, signs, sums, differences and products whose results are all representable.  Up to
20 digits they have exactly the values that they write; with more digits this is so as long as no
sum in them borrows from nowhere.
-/
namespace Reckon
open Number
open Decimal (capacity maxScale)

namespace Operator

def number? : Operator → ℚ → ℚ → Option ℚ
  | add, x, y => some (x + y)
  | sub, x, y => some (x - y)
  | mul, x, y => some (x * y)
  | _, _, _ => none

def Wraps : Operator → Decimal → Decimal → Prop
  | add, a, b => a.Wraps b
  | sub, a, b => a.Wraps (-b)
  | _, _, _ => False

variable {op : Operator} {a b v : Decimal} {p : ℕ} {z : ℚ}

theorem apply_exact (most : p ≤ 28) (first : a.mantissa < capacity) (second : b.mantissa < capacity)
    (result : op.number? a.toRat b.toRat = some z) (representable : Representable p z)
    (clear : ¬ op.Wraps a b) : ∃ v, op.apply a b = .ok v ∧ v.toRat = z := by
  cases op with
  | add =>
    obtain rfl := Option.some.inj result
    obtain ⟨v, run, value⟩ := Decimal.add?_exact most first second representable clear
    exact ⟨v, orOverflow_ok.mpr run, value⟩
  | sub =>
    obtain rfl := Option.some.inj result
    obtain ⟨v, run, value⟩ := Decimal.sub?_exact most first second representable clear
    exact ⟨v, orOverflow_ok.mpr run, value⟩
  | mul =>
    obtain rfl := Option.some.inj result
    obtain ⟨v, run, value⟩ := Decimal.mul?_exact most representable
    exact ⟨v, orOverflow_ok.mpr run, value⟩
  | div => cases result
  | mod => cases result
  | pow => cases result

theorem apply_room (first : a.mantissa < capacity) (second : b.mantissa < capacity) {x y : ℚ}
    (result : op.number? x y = some z) (run : op.apply a b = .ok v) : v.mantissa < capacity := by
  cases op with
  | add => exact Decimal.mantissa_add? first second (orOverflow_ok.mp run)
  | sub =>
    refine Decimal.mantissa_add? first ?_ (orOverflow_ok.mp run)
    split
    · exact second
    · exact second
  | mul => exact (Decimal.valid_mul? (orOverflow_ok.mp run)).1
  | div => cases result
  | mod => cases result
  | pow => cases result

theorem apply_wrapped (first : a.mantissa < capacity) (second : b.mantissa < capacity)
    (result : op.number? a.toRat b.toRat = some z) (wraps : op.Wraps a b)
    (run : op.apply a b = .ok v) : z < 0 ∧ 0 ≤ v.toRat ∨ 0 < z ∧ v.toRat ≤ 0 := by
  cases op with
  | add =>
    obtain rfl := Option.some.inj result
    exact Decimal.add?_wrapped first second wraps (orOverflow_ok.mp run)
  | sub =>
    obtain rfl := Option.some.inj result
    have run := orOverflow_ok.mp run
    have nonzero : ¬ b.isZero := wraps.nonzero.2
    rw [Decimal.sub?_eq nonzero] at run
    rw [sub_eq_add_neg, ← Decimal.toRat_neg]
    exact Decimal.add?_wrapped first second wraps run
  | mul => cases wraps
  | div => cases wraps
  | mod => cases wraps
  | pow => cases wraps

theorem not_wraps (few : p ≤ 20) (first : a.Bounded p) (second : b.Bounded p) :
    ¬ op.Wraps a b := by
  cases op with
  | add => exact Decimal.not_wraps few first second
  | sub => exact Decimal.not_wraps few first second
  | mul => exact id
  | div => exact id
  | mod => exact id
  | pow => exact id

end Operator

theorem Sign.toRat_applyAll (signs : List Sign) (d : Decimal) :
    (Sign.applyAll signs d).toRat = (-1) ^ signs.count .minus * d.toRat := by
  unfold Sign.applyAll
  split
  · rename_i odd
    rw [Odd.neg_one_pow (Nat.odd_iff.mpr odd), Decimal.toRat_neg, neg_one_mul]
  · rename_i even
    rw [Even.neg_one_pow (Nat.even_iff.mpr (by omega)), one_mul]

namespace Node

/-- The tree is built from literals, signs and the operators + - *, its literals are accepted, the
numbers at its operators are representable, and its value is the given number. -/
inductive HasValue (p : ℕ) : Node → ℚ → Prop where
  | literal (accepted : Decimal.literal? raw = some d) (denotes : Decimal.Denotes raw x) :
      HasValue p (literal raw) x
  | signed (inside : HasValue p operand x) :
      HasValue p (signed signs operand) ((-1) ^ signs.count .minus * x)
  | binary (first : HasValue p left x) (second : HasValue p right y)
      (result : op.number? x y = some z) (representable : Representable p z) :
      HasValue p (binary left op right) z

/-- Whether no sum or difference of computed values in the tree wraps around. -/
def SumsClear (p : ℕ) (tree : Node) : Prop :=
  ∀ left op right, Part (binary left op right) tree → ∀ (seed : Seed) a b,
    left.evaluate p seed.left = .ok a → right.evaluate p seed.right = .ok b → ¬ op.Wraps a b

def Faithful (p : ℕ) (tree : Node) : Prop :=
  ∀ node x, Part node tree → HasValue p node x →
    ∀ seed, ∃ d, node.evaluate p seed = .ok d ∧ d.toRat = x

variable {p : ℕ} {tree node : Node} {seed : Seed} {x : ℚ} {d : Decimal}

theorem hasValue_literal {raw : String} {d : Decimal} (accepted : Decimal.literal? raw = some d) :
    HasValue p (literal raw) d.toRat :=
  .literal accepted (Decimal.denotes_literal? accepted).2

theorem HasValue.bounded (positive : 0 < p) (most : p ≤ 28) (valued : HasValue p tree x)
    (run : tree.evaluate p seed = .ok d) : d.Bounded p := by
  induction valued generalizing seed d with
  | literal accepted denotes =>
    have valid := Decimal.valid_literal? (literalValue_ok.mp run)
    exact ⟨valid.1, .inl valid.2⟩
  | signed inside ih =>
    obtain ⟨v, value, rfl⟩ := evaluate_signed_ok.mp run
    have inner : v.Bounded p := ih value
    unfold Sign.applyAll
    split
    · exact inner
    · exact inner
  | binary first second result representable left right =>
    obtain ⟨a, b, v, firstRun, secondRun, applied, rfl⟩ := evaluate_binary_ok.mp run
    exact Decimal.bounded_roundSignificant positive most
      (Operator.apply_room (left firstRun).1 (right secondRun).1 result applied)

theorem toRat_roundSignificant_of_representable (positive : 0 < p)
    (representable : Representable p d.toRat) : (d.roundSignificant p).toRat = d.toRat := by
  have same := roundedTo_of_significant representable.significant
  rw [Decimal.toRat_roundSignificant positive (by rw [same]; exact representable.room), same]

theorem HasValue.evaluates (positive : 0 < p) (most : p ≤ 28) (valued : HasValue p tree x)
    (clear : SumsClear p tree) (seed : Seed) :
    ∃ d, tree.evaluate p seed = .ok d ∧ d.toRat = x := by
  induction valued generalizing seed with
  | literal accepted denotes =>
    exact ⟨_, literalValue_ok.mpr accepted, (Decimal.denotes_literal? accepted).2.unique denotes⟩
  | signed inside ih =>
    have below : SumsClear p _ := fun left op right part =>
      clear left op right (.inside List.mem_cons_self part)
    obtain ⟨d, run, value⟩ := ih below seed
    exact ⟨_, evaluate_signed_ok.mpr ⟨d, run, rfl⟩, by rw [Sign.toRat_applyAll, value]⟩
  | @binary first x second y z op left right result representable ihLeft ihRight =>
    have onLeft : SumsClear p first := fun left op right part =>
      clear left op right (.inside List.mem_cons_self part)
    have onRight : SumsClear p second := fun left op right part =>
      clear left op right (.inside (List.mem_cons_of_mem _ List.mem_cons_self) part)
    obtain ⟨a, firstRun, rfl⟩ := ihLeft onLeft seed.left
    obtain ⟨b, secondRun, rfl⟩ := ihRight onRight seed.right
    have apart := clear first op second .whole seed a b firstRun secondRun
    obtain ⟨v, applied, rfl⟩ := Operator.apply_exact most (left.bounded positive most firstRun).1
      (right.bounded positive most secondRun).1 result representable apart
    exact ⟨_, evaluate_binary_ok.mpr ⟨a, b, v, firstRun, secondRun, applied, rfl⟩,
      toRat_roundSignificant_of_representable positive representable⟩

theorem HasValue.part (part : Part node tree) (valued : HasValue p tree x) :
    ∃ y, HasValue p node y := by
  induction part generalizing x with
  | whole => exact ⟨x, valued⟩
  | inside mem part ih =>
    cases valued with
    | literal accepted denotes => cases mem
    | signed inside =>
      obtain rfl := List.mem_singleton.mp mem
      exact ih inside
    | binary first second result representable =>
      rcases List.mem_pair.mp mem with rfl | rfl
      · exact ih first
      · exact ih second

/-- Up to 20 digits every part of the tree has exactly its value.  With more digits all parts have
theirs if and only if no sum in the tree wraps around. -/
theorem faithful_iff_sumsClear (positive : 0 < p) (most : p ≤ 28) (valued : HasValue p tree x) :
    (p ≤ 20 → Faithful p tree) ∧ (Faithful p tree ↔ SumsClear p tree) := by
  have faithful : SumsClear p tree → Faithful p tree := by
    intro clear node y part inner seed
    exact inner.evaluates positive most
      (fun left op right below => clear left op right (part.trans below)) seed
  refine ⟨?_, ?_, faithful⟩
  · intro few
    refine faithful fun left op right part seed a b firstRun secondRun => ?_
    obtain ⟨z, inner⟩ := valued.part part
    cases inner with
    | binary first second result representable =>
      exact Operator.not_wraps few (first.bounded positive most firstRun)
        (second.bounded positive most secondRun)
  · intro exact left op right part seed a b firstRun secondRun wraps
    obtain ⟨z, inner⟩ := valued.part part
    obtain ⟨d, run, value⟩ := exact _ z part inner seed
    cases inner with
    | @binary _ x _ y _ _ first second result representable =>
      obtain ⟨a', firstRun', rfl⟩ := exact left x (part.child (by simp [children])) first seed.left
      obtain ⟨b', secondRun', rfl⟩ :=
        exact right y (part.child (by simp [children])) second seed.right
      obtain rfl := Except.ok.inj (firstRun.symm.trans firstRun')
      obtain rfl := Except.ok.inj (secondRun.symm.trans secondRun')
      obtain ⟨a', b', v, firstRun', secondRun', applied, rfl⟩ := evaluate_binary_ok.mp run
      obtain rfl := Except.ok.inj (firstRun.symm.trans firstRun')
      obtain rfl := Except.ok.inj (secondRun.symm.trans secondRun')
      have turned := Operator.apply_wrapped (first.bounded positive most firstRun).1
        (second.bounded positive most secondRun).1 result wraps applied
      -- Rounding does not lead back over zero, so the value is on the wrong side.
      rcases turned with ⟨below, above⟩ | ⟨above, below⟩
      · have rounded := Decimal.roundSignificant_nonneg positive above
        rw [value] at rounded
        exact absurd below (not_lt.mpr rounded)
      · have rounded := Decimal.roundSignificant_nonpos positive below
        rw [value] at rounded
        exact absurd above (not_lt.mpr rounded)

theorem tenths_hasValue : HasValue 20 (binary (literal "0.1") .add (literal "0.2")) (3 / 10) := by
  have first : HasValue 20 (literal "0.1") (Decimal.toRat ⟨false, 1, 1⟩) := hasValue_literal rfl
  have second : HasValue 20 (literal "0.2") (Decimal.toRat ⟨false, 2, 1⟩) := hasValue_literal rfl
  refine .binary first second ?_ ⟨⟨3, -1, by norm_num, by norm_num⟩, ?_, ?_⟩
  · norm_num [Operator.number?, Decimal.toRat, Decimal.signed]
  · exact ⟨3 * 10 ^ 27, by norm_num [maxScale]⟩
  · norm_num [capacity, abs_of_pos]

theorem tenths_faithful_iff :
    (20 ≤ 20 → Faithful 20 (binary (literal "0.1") .add (literal "0.2"))) ∧
      (Faithful 20 (binary (literal "0.1") .add (literal "0.2")) ↔
        SumsClear 20 (binary (literal "0.1") .add (literal "0.2"))) :=
  faithful_iff_sumsClear (by decide) (by decide) tenths_hasValue

theorem paddedDifference_hasValue :
    HasValue 28 (binary (literal "0.000061") .sub (binary (literal "8e-6") .mul (literal "11")))
      (-27 / 10 ^ 6) := by
  have first : HasValue 28 (literal "0.000061") (Decimal.toRat ⟨false, 61, 6⟩) :=
    hasValue_literal rfl
  have second : HasValue 28 (literal "8e-6") (Decimal.toRat ⟨false, 8, 6⟩) := hasValue_literal rfl
  have third : HasValue 28 (literal "11") (Decimal.toRat ⟨false, 11, 0⟩) := hasValue_literal rfl
  have product : HasValue 28 (binary (literal "8e-6") .mul (literal "11")) (88 / 10 ^ 6) := by
    refine .binary second third ?_ ⟨⟨88, -6, by norm_num, by norm_num⟩, ?_, ?_⟩
    · norm_num [Operator.number?, Decimal.toRat, Decimal.signed]
    · exact ⟨88 * 10 ^ 22, by norm_num [maxScale]⟩
    · norm_num [capacity, abs_of_pos]
  refine .binary first product ?_ ⟨⟨-27, -6, by norm_num, by norm_num⟩, ?_, ?_⟩
  · norm_num [Operator.number?, Decimal.toRat, Decimal.signed]
  · exact ⟨-27 * 10 ^ 22, by norm_num [maxScale]⟩
  · norm_num [capacity, abs_of_pos]

/-- The product has 26 zeros after its two digits, and the difference borrows 2^96. -/
theorem paddedDifference_unfaithful :
    HasValue 28 (binary (literal "0.000061") .sub (binary (literal "8e-6") .mul (literal "11")))
        (-27 / 10 ^ 6) ∧
      (binary (literal "0.000061") .sub (binary (literal "8e-6") .mul (literal "11"))).evaluate 28
          ⟨0⟩ = .ok ⟨false, 7652816251426433759354395000, 31⟩ ∧
      Decimal.toRat ⟨false, 7652816251426433759354395000, 31⟩ ≠ -27 / 10 ^ 6 := by
  have wrapped : (⟨false, 61, 6⟩ : Decimal).sub? ⟨false, 88 * 10 ^ 26, 32⟩ =
      some ⟨false, 7652816251426433759354395, 28⟩ := by
    have none : Decimal.excess (capacity - 27 * 10 ^ 26) = 0 := by
      rw [Decimal.excess, if_pos (by decide)]
    have fits : Decimal.fit (capacity - 27 * 10 ^ 26) 32 =
        some (7652816251426433759354395, 28) := by
      rw [Decimal.fit, none]
      rfl
    change (Decimal.fit (capacity - 27 * 10 ^ 26) 32).map _ = _
    rw [fits]
    rfl
  refine ⟨paddedDifference_hasValue, ?_, ?_⟩
  · exact evaluate_binary_ok.mpr ⟨⟨false, 61, 6⟩, ⟨false, 88 * 10 ^ 26, 32⟩,
      ⟨false, 7652816251426433759354395, 28⟩, rfl, rfl, orOverflow_ok.mpr wrapped, rfl⟩
  · norm_num [Decimal.toRat, Decimal.signed]

end Node
end Reckon
