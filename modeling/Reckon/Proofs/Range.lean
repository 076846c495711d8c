import Reckon.Decimal.Arithmetic
import Reckon.Decimal.Remainder
import Reckon.Proofs.Value

/-
The range of decimals: mantissas below the capacity and at most `maxScale` places.  Every operation
on decimals of this range stays in it; only padding a result with zeros can leave it.
-/
namespace Reckon.Decimal

variable {a b c d : Decimal} {m s t k : Nat} {m' s' : Nat}

theorem valid_zero : zero.Valid := by decide

theorem valid_one : one.Valid := by decide

theorem Valid.neg (valid : d.Valid) : (-d).Valid := valid

theorem Valid.abs (valid : d.Valid) : d.abs.Valid := valid

theorem Valid.strip (valid : d.Valid) : d.strip.Valid := by
  obtain ⟨places, whole, -⟩ := stripDigits_spec (m := d.mantissa) (s := d.scale) rfl
  have less : (stripDigits d.mantissa d.scale).1 ≤ d.mantissa := by
    conv_rhs => rw [whole]
    exact Nat.le_mul_of_pos_right _ (Nat.pow_pos (by decide))
  exact ⟨Nat.lt_of_le_of_lt less valid.1, Nat.le_trans places valid.2⟩

theorem div_excess_lt (m : Nat) : m / 10 ^ excess m < capacity := by
  fun_induction excess m with
  | case1 m small => simpa using small
  | case2 m large ih =>
    rw [Nat.pow_succ', ← Nat.div_div_eq_div_mul]
    exact ih

theorem excess_le (room : m / 10 ^ t < capacity) : excess m ≤ t := by
  induction t generalizing m with
  | zero =>
    rw [excess]
    simp at room
    simp [room]
  | succ t ih =>
    rw [excess]
    split
    · exact Nat.zero_le _
    · rw [Nat.pow_succ', ← Nat.div_div_eq_div_mul] at room
      exact Nat.succ_le_succ (ih room)

theorem halfEven_le (m k : Nat) : halfEven m k ≤ m / 10 ^ k + 1 := by
  unfold halfEven
  dsimp only
  split <;> omega

theorem fit_valid (run : fit m s = some (m', s')) : m' < capacity ∧ s' ≤ maxScale := by
  unfold fit at run
  dsimp only at run
  have whole := div_excess_lt m
  have less : m / 10 ^ max (s - maxScale) (excess m) ≤ m / 10 ^ excess m :=
    Nat.div_le_div_left (Nat.pow_le_pow_right (by decide) (Nat.le_max_right _ _)) (Nat.pow_pos (by decide))
  have most := halfEven_le m (max (s - maxScale) (excess m))
  split at run
  · simp at run
  · split at run
    · rename_i room
      obtain ⟨rfl, rfl⟩ := Prod.mk.inj (Option.some.inj run)
      exact ⟨room, by omega⟩
    · split at run
      · simp at run
      · obtain ⟨rfl, rfl⟩ := Prod.mk.inj (Option.some.inj run)
        have again := halfEven_le (halfEven m (max (s - maxScale) (excess m))) 1
        have large : 100 < capacity := by decide
        rw [Nat.pow_one] at again
        refine ⟨?_, by omega⟩
        omega

/-- A sum is one of its operands, or it has its own spelling, which has room and either as many
places as both operands or few enough. -/
theorem add?_cases (run : a.add? b = some c) :
    c = a ∨ c = b ∨
      c.mantissa < capacity ∧ (c.scale ≤ maxScale ∨ a.scale = b.scale ∧ c.scale = a.scale) := by
  unfold add? at run
  split at run
  · exact .inr (.inl (Option.some.inj run).symm)
  · split at run
    · exact .inl (Option.some.inj run).symm
    · refine .inr (.inr ?_)
      dsimp only at run
      split at run
      · rename_i keeps
        obtain rfl := Option.some.inj run
        refine ⟨keeps.1, ?_⟩
        rcases keeps.2 with few | same
        · exact .inl few
        · refine .inr ⟨same, ?_⟩
          simp [same]
      · obtain ⟨⟨m', s'⟩, fits, rfl⟩ := Option.map_eq_some_iff.mp run
        have bounds := fit_valid fits
        exact ⟨bounds.1, .inl bounds.2⟩

theorem mantissa_add? (first : a.mantissa < capacity) (second : b.mantissa < capacity)
    (run : a.add? b = some c) : c.mantissa < capacity := by
  rcases add?_cases run with rfl | rfl | ⟨room, _⟩
  · exact first
  · exact second
  · exact room

theorem Valid.add? (first : a.Valid) (second : b.Valid) (run : a.add? b = some c) : c.Valid := by
  refine ⟨mantissa_add? first.1 second.1 run, ?_⟩
  rcases add?_cases run with rfl | rfl | ⟨_, few | ⟨_, same⟩⟩
  · exact first.2
  · exact second.2
  · exact few
  · rw [same]
    exact first.2

theorem Valid.sub? (first : a.Valid) (second : b.Valid) (run : a.sub? b = some c) : c.Valid := by
  unfold Decimal.sub? at run
  refine first.add? ?_ run
  split
  · exact second
  · exact second.neg

theorem valid_mul? (run : a.mul? b = some c) : c.Valid := by
  have wide : 2 ^ 32 * 2 ^ 32 < capacity := by decide
  unfold mul? at run
  split at run
  · obtain rfl := Option.some.inj run
    exact valid_zero
  · dsimp only at run
    split at run
    · rename_i short
      have product : a.mantissa * b.mantissa < 2 ^ 32 * 2 ^ 32 :=
        Nat.mul_lt_mul'' short.1 short.2
      split at run
      · obtain rfl := Option.some.inj run
        exact valid_zero
      · split at run
        · obtain rfl := Option.some.inj run
          have most := halfEven_le (a.mantissa * b.mantissa) (a.scale + b.scale - maxScale)
          have less := Nat.div_le_self (a.mantissa * b.mantissa)
            (10 ^ (a.scale + b.scale - maxScale))
          exact ⟨by dsimp only; omega, Nat.le_refl _⟩
        · obtain rfl := Option.some.inj run
          exact ⟨by dsimp only; omega, by dsimp only; omega⟩
    · split at run
      · rename_i keeps
        obtain rfl := Option.some.inj run
        exact keeps
      · obtain ⟨⟨m', s'⟩, fits, rfl⟩ := Option.map_eq_some_iff.mp run
        exact fit_valid fits

structure Quotient.Sound (divisor : Nat) (q : Quotient) : Prop where
  room : q.whole < capacity
  places : q.scale ≤ maxScale
  rest : divisor = 0 ∨ q.rest < divisor

variable {q r : Quotient} {divisor : Nat}

theorem Quotient.room_le (places : q.scale ≤ maxScale) :
    q.room ≤ 9 ∧ q.scale + q.room ≤ maxScale := by
  unfold Quotient.room
  cases found : (List.range 10).reverse.find? fun (p : Nat) =>
      q.whole * 10 ^ p < capacity ∧ q.scale + p ≤ maxScale with
  | none => simpa using places
  | some p =>
    have mem := List.mem_of_find?_eq_some found
    have holds := List.find?_some found
    simp only [List.mem_reverse, List.mem_range] at mem
    simp only [decide_eq_true_eq] at holds
    simp only [Option.getD_some]
    omega

theorem Quotient.shorten_bounds (small : q.whole ≤ capacity + 10 ^ 9)
    (places : q.scale ≤ maxScale) (run : q.shorten = some r) :
    r.whole < capacity ∧ r.scale ≤ maxScale := by
  have large : 10 ^ 10 < capacity := by decide
  unfold Quotient.shorten at run
  split at run
  · simp at run
  · obtain rfl := Option.some.inj run
    dsimp only
    constructor
    · split <;> omega
    · omega

theorem Quotient.close_bounds (sound : q.Sound divisor) (run : q.close divisor = some r) :
    r.whole < capacity ∧ r.scale ≤ maxScale := by
  have room := sound.room
  unfold Quotient.close at run
  dsimp only at run
  generalize rounded : (if 2 * q.rest > divisor ∨ 2 * q.rest = divisor ∧ q.whole % 2 = 1 then
    q.whole + 1 else q.whole) = whole at run
  have near : whole ≤ q.whole + 1 := by
    rw [← rounded]
    split <;> omega
  split at run
  · rename_i fits
    obtain rfl := Option.some.inj run
    exact ⟨fits, sound.places⟩
  · have small : whole ≤ capacity + 10 ^ 9 := by omega
    exact Quotient.shorten_bounds (q := { q with whole }) small sound.places run

theorem Quotient.extend_bounds {rounds : Nat} (sound : q.Sound divisor)
    (run : Quotient.extend divisor rounds q = some r) :
    r.whole < capacity ∧ r.scale ≤ maxScale := by
  induction rounds generalizing q with
  | zero => simp [Quotient.extend] at run
  | succ rounds ih =>
    have ⟨room, places, rest⟩ := sound
    rw [Quotient.extend] at run
    split at run
    · obtain rfl := Option.some.inj run
      exact ⟨room, places⟩
    · rename_i unfinished
      dsimp only at run
      have digits := q.room_le places
      generalize chosen : (if q.rest = 0 then min 9 (-q.scale).toNat else q.room) = p at run
      have step : p ≤ 9 ∧ q.scale + p ≤ maxScale := by
        rw [← chosen]
        split
        · unfold maxScale
          omega
        · exact digits
      split at run
      · simp at run
      · split at run
        · have same : Quotient.Sound divisor { q with fractional := q.fractional || q.rest != 0 } :=
            ⟨room, places, rest⟩
          exact Quotient.close_bounds same run
        · split at run
          · simp at run
          · rename_i shifted
            -- The rest is below the divisor, so that `p` more places make no carry.
            have digit : q.rest * 10 ^ p / divisor < 10 ^ p := by
              rcases rest with none | less
              · rw [none, Nat.div_zero]
                exact Nat.pow_pos (by decide)
              · have unit : 0 < 10 ^ p := Nat.pow_pos (by decide)
                rw [Nat.div_lt_iff_lt_mul (by omega), Nat.mul_comm]
                exact Nat.mul_lt_mul_of_pos_left less unit
            have nine : 10 ^ p ≤ 10 ^ 9 := Nat.pow_le_pow_right (by decide) step.1
            split at run
            · exact Quotient.shorten_bounds (by dsimp only; omega) step.2 run
            · rename_i fits
              refine ih ⟨Nat.lt_of_not_le fits, step.2, ?_⟩ run
              dsimp only
              rcases Nat.eq_zero_or_pos divisor with none | some
              · exact .inl none
              · exact .inr (Nat.mod_lt _ some)

theorem dropZeros_le (count : Nat) (d : Nat × Nat) :
    (dropZeros count d).1 ≤ d.1 ∧ (dropZeros count d).2 ≤ d.2 := by
  obtain ⟨m, s⟩ := d
  unfold dropZeros
  dsimp only
  split
  · exact ⟨Nat.div_le_self _ _, Nat.sub_le _ _⟩
  · exact ⟨Nat.le_refl _, Nat.le_refl _⟩

theorem dropEights_le (rounds : Nat) (d : Nat × Nat) :
    (dropEights rounds d).1 ≤ d.1 ∧ (dropEights rounds d).2 ≤ d.2 := by
  induction rounds generalizing d with
  | zero => exact ⟨Nat.le_refl _, Nat.le_refl _⟩
  | succ rounds ih =>
    obtain ⟨m, s⟩ := d
    unfold dropEights
    split
    · have inner := ih (m / 10 ^ 8, s - 8)
      have less := Nat.div_le_self m (10 ^ 8)
      dsimp only at inner ⊢
      omega
    · exact ⟨Nat.le_refl _, Nat.le_refl _⟩

theorem tidy_le (m s : Nat) : (tidy m s).1 ≤ m ∧ (tidy m s).2 ≤ s := by
  unfold tidy
  have first := dropEights_le s (m, s)
  have second := dropZeros_le 4 (dropEights s (m, s))
  have third := dropZeros_le 2 (dropZeros 4 (dropEights s (m, s)))
  have last := dropZeros_le 1 (dropZeros 2 (dropZeros 4 (dropEights s (m, s))))
  dsimp only at first
  omega

theorem Valid.div? (first : a.Valid) (run : a.div? b = some c) : c.Valid := by
  unfold Decimal.div? at run
  split at run
  · obtain rfl := Option.some.inj run
    exact valid_zero
  · obtain ⟨q, extends', rfl⟩ := Option.map_eq_some_iff.mp run
    have start : Quotient.Sound b.mantissa
        ⟨a.mantissa / b.mantissa, a.mantissa % b.mantissa, (a.scale : Int) - b.scale, false⟩ := by
      refine ⟨Nat.lt_of_le_of_lt (Nat.div_le_self _ _) first.1, ?_, ?_⟩
      · have places := first.2
        dsimp only
        omega
      · rcases Nat.eq_zero_or_pos b.mantissa with none | some
        · exact .inl none
        · exact .inr (Nat.mod_lt _ some)
    have bounds := Quotient.extend_bounds start extends'
    have tidied := tidy_le q.whole q.scale.toNat
    dsimp only
    split
    · exact ⟨Nat.lt_of_le_of_lt tidied.1 bounds.1, by dsimp only; omega⟩
    · exact ⟨bounds.1, by dsimp only; omega⟩

theorem windowRemainder_lt (positive : 0 < divisor) (window : Nat) :
    windowRemainder divisor window < divisor := by
  unfold windowRemainder
  dsimp only
  have least := Int.emod_nonneg
    (((window / 2 ^ 64 % (divisor / 2 ^ 64) * 2 ^ 64 + window % 2 ^ 64 : Nat) : Int)
      - (window / 2 ^ 64 / (divisor / 2 ^ 64) % 2 ^ 32 * (divisor % 2 ^ 64) : Nat))
    (show (divisor : Int) ≠ 0 by omega)
  have most := Int.emod_lt_of_pos
    (((window / 2 ^ 64 % (divisor / 2 ^ 64) * 2 ^ 64 + window % 2 ^ 64 : Nat) : Int)
      - (window / 2 ^ 64 / (divisor / 2 ^ 64) % 2 ^ 32 * (divisor % 2 ^ 64) : Nat))
    (show 0 < (divisor : Int) by omega)
  omega

theorem longRemainder_lt (wide : 2 ^ 32 ≤ divisor) (dividend : Nat) :
    longRemainder divisor dividend < divisor := by
  rw [longRemainder]
  split
  · omega
  · exact windowRemainder_lt (by omega) _

theorem mantissaRemainder_lt (positive : 0 < divisor) (dividend : Nat) :
    mantissaRemainder dividend divisor < divisor := by
  unfold mantissaRemainder
  split
  · exact Nat.mod_lt _ positive
  · rename_i long
    dsimp only
    have wide : 2 ^ 32 ≤ divisor <<< (95 - divisor.log2) := by
      rw [Nat.shiftLeft_eq]
      have more := Nat.le_mul_of_pos_right divisor (Nat.two_pow_pos (95 - divisor.log2))
      omega
    have less := longRemainder_lt wide (dividend <<< (95 - divisor.log2))
    have shifted := Nat.shiftLeft_eq divisor (95 - divisor.log2)
    rw [Nat.shiftRight_eq_div_pow, Nat.div_lt_iff_lt_mul (Nat.two_pow_pos _)]
    omega

theorem natAbs_unitsAt (d : Decimal) (s : Nat) :
    (d.unitsAt s).natAbs = d.mantissa * 10 ^ (s - d.scale) := by
  rw [unitsAt, Int.natAbs_mul, signed_natAbs, Int.natAbs_pow]
  rfl

theorem Valid.rem? (first : a.Valid) (second : b.Valid) (nonzero : ¬ b.isZero)
    (run : a.rem? b = some c) : c.Valid := by
  have positive : 0 < b.mantissa * 10 ^ (max a.scale b.scale - b.scale) := by
    refine Nat.mul_pos ?_ (Nat.pow_pos (by decide))
    simp [isZero] at nonzero
    omega
  unfold Decimal.rem? at run
  dsimp only at run
  rw [natAbs_unitsAt, natAbs_unitsAt] at run
  have less := mantissaRemainder_lt positive (a.mantissa * 10 ^ (max a.scale b.scale - a.scale))
  split at run
  · obtain rfl := Option.some.inj run
    exact valid_zero
  · split at run
    · obtain rfl := Option.some.inj run
      exact first
    · rename_i ordered
      split at run
      · simp at run
      · obtain rfl := Option.some.inj run
        have bound := first.1
        have bound' := second.1
        refine ⟨?_, Nat.max_le.mpr ⟨first.2, second.2⟩⟩
        dsimp only
        rcases Nat.le_total a.scale b.scale with fine | fine
        · rw [Nat.max_eq_right fine, Nat.sub_self, Nat.pow_zero, Nat.mul_one] at less ⊢
          omega
        · rw [Nat.max_eq_left fine, Nat.sub_self, Nat.pow_zero, Nat.mul_one] at less ordered ⊢
          omega

end Reckon.Decimal
