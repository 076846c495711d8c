import Reckon.Proofs.ExactLiterals
import Reckon.Proofs.Numerals

/-
Literals with a power of two.  The power of ten is applied first and has to leave a number in the
range of decimals; the power of two then multiplies its digits by two or by five, and the product
has to stay below the workspace.  A number that comes back into the range only after these steps is
not read.
-/
namespace Reckon

namespace Decimal
open Number

variable {d e : Decimal} {i : ℤ} {m n s t : ℕ} {x y : ℚ} {body after : List Char} {raw : String}

def Holds (x : ℚ) : Prop := ∃ m s : ℕ, m < capacity ∧ s ≤ maxScale ∧ x = shifted m (-(s : ℤ))

def twosFactor (i : ℤ) : ℕ := (if i > 0 then 2 else 5) ^ i.natAbs

theorem Plain.unique (first : d.Plain) (second : e.Plain) (same : d.toRat = e.toRat) : d = e := by
  rw [first.toRat_eq, second.toRat_eq] at same
  obtain ⟨digits, places⟩ := shifted_stripped same first.last second.last
  have sign : d.negative = e.negative := by rw [first.sign, second.sign]
  cases d
  cases e
  simp_all

theorem Plain.strip (plain : d.Plain) : d.strip = d := by
  obtain ⟨sign, -, last⟩ := plain
  rw [Decimal.strip, stripDigits_of_last last, sign]
  cases d
  simp_all

theorem Plain.holds (plain : d.Plain) : Holds d.toRat :=
  ⟨d.mantissa, d.scale, plain.valid.1, plain.valid.2, plain.toRat_eq⟩

theorem exact_isSome : (∃ d, exact m s = some d) ↔ Holds (shifted m (-(s : ℤ))) := by
  constructor
  · rintro ⟨d, run⟩
    have value := (exact_value run).2
    rw [← value]
    exact (plain_exact run).holds
  · rintro ⟨n, t, room, places, same⟩
    obtain ⟨-, -, last⟩ := stripDigits_spec (m := m) (s := s) rfl
    rw [← shifted_stripDigits] at same
    obtain ⟨digits, shorter⟩ := shortest_le last same
    unfold exact
    dsimp only
    rw [if_pos ⟨Nat.lt_of_le_of_lt digits room, Nat.le_trans shorter places⟩]
    exact ⟨_, rfl⟩

theorem holds_iff : Holds x ↔ ∃ d : Decimal, d.Plain ∧ d.toRat = x := by
  constructor
  · intro holds
    obtain ⟨m, s, -, -, rfl⟩ := id holds
    obtain ⟨d, run⟩ := exact_isSome.mpr holds
    exact ⟨d, plain_exact run, (exact_value run).2⟩
  · rintro ⟨d, plain, rfl⟩
    exact plain.holds

theorem scaleByTwo_isSome (plain : d.Plain) :
    (∃ e, d.scaleByTwo i = some e) ↔
      Holds (d.toRat * 2 ^ i) ∧ d.mantissa * twosFactor i < workspace := by
  have small : d.mantissa < workspace := Nat.lt_trans plain.valid.1 (by decide)
  unfold scaleByTwo
  split
  · rename_i idle
    refine iff_of_true ⟨d, rfl⟩ ?_
    rcases idle with rfl | none
    · simpa [twosFactor] using ⟨plain.holds, small⟩
    · have zero : d.mantissa = 0 := by simpa [isZero] using none
      rw [toRat_eq_zero.mpr none, zero_mul, zero, Nat.zero_mul]
      exact ⟨⟨0, 0, by decide, by decide, by simp⟩, by decide⟩
  rename_i active
  simp only [isZero, beq_iff_eq, not_or] at active
  split
  · rename_i far
    refine iff_of_false (by simp) ?_
    rintro ⟨-, room⟩
    have least : 2 ^ 127 ≤ twosFactor i := by
      calc 2 ^ 127 ≤ 2 ^ i.natAbs := Nat.pow_le_pow_right (by decide) far
        _ ≤ twosFactor i := Nat.pow_le_pow_left (by split <;> decide) _
    have more := Nat.le_mul_of_pos_left (twosFactor i) (Nat.pos_of_ne_zero active.2)
    unfold workspace at room
    omega
  · have twos := shifted_twos d.mantissa d.scale i
    rw [← plain.toRat_eq] at twos
    dsimp only
    rw [plain.strip, ← twos]
    change (∃ e, (if d.mantissa * twosFactor i ≥ workspace then none else _) = some e) ↔ _
    split
    · rename_i full
      exact iff_of_false (by simp) fun both => Nat.not_lt_of_le full both.2
    · rename_i room
      rw [exact_isSome]
      exact (and_iff_left (Nat.lt_of_not_le room)).symm

theorem literal?_marked (spelled : raw.toList = body ++ 'p' :: after)
    (inside : Scaled 'e' 10 Mantissa body y) (exponent : Exponent after i) :
    literal? raw = some d ↔ ∃ e : Decimal, e.Plain ∧ e.toRat = y ∧ e.scaleByTwo i = some d := by
  have twos : splitExponent 'p' raw.toList = some (body, i) :=
    splitExponent_eq_some.mpr ⟨p_not_mem body y inside, .inr ⟨after, spelled, exponent⟩⟩
  obtain ⟨front, j, z, tens, form, scaled⟩ := (scaled_iff e_not_mem).mp inside
  rw [literal?_eq_some]
  constructor
  · rintro ⟨rest, binary, found, decimal, e, first, second, read, run⟩
    obtain ⟨rfl, rfl⟩ := Prod.mk.inj (Option.some.inj (first.symm.trans twos))
    obtain ⟨rfl, rfl⟩ := Prod.mk.inj (Option.some.inj (second.symm.trans tens))
    obtain ⟨-, w, written, value⟩ := mantissa?_value read
    obtain rfl := written.unique form
    exact ⟨e, plain_mantissa? read, value.trans scaled.symm, run⟩
  · rintro ⟨e, plain, value, run⟩
    obtain ⟨found, read⟩ : ∃ found, mantissa? front j = some found := by
      refine mantissa?_complete form ?_ plain.valid.1 plain.valid.2
      rw [← scaled, ← value, plain.toRat_eq]
    obtain ⟨-, w, written, same⟩ := mantissa?_value read
    obtain rfl := written.unique form
    obtain rfl : found = e :=
      (plain_mantissa? read).unique plain (by rw [same, value, scaled])
    exact ⟨body, i, front, j, found, twos, tens, read, run⟩

theorem workspace_suffices (plain : d.Plain) (least : -13 ≤ i) (most : i ≤ 31) :
    d.mantissa * twosFactor i < workspace := by
  have factor : twosFactor i ≤ 2 ^ 31 := by
    unfold twosFactor
    split
    · exact Nat.pow_le_pow_right (by decide) (by omega)
    · calc 5 ^ i.natAbs ≤ 5 ^ 13 := Nat.pow_le_pow_right (by decide) (by omega)
        _ ≤ 2 ^ 31 := by decide
  calc d.mantissa * twosFactor i ≤ d.mantissa * 2 ^ 31 := Nat.mul_le_mul_left _ factor
    _ < capacity * 2 ^ 31 := Nat.mul_lt_mul_of_pos_right plain.valid.1 (by decide)
    _ = workspace := by decide

end Decimal

namespace Node
open Decimal Number Text

/-- A literal with a power of two is read if and only if a decimal holds its number, a decimal holds
the number before the power of two is applied, and the workspace holds the product of its digits.
The value is the number of the literal.  For small powers the workspace is no matter. -/
theorem literalValue_twos {raw : String} {body after : List Char} {y : ℚ} {i : ℤ}
    (spelled : raw.toList = body ++ 'p' :: after) (inside : Scaled 'e' 10 Mantissa body y)
    (exponent : Exponent after i) :
    ((∃ d, literalValue raw = .ok d) ↔
        Holds (y * 2 ^ i) ∧
          ∃ e : Decimal, e.Plain ∧ e.toRat = y ∧ e.mantissa * twosFactor i < workspace) ∧
      (∀ d, literalValue raw = .ok d → d.toRat = y * 2 ^ i) ∧
      (-13 ≤ i → i ≤ 31 → Holds y →
        ((∃ d, literalValue raw = .ok d) ↔ Holds (y * 2 ^ i))) := by
  have read : (∃ d, literalValue raw = .ok d) ↔
      Holds (y * 2 ^ i) ∧
        ∃ e : Decimal, e.Plain ∧ e.toRat = y ∧ e.mantissa * twosFactor i < workspace := by
    simp only [literalValue_ok, literal?_marked spelled inside exponent]
    constructor
    · rintro ⟨d, e, plain, rfl, run⟩
      obtain ⟨holds, room⟩ := (scaleByTwo_isSome plain).mp ⟨d, run⟩
      exact ⟨holds, e, plain, rfl, room⟩
    · rintro ⟨holds, e, plain, rfl, room⟩
      obtain ⟨d, run⟩ := (scaleByTwo_isSome plain).mpr ⟨holds, room⟩
      exact ⟨d, e, plain, rfl, run⟩
  refine ⟨read, ?_, ?_⟩
  · intro d run
    obtain ⟨e, plain, rfl, twos⟩ :=
      (literal?_marked spelled inside exponent).mp (literalValue_ok.mp run)
    exact (scaleByTwo_value plain.sign twos).2
  · intro least most held
    obtain ⟨e, plain, value⟩ := holds_iff.mp held
    exact read.trans (and_iff_left ⟨e, plain, value, workspace_suffices plain least most⟩)

theorem scaled_tens (text : List Char) (some : text ≠ []) (digits : text.all isDigit)
    (room : digitsValue text < 2 ^ 63) :
    Scaled 'e' 10 Mantissa ('1' :: 'e' :: text) (10 ^ digitsValue text) := by
  have one : Mantissa ['1'] (digitsValue ['1']) := .whole (by simp) (List.all_eq_true.mp rfl)
  have exponent : Exponent text (digitsValue text) := .plain some (List.all_eq_true.mp digits) room
  have unit : digitsValue ['1'] = 1 := by decide
  have form : Scaled 'e' 10 Mantissa (['1'] ++ 'e' :: text)
      (digitsValue ['1'] * 10 ^ (digitsValue text : ℤ)) := .marked one exponent
  simpa [unit] using form

/-- Halved often enough 10^28 is still in the range, but the workspace lacks the room for it. -/
theorem crowdedHalves_unread :
    "1e28p-15".toList = "1e28".toList ++ 'p' :: "-15".toList ∧
      Scaled 'e' 10 Mantissa "1e28".toList (10 ^ 28) ∧ Exponent "-15".toList (-15) ∧
      Holds (10 ^ 28) ∧ Holds (10 ^ 28 * 2 ^ (-15 : ℤ)) ∧
      ¬ ∃ d, literalValue "1e28p-15" = .ok d := by
  have inside : Scaled 'e' 10 Mantissa "1e28".toList (10 ^ 28) :=
    scaled_tens ['2', '8'] (by decide) (by decide) (by decide)
  have exponent : Exponent ['-', '1', '5'] (-15) :=
    .minus (by decide) (List.all_eq_true.mp rfl) (by decide)
  have held : Holds (10 ^ 28) := ⟨10 ^ 28, 0, by decide, by decide, by norm_num⟩
  refine ⟨rfl, inside, exponent, held, ?_, ?_⟩
  · exact ⟨305175781250000000000000, 0, by decide, by decide, by norm_num⟩
  · rw [(literalValue_twos rfl inside exponent).1]
    rintro ⟨-, e, plain, value, room⟩
    have whole : Decimal.Plain ⟨false, 10 ^ 28, 0⟩ := ⟨rfl, by decide, .inl rfl⟩
    obtain rfl := plain.unique whole (by rw [value, whole.toRat_eq]; norm_num)
    exact absurd room (by decide)

/-- Half of 10^29 is in the range, but 10^29 is not. -/
theorem halvedTens_unread :
    Lexer.Numeral "1e29p-1".toList ∧ Denotes "1e29p-1" (5 * 10 ^ 28) ∧ Holds (5 * 10 ^ 28) ∧
      literalValue "1e29p-1" = .error (.invalidLiteral "1e29p-1") := by
  have one : Lexer.Digits ['1'] := Lexer.digits_of_all (by decide) (by decide)
  have tens : Lexer.Digits ['2', '9'] := Lexer.digits_of_all (by decide) (by decide)
  refine ⟨.intro ['1'] _ _ (.whole one) (.plain tens) (.signed (.inr rfl) one) rfl, ?_, ?_, ?_⟩
  · have inside : Scaled 'e' 10 Mantissa "1e29".toList (10 ^ 29) :=
      scaled_tens ['2', '9'] (by decide) (by decide) (by decide)
    have exponent : Exponent ['-', '1'] (-1) :=
      .minus (by decide) (List.all_eq_true.mp rfl) (by decide)
    have half : (10 : ℚ) ^ 29 * 2 ^ (-1 : ℤ) = 5 * 10 ^ 28 := by norm_num
    rw [← half]
    exact .marked inside exponent
  · exact ⟨5 * 10 ^ 28, 0, by decide, by decide, by norm_num⟩
  · decide

end Node
end Reckon
