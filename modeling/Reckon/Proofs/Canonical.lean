import Reckon.Decimal.Canonical
import Reckon.Proofs.Literals
import Reckon.Proofs.Numerals
import Reckon.Proofs.Significant

/-
The canonical text of a number: a numeral, with a minus before it if the number is negative, that
stands for exactly this number.  It does not depend on how a decimal spells the number.
-/
namespace Reckon.Decimal
open Text Number

variable {d : Decimal} {m s : ℕ}

theorem toCanonical_congr {a b : Decimal} (same : a.toRat = b.toRat) :
    a.toCanonical = b.toCanonical := by
  have zeros : a.isZero = b.isZero := by
    rw [Bool.eq_iff_iff, ← toRat_eq_zero, ← toRat_eq_zero, same]
  rw [toCanonical, toCanonical, zeros, strip_congr same]

theorem digits_toDigits (m : ℕ) : Lexer.Digits (Nat.toDigits 10 m) := by
  refine ⟨Nat.toDigits_ne_nil, ?_⟩
  intro c mem
  have digit := Nat.isDigit_of_mem_toDigits (by decide) (by decide) mem
  simpa [isDigit, Char.isDigit, Char.le_def] using digit

/-- A text that is read as a number, without a power of two, and stands for the given value. -/
structure Spells (text : List Char) (x : ℚ) : Prop where
  numeral : Lexer.Numeral text
  value : Scaled 'e' 10 Mantissa text x

theorem pointed_eq (digits : List Char) (places : s ≠ 0) :
    ∃ w f, pointed digits s = w ++ '.' :: f ∧ w ≠ [] ∧ f.length = s ∧
      w ++ f = List.replicate (s + 1 - digits.length) '0' ++ digits := by
  unfold pointed
  rw [if_neg places]
  dsimp only
  have long : s < (List.replicate (s + 1 - digits.length) '0' ++ digits).length := by
    rw [List.length_append, List.length_replicate]
    omega
  generalize List.replicate (s + 1 - digits.length) '0' ++ digits = padded at *
  refine ⟨padded.take (padded.length - s), padded.drop (padded.length - s), rfl, ?_, ?_,
    List.take_append_drop _ _⟩
  · rw [ne_eq, List.take_eq_nil_iff, not_or]
    exact ⟨by omega, List.ne_nil_of_length_pos (by omega)⟩
  · rw [List.length_drop]
    omega

theorem digits_padded {digits : List Char} (all : Lexer.Digits digits) (n : ℕ) :
    Lexer.Digits (List.replicate n '0' ++ digits) := by
  refine ⟨by simp [all.1], ?_⟩
  intro c mem
  rcases List.mem_append.mp mem with zero | digit
  · rw [List.eq_of_mem_replicate zero]
    decide
  · exact all.2 c digit

theorem spells_pointed {digits : List Char} (all : Lexer.Digits digits) (s : ℕ) :
    Spells (pointed digits s) (shifted (digitsValue digits) (-(s : ℤ))) := by
  by_cases places : s = 0
  · subst places
    refine ⟨.intro digits [] [] (.whole all) .none .none (by simp [pointed]), ?_⟩
    have form := Mantissa.whole all.1 all.2
    simpa [pointed] using Scaled.bare form
  · obtain ⟨w, f, spelled, front, back, padded⟩ := pointed_eq digits places
    have whole := digits_padded all (s + 1 - digits.length)
    have value : digitsValue (w ++ f) = digitsValue digits := by
      rw [padded, digitsValue_append, digitsValue_zeros, Nat.zero_mul, Nat.zero_add]
    rw [← padded] at whole
    have left : Lexer.Digits w := ⟨front, fun c mem => whole.2 c (List.mem_append_left f mem)⟩
    have right : Lexer.Digits f := by
      refine ⟨?_, fun c mem => whole.2 c (List.mem_append_right w mem)⟩
      rintro rfl
      exact places back.symm
    have form := Mantissa.pointed whole.1 whole.2
    rw [back, value] at form
    rw [spelled]
    exact ⟨.intro _ [] [] (.decimal left right) .none .none (by simp), .bare form⟩

theorem exponent_signed {i : ℤ} (room : i.natAbs < 2 ^ 63) :
    Exponent ((if i < 0 then '-' else '+') :: Nat.toDigits 10 i.natAbs) i := by
  obtain ⟨some, all⟩ := digits_toDigits i.natAbs
  have value := digitsValue_toDigits i.natAbs
  split
  · rename_i negative
    have form := Exponent.minus some all (by omega)
    have same : -(digitsValue (Nat.toDigits 10 i.natAbs) : ℤ) = i := by omega
    rwa [same] at form
  · rename_i positive
    have form := Exponent.plus some all (by omega)
    have same : (digitsValue (Nat.toDigits 10 i.natAbs) : ℤ) = i := by omega
    rwa [same] at form

theorem spells_scientific {digits : List Char} (all : Lexer.Digits digits)
    (nonzero : digitsValue digits ≠ 0) {i : ℤ} (room : i.natAbs < 2 ^ 63) :
    Spells (scientific digits i) (shifted (digitsValue digits) (i - (digits.length - 1))) := by
  have zeros := dropWhileEnd_append_zeros digits
  unfold scientific
  dsimp only
  generalize dropWhileEnd (· == '0') digits = kept at *
  generalize digits.length - kept.length = t at *
  subst zeros
  rw [digitsValue_append, digitsValue_zeros, List.length_replicate, Nat.add_zero] at *
  have exponent := exponent_signed room
  have tens : Lexer.Exponent 'e'
      ('e' :: (if i < 0 then '-' else '+') :: Nat.toDigits 10 i.natAbs) := by
    refine .signed ?_ (digits_toDigits i.natAbs)
    split
    · exact .inr rfl
    · exact .inl rfl
  cases kept with
  | nil => exact absurd (Nat.zero_mul _) nonzero
  | cons c rest =>
    have inner : ∀ d ∈ c :: rest, isDigit d := fun d mem => all.2 d (List.mem_append_left _ mem)
    have scaled : shifted (digitsValue (c :: rest) * 10 ^ t)
        (i - ((c :: rest ++ List.replicate t '0').length - 1)) =
          shifted (digitsValue (c :: rest)) (-(rest.length : ℤ)) * 10 ^ i := by
      have places : i - ((c :: rest ++ List.replicate t '0').length - 1) + (t : ℤ)
          = -(rest.length : ℤ) + i := by
        simp only [List.length_append, List.length_cons, List.length_replicate]
        push_cast
        ring
      rw [shifted_mul_pow, places, shifted_add]
    rw [scaled]
    simp only [List.take_succ_cons, List.take_zero, List.drop_succ_cons, List.drop_zero]
    by_cases single : rest = []
    · subst single
      have one : Lexer.Digits [c] := ⟨by simp, inner⟩
      refine ⟨.intro [c] _ [] (.whole one) tens .none (by simp), ?_⟩
      have form := Mantissa.whole one.1 one.2
      simpa using Scaled.marked form exponent
    · have front : Lexer.Digits [c] := ⟨by simp, by simpa using inner c List.mem_cons_self⟩
      have back : Lexer.Digits rest := ⟨single, fun d mem => inner d (List.mem_cons_of_mem c mem)⟩
      have point : rest.isEmpty = false := by simpa using single
      rw [point]
      refine ⟨.intro ([c] ++ '.' :: rest) _ [] (.decimal front back) tens .none (by simp), ?_⟩
      exact .marked (Mantissa.pointed (w := [c]) (by simp) inner) exponent

theorem log_strip (nonzero : d.toRat ≠ 0) :
    Int.log 10 |d.toRat| = (d.strip.digits.length : ℤ) - 1 - d.strip.scale := by
  have stripped : ¬ d.strip.isZero := mt toRat_eq_zero.mpr ((toRat_strip d).symm ▸ nonzero)
  rw [← toRat_strip, log_abs_toRat stripped, digitCount]

theorem toCanonical_eq (nonzero : d.toRat ≠ 0) :
    d.toCanonical.toList = (if d.toRat < 0 then ['-'] else []) ++
      if exponentUpTo < Int.log 10 |d.toRat| ∧ Int.log 10 |d.toRat| < exponentFrom
      then pointed d.strip.digits d.strip.scale
      else scientific d.strip.digits (Int.log 10 |d.toRat|) := by
  have sign : (if d.strip.negative then ['-'] else []) = if d.toRat < 0 then ['-'] else [] := by
    rw [strip_eq]
    simp
  rw [toCanonical, if_neg (mt toRat_eq_zero.mpr nonzero), log_strip nonzero]
  dsimp only
  split
  · rw [toText, String.toList_ofList, sign]
  · rw [String.toList_ofList, sign]

/-- The canonical text spells the size of the number, after a minus if there is one. -/
theorem toCanonical_spells (valid : d.Valid) :
    ∃ text, Spells text |d.toRat| ∧
      d.toCanonical.toList = (if d.toRat < 0 then ['-'] else []) ++ text := by
  by_cases none : d.toRat = 0
  · have digits : Lexer.Digits ['0'] := Lexer.digits_of_all (by simp) rfl
    have form := Mantissa.whole digits.1 digits.2
    have zero : ((digitsValue ['0'] : ℕ) : ℚ) = 0 := by exact_mod_cast digitsValue_zeros 1
    rw [zero] at form
    rw [none, abs_zero, toCanonical, if_pos (toRat_eq_zero.mp none)]
    exact ⟨['0'], ⟨.intro ['0'] [] [] (.whole digits) .none .none rfl, .bare form⟩, rfl⟩
  · have stripped := valid.strip
    have size : |d.toRat| = shifted d.strip.mantissa (-(d.strip.scale : ℤ)) := by
      rw [← toRat_strip, abs_toRat]
    have some : d.strip.mantissa ≠ 0 := by
      intro zero
      rw [zero, zero_shifted, abs_eq_zero] at size
      exact none size
    have exponent := log_strip none
    refine ⟨_, ?_, toCanonical_eq none⟩
    generalize d.strip = u at *
    have all := digits_toDigits u.mantissa
    have value := digitsValue_toDigits u.mantissa
    split
    · have form := spells_pointed all u.scale
      rwa [value, ← size] at form
    · have short : u.digits.length ≤ 29 := by
        refine (Nat.length_toDigits_le_iff (by decide) (by decide)).mpr ?_
        have large : capacity < 10 ^ 29 := by decide
        exact stripped.1.trans large
      have places := stripped.2
      unfold maxScale at places
      have form := spells_scientific all (by omega) (i := Int.log 10 |d.toRat|) (by omega)
      have first : Int.log 10 |d.toRat| - ((Nat.toDigits 10 u.mantissa).length - 1)
          = -(u.scale : ℤ) := by
        rw [exponent, digits]
        ring
      rwa [value, first, ← size] at form

end Reckon.Decimal
