import Reckon.Proofs.Canonical
import Reckon.Proofs.Significant

/-
The layout of canonical texts.  A number has one of them; it writes the number, leaves out every
zero that can be left out, and has an exponent just when the first digit is far from the point.
-/
namespace Reckon.Decimal
open Text Number

/-- Digits with an optional point, and no superfluous zeros: none in front of other digits, and none
at the end of the places. -/
inductive Tidy : List Char → Prop where
  | whole (digits : Lexer.Digits w) (first : w.head? ≠ some '0') : Tidy w
  | pointed (digits : Lexer.Digits w) (first : w.head? = some '0' → w = ['0'])
      (places : Lexer.Digits f) (last : f.getLast? ≠ some '0') : Tidy (w ++ '.' :: f)

/-- The text of a number without its sign, if the first digit of the number stands at 10^e.  Far
from the point one digit stands before it, and the exponent is that of this digit. -/
inductive Layout (e : ℤ) : List Char → Prop where
  | positional (near : -7 < e ∧ e < 21) (tidy : Tidy text) : Layout e text
  | scientific (far : e ≤ -7 ∨ 21 ≤ e) (tidy : Tidy (c :: more)) (first : c ≠ '0')
      (single : more = [] ∨ more.head? = some '.') :
      Layout e (c :: more ++ 'e' :: (if e < 0 then '-' else '+') :: Nat.toDigits 10 e.natAbs)

inductive Writes : List Char → ℚ → Prop where
  | plain (value : Scaled 'e' 10 Mantissa text x) : Writes text x
  | minus (value : Scaled 'e' 10 Mantissa text x) : Writes ('-' :: text) (-x)

variable {a b d : Decimal} {e : ℤ} {s : ℕ} {x y : ℚ} {text digits : List Char}

theorem Scaled.not_minus : ¬ Scaled 'e' 10 Mantissa ('-' :: text) x := by
  intro form
  obtain ⟨body, i, z, split, inside, -⟩ := (scaled_iff e_not_mem).mp form
  have other : ∀ c ∈ body, c ≠ '-' := by
    rintro c mem rfl
    rcases inside.mem mem with digit | point
    · exact absurd digit (by decide)
    · exact absurd point (by decide)
  have front : body ≠ [] := by
    rintro rfl
    obtain ⟨w, f, cut, some, -⟩ := mantissa_iff.mp inside
    obtain ⟨rfl, rfl⟩ := Prod.mk.inj cut
    exact some rfl
  obtain ⟨c, rest, rfl⟩ := List.exists_cons_of_ne_nil front
  rcases (splitExponent_eq_some.mp split).2 with ⟨same, -⟩ | ⟨after, same, -⟩
  · exact other c List.mem_cons_self (List.cons.inj same).1.symm
  · exact other c List.mem_cons_self (List.cons.inj same).1.symm

theorem Writes.unique (first : Writes text x) (second : Writes text y) : x = y := by
  cases first with
  | plain value =>
    cases second with
    | plain other => exact tens_unique value other
    | minus other => exact absurd value Scaled.not_minus
  | minus value =>
    cases second with
    | plain other => exact absurd other Scaled.not_minus
    | minus other => rw [tens_unique value other]

theorem toCanonical_writes (valid : d.strip.Valid) : Writes d.toCanonical.toList d.toRat := by
  obtain ⟨text, spells, spelled⟩ := toCanonical_spells valid
  rw [toRat_strip] at spells spelled
  rw [toCanonical_congr (toRat_strip d).symm, spelled]
  split
  · rename_i negative
    have value := spells.value
    rw [abs_of_neg negative] at value
    have form := Writes.minus value
    rwa [neg_neg] at form
  · rename_i positive
    have value := spells.value
    rw [abs_of_nonneg (not_lt.mp positive)] at value
    exact .plain value

theorem tidy_pointed (all : Lexer.Digits digits) (first : digits.head? ≠ some '0')
    (last : s = 0 ∨ digits.getLast? ≠ some '0') : Tidy (pointed digits s) := by
  by_cases places : s = 0
  · subst places
    exact .whole all first
  · obtain ⟨w, f, spelled, front, back, padded⟩ := pointed_eq digits places
    have whole := digits_padded all (s + 1 - digits.length)
    have length := congrArg List.length padded
    have ends := congrArg List.getLast? padded
    have starts := congrArg List.head? padded
    rw [← padded] at whole
    have some : f ≠ [] := List.ne_nil_of_length_pos (by omega)
    rw [spelled]
    refine .pointed ⟨front, fun c mem => whole.2 c (List.mem_append_left f mem)⟩ ?_
      ⟨some, fun c mem => whole.2 c (List.mem_append_right w mem)⟩ ?_
    · intro zero
      rw [List.length_append, List.length_append, List.length_replicate, back] at length
      by_cases long : s < digits.length
      · have none : s + 1 - digits.length = 0 := by omega
        rw [none, List.head?_append_of_ne_nil _ front] at starts
        exact absurd (starts.symm.trans zero) first
      · obtain ⟨c, rfl⟩ := List.length_eq_one_iff.mp (show w.length = 1 by omega)
        simpa using zero
    · rw [List.getLast?_append_of_ne_nil _ some, List.getLast?_append_of_ne_nil _ all.1] at ends
      rw [ends]
      exact last.resolve_left places

theorem scientific_layout (all : Lexer.Digits digits) (first : digits.head? ≠ some '0')
    (far : e ≤ -7 ∨ 21 ≤ e) : Layout e (scientific digits e) := by
  have zeros := dropWhileEnd_append_zeros digits
  have last := getLast?_dropZerosEnd digits
  unfold scientific
  dsimp only
  generalize dropWhileEnd (· == '0') digits = kept at *
  generalize digits.length - kept.length = n at *
  cases kept with
  | nil =>
    obtain ⟨c, rest, rfl⟩ := List.exists_cons_of_ne_nil all.1
    have zero := List.eq_of_mem_replicate (zeros ▸ List.mem_cons_self)
    exact absurd (congrArg some zero) first
  | cons c rest =>
    have inner : ∀ d ∈ c :: rest, isDigit d := fun d mem =>
      all.2 d (zeros ▸ List.mem_append_left _ mem)
    have front : c ≠ '0' := by
      rintro rfl
      exact first (zeros ▸ rfl)
    simp only [List.take_succ_cons, List.take_zero, List.drop_succ_cons, List.drop_zero]
    have one : Lexer.Digits [c] := ⟨by simp, by simpa using inner c List.mem_cons_self⟩
    by_cases single : rest = []
    · subst single
      exact .scientific far (.whole one (by simpa using front)) front (.inl rfl)
    · have point : rest.isEmpty = false := by simpa using single
      have places : Lexer.Digits rest :=
        ⟨single, fun d mem => inner d (List.mem_cons_of_mem c mem)⟩
      rw [List.getLast?_cons_of_ne_nil single] at last
      rw [point]
      refine .scientific far (.pointed one ?_ places last) front (.inr rfl)
      simp [front]

theorem toCanonical_layout (some : d.toRat ≠ 0) :
    ∃ text, d.toCanonical.toList = (if d.toRat < 0 then ['-'] else []) ++ text ∧
      Layout (Int.log 10 |d.toRat|) text := by
  have nonzero : d.strip.mantissa ≠ 0 := by
    have stripped := mt toRat_eq_zero.mpr ((toRat_strip d).symm ▸ some)
    simpa [isZero] using stripped
  have first := head?_toDigits nonzero
  obtain ⟨-, -, last⟩ := stripDigits_spec (m := d.mantissa) (s := d.scale) rfl
  change d.strip.scale = 0 ∨ d.strip.mantissa % 10 ≠ 0 at last
  refine ⟨_, toCanonical_eq some, ?_⟩
  generalize d.strip = u at *
  have all := digits_toDigits u.mantissa
  split
  · rename_i near
    exact .positional near (tidy_pointed all first (last.imp_right getLast?_toDigits))
  · rename_i far
    have outside : Int.log 10 |d.toRat| ≤ -7 ∨ 21 ≤ Int.log 10 |d.toRat| := by
      unfold exponentUpTo exponentFrom at far
      omega
    exact scientific_layout all first outside

/-- Canonical texts are the same just for decimals of one number.  The text writes this number; a
number other than zero is laid out without superfluous zeros, by the place of its first digit. -/
theorem toCanonical_canonical (fine : a.strip.Valid) (fine' : b.strip.Valid) :
    (a.toCanonical = b.toCanonical ↔ a.toRat = b.toRat) ∧
      Writes a.toCanonical.toList a.toRat ∧
      (a.toRat = 0 → a.toCanonical = "0") ∧
      (a.toRat ≠ 0 → ∃ text,
        a.toCanonical.toList = (if a.toRat < 0 then ['-'] else []) ++ text ∧
          Layout (Int.log 10 |a.toRat|) text) := by
  have written := toCanonical_writes fine
  refine ⟨⟨?_, toCanonical_congr⟩, written, ?_, toCanonical_layout⟩
  · intro same
    have other := toCanonical_writes fine'
    rw [← same] at other
    exact written.unique other
  · intro zero
    rw [toCanonical, if_pos (toRat_eq_zero.mp zero)]

theorem paddedTwelve_canonical :
    Valid (strip ⟨true, 12 * 10 ^ 24, 32⟩) ∧ Valid (strip ⟨true, 12, 8⟩) ∧
      toCanonical ⟨true, 12 * 10 ^ 24, 32⟩ = "-1.2e-7" ∧
      toRat ⟨true, 12 * 10 ^ 24, 32⟩ = toRat ⟨true, 12, 8⟩ ∧
      Writes "-1.2e-7".toList (toRat ⟨true, 12, 8⟩) := by
  have padded : Valid (strip ⟨true, 12 * 10 ^ 24, 32⟩) := by decide
  have short : Valid (strip ⟨true, 12, 8⟩) := by decide
  have text : toCanonical ⟨true, 12 * 10 ^ 24, 32⟩ = "-1.2e-7" := by decide
  have same : toCanonical ⟨true, 12 * 10 ^ 24, 32⟩ = toCanonical ⟨true, 12, 8⟩ := by decide
  obtain ⟨equal, writes, -⟩ := toCanonical_canonical padded short
  rw [text, equal.mp same] at writes
  exact ⟨padded, short, text, equal.mp same, writes⟩

end Reckon.Decimal
