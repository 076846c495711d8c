import Reckon.Proofs.Literals
import Reckon.Proofs.Parts

/-
Literals are read exactly or not at all.  One that is read has the form of a literal and stands for
the number that it is read as, in its only spelling without a sign and without final zeros; without
a power of two, all numbers that decimals hold are read.
-/
namespace Reckon.Node
open Decimal Number

variable {raw : String} {d : Decimal} {x : ℚ}

theorem literalValue_error {reason : NoValue} (run : literalValue raw = .error reason) :
    reason = .invalidLiteral raw := by
  unfold literalValue at run
  split at run
  · cases run
  · exact (Except.error.inj run).symm

theorem literalValue_iff (form : Scaled 'e' 10 Mantissa raw.toList x) :
    (∃ d, literalValue raw = .ok d) ↔
      ∃ m s : ℕ, m < capacity ∧ s ≤ maxScale ∧ x = shifted m (-(s : ℤ)) := by
  constructor
  · rintro ⟨d, run⟩
    have read := literalValue_ok.mp run
    have plain := plain_literal? read
    have value : x = d.toRat := Denotes.unique (.bare form) (denotes_literal? read).2
    exact ⟨d.mantissa, d.scale, plain.valid.1, plain.valid.2, value.trans plain.toRat_eq⟩
  · rintro ⟨m, s, room, places, rfl⟩
    obtain ⟨d, read, -⟩ := literal?_complete form room places
    rw [String.ofList_toList] at read
    exact ⟨d, literalValue_ok.mpr read⟩

/-- A literal has the number that it stands for as its value, spelled plainly, or is complained
about as it is.  Without a power of two the complaint means that no decimal holds the number. -/
theorem literalValue_exact (raw : String) :
    (∀ d, literalValue raw = .ok d → Denotes raw d.toRat ∧ d.Plain) ∧
      (∀ reason, literalValue raw = .error reason → reason = .invalidLiteral raw) ∧
      ∀ x, Scaled 'e' 10 Mantissa raw.toList x →
        ((∃ d, literalValue raw = .ok d) ↔
          ∃ m s : ℕ, m < capacity ∧ s ≤ maxScale ∧ x = shifted m (-(s : ℤ))) := by
  refine ⟨fun d run => ?_, fun reason => literalValue_error, fun x => literalValue_iff⟩
  have read := literalValue_ok.mp run
  exact ⟨(denotes_literal? read).2, plain_literal? read⟩

example : literalValue "003.50e1p-3" = .ok ⟨false, 4375, 3⟩ := by decide

end Reckon.Node
