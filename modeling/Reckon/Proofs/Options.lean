import Mathlib.Tactic.Ring
import Reckon.CommandLine.Request
import Reckon.Proofs.Digits
import Reckon.Proofs.Parts

/-
Which options can be made into settings: those whose texts are numbers, of 32 bits for the precision
and of 64 bits for the depth.
-/
namespace Reckon.CommandLine
open Text
open Decimal (digitsValue digitsValue_cons)

inductive Numeral (bound : Nat) : List Char → Nat → Prop where
  | plain (some : digits ≠ []) (all : ∀ c ∈ digits, isDigit c)
      (room : digitsValue digits < bound) : Numeral bound digits (digitsValue digits)
  | plus (some : digits ≠ []) (all : ∀ c ∈ digits, isDigit c)
      (room : digitsValue digits < bound) : Numeral bound ('+' :: digits) (digitsValue digits)

structure Options.Readable (options : Options) : Prop where
  precision : ∀ text, options.precision = some text → ∃ n, Numeral (2 ^ 32) text.toList n
  depth : ∀ text, options.depth = some text → ∃ n, Numeral (2 ^ 64) text.toList n

variable {bound n k : Nat} {digits : List Char} {c : Char} {name text : String}

theorem readDigits_cons (digit : isDigit c) (rest : List Char) :
    readDigits bound n (c :: rest) =
      if 10 * n + (c.toNat - 48) < bound then readDigits bound (10 * n + (c.toNat - 48)) rest
      else .error .tooLarge :=
  if_pos digit

theorem readDigits_eq_ok (room : n < bound) :
    readDigits bound n digits = .ok k ↔
      (∀ c ∈ digits, isDigit c) ∧ k = n * 10 ^ digits.length + digitsValue digits ∧ k < bound := by
  induction digits generalizing n with
  | nil =>
    have none : digitsValue [] = 0 := rfl
    rw [none, List.length_nil, pow_zero, Nat.mul_one, Nat.add_zero]
    constructor
    · intro run
      obtain rfl := Except.ok.inj run
      exact ⟨by simp, rfl, room⟩
    · rintro ⟨_, rfl, _⟩
      rfl
  | cons c rest ih =>
    by_cases digit : isDigit c
    · have value : n * 10 ^ (rest.length + 1) + digitsValue (c :: rest) =
          (10 * n + (c.toNat - 48)) * 10 ^ rest.length + digitsValue rest := by
        rw [digitsValue_cons]
        ring
      rw [readDigits_cons digit, List.forall_mem_cons, List.length_cons, value]
      split
      · rename_i fits
        rw [ih fits]
        simp only [digit, true_and]
      · -- A number that is too large stays so with more digits.
        have grows := Nat.le_mul_of_pos_right (10 * n + (c.toNat - 48))
          (Nat.pow_pos (n := rest.length) (show 0 < 10 by decide))
        refine iff_of_false nofun ?_
        rintro ⟨_, rfl, below⟩
        omega
    · have stops : readDigits bound n (c :: rest) = .error .invalidDigit := if_neg digit
      rw [stops, List.forall_mem_cons]
      exact iff_of_false nofun fun read => digit read.1.1

theorem readNumber_eq_ok (positive : 0 < bound) :
    readNumber bound text = .ok n ↔ Numeral bound text.toList n := by
  have run : ∀ {digits}, readDigits bound 0 digits = .ok n ↔
      (∀ c ∈ digits, isDigit c) ∧ n = digitsValue digits ∧ n < bound := by
    intro digits
    rw [readDigits_eq_ok positive, Nat.zero_mul, Nat.zero_add]
  unfold readNumber
  constructor
  · intro read
    split at read
    · cases read
    · cases read
    · rename_i digits other spelled
      obtain ⟨all, rfl, room⟩ := run.mp read
      rw [spelled]
      exact .plus other all room
    · rename_i some other _
      obtain ⟨all, rfl, room⟩ := run.mp read
      exact .plain some all room
  · intro numeral
    generalize text.toList = spelled at numeral
    cases numeral with
    | plain some all room =>
      have digit : isDigit '+' = false := by decide
      split
      · exact absurd rfl some
      · cases all _ List.mem_cons_self
      · cases all _ List.mem_cons_self
      · exact run.mpr ⟨all, rfl, room⟩
    | @plus digits some all room =>
      split
      · rename_i empty
        cases empty
      · rename_i alone
        exact absurd (List.cons.inj alone).2 some
      · rename_i same
        rw [← (List.cons.inj same).2]
        exact run.mpr ⟨all, rfl, room⟩
      · rename_i other
        exact absurd rfl (other digits)

theorem setting_eq_ok (positive : 0 < bound) :
    setting name bound text = .ok n ↔ Numeral bound text.toList n := by
  rw [← readNumber_eq_ok positive]
  unfold setting
  cases readNumber bound text <;> simp

def optional (name : String) (bound : Nat) (unset : Settings) (set : Nat → Settings) :
    Option String → Except String Settings
  | none => .ok unset
  | some text => (setting name bound text).map set

theorem exists_optional (positive : 0 < bound) {option : Option String} {unset : Settings}
    {set : Nat → Settings} :
    (∃ settings, optional name bound unset set option = .ok settings) ↔
      ∀ text, option = some text → ∃ n, Numeral bound text.toList n := by
  cases option with
  | none => exact iff_of_true ⟨unset, rfl⟩ nofun
  | some text =>
    rw [optional]
    constructor
    · rintro ⟨settings, run⟩ _ ⟨⟩
      cases read : setting name bound text with
      | ok n => exact ⟨n, (setting_eq_ok positive).mp read⟩
      | error message =>
        rw [read] at run
        cases run
    · intro numerals
      obtain ⟨n, numeral⟩ := numerals text rfl
      refine ⟨set n, ?_⟩
      rw [(setting_eq_ok positive).mpr numeral]
      rfl

theorem Options.settings_eq (options : Options) :
    options.settings =
      optional "precision" (2 ^ 32) .standard Settings.standard.withPrecision options.precision >>=
        fun precise => optional "depth" (2 ^ 64) precise precise.withMaxDepth options.depth := by
  obtain ⟨precision, depth, verbosity⟩ := options
  cases precision <;> rfl

theorem Options.exists_settings {options : Options} :
    (∃ settings, options.settings = .ok settings) ↔ options.Readable := by
  rw [Options.settings_eq]
  constructor
  · rintro ⟨settings, run⟩
    obtain ⟨precise, first, second⟩ := bind_ok.mp run
    exact ⟨(exists_optional (by decide)).mp ⟨precise, first⟩,
      (exists_optional (by decide)).mp ⟨settings, second⟩⟩
  · rintro ⟨precision, depth⟩
    obtain ⟨precise, first⟩ := (exists_optional (by decide)).mpr precision
    obtain ⟨settings, second⟩ := (exists_optional (by decide)).mpr depth
    exact ⟨settings, bind_ok.mpr ⟨precise, first, second⟩⟩

end Reckon.CommandLine
