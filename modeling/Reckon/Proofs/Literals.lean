import Reckon.Proofs.Digits
import Reckon.Proofs.Range
import Reckon.Proofs.Value

/-
What the text of a literal stands for, whether or not a decimal holds it, and that a literal which
is read has exactly this value:

  literal  := scaled ['p' exponent]       times a power of two
  scaled   := mantissa ['e' exponent]     times a power of ten
  mantissa := digits with at most one point
-/
namespace Reckon.Decimal
open Text Number

inductive Mantissa : List Char → ℚ → Prop where
  | whole (some : w ≠ []) (digits : ∀ c ∈ w, isDigit c) : Mantissa w (digitsValue w)
  | pointed (some : w ++ f ≠ []) (digits : ∀ c ∈ w ++ f, isDigit c) :
      Mantissa (w ++ '.' :: f) (shifted (digitsValue (w ++ f)) (-(f.length : ℤ)))

inductive Exponent : List Char → ℤ → Prop where
  | plain (some : text ≠ []) (all : ∀ c ∈ text, isDigit c) (room : digitsValue text < 2 ^ 63) :
      Exponent text (digitsValue text)
  | plus (some : text ≠ []) (all : ∀ c ∈ text, isDigit c) (room : digitsValue text < 2 ^ 63) :
      Exponent ('+' :: text) (digitsValue text)
  | minus (some : text ≠ []) (all : ∀ c ∈ text, isDigit c) (room : digitsValue text ≤ 2 ^ 63) :
      Exponent ('-' :: text) (-digitsValue text)

/-- A body that may be scaled by a power of the base, whose exponent stands after the marker. -/
inductive Scaled (marker : Char) (base : ℚ) (Body : List Char → ℚ → Prop) :
    List Char → ℚ → Prop where
  | bare (inside : Body text x) : Scaled marker base Body text x
  | marked (inside : Body text x) (exponent : Exponent after i) :
      Scaled marker base Body (text ++ marker :: after) (x * base ^ i)

/-- The text is that of a literal, and the number is the one that it stands for. -/
def Denotes (raw : String) (x : ℚ) : Prop :=
  Scaled 'p' 2 (Scaled 'e' 10 Mantissa) raw.toList x

variable {text body after w f : List Char} {marker : Char} {i : ℤ} {x y base : ℚ}
  {k m n s : ℕ} {d e : Decimal} {Body : List Char → ℚ → Prop}

theorem natural?_eq_some :
    natural? text = some n ↔ text ≠ [] ∧ (∀ c ∈ text, isDigit c) ∧ n = digitsValue text := by
  unfold natural?
  split
  · rename_i bad
    simp only [Bool.or_eq_true, List.isEmpty_iff, Bool.not_eq_true', List.all_eq_false] at bad
    grind
  · rename_i good
    simp only [Bool.or_eq_true, List.isEmpty_iff, Bool.not_eq_true', List.all_eq_false, not_or,
      not_exists, not_and, Bool.not_eq_true, Bool.not_eq_false] at good
    grind

def within64 (i : ℤ) : Option ℤ := if -2 ^ 63 ≤ i ∧ i < 2 ^ 63 then some i else none

theorem within64_eq_some {j : ℤ} : within64 j = some i ↔ (-2 ^ 63 ≤ j ∧ j < 2 ^ 63) ∧ j = i := by
  unfold within64
  split <;> simp_all

theorem signed64_eq_some {sign : ℕ → ℤ} :
    ((natural? text).bind fun n => within64 (sign n)) = some i ↔
      text ≠ [] ∧ (∀ c ∈ text, isDigit c) ∧
        (-2 ^ 63 ≤ sign (digitsValue text) ∧ sign (digitsValue text) < 2 ^ 63) ∧
        sign (digitsValue text) = i := by
  simp only [Option.bind_eq_some_iff, natural?_eq_some, within64_eq_some]
  constructor
  · rintro ⟨n, ⟨nonempty, all, rfl⟩, room, same⟩
    exact ⟨nonempty, all, room, same⟩
  · rintro ⟨nonempty, all, room, same⟩
    exact ⟨_, ⟨nonempty, all, rfl⟩, room, same⟩

theorem exponent?_minus :
    exponent? ('-' :: text) = (natural? text).bind fun n => within64 (-(n : ℤ)) := by
  change (Option.map (fun n => -n) (do return ((← natural? text) : ℤ))).bind within64 = _
  cases natural? text <;> rfl

theorem exponent?_plus :
    exponent? ('+' :: text) = (natural? text).bind fun n => within64 n := by
  change ((natural? text).map Int.ofNat).bind within64 = _
  cases natural? text <;> rfl

theorem exponent?_plain (minus : text.head? ≠ some '-') (plus : text.head? ≠ some '+') :
    exponent? text = (natural? text).bind fun n => within64 n := by
  unfold exponent?
  dsimp only
  split
  · exact absurd rfl minus
  · exact absurd rfl plus
  · cases natural? text <;> rfl

theorem exponent?_eq_some : exponent? text = some i ↔ Exponent text i := by
  constructor
  · intro run
    by_cases minus : text.head? = some '-'
    · obtain ⟨after, rfl⟩ := List.head?_eq_some_iff.mp minus
      rw [exponent?_minus] at run
      obtain ⟨nonempty, all, room, rfl⟩ := signed64_eq_some.mp run
      exact .minus nonempty all (by omega)
    by_cases plus : text.head? = some '+'
    · obtain ⟨after, rfl⟩ := List.head?_eq_some_iff.mp plus
      rw [exponent?_plus] at run
      obtain ⟨nonempty, all, room, rfl⟩ := signed64_eq_some.mp run
      exact .plus nonempty all (by omega)
    · rw [exponent?_plain minus plus] at run
      obtain ⟨nonempty, all, room, rfl⟩ := signed64_eq_some.mp run
      exact .plain nonempty all (by omega)
  · intro form
    cases form with
    | plain nonempty all room =>
      have minus : text.head? ≠ some '-' := fun head =>
        absurd (all '-' (List.mem_of_head? head)) (by decide)
      have plus : text.head? ≠ some '+' := fun head =>
        absurd (all '+' (List.mem_of_head? head)) (by decide)
      rw [exponent?_plain minus plus]
      exact signed64_eq_some.mpr ⟨nonempty, all, by omega, rfl⟩
    | plus nonempty all room =>
      rw [exponent?_plus]
      exact signed64_eq_some.mpr ⟨nonempty, all, by omega, rfl⟩
    | minus nonempty all room =>
      rw [exponent?_minus]
      exact signed64_eq_some.mpr ⟨nonempty, all, by omega, rfl⟩

theorem bne_of_not_mem (absent : marker ∉ text) : ∀ c ∈ text, (c != marker) = true := by
  intro c mem
  simpa using fun same : c = marker => absent (same ▸ mem)

theorem splitExponent_bare (absent : marker ∉ text) : splitExponent marker text = some (text, 0) := by
  have none : text.dropWhile (· != marker) = [] :=
    List.dropWhile_eq_nil_iff.mpr (bne_of_not_mem absent)
  rw [splitExponent, none]

theorem splitExponent_marked (absent : marker ∉ body) :
    splitExponent marker (body ++ marker :: after) = (exponent? after).map fun i => (body, i) := by
  have before := bne_of_not_mem absent
  have marked : (marker != marker) = false := by simp
  rw [splitExponent, List.dropWhile_append_of_pos before, List.takeWhile_append_of_pos before,
    List.dropWhile_cons, List.takeWhile_cons, marked]
  simp

theorem splitExponent_eq_some :
    splitExponent marker text = some (body, i) ↔ marker ∉ body ∧
      (text = body ∧ i = 0 ∨ ∃ after, text = body ++ marker :: after ∧ Exponent after i) := by
  constructor
  · intro run
    by_cases mem : marker ∈ text
    · obtain ⟨front, after, rfl, absent⟩ := List.eq_append_cons_of_mem mem
      rw [splitExponent_marked absent] at run
      obtain ⟨j, read, same⟩ := Option.map_eq_some_iff.mp run
      obtain ⟨rfl, rfl⟩ := Prod.mk.inj same
      exact ⟨absent, .inr ⟨after, rfl, exponent?_eq_some.mp read⟩⟩
    · rw [splitExponent_bare mem] at run
      obtain ⟨rfl, rfl⟩ := Prod.mk.inj (Option.some.inj run)
      exact ⟨mem, .inl ⟨rfl, rfl⟩⟩
  · rintro ⟨absent, ⟨rfl, rfl⟩ | ⟨after, rfl, exponent⟩⟩
    · exact splitExponent_bare absent
    · rw [splitExponent_marked absent, exponent?_eq_some.mpr exponent, Option.map_some]

theorem scaled_iff (absent : ∀ body y, Body body y → marker ∉ body) :
    Scaled marker base Body text x ↔
      ∃ body i y, splitExponent marker text = some (body, i) ∧ Body body y ∧ x = y * base ^ i := by
  constructor
  · intro scaled
    cases scaled with
    | bare inside =>
      exact ⟨text, 0, x, splitExponent_bare (absent text x inside), inside, by simp⟩
    | marked inside exponent =>
      refine ⟨_, _, _, ?_, inside, rfl⟩
      exact splitExponent_eq_some.mpr ⟨absent _ _ inside, .inr ⟨_, rfl, exponent⟩⟩
  · rintro ⟨body, i, y, run, inside, rfl⟩
    rcases (splitExponent_eq_some.mp run).2 with ⟨rfl, rfl⟩ | ⟨after, rfl, exponent⟩
    · rw [zpow_zero, mul_one]
      exact .bare inside
    · exact .marked inside exponent

theorem Scaled.unique (absent : ∀ body y, Body body y → marker ∉ body)
    (only : ∀ body y z, Body body y → Body body z → y = z)
    (first : Scaled marker base Body text x) (second : Scaled marker base Body text y) :
    x = y := by
  obtain ⟨body, i, v, split, inside, rfl⟩ := (scaled_iff absent).mp first
  obtain ⟨body', j, w, split', inside', rfl⟩ := (scaled_iff absent).mp second
  obtain ⟨rfl, rfl⟩ := Prod.mk.inj (Option.some.inj (split.symm.trans split'))
  rw [only body v w inside inside']

theorem splitPoint_bare (absent : '.' ∉ w) : splitPoint w = (w, []) := by
  have before := bne_of_not_mem absent
  rw [splitPoint, List.takeWhile_eq_self_iff.mpr before, List.dropWhile_eq_nil_iff.mpr before]
  rfl

theorem splitPoint_pointed (absent : '.' ∉ w) : splitPoint (w ++ '.' :: f) = (w, f) := by
  have before := bne_of_not_mem absent
  rw [splitPoint, List.takeWhile_append_of_pos before, List.dropWhile_append_of_pos before,
    List.dropWhile_cons, List.takeWhile_cons]
  simp

theorem splitPoint_eq (split : splitPoint text = (w, f)) :
    text = w ∧ f = [] ∨ text = w ++ '.' :: f := by
  by_cases mem : '.' ∈ text
  · obtain ⟨front, after, rfl, absent⟩ := List.eq_append_cons_of_mem mem
    rw [splitPoint_pointed absent] at split
    obtain ⟨rfl, rfl⟩ := Prod.mk.inj split
    exact .inr rfl
  · rw [splitPoint_bare mem] at split
    obtain ⟨rfl, rfl⟩ := Prod.mk.inj split
    exact .inl ⟨rfl, rfl⟩

theorem mantissa_iff :
    Mantissa text x ↔
      ∃ w f, splitPoint text = (w, f) ∧ w ++ f ≠ [] ∧ (∀ c ∈ w ++ f, isDigit c) ∧
        x = shifted (digitsValue (w ++ f)) (-(f.length : ℤ)) := by
  have point : isDigit '.' = false := by decide
  constructor
  · intro form
    cases form with
    | whole nonempty digits =>
      have absent : '.' ∉ text := fun mem => absurd (digits '.' mem) (by decide)
      exact ⟨text, [], splitPoint_bare absent, by simpa using nonempty, by simpa using digits,
        by simp⟩
    | @pointed w f nonempty digits =>
      have absent : '.' ∉ w := fun mem =>
        absurd (digits '.' (List.mem_append_left f mem)) (by decide)
      exact ⟨w, f, splitPoint_pointed absent, nonempty, digits, rfl⟩
  · rintro ⟨w, f, split, nonempty, digits, rfl⟩
    rcases splitPoint_eq split with ⟨rfl, rfl⟩ | rfl
    · rw [List.append_nil] at *
      simpa using Mantissa.whole nonempty digits
    · exact .pointed nonempty digits

theorem Mantissa.unique (first : Mantissa text x) (second : Mantissa text y) : x = y := by
  obtain ⟨w, f, split, -, -, rfl⟩ := mantissa_iff.mp first
  obtain ⟨w', f', split', -, -, rfl⟩ := mantissa_iff.mp second
  obtain ⟨rfl, rfl⟩ := Prod.mk.inj (split.symm.trans split')
  rfl

theorem Mantissa.mem (form : Mantissa text x) {c : Char} (mem : c ∈ text) :
    isDigit c ∨ c = '.' := by
  cases form with
  | whole nonempty digits => exact .inl (digits c mem)
  | pointed nonempty digits =>
    have parts := List.mem_append.mp mem
    rw [List.mem_cons] at parts
    rcases parts with inside | same | inside
    · exact .inl (digits c (List.mem_append_left _ inside))
    · exact .inr same
    · exact .inl (digits c (List.mem_append_right _ inside))

theorem Exponent.mem (form : Exponent text i) {c : Char} (mem : c ∈ text) :
    isDigit c ∨ c = '+' ∨ c = '-' := by
  cases form with
  | plain nonempty all room => exact .inl (all c mem)
  | plus nonempty all room =>
    rcases List.mem_cons.mp mem with same | inside
    · exact .inr (.inl same)
    · exact .inl (all c inside)
  | minus nonempty all room =>
    rcases List.mem_cons.mp mem with same | inside
    · exact .inr (.inr same)
    · exact .inl (all c inside)

theorem e_not_mem (text : List Char) (x : ℚ) (form : Mantissa text x) : 'e' ∉ text := by
  intro mem
  rcases form.mem mem with digit | same
  · exact absurd digit (by decide)
  · exact absurd same (by decide)

theorem Scaled.mem (form : Scaled 'e' 10 Mantissa text x) {c : Char} (mem : c ∈ text) :
    isDigit c ∨ c ∈ ['.', 'e', '+', '-'] := by
  cases form with
  | bare inside =>
    rcases inside.mem mem with digit | rfl
    · exact .inl digit
    · exact .inr (by simp)
  | marked inside exponent =>
    rcases List.mem_append.mp mem with early | late
    · rcases inside.mem early with digit | rfl
      · exact .inl digit
      · exact .inr (by simp)
    · rcases List.mem_cons.mp late with rfl | late
      · exact .inr (by simp)
      · rcases exponent.mem late with digit | rfl | rfl
        · exact .inl digit
        · exact .inr (by simp)
        · exact .inr (by simp)

theorem p_not_mem (text : List Char) (x : ℚ) (form : Scaled 'e' 10 Mantissa text x) :
    'p' ∉ text := by
  intro mem
  rcases form.mem mem with digit | mark
  · exact absurd digit (by decide)
  · exact absurd mark (by decide)

theorem denotes_iff {raw : String} :
    Denotes raw x ↔
      ∃ rest binary body decimal y, splitExponent 'p' raw.toList = some (rest, binary) ∧
        splitExponent 'e' rest = some (body, decimal) ∧ Mantissa body y ∧
        x = y * 10 ^ decimal * 2 ^ binary := by
  rw [Denotes, scaled_iff p_not_mem]
  constructor
  · rintro ⟨rest, binary, z, first, inside, rfl⟩
    obtain ⟨body, decimal, y, second, form, rfl⟩ := (scaled_iff e_not_mem).mp inside
    exact ⟨rest, binary, body, decimal, y, first, second, form, rfl⟩
  · rintro ⟨rest, binary, body, decimal, y, first, second, form, rfl⟩
    exact ⟨rest, binary, _, first,
      (scaled_iff e_not_mem).mpr ⟨body, decimal, y, second, form, rfl⟩, rfl⟩

theorem exact_value (run : exact m s = some d) :
    d.negative = false ∧ d.toRat = shifted m (-(s : ℤ)) := by
  unfold exact at run
  dsimp only at run
  split at run
  · obtain rfl := Option.some.inj run
    refine ⟨rfl, ?_⟩
    rw [toRat_mk, if_neg (by decide), one_mul, shifted_stripDigits]
  · simp at run

theorem exact_of_last (last : s = 0 ∨ m % 10 ≠ 0) :
    exact m s = if m < capacity ∧ s ≤ maxScale then some ⟨false, m, s⟩ else none := by
  rw [exact, stripDigits_of_last last]

theorem scaleByTen_value (run : scaleByTen k i = some d) :
    d.negative = false ∧ d.toRat = shifted k i := by
  unfold scaleByTen at run
  split at run
  · have value := exact_value run
    have places : -((-i).toNat : ℤ) = i := by omega
    rwa [places] at value
  split at run
  · have value := exact_value run
    have places : -((0 : ℕ) : ℤ) + i.toNat = i := by omega
    rwa [shifted_mul_pow, places] at value
  · simp at run

theorem scaleByTen_of_wide (last : k % 10 ≠ 0) (wide : maxDigits ≤ i.natAbs) :
    scaleByTen k i = none := by
  unfold maxDigits at wide
  unfold scaleByTen
  split
  · have many : ¬ (-i).toNat ≤ maxScale := by
      unfold maxScale
      omega
    rw [exact_of_last (.inr last), if_neg (fun room => many room.2)]
  · have long : ¬ i < maxDigits := by
      unfold maxDigits
      omega
    rw [if_neg long]

/-- The power in 64 bits, each step checked, for a text of any length that a machine can hold. -/
theorem scaleByTen_sum64 {zeros places : ℕ} (last : k % 10 ≠ 0) (least : -2 ^ 63 ≤ i)
    (short : places < 2 ^ 62) :
    (do
      let sum ← within64 (i + zeros)
      let power ← within64 (sum - places)
      let _ ← within64 (-power)
      scaleByTen k power) = scaleByTen k (i + zeros - places) := by
  by_cases wide : maxDigits ≤ (i + zeros - places).natAbs
  · rw [scaleByTen_of_wide last wide]
    cases sum : within64 (i + zeros) with
    | none => rfl
    | some j =>
      obtain ⟨-, rfl⟩ := within64_eq_some.mp sum
      cases power : within64 (i + zeros - places) with
      | none => simp [power]
      | some j =>
        obtain ⟨-, rfl⟩ := within64_eq_some.mp power
        simp [power, scaleByTen_of_wide last wide]
  · unfold maxDigits at wide
    have sum : within64 (i + zeros) = some (i + zeros) := if_pos ⟨by omega, by omega⟩
    have power : within64 (i + zeros - places) = some (i + zeros - places) :=
      if_pos ⟨by omega, by omega⟩
    have negated : within64 (-(i + zeros - places)) = some (-(i + zeros - places)) :=
      if_pos ⟨by omega, by omega⟩
    simp only [sum, power, negated, Option.bind_eq_bind, Option.bind_some]

/-- Digits without a zero at the end have room at their place if any spelling of the number has. -/
theorem scaleByTen_complete (last : k % 10 ≠ 0) (spelled : shifted k i = shifted m (-(s : ℤ)))
    (room : m < capacity) (places : s ≤ maxScale) : ∃ d, scaleByTen k i = some d := by
  have fine : -(s : ℤ) ≤ i := le_of_last last spelled
  have whole := (shifted_eq_iff fine).mp spelled.symm
  unfold scaleByTen
  split
  · have less := Nat.le_mul_of_pos_right k (show 0 < 10 ^ (i - -(s : ℤ)).toNat by positivity)
    rw [exact_of_last (.inr last), if_pos ⟨by omega, by omega⟩]
    exact ⟨_, rfl⟩
  · have split : (i - -(s : ℤ)).toNat = i.toNat + s := by omega
    rw [split, pow_add, ← mul_assoc] at whole
    have less : k * 10 ^ i.toNat < capacity := by
      have more := Nat.le_mul_of_pos_right (k * 10 ^ i.toNat) (show 0 < 10 ^ s by positivity)
      omega
    have short : i < maxDigits := by
      by_contra long
      have unit : 10 ^ 29 ≤ 10 ^ i.toNat := Nat.pow_le_pow_right (by decide) (by
        unfold maxDigits at long
        omega)
      have more := Nat.le_mul_of_pos_left (10 ^ i.toNat) (show 0 < k by omega)
      have large : capacity < 10 ^ 29 := by decide
      omega
    rw [if_pos short, exact_of_last (.inl rfl), if_pos ⟨less, Nat.zero_le _⟩]
    exact ⟨_, rfl⟩

theorem scaleByTen_of_large (last : k % 10 ≠ 0) (large : capacity ≤ k) : scaleByTen k i = none := by
  unfold scaleByTen
  split
  · rw [exact_of_last (.inr last), if_neg (by omega)]
  split
  · have less := Nat.le_mul_of_pos_right k (show 0 < 10 ^ i.toNat by positivity)
    rw [exact_of_last (.inl rfl), if_neg (by omega)]
  · rfl

theorem mantissa?_of_digits (split : splitPoint text = (w, f)) (nonempty : w ++ f ≠ [])
    (all : ∀ c ∈ w ++ f, isDigit c) (i : ℤ) :
    digitsValue (w ++ f) = 0 ∧ mantissa? text i = some zero ∨
      ∃ k t : ℕ, k % 10 ≠ 0 ∧ digitsValue (w ++ f) = k * 10 ^ t ∧
        mantissa? text i = scaleByTen k (i + t - f.length) := by
  have good : ¬ ((w.isEmpty && f.isEmpty) || !(w ++ f).all isDigit) = true := by
    have some : ¬ (w = [] ∧ f = []) := by simpa using nonempty
    have digits : (w ++ f).all isDigit = true := List.all_eq_true.mpr all
    simpa [digits] using some
  unfold mantissa?
  rw [split]
  dsimp only
  rw [if_neg good]
  have value := digitsValue_dropZeros (w ++ f)
  have first := head?_dropZeros (w ++ f)
  have inner : ∀ c ∈ (w ++ f).dropWhile (· == '0'), isDigit c := fun c mem =>
    all c ((List.dropWhile_sublist _).mem mem)
  generalize (w ++ f).dropWhile (· == '0') = significant at *
  have zeros := dropWhileEnd_append_zeros significant
  have last := getLast?_dropZerosEnd significant
  generalize dropWhileEnd (· == '0') significant = kept at *
  generalize significant.length - kept.length = t at *
  subst zeros
  rw [digitsValue_append, digitsValue_zeros, List.length_replicate, Nat.add_zero] at value
  by_cases none : kept = []
  · subst none
    exact .inl ⟨by rw [← value]; exact Nat.zero_mul _, rfl⟩
  · have digits : ∀ c ∈ kept, isDigit c := fun c mem => inner c (List.mem_append_left _ mem)
    have units := digitsValue_mod_ten digits none last
    refine .inr ⟨digitsValue kept, t, units, value.symm, ?_⟩
    rw [if_neg (by simpa using none)]
    split
    · -- Thirty digits with a first one that is not zero are past the capacity anyway.
      rename_i long
      have front : kept.head? ≠ some '0' := by
        rwa [List.head?_append_of_ne_nil _ none] at first
      have least := pow_le_digitsValue digits none front
      have more : 10 ^ 29 ≤ 10 ^ (kept.length - 1) := Nat.pow_le_pow_right (by decide) (by
        unfold maxDigits at long
        omega)
      have large : capacity < 10 ^ 29 := by decide
      exact (scaleByTen_of_large units (by omega)).symm
    · rfl

theorem mantissa?_value (run : mantissa? text i = some d) :
    d.negative = false ∧ ∃ x, Mantissa text x ∧ d.toRat = x * 10 ^ i := by
  rcases split : splitPoint text with ⟨w, f⟩
  have good : w ++ f ≠ [] ∧ ∀ c ∈ w ++ f, isDigit c := by
    unfold mantissa? at run
    rw [split] at run
    dsimp only at run
    split at run
    · simp at run
    · rename_i good
      simp only [Bool.or_eq_true, not_or, Bool.not_eq_true', Bool.not_eq_false] at good
      exact ⟨by simpa using good.1, List.all_eq_true.mp good.2⟩
  have form := mantissa_iff.mpr ⟨w, f, split, good.1, good.2, rfl⟩
  rcases mantissa?_of_digits split good.1 good.2 i with ⟨none, read⟩ | ⟨k, t, -, whole, read⟩
  · obtain rfl := Option.some.inj (read.symm.trans run)
    refine ⟨rfl, _, form, ?_⟩
    rw [none, zero_shifted, zero_mul]
    exact toRat_eq_zero.mpr rfl
  · rw [read] at run
    obtain ⟨positive, value⟩ := scaleByTen_value run
    refine ⟨positive, _, form, ?_⟩
    have exponent : i + t - f.length = -(f.length : ℤ) + t + i := by ring
    rw [value, whole, shifted_mul_pow, exponent, shifted_add]

theorem mantissa?_complete (form : Mantissa text x)
    (spelled : x * 10 ^ i = shifted m (-(s : ℤ))) (room : m < capacity) (places : s ≤ maxScale) :
    ∃ d, mantissa? text i = some d := by
  obtain ⟨w, f, split, nonempty, all, rfl⟩ := mantissa_iff.mp form
  rcases mantissa?_of_digits split nonempty all i with ⟨_, read⟩ | ⟨k, t, last, whole, read⟩
  · exact ⟨zero, read⟩
  · rw [read]
    have exponent : i + t - f.length = -(f.length : ℤ) + t + i := by ring
    rw [whole, shifted_mul_pow, ← shifted_add, ← exponent] at spelled
    exact scaleByTen_complete last spelled room places

theorem shifted_twos (m s : ℕ) (i : ℤ) :
    shifted (m * (if i > 0 then 2 else 5) ^ i.natAbs)
      (-((if i > 0 then s else s + i.natAbs : ℕ) : ℤ)) = shifted m (-(s : ℤ)) * 2 ^ i := by
  by_cases up : i > 0
  · have power : (2 : ℚ) ^ i = 2 ^ i.natAbs := by
      rw [← zpow_natCast]
      congr 1
      omega
    simp only [up, ↓reduceIte]
    rw [power]
    unfold shifted
    push_cast
    ring
  · have exponent : -((s + i.natAbs : ℕ) : ℤ) = -(s : ℤ) + i := by omega
    have power : (5 : ℚ) ^ i.natAbs * 10 ^ i = 2 ^ i := by
      have flip : i = -(i.natAbs : ℤ) := by omega
      have ten : (10 : ℚ) = 5 * 2 := by norm_num
      rw [flip, zpow_neg, zpow_neg, zpow_natCast, zpow_natCast, Int.natAbs_neg,
        Int.natAbs_natCast, ten, mul_pow, mul_inv, mul_inv_cancel_left₀ (by positivity)]
    simp only [up, ↓reduceIte]
    rw [exponent, shifted_add, ← power]
    unfold shifted
    push_cast
    ring

theorem scaleByTwo_value (positive : d.negative = false) (run : d.scaleByTwo i = some e) :
    e.negative = false ∧ e.toRat = d.toRat * 2 ^ i := by
  unfold scaleByTwo at run
  split at run
  · rename_i same
    obtain rfl := Option.some.inj run
    refine ⟨positive, ?_⟩
    rcases same with rfl | none
    · simp
    · rw [toRat_eq_zero.mpr none, zero_mul]
  split at run
  · simp at run
  have value : d.toRat = shifted d.strip.mantissa (-(d.strip.scale : ℤ)) := by
    have sign : d.strip.negative = false := by simp [strip, positive]
    rw [← toRat_strip, toRat_eq, sign, if_neg (by decide), one_mul]
  have twos := shifted_twos d.strip.mantissa d.strip.scale i
  rw [← value] at twos
  dsimp only at run
  generalize d.strip.mantissa * (if i > 0 then 2 else 5) ^ i.natAbs = m at *
  generalize (if i > 0 then d.strip.scale else d.strip.scale + i.natAbs) = s at *
  split at run
  · simp at run
  · obtain ⟨sign, scaled⟩ := exact_value run
    exact ⟨sign, scaled.trans twos⟩

/-- How a literal is read: without a sign, in the range, and with no final zeros after the point. -/
structure Plain (d : Decimal) : Prop where
  sign : d.negative = false
  valid : d.Valid
  last : d.scale = 0 ∨ d.mantissa % 10 ≠ 0

theorem Plain.toRat_eq (plain : d.Plain) : d.toRat = shifted d.mantissa (-(d.scale : ℤ)) := by
  rw [Decimal.toRat_eq, plain.sign, if_neg (by decide), one_mul]

theorem plain_exact (run : exact m s = some d) : d.Plain := by
  obtain ⟨-, -, last⟩ := stripDigits_spec (m := m) (s := s) rfl
  unfold exact at run
  dsimp only at run
  split at run
  · rename_i fits
    obtain rfl := Option.some.inj run
    exact ⟨rfl, fits, last⟩
  · simp at run

theorem plain_scaleByTen (run : scaleByTen m i = some d) : d.Plain := by
  unfold scaleByTen at run
  split at run
  · exact plain_exact run
  split at run
  · exact plain_exact run
  · simp at run

theorem plain_mantissa? (run : mantissa? text i = some d) : d.Plain := by
  unfold mantissa? at run
  dsimp only at run
  split at run
  · simp at run
  split at run
  · obtain rfl := Option.some.inj run
    exact ⟨rfl, valid_zero, .inl rfl⟩
  split at run
  · simp at run
  · exact plain_scaleByTen run

theorem Plain.scaleByTwo (plain : d.Plain) (run : d.scaleByTwo i = some e) : e.Plain := by
  unfold Decimal.scaleByTwo at run
  split at run
  · obtain rfl := Option.some.inj run
    exact plain
  split at run
  · simp at run
  dsimp only at run
  generalize d.strip.mantissa * (if i > 0 then 2 else 5) ^ i.natAbs = m at run
  split at run
  · simp at run
  · exact plain_exact run

theorem literal?_eq_some {raw : String} :
    literal? raw = some d ↔
      ∃ rest binary body decimal e, splitExponent 'p' raw.toList = some (rest, binary) ∧
        splitExponent 'e' rest = some (body, decimal) ∧ mantissa? body decimal = some e ∧
        e.scaleByTwo binary = some d := by
  unfold literal?
  constructor
  · intro run
    obtain ⟨⟨rest, binary⟩, first, run⟩ := Option.bind_eq_some_iff.mp run
    obtain ⟨⟨body, decimal⟩, second, run⟩ := Option.bind_eq_some_iff.mp run
    obtain ⟨e, read, run⟩ := Option.bind_eq_some_iff.mp run
    exact ⟨rest, binary, body, decimal, e, first, second, read, run⟩
  · rintro ⟨rest, binary, body, decimal, e, first, second, read, run⟩
    simp [first, second, read, run]

theorem denotes_literal? {raw : String} (run : literal? raw = some d) :
    d.negative = false ∧ Denotes raw d.toRat := by
  obtain ⟨rest, binary, body, decimal, e, first, second, read, twos⟩ := literal?_eq_some.mp run
  obtain ⟨positive, y, form, tens⟩ := mantissa?_value read
  obtain ⟨positive, value⟩ := scaleByTwo_value positive twos
  refine ⟨positive, denotes_iff.mpr ⟨rest, binary, body, decimal, y, first, second, form, ?_⟩⟩
  rw [value, tens]

theorem plain_literal? {raw : String} (run : literal? raw = some d) : d.Plain := by
  obtain ⟨_, _, _, _, _, _, _, read, twos⟩ := literal?_eq_some.mp run
  exact (plain_mantissa? read).scaleByTwo twos

theorem valid_literal? {raw : String} (run : literal? raw = some d) : d.Valid :=
  (plain_literal? run).valid

theorem tens_unique (first : Scaled 'e' 10 Mantissa text x)
    (second : Scaled 'e' 10 Mantissa text y) : x = y :=
  first.unique e_not_mem (fun _ _ _ => Mantissa.unique) second

theorem Denotes.unique {raw : String} (first : Denotes raw x) (second : Denotes raw y) : x = y :=
  Scaled.unique p_not_mem (fun _ _ _ => tens_unique) first second

/-- A literal without a power of two is read whenever some decimal holds its value. -/
theorem literal?_complete (form : Scaled 'e' 10 Mantissa text (shifted m (-(s : ℤ))))
    (room : m < capacity) (places : s ≤ maxScale) :
    ∃ d, literal? (String.ofList text) = some d ∧ d.toRat = shifted m (-(s : ℤ)) := by
  have denotes : Denotes (String.ofList text) (shifted m (-(s : ℤ))) := by
    rw [Denotes, String.toList_ofList]
    exact .bare form
  obtain ⟨body, i, y, split, inside, scaled⟩ := (scaled_iff e_not_mem).mp form
  obtain ⟨d, read⟩ := mantissa?_complete inside scaled.symm room places
  have run : literal? (String.ofList text) = some d := by
    refine literal?_eq_some.mpr ⟨text, 0, body, i, d, ?_, split, read, ?_⟩
    · rw [String.toList_ofList]
      exact splitExponent_bare (p_not_mem text _ form)
    · rw [scaleByTwo, if_pos (.inl rfl)]
  exact ⟨d, run, (denotes_literal? run).2.unique denotes⟩

end Reckon.Decimal
