import Reckon.Proofs.Budget
import Reckon.Proofs.Located
import Reckon.Proofs.Openings

/-
The limit on nesting levels only cuts off.  Below a threshold every limit is too small, and from the
threshold on the limit makes no difference, neither to a reading nor to a calculation.
-/
namespace Reckon
open Text Grammar

/-- What each limit leads to: below the threshold a report that it is too small, and from there on
always the same, which is no such report. -/
structure CutOff {ε α : Type} (report : ParseError → ε) (answer : Nat → Except ε α)
    (threshold : Nat) : Prop where
  below : ∀ limit, limit < threshold →
    ∃ position, answer limit = .error (report ⟨position, .tooDeep limit⟩)
  above : ∀ limit, threshold ≤ limit → answer limit = answer threshold
  clear : ∀ position limit, answer threshold ≠ .error (report ⟨position, .tooDeep limit⟩)

theorem exists_threshold {small : Nat → Prop} {bound : Nat} (enough : ¬ small bound) :
    ∃ threshold ≤ bound, (∀ limit, limit < threshold → small limit) ∧ ¬ small threshold := by
  classical
  have some : ∃ limit, ¬ small limit := ⟨bound, enough⟩
  refine ⟨Nat.find some, Nat.find_min' some enough, ?_, Nat.find_spec some⟩
  intro limit less
  exact not_not.mp (Nat.find_min some less)

namespace Parse

variable {source : List Char} {limit large levels position : Nat}

def TooSmall (source : List Char) (limit : Nat) : Prop :=
  ∃ position, (text limit source).value = .error ⟨position, .tooDeep limit⟩

theorem limit_of_tooDeep (run : (text limit source).value = .error ⟨position, .tooDeep levels⟩) :
    levels = limit ∧ limit < openings false (tokensOf source) :=
  line_lacks run levels rfl

theorem text_of_not_tooSmall (enough : ¬ TooSmall source limit) (less : limit ≤ large) :
    (text large source).value = (text limit source).value := by
  rcases foreshadows_line less (lexemes source) with ⟨position, levels, deep⟩ | same
  · obtain ⟨rfl, _⟩ := limit_of_tooDeep deep
    exact absurd ⟨position, deep⟩ enough
  · exact same.symm

theorem text_cutOff (source : List Char) :
    ∃ threshold ≤ openings false (tokensOf source),
      CutOff id (fun limit => (text limit source).value) threshold := by
  have enough : ¬ TooSmall source (openings false (tokensOf source)) := by
    intro small
    obtain ⟨position, run⟩ := small
    exact Nat.lt_irrefl _ (limit_of_tooDeep run).2
  obtain ⟨threshold, bound, below, least⟩ := exists_threshold enough
  refine ⟨threshold, bound, below, fun limit => text_of_not_tooSmall least, ?_⟩
  intro position limit deep
  obtain ⟨rfl, _⟩ := limit_of_tooDeep deep
  exact least ⟨position, deep⟩

end Parse

namespace Locate

variable {line text : List Char} {settings : Settings} {seed : Seed}
  {place precision limit large position levels : Nat}

theorem tokens_of_start (inside : place ≤ text.length) (start : isStart text place) :
    ∃ front, tokensOf text = front ++ tokensOf (text.drop place) := by
  obtain ⟨before, after, rfl, rfl⟩ : ∃ before after, text = before ++ after ∧
      place = before.length :=
    ⟨text.take place, text.drop place, (List.take_append_drop place text).symm,
      (List.length_take_of_le inside).symm⟩
  rw [isStart_append] at start
  rw [List.drop_left]
  rcases List.eq_nil_or_concat' before with rfl | ⟨front, c, rfl⟩
  · exact ⟨[], rfl⟩
  · cases after with
    | nil =>
      refine ⟨bodyOf (front ++ [c]), ?_⟩
      rw [List.append_nil, tokensOf_nil]
      exact tokensOf_eq (front ++ [c])
    | cons d after =>
      simp only [List.getLast?_concat, List.head?_cons, Bool.and_eq_true, Bool.or_eq_true,
        beq_iff_eq] at start
      have separates : Lexer.isSeparator c := by
        rcases start.2 with rfl | ⟨blank, _⟩
        · decide
        · exact Lexer.isSeparator_of_isBlank blank
      have joined := tokensOf_append (Lexer.apart_cons separates (d :: after)) front
      rw [List.append_assoc, List.singleton_append, joined]
      rcases start.2 with rfl | ⟨blank, _⟩
      · exact ⟨(tokensOf front).dropLast ++ [.equals], by rw [tokensOf_equals, List.append_cons]⟩
      · exact ⟨_, by rw [tokensOf_blank blank]⟩

theorem tokens_trimmed (line : List Char) :
    ∃ tail, tokensOf line = bodyOf (dropWhileEnd isTrailer line) ++ tokensOf tail := by
  obtain ⟨tail, spelled, drops⟩ := dropWhileEnd_append isTrailer line
  have whole := tokensOf_append (Lexer.apart_of_trailers drops) (dropWhileEnd isTrailer line)
  rw [← spelled] at whole
  exact ⟨tail, whole⟩

theorem openings_trimmed (line : List Char) :
    openings false (tokensOf (dropWhileEnd isTrailer line)) ≤ openings false (tokensOf line) := by
  obtain ⟨tail, whole⟩ := tokens_trimmed line
  rw [tokensOf_eq, whole]
  exact openings_end false (bodyOf (dropWhileEnd isTrailer line)) (tokensOf tail)

def TooSmall (text : List Char) (limit : Nat) : Prop :=
  ∃ place position, Settled ⟨0, limit⟩ text place (.error ⟨position, .tooDeep limit⟩)

theorem limit_of_tooDeep
    (settled : Settled settings text place (.error ⟨position, .tooDeep levels⟩)) :
    levels = settings.maxDepth ∧ settings.maxDepth < openings false (tokensOf text) := by
  obtain ⟨inside, start⟩ := settled.start
  obtain ⟨front, split⟩ := tokens_of_start inside start
  obtain ⟨same, fewer⟩ := Parse.limit_of_tooDeep settled.read
  refine ⟨same, Nat.lt_of_lt_of_le fewer ?_⟩
  rw [split]
  exact openings_suffix false front _

theorem reading_of_not_tooSmall (enough : ¬ TooSmall text limit) (less : limit ≤ large)
    (mem : place ∈ tried ⟨precision, limit⟩ text (starts text)) :
    reading ⟨precision, limit⟩ text place = reading ⟨precision, large⟩ text place := by
  refine (Parse.text_of_not_tooSmall ?_ less).symm
  intro small
  obtain ⟨position, deep⟩ := small
  have read : reading ⟨precision, limit⟩ text place = .error ⟨position, .tooDeep limit⟩ := deep
  rcases List.mem_append.mp mem with passed | found
  -- A lack of levels settles the matter, so it is not what a place is passed over for.
  · have undecided := List.mem_takeWhile_imp passed
    rw [read] at undecided
    cases undecided
  · exact enough ⟨place, position, Option.mem_toList.mp found, read⟩

theorem calculate_of_not_tooSmall (enough : ¬ TooSmall (dropWhileEnd isTrailer line) limit)
    (less : limit ≤ large) :
    (calculate ⟨precision, large⟩ seed line).value =
      (calculate ⟨precision, limit⟩ seed line).value :=
  (calculate_congr (fun _ => reading_of_not_tooSmall enough less) fun _ _ _ => rfl).symm

theorem calculate_seed (drawless : ∀ place node,
      Settled settings (dropWhileEnd isTrailer line) place (.ok node) → node.Drawless)
    (seed other : Seed) :
    (calculate settings seed line).value = (calculate settings other line).value := by
  refine calculate_congr (fun _ _ => rfl) ?_
  intro place node settled
  exact (drawless place node settled).evaluate_seed seed other

theorem calculate_cutOff (line : List Char) :
    ∃ threshold ≤ openings false (tokensOf line), ∀ precision seed, CutOff Failure.parse
      (fun limit => (calculate ⟨precision, limit⟩ seed line).value) threshold := by
  have enough : ¬ TooSmall (dropWhileEnd isTrailer line) (openings false (tokensOf line)) := by
    intro small
    obtain ⟨place, position, settled⟩ := small
    exact Nat.lt_irrefl _ (Nat.lt_of_lt_of_le (limit_of_tooDeep settled).2 (openings_trimmed line))
  obtain ⟨threshold, bound, below, least⟩ := exists_threshold enough
  refine ⟨threshold, bound, fun precision seed => ⟨?_, ?_, ?_⟩⟩
  · intro limit less
    obtain ⟨place, position, first, read⟩ := below limit less
    refine ⟨position, ?_⟩
    have settled : Settled ⟨precision, limit⟩ (dropWhileEnd isTrailer line) place
        (.error ⟨position, .tooDeep limit⟩) := ⟨first, read⟩
    have answer := calculate_answers settled seed
    generalize (calculate ⟨precision, limit⟩ seed line).value = value at answer ⊢
    cases answer
    rfl
  · intro limit
    exact calculate_of_not_tooSmall least
  · intro position limit deep
    rcases calculate_settled ⟨precision, threshold⟩ seed line with
      ⟨place, result, settled⟩ | ⟨marker, failed⟩
    · have answer := calculate_answers settled seed
      rw [deep] at answer
      cases answer with
      | tooDeep =>
        obtain ⟨rfl, _⟩ := limit_of_tooDeep settled
        exact least ⟨place, position, settled.first, settled.read⟩
    · rw [failed] at deep
      cases deep

end Locate

/-- The limit on nesting levels is a cut-off, no further up than there are opening parentheses and
operators with two sides.  That of a calculation is the same for all precisions and seeds, and from
there on not even the seed matters, unless a tree with random calls is found. -/
theorem limit_cutsOff (line : List Char) :
    (∃ threshold ≤ openings false (tokensOf line),
      CutOff id (fun limit => (Parse.text limit line).value) threshold) ∧
    ∃ threshold ≤ openings false (tokensOf line), ∀ precision seed,
      CutOff Failure.parse (fun limit => (calculate ⟨precision, limit⟩ seed line).value) threshold ∧
      ((∀ place node, Locate.Settled ⟨precision, threshold⟩ (dropWhileEnd isTrailer line) place
          (.ok node) → node.Drawless) →
        ∀ other, (calculate ⟨precision, threshold⟩ other line).value =
          (calculate ⟨precision, threshold⟩ seed line).value) := by
  refine ⟨Parse.text_cutOff line, ?_⟩
  obtain ⟨threshold, bound, cuts⟩ := Locate.calculate_cutOff line
  refine ⟨threshold, bound, fun precision seed => ⟨cuts precision seed, ?_⟩⟩
  intro drawless other
  exact Locate.calculate_seed drawless other seed

end Reckon
