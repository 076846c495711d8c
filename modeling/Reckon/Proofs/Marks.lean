import Reckon.Proofs.Located

/-
The marker line of a search that found nothing.  It has a character for each character of the line,
and a mark under each place that was tried: under every start, up to the one that ended the search.
-/
namespace Reckon.Locate
open Text

variable {settings : Settings} {seed : Seed} {line text remainder : List Char} {here : Place}
  {earlier offsets : List Nat} {i place : Nat} {shown marks : String}

def byteAt (text : List Char) (place : Nat) : Nat :=
  (String.ofList (text.take place)).utf8ByteSize

theorem byteAt_cons (c : Char) (rest : List Char) (place : Nat) :
    byteAt (c :: rest) (place + 1) = c.utf8Size + byteAt rest place := by
  rw [byteAt, List.take_succ_cons, String.ofList_cons, String.utf8ByteSize_append,
    String.utf8ByteSize_singleton, byteAt]

theorem byteAt_lt (less : i < place) (inside : place ≤ text.length) :
    byteAt text i < byteAt text place := by
  induction text generalizing i place with
  | nil =>
    simp only [List.length_nil] at inside
    omega
  | cons c rest ih =>
    obtain ⟨next, rfl⟩ : ∃ next, place = next + 1 := ⟨place - 1, by omega⟩
    rw [byteAt_cons]
    cases i with
    | zero =>
      have wide := c.utf8Size_pos
      have none : byteAt (c :: rest) 0 = 0 := rfl
      omega
    | succ i =>
      rw [byteAt_cons]
      exact Nat.add_lt_add_left (ih (by omega) (by simpa using inside)) _

theorem byteAt_inj (first : i ≤ text.length) (second : place ≤ text.length)
    (same : byteAt text i = byteAt text place) : i = place := by
  rcases Nat.lt_trichotomy i place with less | equal | more
  · exact absurd same (Nat.ne_of_lt (byteAt_lt less second))
  · exact equal
  · exact absurd same (Nat.ne_of_gt (byteAt_lt more first))

theorem byteAt_append {tail : List Char} (inside : place ≤ text.length) :
    byteAt (text ++ tail) place = byteAt text place := by
  rw [byteAt, List.take_append_of_le_length inside, byteAt]

def markAt (tried : Bool) (c : Char) : Char :=
  if tried then '^' else if c = '\t' then '\t' else ' '

theorem getElem?_marker (text : List Char) (offsets : List Nat) (i : Nat) :
    (marker text offsets)[i]? = text[i]?.map (markAt (offsets.contains (byteAt text i))) := by
  induction text generalizing offsets i with
  | nil => rfl
  | cons c rest ih =>
    rw [marker]
    cases i with
    | zero => rfl
    | succ i =>
      have moved : ((offsets.filter (c.utf8Size ≤ ·)).map (· - c.utf8Size)).contains
          (byteAt rest i) = offsets.contains (byteAt (c :: rest) (i + 1)) := by
        rw [byteAt_cons, Bool.eq_iff_iff]
        simp only [List.contains_iff_mem, List.mem_map, List.mem_filter, decide_eq_true_eq]
        constructor
        · rintro ⟨offset, ⟨mem, least⟩, same⟩
          rwa [← same, Nat.add_sub_cancel' least]
        · intro mem
          exact ⟨_, ⟨mem, Nat.le_add_right _ _⟩, Nat.add_sub_cancel_left _ _⟩
      rw [List.getElem?_cons_succ, List.getElem?_cons_succ, ih, moved]

theorem length_marker (text : List Char) (offsets : List Nat) :
    (marker text offsets).length = text.length := by
  induction text generalizing offsets with
  | nil => rfl
  | cons c rest ih => rw [marker, List.length_cons, List.length_cons, ih]

theorem conclude_not_exhausted (node : Node) :
    (conclude settings seed here node).value ≠ .error (.exhausted shown marks) := by
  unfold conclude
  cases node.evaluate settings.workingPrecision seed <;> exact nofun

theorem giveUp_exhausted {error : ParseError}
    (run : (giveUp line offsets error).value = .error (.exhausted shown marks)) :
    shown = String.ofList line ∧ marks = String.ofList (marker line offsets) := by
  obtain ⟨position, cause⟩ := error
  cases cause with
  | mismatch expected found =>
    obtain ⟨rfl, rfl⟩ := Failure.exhausted.inj (Except.error.inj run)
    exact ⟨rfl, rfl⟩
  | trailing found =>
    obtain ⟨rfl, rfl⟩ := Failure.exhausted.inj (Except.error.inj run)
    exact ⟨rfl, rfl⟩
  | tooDeep limit => exact absurd (Except.error.inj run) nofun
  | symbol bad => exact absurd (Except.error.inj run) nofun

theorem search_exhausted (run : (search settings seed line remainder here earlier).value =
      .error (.exhausted shown marks)) :
    shown = String.ofList line ∧ marks = String.ofList (marker line
      (((attempts (search settings seed line remainder here earlier).events).map
        Prod.snd).reverse ++ earlier)) := by
  -- Every word that is given up makes the rest of the line shorter.
  induction count : remainder.length using Nat.strong_induction_on
    generalizing remainder here earlier with
  | _ count ih =>
    have quiet := Parse.quiet_text settings.maxDepth remainder
    cases value : (Parse.text settings.maxDepth remainder).value with
    | ok node =>
      rw [search_ok value] at run
      exact absurd run (conclude_not_exhausted node)
    | error error =>
      by_cases goes : remainder ≠ [] ∧ canSkip error
      · obtain ⟨some, skips⟩ := goes
        have less := length_afterWord some
        have onward : attempts (search settings seed line remainder here earlier).events =
            (String.ofList remainder, here.byte) ::
              attempts (search settings seed line (afterWord remainder)
                (here.advance (word remainder)) (here.byte :: earlier)).events := by
          rw [search_skip value some skips]
          exact attempts_after _ quiet _
        rw [search_skip value some skips] at run
        obtain ⟨same, marked⟩ := ih _ (by omega) run rfl
        refine ⟨same, ?_⟩
        rw [onward, List.map_cons, List.reverse_cons, List.append_assoc]
        exact marked
      · have last : attempts (search settings seed line remainder here earlier).events =
            [(String.ofList remainder, here.byte)] := by
          rw [search_giveUp value goes, attempts_after _ quiet, attempts_giveUp]
        rw [search_giveUp value goes] at run
        rw [last]
        exact giveUp_exhausted run

theorem mem_tried_iff {places : List Nat} (ordered : places.Pairwise (· < ·)) :
    place ∈ tried settings text places ↔
      place ∈ places ∧ ∀ last, places.find? (fun place => decisive (reading settings text place)) =
        some last → place ≤ last := by
  induction places with
  | nil => simp [tried]
  | cons first others ih =>
    obtain ⟨least, ordered⟩ := List.pairwise_cons.mp ordered
    cases decides : decisive (reading settings text first) with
    | true =>
      have alone : tried settings text (first :: others) = [first] := by simp [tried, decides]
      have found : (first :: others).find?
          (fun place => decisive (reading settings text place)) = some first := by
        simp [decides]
      rw [alone, found, List.mem_singleton]
      constructor
      · rintro rfl
        exact ⟨List.mem_cons_self, fun last same => (Option.some.inj same).le⟩
      · rintro ⟨mem, early⟩
        rcases List.mem_cons.mp mem with same | later
        · exact same
        · exact absurd (least place later) (Nat.not_lt.mpr (early first rfl))
    | false =>
      have found : (first :: others).find?
          (fun place => decisive (reading settings text place)) =
          others.find? (fun place => decisive (reading settings text place)) := by
        simp [decides]
      rw [tried_later decides, found, List.mem_cons, List.mem_cons, ih ordered]
      constructor
      · rintro (rfl | ⟨mem, early⟩)
        · exact ⟨.inl rfl, fun last same => (least last (List.mem_of_find?_eq_some same)).le⟩
        · exact ⟨.inr mem, early⟩
      · rintro ⟨rfl | mem, early⟩
        · exact .inl rfl
        · exact .inr ⟨mem, early⟩

theorem starts_ordered (text : List Char) : (starts text).Pairwise (· < ·) :=
  List.pairwise_lt_range.filter _

def placesTried (settings : Settings) (line : List Char) : List Nat :=
  tried settings (dropWhileEnd isTrailer line) (starts (dropWhileEnd isTrailer line))

theorem placesTried_inside (mem : place ∈ placesTried settings line) :
    place ≤ (dropWhileEnd isTrailer line).length :=
  (mem_starts.mp ((mem_tried_iff (starts_ordered _)).mp mem).1).1

theorem contains_byteAt (inside : i ≤ line.length) :
    (((placesTried settings line).map
        (byteAt (dropWhileEnd isTrailer line))).reverse).contains (byteAt line i) =
      decide (i ∈ placesTried settings line) := by
  obtain ⟨tail, spelled, _⟩ := dropWhileEnd_append isTrailer line
  have short : (dropWhileEnd isTrailer line).length ≤ line.length :=
    (List.rdropWhile_prefix isTrailer line).length_le
  have here : ∀ place ∈ placesTried settings line,
      byteAt (dropWhileEnd isTrailer line) place = byteAt line place := by
    intro place mem
    conv_rhs => rw [spelled]
    exact (byteAt_append (placesTried_inside mem)).symm
  rw [Bool.eq_iff_iff, decide_eq_true_iff, List.contains_iff_mem, List.mem_reverse, List.mem_map]
  constructor
  · rintro ⟨place, mem, same⟩
    rw [here place mem] at same
    have far := (placesTried_inside mem).trans short
    rwa [← byteAt_inj far inside same]
  · intro mem
    exact ⟨i, mem, here i mem⟩

theorem attempts_calculate (settings : Settings) (seed : Seed) (line : List Char) :
    attempts (calculate settings seed line).events =
      (placesTried settings line).map (attemptAt (dropWhileEnd isTrailer line)) := by
  obtain ⟨before, after, trimmed, clear, start, first, searched⟩ := calculate_search line
  have decided := search_decided settings seed line before after [] start clear
  rw [searched, decided.attempts, placesTried, trimmed, first]

theorem exhausted_offsets
    (run : (calculate settings seed line).value = .error (.exhausted shown marks)) :
    shown = String.ofList line ∧ marks = String.ofList (marker line
      ((placesTried settings line).map (byteAt (dropWhileEnd isTrailer line))).reverse) := by
  have offsets := congrArg (List.map Prod.snd) (attempts_calculate settings seed line)
  obtain ⟨before, after, trimmed, clear, start, first, searched⟩ := calculate_search line
  rw [searched] at run offsets
  obtain ⟨same, marked⟩ := search_exhausted run
  rw [offsets, List.map_map, List.append_nil] at marked
  exact ⟨same, marked⟩

/-- Only an operator without an operand ends a search before its last start and finds nothing. -/
theorem operator_of_exhausted {result : Except ParseError Node}
    (run : (calculate settings seed line).value = .error (.exhausted shown marks))
    (settled : Settled settings (dropWhileEnd isTrailer line) place result) :
    ∃ position op, result = .error ⟨position, .trailing (.operator op)⟩ := by
  have answer := calculate_answers settled seed
  rw [run] at answer
  cases answer with
  | operator position op => exact ⟨position, op, rfl⟩

/-- A search that finds nothing shows its line, with a mark under each place where it attempted a
reading and tabs where the line has them.  It tried all starts, or all up to the one where an
operator has no operand. -/
theorem calculate_exhausted
    (run : (calculate settings seed line).value = .error (.exhausted shown marks)) :
    shown = String.ofList line ∧ marks.length = line.length ∧
      attempts (calculate settings seed line).events =
        (placesTried settings line).map (attemptAt (dropWhileEnd isTrailer line)) ∧
      (∀ i c, getElem? line i = some c →
        marks.toList[i]? = some (markAt (decide (i ∈ placesTried settings line)) c)) ∧
      ((∃ place position op,
          Settled settings (dropWhileEnd isTrailer line) place
            (.error ⟨position, .trailing (.operator op)⟩) ∧
          ∀ i, i ∈ placesTried settings line ↔
            i ∈ starts (dropWhileEnd isTrailer line) ∧ i ≤ place) ∨
        ((∀ place result, ¬ Settled settings (dropWhileEnd isTrailer line) place result) ∧
          ∀ i, i ∈ placesTried settings line ↔ i ∈ starts (dropWhileEnd isTrailer line))) := by
  obtain ⟨same, marked⟩ := exhausted_offsets run
  have tries : ∀ i, i ∈ placesTried settings line ↔ _ := fun i => mem_tried_iff (starts_ordered _)
  refine ⟨same, ?_, attempts_calculate settings seed line, ?_, ?_⟩
  · rw [marked, String.length_ofList, length_marker]
  · intro i c above
    obtain ⟨inside, _⟩ := List.getElem?_eq_some_iff.mp above
    rw [marked, String.toList_ofList, getElem?_marker, above, contains_byteAt inside.le]
    rfl
  · cases found : (starts (dropWhileEnd isTrailer line)).find? fun place =>
      decisive (reading settings (dropWhileEnd isTrailer line) place) with
    | some place =>
      obtain ⟨position, op, read⟩ := operator_of_exhausted run ⟨found, rfl⟩
      refine .inl ⟨place, position, op, ⟨found, read⟩, fun i => ?_⟩
      rw [tries, found]
      simp
    | none =>
      refine .inr ⟨fun place result settled => ?_, fun i => ?_⟩
      · exact absurd (found.symm.trans settled.first) nofun
      · rw [tries, found]
        simp

theorem strayPower_exhausted :
    (calculate .standard ⟨0⟩ "é = to\tpay 2 *** 3 now =".toList).value =
        .error (.exhausted "é = to\tpay 2 *** 3 now =" "   ^^ \t^   ^            ") ∧
      11 ∈ placesTried .standard "é = to\tpay 2 *** 3 now =".toList ∧
      17 ∉ placesTried .standard "é = to\tpay 2 *** 3 now =".toList := by
  have run : (calculate .standard ⟨0⟩ "é = to\tpay 2 *** 3 now =".toList).value =
      .error (.exhausted "é = to\tpay 2 *** 3 now =" "   ^^ \t^   ^            ") := by
    decide +kernel
  obtain ⟨_, _, _, under, _⟩ := calculate_exhausted run
  have power := under 11 '2' (by decide)
  have word := under 17 '3' (by decide)
  refine ⟨run, ?_, ?_⟩
  · by_contra untried
    rw [decide_eq_false untried] at power
    exact absurd power (by decide)
  · intro tried
    rw [decide_eq_true tried] at word
    exact absurd word (by decide)

end Reckon.Locate
