import Reckon.Proofs.Search

/-
A search depends on nothing but the remainder of the line that it starts with.  What comes before
this remainder moves the place of the expression, and what closes the line does nothing.
-/
namespace Reckon.Locate
open Text

/-- What two lines come to, the second of which has its expression some characters further on. -/
inductive Agrees (shift : Nat) (first second : List Char) :
    Except Failure Calculation → Except Failure Calculation → Prop where
  | found (skip : Nat) (result : String) :
      Agrees shift first second (.ok ⟨skip, result⟩) (.ok ⟨skip + shift, result⟩)
  | parse (error : ParseError) :
      Agrees shift first second (.error (.parse error)) (.error (.parse error))
  | arithmetic (reason : NoValue) :
      Agrees shift first second (.error (.arithmetic reason)) (.error (.arithmetic reason))
  | exhausted (marks others : String) :
      Agrees shift first second (.error (.exhausted (String.ofList first) marks))
        (.error (.exhausted (String.ofList second) others))

variable {settings : Settings} {seed : Seed} {first second third remainder : List Char}
  {shift further : Nat} {here there : Place} {earlier others : List Nat}

theorem Agrees.trans {one two three : Except Failure Calculation}
    (near : Agrees shift first second one two) (far : Agrees further second third two three) :
    Agrees (shift + further) first third one three := by
  cases near with
  | found skip result =>
    cases far
    rw [Nat.add_assoc]
    exact .found skip result
  | parse error =>
    cases far
    exact .parse error
  | arithmetic reason =>
    cases far
    exact .arithmetic reason
  | exhausted marks others =>
    cases far
    exact .exhausted marks _

theorem Agrees.ok {skip : Nat} {result : String} {outcome : Except Failure Calculation}
    (agrees : Agrees shift first second (.ok ⟨skip, result⟩) outcome) :
    outcome = .ok ⟨skip + shift, result⟩ := by
  cases agrees
  rfl

theorem agrees_conclude (apart : there.char = here.char + shift) (node : Node) :
    Agrees shift first second (conclude settings seed here node).value
      (conclude settings seed there node).value := by
  unfold conclude
  cases node.evaluate settings.workingPrecision seed with
  | error reason => exact .arithmetic reason
  | ok value =>
    simp only [apart]
    exact .found here.char value.toCanonical

theorem agrees_giveUp (error : ParseError) :
    Agrees shift first second (giveUp first earlier error).value
      (giveUp second others error).value := by
  unfold giveUp
  cases isMiss error with
  | true => exact .exhausted _ _
  | false => exact .parse error

theorem agrees_search (apart : there.char = here.char + shift) :
    Agrees shift first second (search settings seed first remainder here earlier).value
      (search settings seed second remainder there others).value := by
  -- Every word that is given up makes the remainder shorter, and leads both searches equally far.
  induction count : remainder.length using Nat.strong_induction_on
    generalizing remainder here there earlier others with
  | _ count ih =>
    cases value : (Parse.text settings.maxDepth remainder).value with
    | ok node =>
      rw [search_ok value, search_ok value]
      exact agrees_conclude apart node
    | error error =>
      by_cases goes : remainder ≠ [] ∧ canSkip error
      · obtain ⟨some, skips⟩ := goes
        have less := length_afterWord some
        have still : (there.advance (word remainder)).char =
            (here.advance (word remainder)).char + shift := by
          rw [Place.char_advance, Place.char_advance]
          omega
        rw [search_skip value some skips, search_skip value some skips]
        exact ih _ (by omega) still rfl
      · rw [search_giveUp value goes, search_giveUp value goes]
        exact agrees_giveUp error

theorem agrees_calculate {before front : List Char}
    (trimmed : dropWhileEnd isTrailer first = before ++ remainder)
    (trimmed' : dropWhileEnd isTrailer second = front ++ remainder)
    (ends : ∀ c, before.getLast? = some c → c = '=')
    (ends' : ∀ c, front.getLast? = some c → c = '=')
    (clear : '=' ∉ remainder) (apart : front.length = before.length + shift)
    (settings : Settings) (seed : Seed) :
    Agrees shift first second (calculate settings seed first).value
      (calculate settings seed second).value := by
  rw [calculate_of_split trimmed ends clear, calculate_of_split trimmed' ends' clear]
  refine agrees_search ?_
  simp only [Place.char_advance, Place.start]
  omega

theorem agrees_self (settings : Settings) (seed : Seed) (line : List Char) :
    Agrees 0 line line (calculate settings seed line).value
      (calculate settings seed line).value := by
  obtain ⟨before, after, _, _, _, _, run⟩ := calculate_search line
  rw [run]
  exact agrees_search rfl

/-- Only what comes after the last equals sign inside a line is searched.  Whatever comes before it
and whatever closes the line, the answer is that of this expression by itself, further on. -/
theorem calculate_afterEquals {expression closing : List Char} (clear : '=' ∉ expression)
    (visible : ∃ c ∈ expression, isBlank c = false) (closes : ∀ c ∈ closing, isTrailer c)
    (settings : Settings) (seed : Seed) (front : List Char) :
    Agrees (front.length + 1) expression (front ++ '=' :: (expression ++ closing))
      (calculate settings seed expression).value
      (calculate settings seed (front ++ '=' :: (expression ++ closing))).value := by
  have some : dropWhileEnd isTrailer expression ≠ [] := by
    obtain ⟨c, mem, shown⟩ := visible
    have other : c ≠ '=' := ne_of_mem_of_not_mem mem clear
    intro nothing
    have trailer := dropWhileEnd_nil.mp nothing c mem
    simp [isTrailer, shown, other] at trailer
  have trimmed : dropWhileEnd isTrailer (front ++ '=' :: (expression ++ closing)) =
      (front ++ ['=']) ++ dropWhileEnd isTrailer expression := by
    rw [List.append_cons, ← List.append_assoc, dropWhileEnd_closed closes, dropWhileEnd_front some]
  have whole : dropWhileEnd isTrailer expression = [] ++ dropWhileEnd isTrailer expression := rfl
  exact agrees_calculate whole trimmed (by simp) (by simp) (not_mem_dropWhileEnd clear) (by simp)
    settings seed

theorem product_afterEquals :
    (calculate .standard ⟨0⟩ " see 2 * 3 ".toList).value = .ok ⟨5, "6"⟩ ∧
      (calculate .standard ⟨0⟩ ("FOO(== 1 ".toList ++ '=' :: (" see 2 * 3 ".toList ++
        "= \t=".toList))).value = .ok ⟨15, "6"⟩ := by
  have alone : (calculate .standard ⟨0⟩ " see 2 * 3 ".toList).value = .ok ⟨5, "6"⟩ := by
    decide +kernel
  have agrees := calculate_afterEquals (show '=' ∉ " see 2 * 3 ".toList by decide)
    ⟨'s', by decide, by decide⟩ (List.all_eq_true.mp (show "= \t=".toList.all isTrailer from rfl))
    .standard ⟨0⟩
  rw [alone] at agrees
  exact ⟨alone, (agrees "FOO(== 1 ".toList).ok⟩

end Reckon.Locate
