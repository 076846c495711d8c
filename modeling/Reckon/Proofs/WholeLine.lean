import Mathlib.Data.List.Basic
import Reckon.Proofs.Moving
import Reckon.Proofs.Search
import Reckon.Proofs.Seeds

/-
A line that can be read as a whole is calculated as a whole.  The equals sign that may close it
belongs to the grammar of lines, and to what a search cuts off before it starts.
-/
namespace Reckon
open Text Locate

variable {line : List Char} {limit : Nat} {node : Node}

theorem bodyOf_trimmed (clear : '=' ∉ line) :
    bodyOf (dropWhileEnd isTrailer line) = bodyOf line := by
  obtain ⟨tail, spelled, drops⟩ := dropWhileEnd_append isTrailer line
  have blank : ∀ c ∈ tail, isBlank c := by
    intro c mem
    have other : c ≠ '=' := by
      rintro rfl
      exact clear (spelled ▸ List.mem_append_right _ mem)
    simpa [isTrailer, other] using drops c mem
  have whole := bodyOf_append (Lexer.apart_of_trailers drops) (dropWhileEnd isTrailer line)
  rw [← spelled, bodyOf_blank blank, List.append_nil] at whole
  exact whole.symm

namespace Parse
open Grammar

theorem text_closed (closed : '=' ∈ line) (read : (text limit line).value = .ok node) :
    ∃ front gap, line = front ++ '=' :: gap ∧ (∀ c ∈ gap, isBlank c) ∧ '=' ∉ front ∧
      (text limit front).value = .ok node := by
  obtain ⟨front, gap, rfl, clear⟩ := List.eq_append_cons_of_mem closed
  obtain ⟨used, level, bound, stands, plain, same⟩ := text_stands.mp read
  rw [bodyOf_split] at same
  rcases same with bare | signed
  · rw [← bare] at plain
    simp at plain
  · obtain ⟨rfl, _, nothing⟩ :=
      (List.append_cons_inj_of_notMem plain List.not_mem_nil).mp signed.symm
    exact ⟨front, gap, rfl, fun c => blank_of_bodyOf nothing.symm, clear,
      (text_clear clear).mpr ⟨level, bound, stands⟩⟩

theorem text_trimmed (read : (text limit line).value = .ok node) :
    '=' ∉ dropWhileEnd isTrailer line ∧
      (text limit (dropWhileEnd isTrailer line)).value = .ok node := by
  obtain ⟨front, clear, same, read⟩ : ∃ front, '=' ∉ front ∧
      dropWhileEnd isTrailer line = dropWhileEnd isTrailer front ∧
      (text limit front).value = .ok node := by
    by_cases closed : '=' ∈ line
    · obtain ⟨front, gap, rfl, blank, clear, read⟩ := text_closed closed read
      have trailers : ∀ c ∈ '=' :: gap, isTrailer c :=
        List.forall_mem_cons.mpr ⟨rfl, fun c mem => by simp [isTrailer, blank c mem]⟩
      exact ⟨front, clear, dropWhileEnd_closed trailers front, read⟩
    · exact ⟨line, closed, rfl, read⟩
  obtain ⟨level, bound, stands⟩ := (text_clear clear).mp read
  rw [← bodyOf_trimmed clear] at stands
  rw [same]
  have still : '=' ∉ dropWhileEnd isTrailer front := not_mem_dropWhileEnd clear
  exact ⟨still, (text_clear still).mpr ⟨level, bound, stands⟩⟩

end Parse

namespace Locate

theorem calculate_extends_text {settings : Settings} {line : List Char} {node : Node}
    (read : (Parse.text settings.maxDepth line).value = .ok node) (seed other : Seed)
    (chance : seed = other ∨ node.Drawless) :
    (calculate settings seed line).value =
        (match node.evaluate settings.workingPrecision other with
        | .ok value => .ok ⟨0, value.toCanonical⟩
        | .error reason => .error (.arithmetic reason)) ∧
      attempts (calculate settings seed line).events =
        [(String.ofList (dropWhileEnd isTrailer line), 0)] := by
  obtain ⟨clear, trimmed⟩ := Parse.text_trimmed read
  have run := calculate_plain clear settings seed
  rw [search_ok trimmed] at run
  have silent := (answers_conclude .start settings seed line node).2
  have value : node.evaluate settings.workingPrecision seed =
      node.evaluate settings.workingPrecision other := by
    rcases chance with rfl | drawless
    · rfl
    · exact drawless.evaluate_seed seed other
  rw [run]
  constructor
  · change (conclude settings seed .start node).value = _
    rw [conclude, value]
    cases node.evaluate settings.workingPrecision other <;> rfl
  · rw [attempts_after _ (Parse.quiet_text _ _), silent]
    rfl

def half : Node := .binary (.literal "7") .div (.literal "2")

theorem closedHalf_extends_text :
    (Parse.text 256 " 7 / 2 = ".toList).value = .ok half ∧ half.Drawless ∧
      (calculate .standard ⟨5⟩ " 7 / 2 = ".toList).value = .ok ⟨0, "3.5"⟩ ∧
      attempts (calculate .standard ⟨5⟩ " 7 / 2 = ".toList).events = [(" 7 / 2", 0)] := by
  have body : bodyOf " 7 / 2 = ".toList =
      [.number "7", .operator .div, .number "2"] ++ [.equals] := by decide +kernel
  have stands : Grammar.Stands [.number "7", .operator .div, .number "2"] half 1 :=
    fun rest _ => .chain (.bare (.number "7")) (.cons (.bare (.number "2")) .nil)
  have read : (Parse.text Settings.standard.maxDepth " 7 / 2 = ".toList).value = .ok half :=
    Parse.text_stands.mpr ⟨_, 1, by decide, stands, by decide, .inr body⟩
  have drawless : half.Drawless := by
    refine Node.drawless_of_children (by simp [half]) ?_
    simp [half, Node.children, Node.drawless_literal]
  obtain ⟨value, once⟩ := calculate_extends_text read ⟨5⟩ ⟨0⟩ (.inr drawless)
  have result : half.evaluate Settings.standard.workingPrecision ⟨0⟩ =
      .ok ⟨false, 35 * 10 ^ 18, 19⟩ := by
    decide +kernel
  rw [result] at value
  exact ⟨read, drawless, value, once⟩

end Locate
end Reckon
