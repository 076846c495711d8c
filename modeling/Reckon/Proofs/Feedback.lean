import Reckon.Proofs.Canonical
import Reckon.Proofs.Parts
import Reckon.Proofs.Search
import Reckon.Proofs.Spacing

/-
Results can be used in further calculations: the canonical text of a decimal is read as a number
with at most a minus before it, whatever the settings are, and calculates to itself.
-/
namespace Reckon
open Text

variable {text : List Char} {x : ℚ} {limit : ℕ} {settings : Settings} {seed : Seed} {node : Node}
  {value : Decimal}

namespace Parse

theorem unplaced_numeral (numeral : Lexer.Numeral text) (cursor : Cursor)
    (front : cursor.rest = text) :
    unplaced cursor.lexemes = [.number (String.ofList text), .eof] := by
  have words : ∀ token ∈ [Token.number (String.ofList text)], Lexer.Word token := by
    rw [List.forall_mem_singleton]
    exact Lexer.word_number (by rwa [String.toList_ofList])
  have spelled : spaced [Token.number (String.ofList text)] = text := String.toList_ofList
  have visible := Lexer.dropWhile_spaced words
  rw [spelled] at visible
  exact Cursor.unplaced_lexemes_spaced words cursor (by rw [front, visible, spelled])

theorem text_numeral (numeral : Lexer.Numeral text) :
    (Parse.text limit text).value = .ok (.literal (String.ofList text)) := by
  have tokens : unplaced (lexemes text) = [.number (String.ofList text), .eof] :=
    unplaced_numeral numeral (Cursor.ofText text) rfl
  have derived : Grammar.Line (unplaced (lexemes text)) (.literal (String.ofList text)) 0 := by
    rw [tokens]
    exact .bare (.chain (.bare (.number _)) .nil)
  exact line_complete derived (Nat.zero_le limit)

theorem text_negated (numeral : Lexer.Numeral text) :
    (Parse.text limit ('-' :: text)).value =
      .ok (.signed [.minus] (.literal (String.ofList text))) := by
  have minus : Lexer.token '-' text = (.operator .sub, []) := rfl
  have front : (Cursor.ofText ('-' :: text)).rest.dropWhile isBlank = '-' :: text := rfl
  obtain ⟨here, rest⟩ := Cursor.next_cons front
  rw [minus] at here rest
  have tokens : unplaced (lexemes ('-' :: text)) =
      [.operator .sub, .number (String.ofList text), .eof] := by
    have more : (Cursor.ofText ('-' :: text)).next.1.token ≠ .eof := by simp [here]
    rw [lexemes, Cursor.lexemes_cons more, unplaced_cons, here, unplaced_numeral numeral _ rest]
  have derived : Grammar.Line (unplaced (lexemes ('-' :: text)))
      (.signed [.minus] (.literal (String.ofList text))) 0 := by
    rw [tokens]
    exact .bare (.chain (.signed .minus (.number _)) .nil)
  exact line_complete derived (Nat.zero_le limit)

end Parse

namespace Locate

theorem calculate_whole (visible : ∀ c ∈ text, isTrailer c = false)
    (read : (Parse.text settings.maxDepth text).value = .ok node)
    (run : node.evaluate settings.workingPrecision seed = .ok value) :
    (calculate settings seed text).value = .ok ⟨0, value.toCanonical⟩ := by
  have ends : ∀ c, text.getLast? = some c → isTrailer c = false :=
    fun c last => visible c (List.mem_of_getLast? last)
  have clear : '=' ∉ text := fun mem => absurd (visible '=' mem) (by decide)
  rw [calculate_clear ends clear, search_ok read]
  change (conclude settings seed Place.start node).value = _
  rw [conclude, run]
  rfl

end Locate

namespace Decimal

theorem Spells.visible (spells : Spells text x) {c : Char} (mem : c ∈ text) :
    isTrailer c = false := by
  rcases spells.value.mem mem with digit | mark
  · have other : c ≠ '=' := by
      rintro rfl
      exact absurd digit (by decide)
    simp [isTrailer, Lexer.isBlank_of_isDigit digit, other]
  · simp only [List.mem_cons, List.not_mem_nil, or_false] at mark
    rcases mark with rfl | rfl | rfl | rfl <;> rfl

end Decimal

/-- The canonical text of a decimal is an expression for its number, and calculates to itself. -/
theorem calculate_toCanonical {d : Decimal} (valid : d.Valid) (settings : Settings) (seed : Seed) :
    (calculate settings seed d.toCanonical.toList).value = .ok ⟨0, d.toCanonical⟩ ∧
      ∃ node, (Parse.text settings.maxDepth d.toCanonical.toList).value = .ok node ∧
        ∀ precision seed, ∃ value, node.evaluate precision seed = .ok value ∧
          value.toRat = d.toRat := by
  obtain ⟨text, spells, spelled⟩ := Decimal.toCanonical_spells valid
  have form := spells.value
  rw [Decimal.abs_toRat] at form
  obtain ⟨e, read, size⟩ := Decimal.literal?_complete form valid.1 valid.2
  rw [← Decimal.abs_toRat] at size
  -- A minus of the text is a sign of the tree, since no literal is negative.
  obtain ⟨node, parsed, visible, evaluated⟩ : ∃ node,
      (Parse.text settings.maxDepth d.toCanonical.toList).value = .ok node ∧
        (∀ c ∈ d.toCanonical.toList, isTrailer c = false) ∧
        ∀ precision seed, ∃ value, node.evaluate precision seed = .ok value ∧
          value.toRat = d.toRat := by
    rw [spelled]
    by_cases negative : d.toRat < 0
    · rw [if_pos negative, List.singleton_append]
      refine ⟨_, Parse.text_negated spells.numeral, ?_, ?_⟩
      · exact List.forall_mem_cons.mpr ⟨by decide, fun c mem => spells.visible mem⟩
      · intro precision seed
        refine ⟨-e, Node.evaluate_signed_ok.mpr ⟨e, Node.literalValue_ok.mpr read, rfl⟩, ?_⟩
        rw [Decimal.toRat_neg, size, abs_of_neg negative, neg_neg]
    · rw [if_neg negative, List.nil_append]
      refine ⟨_, Parse.text_numeral spells.numeral, fun c mem => spells.visible mem, ?_⟩
      intro precision seed
      refine ⟨e, Node.literalValue_ok.mpr read, ?_⟩
      rw [size, abs_of_nonneg (not_lt.mp negative)]
  obtain ⟨value, run, same⟩ := evaluated settings.workingPrecision seed
  have result := Locate.calculate_whole visible parsed run
  rw [Decimal.toCanonical_congr same] at result
  exact ⟨result, node, parsed, evaluated⟩

theorem smallNegative_calculates :
    (calculate .standard ⟨0⟩ "-1.23e-9".toList).value = .ok ⟨0, "-1.23e-9"⟩ ∧
      ∃ node, (Parse.text 256 "-1.23e-9".toList).value = .ok node ∧
        ∀ precision seed, ∃ value, node.evaluate precision seed = .ok value ∧
          value.toRat = Decimal.toRat ⟨true, 1230, 12⟩ := by
  have spelled : Decimal.toCanonical ⟨true, 1230, 12⟩ = "-1.23e-9" := rfl
  have valid : Decimal.Valid ⟨true, 1230, 12⟩ := by decide
  have fed := calculate_toCanonical valid .standard ⟨0⟩
  rwa [spelled] at fed

end Reckon
