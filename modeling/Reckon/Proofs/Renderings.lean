import Reckon.Node.Basic

/-
Documents can be told from their texts.  No text of a document starts a text of another one, so that
in a text that goes on the document at its front is still determined.  For trees this means that
their indented form has lost nothing: no two trees have the same one.
-/
namespace Reckon

namespace Json

/-- What is written determines the value, also if more text comes after it. -/
def PrefixFree {α : Type} (write : α → List Char) : Prop :=
  ∀ {a b : α} {after after' : List Char}, write a ++ after = write b ++ after' →
    a = b ∧ after = after'

def marked : List Char := '"' :: '\\' :: (List.range 32).map Char.ofNat

theorem mem_marked {c : Char} : c ∈ marked ↔ c = '"' ∨ c = '\\' ∨ c.toNat < 32 := by
  have control : c ∈ (List.range 32).map Char.ofNat ↔ c.toNat < 32 := by
    constructor
    · intro mem
      obtain ⟨n, range, rfl⟩ := List.mem_map.mp mem
      have small : ∀ n < 32, (Char.ofNat n).toNat < 32 := by decide
      exact small n (List.mem_range.mp range)
    · intro small
      exact List.mem_map.mpr ⟨c.toNat, List.mem_range.mpr small, Char.ofNat_toNat c⟩
  rw [marked, List.mem_cons, List.mem_cons, control]

theorem escaped_plain {c : Char} (plain : c ∉ marked) : escaped c = [c] := by
  have other (d : Char) (mem : d ∈ marked) : c ≠ d := fun same => plain (same ▸ mem)
  unfold escaped
  rw [if_neg (other '"' (by decide)), if_neg (other '\\' (by decide)),
    if_neg (other '\n' (by decide)), if_neg (other '\r' (by decide)),
    if_neg (other '\t' (by decide)), if_neg (other '\x08' (by decide)),
    if_neg (other '\x0c' (by decide)),
    if_neg fun small => plain (mem_marked.mpr (.inr (.inr small)))]

theorem head?_escaped_marked : ∀ c ∈ marked, (escaped c).head? = some '\\' := by
  have checked : marked.all fun c => (escaped c).head? = some '\\' := by decide +kernel
  simpa only [List.all_eq_true, decide_eq_true_eq] using checked

theorem escapes_differ :
    ∀ c ∈ marked, ∀ d ∈ marked, escaped c <+: escaped d → c = d := by
  have checked : marked.all fun c => marked.all fun d => escaped c <+: escaped d → c = d := by
    decide +kernel
  simpa only [List.all_eq_true, decide_eq_true_eq] using checked

theorem head?_escaped (c : Char) :
    (escaped c).head? = some (if c ∈ marked then '\\' else c) := by
  by_cases mark : c ∈ marked
  · rw [if_pos mark, head?_escaped_marked c mark]
  · rw [if_neg mark, escaped_plain mark, List.head?_singleton]

theorem head?_escaped_append (c : Char) (after : List Char) :
    (escaped c ++ after).head? = some (if c ∈ marked then '\\' else c) := by
  rw [List.head?_append, head?_escaped, Option.some_or]

theorem prefixFree_escaped : PrefixFree escaped := by
  intro c d after after' same
  have heads := congrArg List.head? same
  rw [head?_escaped_append, head?_escaped_append, Option.some.injEq] at heads
  -- A plain character and an escape differ at once.  Two escapes agree at their first character, but
  -- one of them is then a prefix of the other.
  have known : c = d := by
    have backslash : '\\' ∈ marked := by decide
    by_cases first : c ∈ marked
    · by_cases second : d ∈ marked
      · have front : escaped c <+: escaped d ++ after' := ⟨after, same⟩
        rcases List.prefix_or_prefix_of_prefix front (List.prefix_append _ _) with less | more
        · exact escapes_differ c first d second less
        · exact (escapes_differ d second c first more).symm
      · rw [if_pos first, if_neg second] at heads
        exact absurd (heads ▸ backslash) second
    · by_cases second : d ∈ marked
      · rw [if_neg first, if_pos second] at heads
        exact absurd (heads ▸ backslash) first
      · rwa [if_neg first, if_neg second] at heads
  subst known
  exact ⟨rfl, List.append_cancel_left same⟩

theorem quote_ne_escaped (c : Char) (after rest : List Char) :
    '"' :: after ≠ escaped c ++ rest := by
  intro same
  have heads := congrArg List.head? same
  rw [head?_escaped_append, List.head?_cons, Option.some.injEq] at heads
  by_cases mark : c ∈ marked
  · rw [if_pos mark] at heads
    exact absurd heads (by decide)
  · rw [if_neg mark] at heads
    exact mark (heads ▸ by decide)

/-- The quote mark that closes a text is the first one that is no part of an escape. -/
theorem escaped_upto_quote {text text' after after' : List Char}
    (same : text.flatMap escaped ++ '"' :: after = text'.flatMap escaped ++ '"' :: after') :
    text = text' ∧ after = after' := by
  induction text generalizing text' with
  | nil =>
    cases text' with
    | nil => exact ⟨rfl, (List.cons.inj same).2⟩
    | cons d text' =>
      rw [List.flatMap_cons, List.append_assoc] at same
      exact absurd same (quote_ne_escaped d _ _)
  | cons c text ih =>
    rw [List.flatMap_cons, List.append_assoc] at same
    cases text' with
    | nil => exact absurd same.symm (quote_ne_escaped c _ _)
    | cons d text' =>
      rw [List.flatMap_cons, List.append_assoc] at same
      obtain ⟨rfl, rest⟩ := prefixFree_escaped same
      obtain ⟨rfl, last⟩ := ih rest
      exact ⟨rfl, last⟩

theorem prefixFree_quoted : PrefixFree quoted := by
  intro text text' after after' same
  simp only [quoted, List.cons_append, List.append_assoc, List.nil_append, List.cons.injEq,
    true_and] at same
  obtain ⟨letters, rest⟩ := escaped_upto_quote same
  exact ⟨String.toList_inj.mp letters, rest⟩

mutual

/-- The first two characters tell what kind of document it is; each part is determined before the
next one starts. -/
theorem prefixFree_render (level : Nat) : ∀ {a b : Json} {after after' : List Char},
    render level a ++ after = render level b ++ after' → a = b ∧ after = after'
  | .text value, b, after, after', same => by
    cases b with
    | text value' =>
      obtain ⟨rfl, rest⟩ := prefixFree_quoted same
      exact ⟨rfl, rest⟩
    | list items => cases items <;> simp [render, quoted] at same
    | record fields => cases fields <;> simp [render, quoted] at same
  | .list [], b, after, after', same => by
    cases b with
    | text value => simp [render, quoted] at same
    | list items =>
      cases items with
      | nil => exact ⟨rfl, by simpa [render] using same⟩
      | cons item items => simp [render, newline] at same
    | record fields => cases fields <;> simp [render] at same
  | .list (item :: items), b, after, after', same => by
    cases b with
    | text value => simp [render, quoted] at same
    | list others =>
      cases others with
      | nil => simp [render, newline] at same
      | cons other others =>
        simp only [render, List.cons_append, List.append_assoc, List.cons.injEq, true_and,
          List.append_cancel_left_eq] at same
        obtain ⟨rfl, rest⟩ := prefixFree_render (level + 1) same
        obtain ⟨rfl, last⟩ := prefixFree_renderItems level rest
        exact ⟨rfl, last⟩
    | record fields => cases fields <;> simp [render] at same
  | .record [], b, after, after', same => by
    cases b with
    | text value => simp [render, quoted] at same
    | list items => cases items <;> simp [render] at same
    | record fields =>
      cases fields with
      | nil => exact ⟨rfl, by simpa [render] using same⟩
      | cons field fields => simp [render, newline] at same
  | .record ((key, value) :: fields), b, after, after', same => by
    cases b with
    | text value => simp [render, quoted] at same
    | list items => cases items <;> simp [render] at same
    | record others =>
      cases others with
      | nil => simp [render, newline] at same
      | cons other others =>
        obtain ⟨key', value'⟩ := other
        simp only [render, List.cons_append, List.append_assoc, List.cons.injEq, true_and,
          List.append_cancel_left_eq] at same
        obtain ⟨rfl, rest⟩ := prefixFree_quoted same
        simp only [List.cons.injEq, true_and, List.nil_append] at rest
        obtain ⟨rfl, others⟩ := prefixFree_render (level + 1) rest
        obtain ⟨rfl, last⟩ := prefixFree_renderFields level others
        exact ⟨rfl, last⟩

theorem prefixFree_renderItems (level : Nat) : ∀ {a b : List Json} {after after' : List Char},
    renderItems level a ++ after = renderItems level b ++ after' → a = b ∧ after = after'
  | [], b, after, after', same => by
    cases b with
    | nil =>
      simp only [renderItems, List.append_cancel_left_eq] at same
      exact ⟨rfl, same⟩
    | cons item items => simp [renderItems, newline] at same
  | item :: items, b, after, after', same => by
    cases b with
    | nil => simp [renderItems, newline] at same
    | cons other others =>
      simp only [renderItems, List.cons_append, List.append_assoc, List.cons.injEq, true_and,
        List.append_cancel_left_eq] at same
      obtain ⟨rfl, rest⟩ := prefixFree_render (level + 1) same
      obtain ⟨rfl, last⟩ := prefixFree_renderItems level rest
      exact ⟨rfl, last⟩

theorem prefixFree_renderFields (level : Nat) :
    ∀ {a b : List (String × Json)} {after after' : List Char},
      renderFields level a ++ after = renderFields level b ++ after' → a = b ∧ after = after'
  | [], b, after, after', same => by
    cases b with
    | nil =>
      simp only [renderFields, List.append_assoc, List.append_cancel_left_eq] at same
      exact ⟨rfl, same⟩
    | cons field fields => simp [renderFields, newline] at same
  | (key, value) :: fields, b, after, after', same => by
    cases b with
    | nil => simp [renderFields, newline] at same
    | cons other others =>
      obtain ⟨key', value'⟩ := other
      simp only [renderFields, List.cons_append, List.append_assoc, List.cons.injEq, true_and,
        List.append_cancel_left_eq] at same
      obtain ⟨rfl, rest⟩ := prefixFree_quoted same
      simp only [List.cons.injEq, true_and, List.nil_append] at rest
      obtain ⟨rfl, others⟩ := prefixFree_render (level + 1) rest
      obtain ⟨rfl, last⟩ := prefixFree_renderFields level others
      exact ⟨rfl, last⟩

end

end Json

theorem Operator.symbol_injective {first second : Operator}
    (same : first.symbol = second.symbol) : first = second := by
  have known (op : Operator) : Operator.ofSymbol? op.symbol = some op := by
    cases op <;> rfl
  have found := known first
  rw [same, known second] at found
  exact (Option.some.inj found).symm

theorem Sign.symbol_injective {first second : Sign} (same : first.symbol = second.symbol) :
    first = second := by
  have known (sign : Sign) : Sign.ofSymbol? sign.symbol = some sign := by
    cases sign <;> rfl
  have found := known first
  rw [same, known second] at found
  exact (Option.some.inj found).symm

namespace Node

mutual

theorem toJson_injective : ∀ {a b : Node}, a.toJson = b.toJson → a = b
  | .literal raw, b, same => by
    cases b with
    | literal raw' => simpa [toJson] using same
    | constant | call | signed | binary => simp [toJson] at same
  | .constant symbol, b, same => by
    cases b with
    | constant symbol' =>
      have names : symbol.name = symbol'.name := by simpa [toJson] using same
      rw [Constant.name_injective names]
    | literal | call | signed | binary => simp [toJson] at same
  | .call f args, b, same => by
    cases b with
    | call g others =>
      obtain ⟨names, lists⟩ : f.name = g.name ∧ allToJson args = allToJson others := by
        simpa [toJson] using same
      rw [Function.name_injective names, allToJson_injective lists]
    | literal | constant | signed | binary => simp [toJson] at same
  | .signed signs operand, b, same => by
    cases b with
    | signed signs' operand' =>
      obtain ⟨runs, operands⟩ : (signs.map fun s => Json.text s.symbol) =
          (signs'.map fun s => Json.text s.symbol) ∧ operand.toJson = operand'.toJson := by
        simpa only [toJson, Json.record.injEq, List.cons.injEq, Prod.mk.injEq, true_and, and_true,
          Json.list.injEq] using same
      have symbols (s t : Sign) (same : Json.text s.symbol = Json.text t.symbol) : s = t :=
        Sign.symbol_injective (Json.text.inj same)
      rw [(List.map_inj_right symbols).mp runs, toJson_injective operands]
    | literal | constant | call | binary => simp [toJson] at same
  | .binary left op right, b, same => by
    cases b with
    | binary left' op' right' =>
      obtain ⟨lefts, symbols, rights⟩ : left.toJson = left'.toJson ∧ op.symbol = op'.symbol ∧
          right.toJson = right'.toJson := by
        simpa [toJson] using same
      rw [toJson_injective lefts, Operator.symbol_injective symbols, toJson_injective rights]
    | literal | constant | call | signed => simp [toJson] at same

theorem allToJson_injective : ∀ {a b : List Node}, allToJson a = allToJson b → a = b
  | [], b, same => by
    cases b with
    | nil => rfl
    | cons => simp [allToJson] at same
  | node :: nodes, b, same => by
    cases b with
    | nil => simp [allToJson] at same
    | cons node' nodes' =>
      obtain ⟨first, others⟩ := List.cons.inj same
      rw [toJson_injective first, allToJson_injective others]

end

/-- The indented text of a tree determines the tree, by itself and at the front of any longer
text. -/
theorem render_determines (a b : Node) :
    (a.render = b.render ↔ a = b) ∧
      ∀ after after' : String, a.render ++ after = b.render ++ after' ↔ a = b ∧ after = after' := by
  have front (after after' : String) (same : a.render ++ after = b.render ++ after') :
      a = b ∧ after = after' := by
    have letters := congrArg String.toList same
    simp only [render, Json.pretty, String.toList_append, String.toList_ofList] at letters
    obtain ⟨documents, rest⟩ := Json.prefixFree_render 0 letters
    exact ⟨toJson_injective documents, String.toList_inj.mp rest⟩
  constructor
  · constructor
    · intro same
      exact (front "" "" (congrArg (· ++ "") same)).1
    · exact congrArg render
  · intro after after'
    constructor
    · exact front after after'
    · rintro ⟨rfl, rfl⟩
      rfl

end Node
end Reckon
