import Reckon.Token.Basic

/-
Which parentheses belong together, in any list of tokens, balanced or not, and what a counter of
open parentheses that stops at zero has to do with it.  Over a balanced stretch the counter never
falls below its first value and ends with it; and as long as it is not zero, what comes after the
last open parenthesis is balanced.
-/
namespace Reckon

namespace Token

inductive Balanced : List Token → Prop where
  | nil : Balanced []
  | plain (unopened : token ≠ .openParen) (unclosed : token ≠ .closeParen)
      (rest : Balanced tokens) : Balanced (token :: tokens)
  | nested (inside : Balanced tokens) (rest : Balanced others) :
      Balanced (.openParen :: (tokens ++ .closeParen :: others))

/-- The opening parenthesis at the first place and the closing one at the second belong together:
what is between them is balanced. -/
def Matching (tokens : List Token) (first last : Nat) : Prop :=
  ∃ before inside after, tokens = before ++ .openParen :: (inside ++ .closeParen :: after) ∧
    Balanced inside ∧ first = before.length ∧ last = first + 1 + inside.length

def depth (opened : Nat) (token : Token) : Nat :=
  if token = .closeParen then opened - 1 else opened

/-- The number of parentheses that are open after a token.  A closing parenthesis without a partner
leaves it at zero. -/
def stillOpen (opened : Nat) (token : Token) : Nat :=
  if token = .openParen then depth opened token + 1 else depth opened token

def depths : Nat → List Token → List Nat
  | _, [] => []
  | opened, token :: rest => depth opened token :: depths (stillOpen opened token) rest

variable {token : Token} {tokens first second : List Token} {opened count place last : Nat}

theorem depth_plain (unclosed : token ≠ .closeParen) (opened : Nat) : depth opened token = opened :=
  if_neg unclosed

theorem stillOpen_plain (unopened : token ≠ .openParen) (unclosed : token ≠ .closeParen)
    (opened : Nat) : stillOpen opened token = opened := by
  rw [stillOpen, if_neg unopened, depth_plain unclosed]

@[simp] theorem depth_openParen (opened : Nat) : depth opened .openParen = opened := rfl

@[simp] theorem stillOpen_openParen (opened : Nat) : stillOpen opened .openParen = opened + 1 := rfl

@[simp] theorem depth_closeParen (opened : Nat) : depth opened .closeParen = opened - 1 := rfl

@[simp] theorem stillOpen_closeParen (opened : Nat) : stillOpen opened .closeParen = opened - 1 :=
  rfl

theorem length_depths (opened : Nat) (tokens : List Token) :
    (depths opened tokens).length = tokens.length := by
  induction tokens generalizing opened with
  | nil => rfl
  | cons token tokens ih => rw [depths, List.length_cons, ih, List.length_cons]

theorem depths_append (opened : Nat) (first second : List Token) :
    depths opened (first ++ second) =
      depths opened first ++ depths (first.foldl stillOpen opened) second := by
  induction first generalizing opened with
  | nil => rfl
  | cons token first ih => rw [List.cons_append, depths, ih, depths, List.cons_append,
      List.foldl_cons]

theorem getElem?_depths (before : List Token) (token : Token) (after : List Token) :
    (depths 0 (before ++ token :: after))[before.length]? =
      some (depth (before.foldl stillOpen 0) token) := by
  have count := length_depths 0 before
  rw [depths_append, List.getElem?_append_right (Nat.le_of_eq count), count, Nat.sub_self, depths,
    List.getElem?_cons_zero]

theorem Balanced.append (front : Balanced first) (back : Balanced second) :
    Balanced (first ++ second) := by
  induction front with
  | nil => exact back
  | plain unopened unclosed rest ih => exact .plain unopened unclosed ih
  | nested inside rest _ ih =>
    rw [List.cons_append, List.append_assoc, List.cons_append]
    exact .nested inside ih

theorem balanced_enclosed (inside : Balanced tokens) :
    Balanced (.openParen :: (tokens ++ [.closeParen])) :=
  .nested inside .nil

theorem Balanced.foldl_stillOpen (balanced : Balanced tokens) (opened : Nat) :
    tokens.foldl stillOpen opened = opened := by
  induction balanced generalizing opened with
  | nil => rfl
  | plain unopened unclosed _ ih => rw [List.foldl_cons, stillOpen_plain unopened unclosed, ih]
  | nested _ _ ihInside ihRest =>
    rw [List.foldl_cons, List.foldl_append, List.foldl_cons, ihInside, ihRest,
      stillOpen_closeParen, stillOpen_openParen, Nat.add_sub_cancel]

theorem Balanced.le_depths (balanced : Balanced tokens) (opened : Nat) :
    ∀ d ∈ depths opened tokens, opened ≤ d := by
  induction balanced generalizing opened with
  | nil => simp [depths]
  | plain unopened unclosed _ ih =>
    rw [depths, depth_plain unclosed, stillOpen_plain unopened unclosed]
    exact List.forall_mem_cons.mpr ⟨Nat.le_refl opened, ih opened⟩
  | nested inside _ ihInside ihRest =>
    have back := inside.foldl_stillOpen (opened + 1)
    rw [depths, depths_append, depths]
    simp only [stillOpen_openParen, back, depth_openParen, depth_closeParen, stillOpen_closeParen,
      Nat.add_sub_cancel]
    refine List.forall_mem_cons.mpr ⟨Nat.le_refl opened, ?_⟩
    intro d mem
    rcases List.mem_append.mp mem with within | behind
    · exact Nat.le_of_succ_le (ihInside (opened + 1) d within)
    · rcases List.mem_cons.mp behind with same | behind
      · exact Nat.le_of_eq same.symm
      · exact ihRest opened d behind

/-- Two parentheses that belong together have the same depth, and all tokens between them more. -/
theorem Matching.depths (matching : Matching tokens place last) :
    ∃ d, (Token.depths 0 tokens)[place]? = some d ∧ (Token.depths 0 tokens)[last]? = some d ∧
      ∀ k, place < k → k < last → ∃ deeper, (Token.depths 0 tokens)[k]? = some deeper ∧
        d < deeper := by
  obtain ⟨before, inside, after, rfl, balanced, rfl, rfl⟩ := matching
  have back := balanced.foldl_stillOpen (before.foldl stillOpen 0 + 1)
  refine ⟨before.foldl stillOpen 0, getElem?_depths before .openParen _, ?_, ?_⟩
  · have closing := getElem?_depths (before ++ .openParen :: inside) .closeParen after
    rw [List.foldl_append, List.foldl_cons, stillOpen_openParen, back, depth_closeParen,
      Nat.add_sub_cancel, List.append_assoc, List.cons_append, List.length_append,
      List.length_cons] at closing
    rw [← closing]
    congr 1
    omega
  · intro k later earlier
    have count := length_depths 0 before
    have inner := length_depths (before.foldl stillOpen 0 + 1) inside
    obtain ⟨offset, rfl⟩ : ∃ offset, k = before.length + (offset + 1) :=
      ⟨k - before.length - 1, by omega⟩
    have room : offset < (Token.depths (before.foldl stillOpen 0 + 1) inside).length := by omega
    refine ⟨(Token.depths (before.foldl stillOpen 0 + 1) inside)[offset], ?_, ?_⟩
    · rw [depths_append, List.getElem?_append_right (by omega), count, Nat.add_sub_cancel_left,
        Token.depths, List.getElem?_cons_succ, stillOpen_openParen, depths_append,
        List.getElem?_append_left room, List.getElem?_eq_getElem room]
    · exact balanced.le_depths _ _ (List.getElem_mem room)

theorem exists_open (deep : tokens.foldl stillOpen 0 = count + 1) :
    ∃ before inside, tokens = before ++ .openParen :: inside ∧ Balanced inside ∧
      before.foldl stillOpen 0 = count := by
  -- A closing parenthesis gives up two open ones: the one that it closes, and the one around it.
  induction size : tokens.length using Nat.strongRecOn generalizing tokens count with
  | ind size ih =>
    rcases List.eq_nil_or_concat tokens with rfl | ⟨front, token, rfl⟩
    · cases deep
    · rw [List.concat_eq_append] at deep size ⊢
      rw [List.length_append, List.length_singleton] at size
      rw [List.foldl_append, List.foldl_cons, List.foldl_nil] at deep
      by_cases opening : token = .openParen
      · subst opening
        exact ⟨front, [], rfl, .nil, Nat.succ.inj deep⟩
      · by_cases closing : token = .closeParen
        · subst closing
          have outer : front.foldl stillOpen 0 = count + 1 + 1 := by
            rw [stillOpen_closeParen] at deep
            omega
          obtain ⟨middle, inside, rfl, balanced, around⟩ := ih front.length (by omega) outer rfl
          rw [List.length_append, List.length_cons] at size
          obtain ⟨before, earlier, rfl, balanced', start⟩ := ih middle.length (by omega) around rfl
          refine ⟨before, earlier ++ .openParen :: (inside ++ [.closeParen]), ?_, ?_, start⟩
          · simp
          · exact balanced'.append (balanced_enclosed balanced)
        · rw [stillOpen_plain opening closing] at deep
          obtain ⟨before, inside, rfl, balanced, start⟩ := ih front.length (by omega) deep rfl
          refine ⟨before, inside ++ [token], ?_, ?_, start⟩
          · simp
          · exact balanced.append (.plain opening closing .nil)

theorem depths_stray (closes : tokens[place]? = some .closeParen)
    (stray : ∀ first, ¬ Matching tokens first place) : (depths 0 tokens)[place]? = some 0 := by
  obtain ⟨within, here⟩ := List.getElem?_eq_some_iff.mp closes
  have split : tokens = tokens.take place ++ .closeParen :: tokens.drop (place + 1) := by
    rw [← here, List.getElem_cons_drop, List.take_append_drop]
  have length : (tokens.take place).length = place := List.length_take_of_le (Nat.le_of_lt within)
  have found := getElem?_depths (tokens.take place) .closeParen (tokens.drop (place + 1))
  rw [← split, length, depth_closeParen] at found
  cases opened : (tokens.take place).foldl stillOpen 0 with
  | zero => rw [found, opened]
  | succ count =>
    obtain ⟨before, inside, same, balanced, -⟩ := exists_open opened
    have matching : Matching tokens before.length place := by
      refine ⟨before, inside, tokens.drop (place + 1), ?_, balanced, rfl, ?_⟩
      · rw [same, List.append_assoc] at split
        exact split
      · rw [← length, same, List.length_append, List.length_cons]
        omega
    exact absurd matching (stray before.length)

end Token
end Reckon
