import Reckon.Proofs.Moving
import Reckon.Proofs.Remainders

/-
Prose in front of a text.  Words that can start no expression are given up one after another, and
then the text is searched as if it stood alone.
-/
namespace Reckon
open Text

/-- Tokens of which the first can start no expression, and does not stand where a name has to be
known. -/
inductive Stray : List Token → Prop where
  | closeParen : Stray (.closeParen :: rest)
  | comma : Stray (.comma :: rest)
  | operator (unsigned : op ≠ .add ∧ op ≠ .sub) : Stray (.operator op :: rest)
  | unknown (c : Char) : Stray (.unknown c :: rest)
  | word (form : Constant.hasForm name = false) (alone : rest.head? ≠ some .openParen) :
      Stray (.identifier name :: rest)

theorem Stray.cut (stray : Stray (body ++ more)) (some : body ≠ []) : Stray (body ++ [.eof]) := by
  obtain ⟨token, others, rfl⟩ := List.exists_cons_of_ne_nil some
  cases stray with
  | closeParen => exact .closeParen
  | comma => exact .comma
  | operator unsigned => exact .operator unsigned
  | unknown c => exact .unknown c
  | word form alone =>
    refine .word form ?_
    cases others with
    | nil => simp
    | cons next others => exact alone

theorem stray_trimmed {first tail : List Char} (stray : Stray (tokensOf (first ++ tail)))
    (shown : ∃ c ∈ first, isBlank c = false) (trailers : ∀ c ∈ tail, isTrailer c) :
    Stray (tokensOf first) := by
  rw [tokensOf_append (Lexer.apart_of_trailers trailers)] at stray
  rw [tokensOf_eq]
  refine stray.cut fun nothing => ?_
  obtain ⟨c, mem, visible⟩ := shown
  simp [blank_of_bodyOf nothing mem] at visible

namespace Parse

variable {limit : Nat} {tokens : List Lexeme} {source : List Char}

theorem signedOperand_stray (stray : Stray (unplaced tokens)) (inside : Option (Rule Node)) :
    (signedOperand limit inside tokens).value =
      .error ⟨(peek tokens).first.char, .mismatch .operand (peek tokens).token⟩ := by
  cases tokens with
  | nil => cases stray
  | cons here more =>
    rw [unplaced_cons] at stray
    generalize same : here.token = token at stray
    generalize after : unplaced more = rest at stray
    cases stray with
    | closeParen | comma | unknown => simp [signedOperand, sign?, unsigned, atom, same]
    | @operator op _ plain =>
      have signs : sign? (.operator op) = none := by
        cases op <;> simp_all [sign?]
      simp [signedOperand, signs, unsigned, atom, same]
    | word form alone =>
      have closed : (peek more).token ≠ .openParen := by
        rwa [ne_eq, ← head_unplaced (by simp), after]
      simp [signedOperand, sign?, unsigned, atom, same, form, closed]

theorem text_stray (stray : Stray (tokensOf source)) (limit : Nat) :
    ∃ position found, (text limit source).value = .error ⟨position, .mismatch .operand found⟩ := by
  have first : (operand limit limit (lexemes source)).value =
      .error ⟨(peek (lexemes source)).first.char,
        .mismatch .operand (peek (lexemes source)).token⟩ := by
    cases limit with
    | zero =>
      rw [operand_zero]
      exact signedOperand_stray stray none
    | succ limit =>
      rw [operand_succ]
      exact signedOperand_stray stray _
  exact ⟨_, _, line_error.mpr (.inl (Attempt.value_bind_error.mpr (.inl first)))⟩

theorem text_nil (limit : Nat) : (text limit []).value = .error ⟨0, .mismatch .operand .eof⟩ := by
  have ends : lexemes [] = [⟨.eof, .start, .start⟩] := Cursor.lexemes_eof rfl
  rw [text, ends]
  cases limit <;> rfl

end Parse

namespace Locate

/-- A word that can start no expression where it stands before a text, and the blanks after it. -/
structure Noise (noise gap text : List Char) : Prop where
  some : noise ≠ []
  visible : ∀ c ∈ noise, isBlank c = false
  clear : '=' ∉ noise
  gapped : gap ≠ []
  blank : ∀ c ∈ gap, isBlank c
  stray : Stray (tokensOf (noise ++ gap ++ text))

inductive Prose : List Char → List Char → Prop where
  | none : Prose [] text
  | word (first : Noise noise gap (lead ++ text)) (more : Prose lead text) :
      Prose (noise ++ gap ++ lead) text

variable {settings : Settings} {seed : Seed} {line remainder noise gap text : List Char}
  {here : Place} {earlier : List Nat}

theorem search_nil (settings : Settings) (seed : Seed) (line : List Char) (here : Place)
    (earlier : List Nat) :
    ∃ marks, (search settings seed line [] here earlier).value =
      .error (.exhausted (String.ofList line) marks) := by
  rw [search_giveUp (Parse.text_nil _) (by simp)]
  exact giveUp_of_canSkip rfl line _

theorem search_stray (stray : Stray (tokensOf remainder)) (some : remainder ≠ []) :
    (search settings seed line remainder here earlier).value =
      (search settings seed line (afterWord remainder) (here.advance (word remainder))
        (here.byte :: earlier)).value := by
  obtain ⟨position, found, value⟩ := Parse.text_stray stray settings.maxDepth
  rw [search_skip value some rfl]
  rfl

theorem afterWord_append (visible : ∀ c ∈ noise, isBlank c = false) (blank : ∀ c ∈ gap, isBlank c)
    (starts : ∀ c, text.head? = some c → isBlank c = false) (gapped : text ≠ [] → gap ≠ []) :
    afterWord (noise ++ gap ++ text) = text := by
  have stays : ∀ c ∈ noise, (!isBlank c) = true := by simpa using visible
  have stops : text.dropWhile isBlank = text := by
    cases text with
    | nil => rfl
    | cons c rest => simp [starts c rfl]
  rw [afterWord, List.append_assoc, List.dropWhile_append_of_pos stays]
  cases gap with
  | nil =>
    obtain rfl : text = [] := by
      by_contra some
      exact gapped some rfl
    rfl
  | cons b gap =>
    have opens : (!isBlank b) = false := by simp [blank b (by simp)]
    rw [List.cons_append, List.dropWhile_cons, opens]
    change ((b :: gap) ++ text).dropWhile isBlank = text
    rw [List.dropWhile_append_of_pos blank, stops]

theorem agrees_inFront (signed : '=' ∈ dropWhileEnd isTrailer text) (lead : List Char)
    (settings : Settings) (seed : Seed) :
    Agrees lead.length text (lead ++ text) (calculate settings seed text).value
      (calculate settings seed (lead ++ text)).value := by
  obtain ⟨after, spelled, clear⟩ := uptoEquals_append (dropWhileEnd isTrailer text)
  have front : uptoEquals (dropWhileEnd isTrailer text) ≠ [] := by
    intro nothing
    rw [nothing, List.nil_append] at spelled
    exact clear (spelled ▸ signed)
  have trimmed : dropWhileEnd isTrailer (lead ++ text) =
      (lead ++ uptoEquals (dropWhileEnd isTrailer text)) ++ after := by
    rw [dropWhileEnd_front (List.ne_nil_of_mem signed), List.append_assoc, ← spelled]
  have ends : ∀ c, (lead ++ uptoEquals (dropWhileEnd isTrailer text)).getLast? = some c →
      c = '=' := by
    intro c last
    rw [List.getLast?_append_of_ne_nil _ front] at last
    exact uptoEquals_getLast? last
  refine agrees_calculate spelled trimmed (fun c => uptoEquals_getLast?) ends clear ?_ settings seed
  rw [List.length_append, Nat.add_comm]

theorem Noise.shown (first : Noise noise gap text) (after : List Char) :
    ∃ c ∈ noise ++ after, isBlank c = false := by
  obtain ⟨c, rest, rfl⟩ := List.exists_cons_of_ne_nil first.some
  exact ⟨c, by simp, first.visible c (by simp)⟩

theorem Noise.last (first : Noise noise gap text) {c : Char}
    (last : noise.getLast? = Option.some c) : isTrailer c = false := by
  have mem := List.mem_of_getLast? last
  have other : c ≠ '=' := ne_of_mem_of_not_mem mem first.clear
  simp [isTrailer, first.visible c mem, other]

theorem Noise.clear_gap (first : Noise noise gap text) : '=' ∉ noise ++ gap := by
  rw [List.mem_append, not_or]
  exact ⟨first.clear, fun mem => absurd (first.blank '=' mem) (by decide)⟩

theorem agrees_beforeNothing (first : Noise noise gap text)
    (nothing : dropWhileEnd isTrailer text = []) (shift : Nat) (settings : Settings) (seed : Seed) :
    Agrees shift text (noise ++ gap ++ text) (calculate settings seed text).value
      (calculate settings seed (noise ++ gap ++ text)).value := by
  have trailers : ∀ c ∈ gap ++ text, isTrailer c := by
    intro c mem
    rcases List.mem_append.mp mem with inGap | inText
    · simp [isTrailer, first.blank c inGap]
    · exact dropWhileEnd_nil.mp nothing c inText
  have trimmed : dropWhileEnd isTrailer (noise ++ gap ++ text) = noise := by
    rw [List.append_assoc]
    exact dropWhileEnd_eq (fun _ => first.last) trailers
  have stray : Stray (tokensOf noise) := by
    refine stray_trimmed ?_ (by simpa using first.shown []) trailers
    rw [← List.append_assoc]
    exact first.stray
  have spent : afterWord (noise ++ [] ++ []) = [] :=
    afterWord_append first.visible (by simp) (by simp) (by simp)
  rw [List.append_nil, List.append_nil] at spent
  have empty : '=' ∉ dropWhileEnd isTrailer text := by simp [nothing]
  have clear : '=' ∉ dropWhileEnd isTrailer (noise ++ gap ++ text) := by
    rw [trimmed]
    exact first.clear
  obtain ⟨marks, failed⟩ := search_nil settings seed text .start []
  obtain ⟨others, failed'⟩ := search_nil settings seed (noise ++ gap ++ text) _ _
  rw [calculate_plain empty, nothing, failed]
  rw [calculate_plain clear, trimmed, search_stray stray first.some, spent, failed']
  exact .exhausted marks others

theorem agrees_beforePlain (first : Noise noise gap text)
    (starts : ∀ c, text.head? = some c → isBlank c = false)
    (plain : '=' ∉ dropWhileEnd isTrailer text) (some : dropWhileEnd isTrailer text ≠ [])
    (settings : Settings) (seed : Seed) :
    Agrees (noise ++ gap).length text (noise ++ gap ++ text) (calculate settings seed text).value
      (calculate settings seed (noise ++ gap ++ text)).value := by
  have trimmed := dropWhileEnd_front some (noise ++ gap)
  have clear : '=' ∉ dropWhileEnd isTrailer (noise ++ gap ++ text) := by
    rw [trimmed, List.mem_append, not_or]
    exact ⟨first.clear_gap, plain⟩
  rw [calculate_plain plain, calculate_plain clear, trimmed]
  obtain ⟨tail, spelled, trailers⟩ := dropWhileEnd_append isTrailer text
  generalize dropWhileEnd isTrailer text = kept at some spelled
  have opens : ∀ c, kept.head? = Option.some c → isBlank c = false := by
    intro c head
    exact starts c (by rw [spelled, List.head?_append, head, Option.some_or])
  have stray : Stray (tokensOf (noise ++ gap ++ kept)) := by
    refine stray_trimmed ?_ (by simpa using first.shown (gap ++ kept)) trailers
    rw [List.append_assoc _ kept, ← spelled]
    exact first.stray
  have after : afterWord (noise ++ gap ++ kept) = kept :=
    afterWord_append first.visible first.blank opens fun _ => first.gapped
  have front : word (noise ++ gap ++ kept) = noise ++ gap := by
    have whole := word_append (noise ++ gap ++ kept)
    rw [after] at whole
    exact List.append_cancel_right whole
  rw [search_stray stray (by simp [some]), after, front]
  exact agrees_search (Place.char_advance .start (noise ++ gap))

theorem agrees_word (first : Noise noise gap text)
    (starts : ∀ c, text.head? = some c → isBlank c = false) (settings : Settings) (seed : Seed) :
    Agrees (noise ++ gap).length text (noise ++ gap ++ text) (calculate settings seed text).value
      (calculate settings seed (noise ++ gap ++ text)).value := by
  by_cases nothing : dropWhileEnd isTrailer text = []
  · exact agrees_beforeNothing first nothing _ settings seed
  · by_cases signed : '=' ∈ dropWhileEnd isTrailer text
    · exact agrees_inFront signed (noise ++ gap) settings seed
    · exact agrees_beforePlain first starts signed nothing settings seed

theorem Prose.starts {lead : List Char} (prose : Prose lead text)
    (starts : ∀ c, text.head? = some c → isBlank c = false) :
    ∀ c, (lead ++ text).head? = some c → isBlank c = false := by
  cases prose with
  | none => exact starts
  | word first more =>
    intro c head
    obtain ⟨d, rest, rfl⟩ := List.exists_cons_of_ne_nil first.some
    obtain rfl : d = c := by simpa using head
    exact first.visible d (by simp)

/-- Words that start nothing have no part in the answer to the text behind them, except that they
come before its expression. -/
theorem calculate_afterProse {lead text : List Char} (prose : Prose lead text)
    (starts : ∀ c, text.head? = some c → isBlank c = false) (settings : Settings) (seed : Seed) :
    Agrees lead.length text (lead ++ text) (calculate settings seed text).value
      (calculate settings seed (lead ++ text)).value := by
  induction prose with
  | none => exact agrees_self settings seed _
  | word first more ih =>
    have far := agrees_word first (more.starts starts) settings seed
    have whole := (ih starts).trans far
    rwa [← List.append_assoc, Nat.add_comm, ← List.length_append] at whole

theorem product_afterProse :
    Prose "héllo ) ".toList "2 * 3 =".toList ∧
      (calculate .standard ⟨0⟩ "2 * 3 =".toList).value = .ok ⟨0, "6"⟩ ∧
      (calculate .standard ⟨0⟩ "héllo ) 2 * 3 =".toList).value = .ok ⟨8, "6"⟩ := by
  have tokens : tokensOf ") 2 * 3 =".toList =
      [.closeParen, .number "2", .operator .mul, .number "3", .equals, .eof] := by decide +kernel
  have others : tokensOf "héllo ) 2 * 3 =".toList =
      [.identifier "h", .unknown 'é', .identifier "llo"] ++ tokensOf ") 2 * 3 =".toList := by
    decide +kernel
  have mark : Noise ")".toList " ".toList "2 * 3 =".toList :=
    ⟨by decide, by simp [isBlank], by decide, by decide, by simp [isBlank], tokens ▸ .closeParen⟩
  have greeting : Noise "héllo".toList " ".toList ") 2 * 3 =".toList :=
    ⟨by decide, by simp [isBlank], by decide, by decide, by simp [isBlank],
      others ▸ .word (by decide) (by simp)⟩
  have prose : Prose "héllo ) ".toList "2 * 3 =".toList := .word greeting (.word mark .none)
  have alone : (calculate .standard ⟨0⟩ "2 * 3 =".toList).value = .ok ⟨0, "6"⟩ := by
    decide +kernel
  have agrees := calculate_afterProse prose (by simp [isBlank]) .standard ⟨0⟩
  rw [alone] at agrees
  exact ⟨prose, alone, agrees.ok⟩

end Locate
end Reckon
