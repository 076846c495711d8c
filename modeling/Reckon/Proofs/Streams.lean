import Mathlib.Data.List.Forall2
import Reckon.Text.Lines

/-
The lines of a byte stream.  Each goes up to its newline, which the last one may lack; what counts
is the part before the newline and a carriage return in front of it, read as UTF-8.
-/
namespace Reckon.Text

inductive Lined : List UInt8 → List (List UInt8) → Prop where
  | nil : Lined [] []
  | last (some : bytes ≠ []) (clear : 10 ∉ bytes) : Lined bytes [bytes]
  | line (clear : 10 ∉ bytes) (more : Lined stream raws) :
      Lined (bytes ++ 10 :: stream) ((bytes ++ [10]) :: raws)

def withoutReturn (bytes : List UInt8) : List UInt8 :=
  if bytes.getLast? = some 13 then bytes.dropLast else bytes

/-- A line without the newline that ends it and one carriage return before that. -/
def content (raw : List UInt8) : List UInt8 :=
  if raw.getLast? = some 10 then withoutReturn raw.dropLast else raw

def Decodes (raw : List UInt8) (text : String) : Prop := text.toUTF8.data.toList = content raw

variable {bytes stream raw : List UInt8} {raws : List (List UInt8)} {text : String}
  {texts : List String}

theorem exists_lined (stream : List UInt8) : ∃ raws, Lined stream raws := by
  -- The first newline leaves a shorter stream.
  induction count : stream.length using Nat.strongRecOn generalizing stream with
  | ind _ ih =>
    by_cases newline : 10 ∈ stream
    · obtain ⟨bytes, rest, rfl, clear⟩ := List.eq_append_cons_of_mem newline
      have shorter : rest.length < (bytes ++ 10 :: rest).length := by
        rw [List.length_append, List.length_cons]
        omega
      rw [count] at shorter
      obtain ⟨raws, more⟩ := ih _ shorter rest rfl
      exact ⟨_, .line clear more⟩
    · cases stream with
      | nil => exact ⟨[], .nil⟩
      | cons byte rest => exact ⟨_, .last (List.cons_ne_nil _ _) newline⟩

theorem content_closed (bytes : List UInt8) : content (bytes ++ [10]) = withoutReturn bytes := by
  simp [content]

theorem content_clear (clear : 10 ∉ bytes) : content bytes = bytes :=
  if_neg fun last => clear (List.mem_of_getLast? last)

theorem splitLines_clear (clear : 10 ∉ bytes) (rest current : List UInt8) :
    splitLines (bytes ++ rest) current = splitLines rest (bytes.reverse ++ current) := by
  induction bytes generalizing current with
  | nil => rfl
  | cons byte bytes ih =>
    obtain ⟨other, clear⟩ := not_or.mp (mt List.mem_cons.mpr clear)
    have step : splitLines (byte :: (bytes ++ rest)) current =
        splitLines (bytes ++ rest) (byte :: current) := if_neg (Ne.symm other)
    rw [List.cons_append, step, ih clear, List.reverse_cons, List.append_assoc]
    rfl

theorem splitLines_newline (rest current : List UInt8) :
    splitLines (10 :: rest) current = withoutReturn current.reverse :: splitLines rest [] := by
  cases current with
  | nil => rfl
  | cons byte line =>
    by_cases carriage : byte = 13
    · subst carriage
      have dropped : withoutReturn (13 :: line).reverse = line.reverse := by simp [withoutReturn]
      rw [dropped]
      rfl
    · have kept : withoutReturn (byte :: line).reverse = (byte :: line).reverse := by
        simp [withoutReturn, carriage]
      rw [kept, splitLines]
      · rfl
      · simp [carriage]

theorem splitLines_nil (some : bytes ≠ []) : splitLines [] bytes.reverse = [bytes] := by
  cases back : bytes.reverse with
  | nil => exact absurd (List.reverse_eq_nil_iff.mp back) some
  | cons byte line =>
    rw [splitLines, ← back, List.reverse_reverse]
    exact List.cons_ne_nil byte line

theorem splitLines_eq (lined : Lined stream raws) : splitLines stream [] = raws.map content := by
  induction lined with
  | nil => rfl
  | @last bytes some clear =>
    have split := splitLines_clear clear [] []
    rw [List.append_nil, List.append_nil] at split
    rw [split, splitLines_nil some, List.map_singleton, content_clear clear]
  | @line bytes stream raws clear more ih =>
    rw [splitLines_clear clear, splitLines_newline, List.append_nil, List.reverse_reverse, ih,
      List.map_cons, content_closed]

theorem decodeLine_eq_some : decodeLine (content raw) = some text ↔ Decodes raw text := by
  unfold decodeLine Decodes String.fromUTF8?
  constructor
  · intro run
    split at run
    · obtain rfl := Option.some.inj run
      rfl
    · cases run
  · intro same
    have whole : ByteArray.mk (content raw).toArray = text.toUTF8 := by
      rw [← same]
    rw [whole]
    simp only [String.toUTF8_eq_toByteArray, dif_pos text.isValidUTF8]
    rfl

theorem exists_texts (all : ∀ raw ∈ raws, ∃ text, Decodes raw text) :
    ∃ texts, List.Forall₂ Decodes raws texts := by
  induction raws with
  | nil => exact ⟨[], .nil⟩
  | cons raw raws ih =>
    obtain ⟨⟨text, first⟩, others⟩ := List.forall_mem_cons.mp all
    obtain ⟨texts, rest⟩ := ih others
    exact ⟨text :: texts, .cons first rest⟩

theorem lines?_eq_some (lined : Lined stream raws) :
    lines? stream = some texts ↔ List.Forall₂ Decodes raws texts := by
  rw [lines?, splitLines_eq lined]
  clear lined
  induction raws generalizing texts with
  | nil => simp [eq_comm]
  | cons raw raws ih =>
    rw [List.map_cons, List.mapM_cons, List.forall₂_cons_left_iff]
    constructor
    · intro run
      obtain ⟨text, first, run⟩ := Option.bind_eq_some_iff.mp run
      obtain ⟨rest, others, run⟩ := Option.bind_eq_some_iff.mp run
      obtain rfl := Option.some.inj run
      exact ⟨text, rest, decodeLine_eq_some.mp first, ih.mp others, rfl⟩
    · rintro ⟨text, rest, first, others, rfl⟩
      rw [decodeLine_eq_some.mpr first, ih.mpr others]
      rfl

theorem lines?_eq_none (lined : Lined stream raws) :
    lines? stream = none ↔ ∃ raw ∈ raws, ∀ text, ¬ Decodes raw text := by
  constructor
  · intro none
    by_contra all
    push Not at all
    obtain ⟨texts, read⟩ := exists_texts all
    rw [(lines?_eq_some lined).mpr read] at none
    cases none
  · rintro ⟨raw, mem, bad⟩
    cases run : lines? stream with
    | none => rfl
    | some texts =>
      have read := (lines?_eq_some lined).mp run
      obtain ⟨i, inside, rfl⟩ := List.getElem_of_mem mem
      exact absurd (read.get inside (read.length_eq ▸ inside)) (bad _)

end Reckon.Text
