import Mathlib.Data.List.DropRight
import Reckon.Locate

/-
The places of a line where an expression may start: the first one after the last equals sign, the
front of every later word, and the end.  Giving up a word leads from each to the next.
-/
namespace Reckon.Locate
open Text

/-- Whether a place is a start: no equals sign comes later, and the place is the front or the end of
the line, or follows the last equals sign, or is the front of a word. -/
def isStart (text : List Char) (place : Nat) : Bool :=
  !(text.drop place).contains '=' &&
    match (text.take place).getLast?, (text.drop place).head? with
    | some before, some here => before == '=' || (isBlank before && !isBlank here)
    | _, _ => true

def starts (text : List Char) : List Nat :=
  (List.range (text.length + 1)).filter (isStart text)

def startsFrom (text : List Char) (place : Nat) : List Nat :=
  (List.range' place (text.length + 1 - place)).filter (isStart text)

theorem starts_eq (text : List Char) : starts text = startsFrom text 0 := by
  rw [starts, startsFrom, List.range_eq_range', Nat.sub_zero]

variable {text before after : List Char} {place : Nat}

theorem mem_starts : place ∈ starts text ↔ place ≤ text.length ∧ isStart text place := by
  rw [starts, List.mem_filter, List.mem_range, Nat.lt_succ_iff]

theorem startsFrom_cons (start : isStart text place) (inside : place ≤ text.length) :
    startsFrom text place = place :: startsFrom text (place + 1) := by
  have count : text.length + 1 - place = text.length + 1 - (place + 1) + 1 := by omega
  rw [startsFrom, count, List.range'_succ, List.filter_cons_of_pos start, startsFrom]

theorem startsFrom_skip {later : Nat} (less : place ≤ later) (inside : later ≤ text.length)
    (none : ∀ i, place ≤ i → i < later → isStart text i = false) :
    startsFrom text place = startsFrom text later := by
  have count : text.length + 1 - place = (later - place) + (text.length + 1 - later) := by omega
  have skipped : (List.range' place (later - place)).filter (isStart text) = [] := by
    apply List.filter_eq_nil_iff.mpr
    intro i mem
    rw [List.mem_range'_1] at mem
    simp [none i mem.1 (by omega)]
  rw [startsFrom, count, ← List.range'_append_1, List.filter_append, skipped, startsFrom]
  rw [Nat.add_sub_cancel' less, List.nil_append]

theorem isStart_append : isStart (before ++ after) before.length =
    (!after.contains '=' &&
      match before.getLast?, after.head? with
      | some left, some right => left == '=' || (isBlank left && !isBlank right)
      | _, _ => true) := by
  rw [isStart, List.take_left, List.drop_left]

theorem word_append (text : List Char) : word text ++ afterWord text = text := by
  rw [word, afterWord, List.append_assoc, List.takeWhile_append_dropWhile,
    List.takeWhile_append_dropWhile]

theorem isStart_inside {left right : List Char} (clear : '=' ∉ after)
    (cut : word after = left ++ right) (some : left ≠ []) (more : right ≠ []) :
    isStart (before ++ after) (before ++ left).length = false := by
  have whole : after = left ++ (right ++ afterWord after) := by
    rw [← List.append_assoc, ← cut, word_append]
  have spelled : before ++ after = (before ++ left) ++ (right ++ afterWord after) := by
    rw [List.append_assoc, ← whole]
  obtain ⟨front, x, rfl⟩ : ∃ front x, left = front ++ [x] :=
    ⟨left.dropLast, left.getLast some, (List.dropLast_concat_getLast some).symm⟩
  obtain ⟨y, back, rfl⟩ := List.exists_cons_of_ne_nil more
  have other : x ≠ '=' := by
    rintro rfl
    rw [whole] at clear
    simp at clear
  have settled : isBlank x → isBlank y := by
    intro blank
    rw [word] at cut
    rcases List.append_eq_append_iff.mp cut with ⟨_, joined, blanks⟩ | ⟨_, inWord, _⟩
    · have mem : y ∈ (after.dropWhile (!isBlank ·)).takeWhile isBlank := by
        rw [blanks]
        simp
      exact List.mem_takeWhile_imp mem
    · have mem : x ∈ after.takeWhile (!isBlank ·) := by
        rw [inWord]
        simp
      have visible := List.mem_takeWhile_imp mem
      simp [blank] at visible
  rw [spelled, isStart_append]
  cases blank : isBlank x with
  | false => simp [other, blank]
  | true => simp [other, blank, settled blank]

theorem word_getLast? {here : Char} {rest : List Char} (more : afterWord after = here :: rest) :
    ∃ blank, (word after).getLast? = some blank ∧ isBlank blank := by
  cases tail : after.dropWhile (!isBlank ·) with
  | nil => simp [afterWord, tail] at more
  | cons first others =>
    have blank : isBlank first := by simpa using head_dropWhile tail
    have some : (first :: others).takeWhile isBlank ≠ [] := by simp [blank]
    refine ⟨_, ?_, List.mem_takeWhile_imp (List.getLast_mem some)⟩
    rw [word, tail, List.getLast?_append, List.getLast?_eq_some_getLast some, Option.some_or]

theorem clear_afterWord (clear : '=' ∉ after) : '=' ∉ afterWord after := by
  rw [← word_append after] at clear
  exact fun mem => clear (List.mem_append_right _ mem)

theorem isStart_afterWord (before : List Char) (clear : '=' ∉ after) :
    isStart (before ++ after) (before ++ word after).length := by
  have spelled : before ++ after = (before ++ word after) ++ afterWord after := by
    rw [List.append_assoc, word_append]
  have later := clear_afterWord clear
  rw [spelled, isStart_append]
  cases next : afterWord after with
  | nil => simp
  | cons here rest =>
    rw [next] at later
    have visible : isBlank here = false := head_dropWhile next
    obtain ⟨last, ends, blank⟩ := word_getLast? next
    have joined : (before ++ word after).getLast? = some last := by
      simp [List.getLast?_append, ends]
    simp [joined, blank, visible, later]

theorem startsFrom_append (start : isStart (before ++ after) before.length) (some : after ≠ [])
    (clear : '=' ∉ after) :
    startsFrom (before ++ after) before.length =
      before.length :: startsFrom (before ++ after) (before ++ word after).length := by
  have split := congrArg List.length (word_append after)
  have shorter := length_afterWord some
  rw [List.length_append] at split
  rw [startsFrom_cons start (by simp), List.cons.injEq]
  refine ⟨rfl, startsFrom_skip ?_ ?_ ?_⟩
  · rw [List.length_append]
    omega
  · simp only [List.length_append]
    omega
  · intro i least less
    rw [List.length_append] at less
    have inside : (before ++ (word after).take (i - before.length)).length = i := by
      rw [List.length_append, List.length_take]
      omega
    rw [← inside]
    refine isStart_inside clear (List.take_append_drop _ _).symm ?_ ?_
    · rw [ne_eq, List.take_eq_nil_iff, not_or, ← List.length_eq_zero_iff]
      omega
    · rw [ne_eq, List.drop_eq_nil_iff]
      omega

theorem dropWhileEnd_append (p : Char → Bool) (text : List Char) :
    ∃ tail, text = dropWhileEnd p text ++ tail ∧ ∀ c ∈ tail, p c :=
  ⟨text.rtakeWhile p, List.rdropWhile_append_rtakeWhile.symm, fun _ => List.mem_rtakeWhile_imp⟩

theorem not_mem_dropWhileEnd {p : Char → Bool} {c : Char} (clear : c ∉ text) :
    c ∉ dropWhileEnd p text :=
  fun mem => clear ((List.rdropWhile_prefix p text).subset mem)

theorem dropWhileEnd_getLast? {p : Char → Bool} {c : Char}
    (last : (dropWhileEnd p text).getLast? = some c) : p c = false := by
  rw [dropWhileEnd, List.getLast?_reverse] at last
  obtain ⟨rest, same⟩ := List.head?_eq_some_iff.mp last
  exact head_dropWhile same

theorem dropWhileEnd_eq {p : Char → Bool} {tail : List Char}
    (stops : ∀ c, text.getLast? = some c → p c = false) (drops : ∀ c ∈ tail, p c) :
    dropWhileEnd p (text ++ tail) = text := by
  have dropped : tail.reverse.dropWhile p = [] :=
    List.dropWhile_eq_nil_iff.mpr fun c mem => drops c (List.mem_reverse.mp mem)
  have kept : text.reverse.dropWhile p = text.reverse := by
    cases back : text.reverse with
    | nil => rfl
    | cons c rest =>
      have last : text.getLast? = some c := by rw [← List.head?_reverse, back, List.head?_cons]
      rw [List.dropWhile_cons, stops c last]
      rfl
  rw [dropWhileEnd, List.reverse_append, List.dropWhile_append, dropped, kept]
  simp

theorem dropWhileEnd_nil {p : Char → Bool} : dropWhileEnd p text = [] ↔ ∀ c ∈ text, p c := by
  simp [dropWhileEnd, List.dropWhile_eq_nil_iff]

theorem dropWhileEnd_closed {p : Char → Bool} {tail : List Char} (drops : ∀ c ∈ tail, p c)
    (text : List Char) : dropWhileEnd p (text ++ tail) = dropWhileEnd p text := by
  rw [dropWhileEnd, List.reverse_append,
    List.dropWhile_append_of_pos fun c mem => drops c (List.mem_reverse.mp mem)]
  rfl

theorem dropWhileEnd_front {p : Char → Bool} (some : dropWhileEnd p text ≠ [])
    (front : List Char) : dropWhileEnd p (front ++ text) = front ++ dropWhileEnd p text := by
  rw [dropWhileEnd, ne_eq, List.reverse_eq_nil_iff] at some
  rw [dropWhileEnd, List.reverse_append, List.dropWhile_append, if_neg (by simpa using some)]
  simp [dropWhileEnd]

theorem uptoEquals_append (text : List Char) :
    ∃ tail, text = uptoEquals text ++ tail ∧ '=' ∉ tail := by
  obtain ⟨tail, spelled, others⟩ := dropWhileEnd_append (· != '=') text
  refine ⟨tail, spelled, ?_⟩
  intro mem
  have other := others '=' mem
  simp at other

theorem uptoEquals_getLast? {c : Char} (last : (uptoEquals text).getLast? = some c) : c = '=' := by
  simpa using dropWhileEnd_getLast? last

theorem isStart_uptoEquals (text : List Char) : isStart text (uptoEquals text).length := by
  obtain ⟨tail, spelled, clear⟩ := uptoEquals_append text
  have start : isStart (uptoEquals text ++ tail) (uptoEquals text).length := by
    rw [isStart_append]
    cases last : (uptoEquals text).getLast? with
    | none => simp [clear]
    | some c =>
      obtain rfl := uptoEquals_getLast? last
      cases tail with
      | nil => simp
      | cons here rest => simpa using clear
  rwa [← spelled] at start

theorem starts_uptoEquals (text : List Char) :
    starts text = startsFrom text (uptoEquals text).length := by
  obtain ⟨tail, spelled, clear⟩ := uptoEquals_append text
  have inside := congrArg List.length spelled
  rw [List.length_append] at inside
  rw [starts_eq]
  apply startsFrom_skip (Nat.zero_le _) (by omega)
  intro i _ less
  -- Any earlier place has the last equals sign after it.
  have some : uptoEquals text ≠ [] := List.ne_nil_of_length_pos (by omega)
  have last : '=' = (uptoEquals text).getLast some :=
    (uptoEquals_getLast? (List.getLast?_eq_some_getLast some)).symm
  have later : '=' ∈ text.drop i := by
    rw [spelled, List.drop_append_of_le_length (by omega)]
    refine List.mem_append_left _ ?_
    rw [last, ← List.getLast_drop (by simpa using less)]
    exact List.getLast_mem _
  simp [isStart, later]

example : starts "a = 1 +  2".toList = [3, 4, 6, 9, 10] := by decide

end Reckon.Locate
