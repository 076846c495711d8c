import Reckon.Proofs.Parentheses
import Reckon.Proofs.Runs

/-
Listings of tokens.  Every token has a line of its own, and the tabs in front of the lines show how
the tokens nest: partners stand equally far in, what they enclose further, and a closing parenthesis
without a partner not at all.
-/
namespace Reckon

namespace Text

def Unbroken (text : String) : Prop := '\n' ∉ text.toList

instance (text : String) : Decidable (Unbroken text) := inferInstanceAs (Decidable (¬ _))

theorem Unbroken.append {first second : String} (front : Unbroken first) (back : Unbroken second) :
    Unbroken (first ++ second) := by
  unfold Unbroken
  rw [String.toList_append, List.mem_append, not_or]
  exact ⟨front, back⟩

theorem exists_of_mem_toDigits {base n : Nat} {c : Char} (large : 1 < base)
    (mem : c ∈ Nat.toDigits base n) : ∃ digit < base, c = digit.digitChar := by
  induction n using Nat.strongRecOn with
  | ind n ih =>
    rw [Nat.toDigits_eq_if large] at mem
    by_cases small : n < base
    · rw [if_pos small] at mem
      exact ⟨n, small, List.mem_singleton.mp mem⟩
    · rw [if_neg small] at mem
      rcases List.mem_append.mp mem with front | last
      · exact ih (n / base) (Nat.div_lt_self (by omega) large) front
      · exact ⟨n % base, Nat.mod_lt n (by omega), List.mem_singleton.mp last⟩

theorem newline_not_mem_toDigits {base : Nat} (large : 1 < base) (small : base ≤ 16) (n : Nat) :
    '\n' ∉ Nat.toDigits base n := by
  intro mem
  obtain ⟨digit, range, same⟩ := exists_of_mem_toDigits large mem
  have other : ∀ digit < 16, '\n' ≠ digit.digitChar := by decide
  exact other digit (by omega) same

theorem unbroken_number (n : Nat) : Unbroken (toString n) := by
  unfold Unbroken
  rw [Nat.toString_eq_ofList_toDigits, String.toList_ofList]
  exact newline_not_mem_toDigits (by decide) (by decide) n

theorem newline_not_mem_codePoint (c : Char) : '\n' ∉ codePoint c := by
  have digits : '\n' ∉ Nat.toDigits 16 c.toNat :=
    newline_not_mem_toDigits (by decide) (by decide) c.toNat
  simp [codePoint, digits]

theorem newline_not_mem_escaped {mark : Char} (other : mark ≠ '\n') (c : Char) :
    '\n' ∉ escaped mark c := by
  by_cases newline : c = '\n'
  · have escape : escaped mark '\n' = ['\\', 'n'] := rfl
    rw [newline, escape]
    decide
  · unfold escaped
    split_ifs
    all_goals simp [newline_not_mem_codePoint, other.symm, Ne.symm newline]

theorem unbroken_quote {mark : Char} (other : mark ≠ '\n') (text : List Char) :
    Unbroken (quote mark text) := by
  unfold Unbroken quote
  rw [String.toList_ofList, List.cons_append, List.mem_cons, List.mem_append,
    List.mem_singleton, List.mem_flatMap]
  rintro (start | ⟨c, -, inside⟩ | last)
  · exact other start.symm
  · exact newline_not_mem_escaped other c inside
  · exact other last.symm

def leadingTabs (text : String) : Nat := (text.toList.takeWhile (· == '\t')).length

theorem toList_pushn (c : Char) (count : Nat) :
    ("".pushn c count).toList = List.replicate count c := by
  rw [String.pushn_eq_repeat_push]
  induction count with
  | zero => rfl
  | succ count ih => rw [Nat.repeat, String.toList_push, ih, List.replicate_succ']

theorem leadingTabs_pushn {text : String} (count : Nat)
    (front : text.toList.head? ≠ some '\t') :
    leadingTabs ("".pushn '\t' count ++ text) = count := by
  have none : text.toList.takeWhile (· == '\t') = [] := by
    cases letters : text.toList with
    | nil => rfl
    | cons c rest =>
      have other : c ≠ '\t' := by simpa [letters] using front
      simp [other]
  simp [leadingTabs, toList_pushn, none]

end Text

namespace Token
open Text

theorem letters_kind (token : Token) : ∀ c ∈ token.kind.toList, isLetter c := by
  have letters : token.kind.toList.all isLetter := by
    unfold kind
    split <;> decide
  exact List.all_eq_true.mp letters

theorem unbroken_kind (token : Token) : Unbroken token.kind := by
  intro mem
  have letter := token.letters_kind '\n' mem
  exact absurd letter (by decide)

theorem unbroken_listed (token : Token) : Unbroken token.listed := by
  have kind := token.unbroken_kind
  have opening : Unbroken "(" := by decide
  have closing : Unbroken ")" := by decide
  match token with
  | identifier name | number raw =>
    exact ((kind.append opening).append (unbroken_quote (by decide) _)).append closing
  | unknown c =>
    exact ((kind.append opening).append (unbroken_quote (by decide) [c])).append closing
  | eof | openParen | closeParen | comma | equals | operator op => exact kind

theorem listed_eq (token : Token) : ∃ details, token.listed = token.kind ++ details := by
  match token with
  | identifier name | number raw | unknown c =>
    exact ⟨_, by rw [listed, String.append_assoc, String.append_assoc]⟩
  | eof | openParen | closeParen | comma | equals | operator op =>
    exact ⟨"", String.append_empty.symm⟩

end Token

namespace Lexeme
open Text

theorem unbroken_listed (lexeme : Lexeme) : Unbroken lexeme.listed := by
  have opening : Unbroken "[char " := by decide
  have closing : Unbroken "]" := by decide
  have arrow : Unbroken " -> char " := by decide
  have place : Unbroken (if lexeme.first = lexeme.last then ""
      else " -> char " ++ toString lexeme.last.char) := by
    split
    · decide
    · exact arrow.append (unbroken_number _)
  exact (((lexeme.token.unbroken_listed.append opening).append (unbroken_number _)).append
    place).append closing

theorem head?_listed (lexeme : Lexeme) : lexeme.listed.toList.head? ≠ some '\t' := by
  obtain ⟨details, same⟩ := lexeme.token.listed_eq
  have letters := lexeme.token.letters_kind
  have word : lexeme.token.kind.toList ≠ [] := by
    unfold Token.kind
    split <;> decide
  obtain ⟨c, more, front⟩ := List.exists_cons_of_ne_nil word
  rw [front] at letters
  have letter := letters c List.mem_cons_self
  intro tab
  simp only [listed, same, String.toList_append, front, List.cons_append, List.head?_cons,
    Option.some.injEq] at tab
  rw [tab] at letter
  exact absurd letter (by decide)

def tabbed (depth : Nat) (lexeme : Lexeme) : String := "".pushn '\t' depth ++ lexeme.listed

theorem leadingTabs_tabbed (depth : Nat) (lexeme : Lexeme) :
    leadingTabs (lexeme.tabbed depth) = depth :=
  leadingTabs_pushn depth lexeme.head?_listed

theorem unbroken_tabbed (depth : Nat) (lexeme : Lexeme) : Unbroken (lexeme.tabbed depth) := by
  have tabs : Unbroken ("".pushn '\t' depth) := by
    simp [Unbroken, toList_pushn]
  exact tabs.append lexeme.unbroken_listed

end Lexeme

namespace CommandLine
open Text Parse Token

def listed (opened : Nat) (lexemes : List Lexeme) : List String :=
  List.zipWith Lexeme.tabbed (depths opened (unplaced lexemes)) lexemes

theorem listing_eq (opened : Nat) (lexemes : List Lexeme) :
    listing opened lexemes = (listed opened lexemes).map fun line => .out (line ++ "\n") := by
  induction lexemes generalizing opened with
  | nil => rfl
  | cons lexeme lexemes ih =>
    rw [listing, ih]
    rfl

structure Lists (lexemes : List Lexeme) (shown : List String) : Prop where
  ended : EndsOnce lexemes
  count : shown.length = lexemes.length
  unbroken : ∀ line ∈ shown, Unbroken line
  token : ∀ (place : Nat) (lexeme : Lexeme), lexemes[place]? = some lexeme →
    ∃ depth, shown[place]? = some (lexeme.tabbed depth)
  partners : ∀ first last, Matching (unplaced lexemes) first last →
    ∃ tabs, shown[first]?.map leadingTabs = some tabs ∧ shown[last]?.map leadingTabs = some tabs ∧
      ∀ place, first < place → place < last →
        ∃ more, shown[place]?.map leadingTabs = some more ∧ tabs < more
  stray : ∀ place, (unplaced lexemes)[place]? = some .closeParen →
    (∀ first, ¬ Matching (unplaced lexemes) first place) →
    shown[place]?.map leadingTabs = some 0

theorem map_leadingTabs_listed (opened : Nat) (lexemes : List Lexeme) :
    (listed opened lexemes).map leadingTabs = depths opened (unplaced lexemes) := by
  induction lexemes generalizing opened with
  | nil => rfl
  | cons lexeme lexemes ih =>
    have rest : listed opened (lexeme :: lexemes) =
        lexeme.tabbed (depth opened lexeme.token) ::
          listed (stillOpen opened lexeme.token) lexemes := rfl
    rw [rest, List.map_cons, ih, Lexeme.leadingTabs_tabbed]
    rfl

theorem getElem?_listed {lexemes : List Lexeme} {lexeme : Lexeme} {place : Nat} (opened : Nat)
    (here : lexemes[place]? = some lexeme) :
    ∃ depth, (listed opened lexemes)[place]? = some (lexeme.tabbed depth) := by
  obtain ⟨within, -⟩ := List.getElem?_eq_some_iff.mp here
  have room : place < (depths opened (unplaced lexemes)).length := by
    rwa [length_depths, unplaced, List.length_map]
  refine ⟨(depths opened (unplaced lexemes))[place], ?_⟩
  rw [listed, List.getElem?_zipWith, List.getElem?_eq_getElem room, here]

theorem unbroken_of_mem_listed {lexemes : List Lexeme} {opened : Nat} {text : String}
    (mem : text ∈ listed opened lexemes) : Unbroken text := by
  obtain ⟨place, within, rfl⟩ := List.getElem_of_mem mem
  simp only [listed, List.getElem_zipWith]
  exact Lexeme.unbroken_tabbed _ _

theorem lists_listed (line : List Char) : Lists (lexemes line) (listed 0 (lexemes line)) := by
  have lengths : (depths 0 (unplaced (lexemes line))).length = (lexemes line).length := by
    rw [length_depths, unplaced, List.length_map]
  -- The lines need not be looked at: their tabs are the depths of the tokens.
  have tabs (place : Nat) : (listed 0 (lexemes line))[place]?.map leadingTabs =
      (depths 0 (unplaced (lexemes line)))[place]? := by
    rw [← List.getElem?_map, map_leadingTabs_listed]
  refine ⟨Cursor.endsOnce_lexemes _, ?_, ?_, ?_, ?_, ?_⟩
  · rw [listed, List.length_zipWith, lengths, Nat.min_self]
  · exact fun text => unbroken_of_mem_listed
  · exact fun place lexeme => getElem?_listed 0
  · intro first last matching
    obtain ⟨d, front, back, inside⟩ := matching.depths
    refine ⟨d, (tabs first).trans front, (tabs last).trans back, ?_⟩
    intro place later earlier
    obtain ⟨deeper, found, more⟩ := inside place later earlier
    exact ⟨deeper, (tabs place).trans found, more⟩
  · intro place closes stray
    exact (tabs place).trans (depths_stray closes stray)

theorem tokenizeLine_eq (line : List Char) :
    tokenizeLine line =
      ⟨(listed 0 (lexemes line)).map fun text => .out (text ++ "\n"), true⟩ := by
  rw [tokenizeLine, listing_eq]

variable {options : Options} {settings : Settings}

/-- What the command prints for a line is its list of tokens, with one indentation for partners and
more of it for all that they enclose; and for a stream it prints this for line after line. -/
theorem tokenize_indents (read : options.settings = .ok settings) (seed : Seed) :
    (∀ text stdin, ∃ shown, Lists (lexemes text.toList) shown ∧
      run (.run options .tokenize (some text)) stdin seed =
        ⟨shown.map fun line => .out (line ++ "\n"), 0⟩) ∧
    ∀ stdin texts, lines? stdin = some texts → ∃ listings,
      List.Forall₂ (fun text shown => Lists (lexemes text.toList) shown) texts listings ∧
      run (.run options .tokenize none) stdin seed =
        ⟨listings.flatten.map fun line => .out (line ++ "\n"), 0⟩ := by
  constructor
  · intro text stdin
    refine ⟨_, lists_listed text.toList, ?_⟩
    rw [run_input read, runLine, tokenizeLine_eq]
    rfl
  · intro stdin texts lines
    refine ⟨texts.map fun text => listed 0 (lexemes text.toList), ?_, ?_⟩
    · rw [List.forall₂_map_right_iff, List.forall₂_same]
      exact fun text _ => lists_listed text.toList
    · have steady : ∀ text ∈ texts, Steady settings options.verbosity text .tokenize :=
        fun _ _ => trivial
      have alone : runLines settings options.verbosity .tokenize seed texts =
          texts.map fun text => runLine settings options.verbosity seed text .tokenize :=
        runLines_eq steady seed fun _ => seed
      have succeed : (texts.all fun _ => true) = true := List.all_eq_true.mpr fun _ _ => rfl
      rw [run_stdin read lines, alone]
      simp only [runLine, tokenizeLine_eq, List.flatMap_def, List.all_map, Function.comp_def,
        List.map_flatten, List.map_map, succeed, if_true]

theorem strayAndPair_indents :
    Options.empty.settings = .ok .standard ∧ ∃ (shown : List String) (tabs : Nat),
      run (.run .empty .tokenize (some ")(1)")) [] ⟨0⟩ =
        ⟨shown.map fun line => .out (line ++ "\n"), 0⟩ ∧
      shown.length = 5 ∧ shown[0]?.map leadingTabs = some 0 ∧
      shown[1]?.map leadingTabs = some tabs ∧ shown[3]?.map leadingTabs = some tabs := by
  have read : Options.empty.settings = .ok .standard := rfl
  refine ⟨read, ?_⟩
  obtain ⟨shown, lists, printed⟩ := (tokenize_indents read ⟨0⟩).1 ")(1)" []
  have tokens : unplaced (lexemes ")(1)".toList) =
      [.closeParen, .openParen, .number "1", .closeParen, .eof] := by decide +kernel
  have matching : Matching (unplaced (lexemes ")(1)".toList)) 1 3 := by
    have one : Balanced [.number "1"] := .plain nofun nofun .nil
    exact ⟨[.closeParen], [.number "1"], [.eof], tokens, one, rfl, rfl⟩
  have stray (first : Nat) : ¬ Matching (unplaced (lexemes ")(1)".toList)) first 0 := by
    rintro ⟨-, inside, -, -, -, -, last⟩
    omega
  have first := lists.stray 0 (by rw [tokens]; rfl) stray
  obtain ⟨tabs, front, back, -⟩ := lists.partners 1 3 matching
  have count : shown.length = 5 := by
    have places := congrArg List.length tokens
    rw [unplaced, List.length_map] at places
    exact lists.count.trans places
  exact ⟨shown, tabs, printed, count, first, front, back⟩

end CommandLine
end Reckon
