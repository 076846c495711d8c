import Mathlib.Data.List.Forall2
import Reckon.Proofs.Joining
import Reckon.Proofs.Normal
import Reckon.Proofs.Parts

/-
How deep trees can be.  A limit on levels bounds the calls around a node and the operators that have
it on their right.  It does not bound the operators that have it on their left: a chain takes their
levels only after its first operand, so a call or a parenthesis there still has all levels for its
inside.  Such chains inside one another make trees that are deeper than the limit, but no deeper
than half its square and some more.
-/
namespace Reckon
open Grammar

namespace Node

inductive Step where
  | argument
  | sign
  | left
  | right
deriving DecidableEq

inductive Path : Node → List Step → Node → Prop where
  | here : Path node [] node
  | argument (mem : arg ∈ args) (below : Path arg steps node) :
      Path (call f args) (.argument :: steps) node
  | sign (below : Path operand steps node) : Path (signed signs operand) (.sign :: steps) node
  | left (below : Path first steps node) : Path (binary first op second) (.left :: steps) node
  | right (below : Path second steps node) : Path (binary first op second) (.right :: steps) node

namespace Step

def isInward : Step → Bool
  | argument | right => true
  | sign | left => false

def isOperation : Step → Bool
  | argument | left | right => true
  | sign => false

end Step

def Step.count (w : Nat) : Step → Nat
  | argument | right => 1
  | left => w
  | sign => 0

def count (w : Nat) : List Step → Nat
  | [] => 0
  | step :: steps => step.count w + count w steps

theorem count_zero (steps : List Step) : count 0 steps = steps.countP Step.isInward := by
  induction steps with
  | nil => rfl
  | cons step steps ih =>
    rw [count, ih, List.countP_cons, Nat.add_comm]
    cases step <;> rfl

theorem count_one (steps : List Step) : count 1 steps = steps.countP Step.isOperation := by
  induction steps with
  | nil => rfl
  | cons step steps ih =>
    rw [count, ih, List.countP_cons, Nat.add_comm]
    cases step <;> rfl

/-- Runs of signs are one node each, so at most every other step leads through one. -/
theorem Path.length_le {steps : List Step} {tree node : Node} (path : Path tree steps node)
    (normal : tree.Normal) :
    steps.length ≤ 2 * steps.countP Step.isOperation + 1 ∧
      ((∀ signs operand, tree ≠ signed signs operand) →
        steps.length ≤ 2 * steps.countP Step.isOperation) := by
  induction path with
  | here => simp
  | argument mem below ih =>
    cases normal with
    | call f arity all =>
      have least := (ih (all _ mem)).1
      simp only [List.length_cons, List.countP_cons, Step.isOperation, if_true]
      omega
  | sign below ih =>
    cases normal with
    | signed some flat inside =>
      have least := (ih inside).2 flat
      simp only [List.length_cons, List.countP_cons, Step.isOperation, Bool.false_eq_true, if_false]
      exact ⟨by omega, fun plain => absurd rfl (plain _ _)⟩
  | left below ih =>
    cases normal with
    | binary op first second =>
      have least := (ih first).1
      simp only [List.length_cons, List.countP_cons, Step.isOperation, if_true]
      omega
  | right below ih =>
    cases normal with
    | binary op first second =>
      have least := (ih second).1
      simp only [List.length_cons, List.countP_cons, Step.isOperation, if_true]
      omega

def last (w : Nat) : Node → Nat
  | call _ _ => 1
  | binary _ _ _ => w
  | literal _ | constant _ | signed _ _ => 0

theorem last_one (node : Node) : node.last 1 = node.isOperation.toNat := by
  cases node <;> rfl

/-- No way down counts more than what is left of the bound, the node where it ends included. -/
def Within (w bound used : Nat) (tree : Node) : Prop :=
  ∀ steps node, Path tree steps node → used + count w steps + node.last w ≤ bound

variable {w bound used large less : Nat} {tree first second : Node} {op : Operator}

theorem Within.mono (within : Within w bound used tree) (fewer : less ≤ used) :
    Within w bound less tree := by
  intro steps node path
  have least := within steps node path
  omega

theorem Within.raise (within : Within w bound used tree) {more : Nat}
    (room : bound + more ≤ large) : Within w large (used + more) tree := by
  intro steps node path
  have least := within steps node path
  omega

theorem Within.widen (within : Within w bound used tree) (wider : bound ≤ large) :
    Within w large used tree :=
  fun steps node path => Nat.le_trans (within steps node path) wider

theorem within_literal (raw : String) : Within w bound 0 (literal raw) := by
  intro steps node path
  cases path
  exact Nat.zero_le _

theorem within_constant (symbol : Constant) : Within w bound 0 (constant symbol) := by
  intro steps node path
  cases path
  exact Nat.zero_le _

theorem within_call {f : Function} {args : List Node} (room : used < bound)
    (inside : ∀ arg ∈ args, Within w bound (used + 1) arg) : Within w bound used (call f args) := by
  intro steps node path
  cases path with
  | here => exact room
  | argument mem below =>
    have least := inside _ mem _ _ below
    rw [count, Step.count]
    omega

theorem within_signed {signs : List Sign} (inside : Within w bound used tree) :
    Within w bound used (signed signs tree) := by
  intro steps node path
  cases path with
  | here =>
    have least := inside _ _ .here
    rw [last]
    omega
  | sign below =>
    rw [count, Step.count, Nat.zero_add]
    exact inside _ _ below

theorem Within.sign (within : Within w bound used tree) (signs : List Sign) :
    Within w bound used (tree.sign signs) := by
  cases tree with
  | signed inner operand =>
    have inside : Within w bound used operand := by
      intro steps node path
      have least := within _ _ (.sign path)
      rwa [count, Step.count, Nat.zero_add] at least
    exact within_signed inside
  | _ => exact within_signed within

theorem within_binary (left : Within w bound (used + w) first)
    (right : Within w bound (used + 1) second) : Within w bound used (binary first op second) := by
  intro steps node path
  cases path with
  | here =>
    have least := left _ _ .here
    rw [count, last]
    omega
  | left below =>
    have least := left _ _ below
    rw [count, Step.count]
    omega
  | right below =>
    have least := right _ _ below
    rw [count, Step.count]
    omega

namespace Pending

def waiting (p : Pending) : Nat := p.sum.isSome.toNat + p.product.isSome.toNat

/-- What a chain has come to stays within the bound, if `rest` is what its other operators count. -/
structure Fits (w bound rest : Nat) (p : Pending) : Prop where
  sum : ∀ left op, p.sum = some (left, op) → Within w bound (rest + w) left
  product : ∀ left op, p.product = some (left, op) →
    Within w bound (rest + p.sum.isSome.toNat + w) left
  power : Within w bound (rest + p.waiting) p.power

variable {rest : Nat} {p : Pending} {operand : Node}

theorem within_close {held : Option (Node × Operator)} {right : Node}
    (first : ∀ left op, held = some (left, op) → Within w bound (used + w) left)
    (second : Within w bound (used + held.isSome.toNat) right) :
    Within w bound used (close held right) := by
  cases held with
  | none => exact second
  | some link => exact within_binary (first link.1 link.2 rfl) second

theorem Fits.factor (fits : p.Fits w bound rest) :
    Within w bound (rest + p.sum.isSome.toNat) p.factor := by
  have power := fits.power
  rw [waiting, ← Nat.add_assoc] at power
  exact within_close fits.product power

theorem Fits.total (fits : p.Fits w bound rest) : Within w bound rest p.total :=
  within_close fits.sum fits.factor

theorem waiting_push (p : Pending) (op : Operator) (operand : Node) :
    (p.push op operand).waiting ≤ p.waiting + 1 := by
  unfold push waiting
  cases op.tier <;> cases p.sum <;> cases p.product <;> simp

/-- An operator puts what it takes to its left one step down, and its operand one step below all
that waits. -/
theorem Fits.push (fits : p.Fits w bound (rest + w)) (op : Operator)
    (right : Within w bound (rest + p.waiting + 1) operand) :
    (p.push op operand).Fits w bound rest := by
  have sums : ∀ left op, p.sum = some (left, op) → Within w bound (rest + w) left :=
    fun left op held => (fits.sum left op held).mono (by omega)
  have factor := fits.factor
  unfold waiting at right
  unfold Pending.push
  -- What stands to the left of the new operator: the power, the factor or the whole chain so far.
  cases op.tier with
  | exponent =>
    refine ⟨sums, ?_, ?_⟩
    · intro left op held
      exact (fits.product left op held).mono (by simp only; omega)
    · have power := fits.power
      unfold waiting at power
      refine within_binary (power.mono ?_) (right.mono ?_)
      · simp only [waiting]
        omega
      · simp only [waiting]
        omega
  | multiplicative =>
    refine ⟨sums, ?_, right.mono ?_⟩
    · intro left op same
      obtain ⟨rfl, _⟩ : p.factor = left ∧ _ := by simpa using same
      exact factor.mono (by simp only; omega)
    · simp only [waiting, Option.isSome_some, Bool.toNat_true]
      omega
  | additive =>
    refine ⟨?_, by simp, right.mono ?_⟩
    · intro left op same
      obtain ⟨rfl, _⟩ : p.total = left ∧ _ := by simpa using same
      exact fits.total
    · simp only [waiting, Option.isSome_some, Option.isSome_none, Bool.toNat_true,
        Bool.toNat_false]
      omega

def Follow (w bound : Nat) : Nat → List (Operator × Node) → Prop
  | _, [] => True
  | k, link :: others =>
    Within w bound (w * others.length + k + 1) link.2 ∧ Follow w bound (k + 1) others

theorem Fits.foldl {links : List (Operator × Node)} {k : Nat}
    (fits : p.Fits w bound (w * links.length)) (few : p.waiting ≤ k)
    (follow : Follow w bound k links) :
    Within w bound 0 (links.foldl (fun (p : Pending) link => p.push link.1 link.2) p).total := by
  -- At most `k` operators wait when `k` have come, and every link uses up one of those to come.
  induction links generalizing p k with
  | nil => exact fits.total
  | cons link others ih =>
    obtain ⟨here, later⟩ := follow
    have whole : p.Fits w bound (w * others.length + w) := fits
    have right : Within w bound (w * others.length + p.waiting + 1) link.2 := here.mono (by omega)
    have waits : (p.push link.1 link.2).waiting ≤ k + 1 :=
      Nat.le_trans (waiting_push p link.1 link.2) (Nat.succ_le_succ few)
    exact ih (whole.push link.1 right) waits later

end Pending

theorem within_ofChain {links : List (Operator × Node)}
    (head : Within w bound (w * links.length) first) (tail : Pending.Follow w bound 0 links) :
    Within w bound 0 (ofChain first links) :=
  Pending.Fits.foldl ⟨by simp, by simp, head⟩ (Nat.le_refl 0) tail

/-- What a way down may count inside an operand of so many levels.  One of them is for its
parentheses, and all others can be taken by operators to the right of the first operand inside. -/
def room (w : Nat) : Nat → Nat
  | 0 => 0
  | level + 1 => room w level + w * level + 1

theorem room_succ (w level : Nat) : room w (level + 1) = room w level + w * level + 1 := rfl

theorem room_add {level more deep : Nat} (least : level + more ≤ deep) :
    room w level + more ≤ room w deep := by
  induction deep generalizing level more with
  | zero =>
    obtain ⟨rfl, rfl⟩ : level = 0 ∧ more = 0 := by omega
    exact Nat.le_refl _
  | succ deep ih =>
    by_cases same : level = deep + 1
    · obtain rfl : more = 0 := by omega
      rw [same, Nat.add_zero]
    · have below : room w level + (more - 1) ≤ room w deep := ih (by omega)
      rw [room_succ]
      omega

theorem room_one_add (w level : Nat) : room w (1 + level) = w * level + room w level + 1 := by
  rw [Nat.add_comm, room_succ, Nat.add_comm (w * level)]

theorem room_mono {level deep : Nat} (least : level ≤ deep) :
    w * level + room w level ≤ w * deep + room w deep := by
  have inside : room w level + 0 ≤ room w deep := room_add least
  exact Nat.add_le_add (Nat.mul_le_mul_left w least) inside

theorem room_zero (level : Nat) : room 0 level = level := by
  induction level with
  | zero => rfl
  | succ level ih => rw [room_succ, ih, Nat.zero_mul, Nat.add_zero]

theorem room_one (level : Nat) : 2 * room 1 level = level * (level + 1) := by
  induction level with
  | zero => rfl
  | succ level ih =>
    rw [room_succ]
    simp only [Nat.mul_add, Nat.add_mul] at ih ⊢
    omega

end Node

namespace Grammar
open Node (ofChain room room_add room_mono room_one_add within_call within_constant
  within_literal within_ofChain)

section
variable {w deep k level : Nat} {first : Node} {links : List (Operator × Node)} {levels : List Nat}

theorem length_of_chainLevel (bound : chainLevel (k + 1) levels ≤ deep) :
    levels = [] ∨ k + levels.length ≤ deep := by
  induction levels generalizing k with
  | nil => exact .inl rfl
  | cons level levels ih =>
    obtain ⟨here, others⟩ := Nat.max_le.mp bound
    right
    rw [List.length_cons]
    rcases ih others with rfl | more
    · rw [List.length_nil]
      omega
    · omega

abbrev Ranked (w : Nat) : List (Operator × Node) → List Nat → Prop :=
  List.Forall₂ fun link level => link.2.Within w (room w level) 0

theorem mul_length_le (ranked : Ranked w links levels) (bound : chainLevel (k + 1) levels ≤ deep) :
    w * links.length ≤ w * deep := by
  rw [ranked.length_eq]
  rcases length_of_chainLevel bound with rfl | more
  · exact Nat.zero_le _
  · exact Nat.mul_le_mul_left w (by omega)

theorem follow_of_ranked (ranked : Ranked w links levels)
    (bound : chainLevel (k + 1) levels ≤ deep) :
    Node.Pending.Follow w (w * deep + room w deep) k links := by
  induction ranked generalizing k with
  | nil => trivial
  | @cons link level links levels here later ih =>
    obtain ⟨least, others⟩ := Nat.max_le.mp bound
    have right := mul_length_le later others
    have inside : room w level + (k + 1) ≤ room w deep := room_add (by omega)
    have within : link.2.Within w (w * deep + room w deep) (0 + (w * links.length + (k + 1))) :=
      here.raise (by omega)
    rw [Nat.zero_add, ← Nat.add_assoc] at within
    exact ⟨within, ih others⟩

theorem within_chain (head : first.Within w (room w level) 0) (tail : Ranked w links levels)
    (bound : chainLevel 0 (level :: levels) ≤ deep) :
    (ofChain first links).Within w (w * deep + room w deep) 0 := by
  obtain ⟨least, others⟩ := Nat.max_le.mp bound
  have right := mul_length_le tail others
  have inside : room w level + 0 ≤ room w deep := room_add (by omega)
  have within : first.Within w (w * deep + room w deep) (0 + w * links.length) :=
    head.raise (by omega)
  rw [Nat.zero_add] at within
  exact within_ofChain within (follow_of_ranked tail others)

end

mutual

theorem Expression.within (w : Nat) :
    Expression tokens node level rest → node.Within w (w * level + room w level) 0
  | .chain first more => within_chain (first.within w) (more.within w) (Nat.le_refl _)

theorem Links.within (w : Nat) : Links tokens links levels rest → Ranked w links levels
  | .nil => .nil
  | .cons first more => .cons (first.within w) (more.within w)

theorem Operand.within (w : Nat) :
    Operand tokens node level rest → node.Within w (room w level) 0
  | .bare inner => inner.within w
  | .signed sign inner => (inner.within w).sign [sign]

theorem Unsigned.within (w : Nat) :
    Unsigned tokens node level rest → node.Within w (room w level) 0
  | .number raw => within_literal raw
  | .constant symbol _ => within_constant symbol
  | .parens inside => by
    rw [room_one_add]
    exact (inside.within w).widen (Nat.le_succ _)
  | .callEmpty _ _ => within_call (Nat.succ_pos _) (by simp)
  | .call _ inside _ => by
    rw [room_one_add]
    refine within_call (Nat.succ_pos _) ?_
    intro arg mem
    exact (inside.within w arg mem).raise (Nat.le_refl _)

theorem Arguments.within (w : Nat) :
    Arguments tokens args levels rest →
      ∀ arg ∈ args, arg.Within w (w * deepest levels + room w (deepest levels)) 0
  | .last only => by
    rw [List.forall_mem_singleton]
    exact (only.within w).widen (room_mono (Nat.le_max_left _ _))
  | .more first others => by
    refine List.forall_mem_cons.mpr ⟨?_, ?_⟩
    · exact (first.within w).widen (room_mono (Nat.le_max_left _ _))
    · intro arg mem
      exact (others.within w arg mem).widen (room_mono (Nat.le_max_right _ _))

end

end Grammar

namespace Parse
open Node

variable {limit : Nat} {source : List Char} {tree : Node}

theorem within_text (w : Nat) (run : (text limit source).value = .ok tree) :
    tree.Within w (w * limit + room w limit) 0 := by
  obtain ⟨level, bound, derived⟩ := text_ok.mp run
  cases derived with
  | bare phrase => exact (phrase.within w).widen (room_mono bound)
  | equals phrase => exact (phrase.within w).widen (room_mono bound)

/-- The limit bounds the calls around a node and the operators that have it on their right.  All
calls and operators around it are bounded by half of the limit's square and some more, and with them
the steps that lead to it. -/
theorem text_nests (run : (text limit source).value = .ok tree) (steps : List Step) (node : Node)
    (path : Path tree steps node) :
    steps.countP Step.isInward ≤ limit ∧
      steps.countP Step.isOperation ≤ limit * (limit + 3) / 2 ∧
      steps.length ≤ limit * (limit + 3) + 1 := by
  have inward := within_text 0 run steps node path
  have operations := within_text 1 run steps node path
  have twice := room_one limit
  have length := (path.length_le (normal_of_text run)).1
  rw [count_zero, room_zero] at inward
  rw [count_one] at operations
  simp only [Nat.mul_add] at twice ⊢
  refine ⟨by omega, ?_, by omega⟩
  rw [Nat.le_div_iff_mul_le (by decide)]
  omega

def leftCall : Node := .binary (.call .abs [.literal "1"]) .add (.literal "2")

theorem text_leftCall : (text 1 "abs(1)+2".toList).value = .ok leftCall := by
  have spelled : tokensOf "abs(1)+2".toList = [.identifier "abs", .openParen, .number "1",
      .closeParen, .operator .add, .number "2", .eof] := by decide +kernel
  have derived : Grammar.Line (tokensOf "abs(1)+2".toList) leftCall 1 := by
    rw [spelled]
    exact .bare (.chain (.bare (.call .abs (.last (.chain (.bare (.number "1")) .nil)) rfl))
      (.cons (.bare (.number "2")) .nil))
  exact text_ok.mpr ⟨1, Nat.le_refl 1, derived⟩

theorem leftCall_nests :
    (text 1 "abs(1)+2".toList).value = .ok leftCall ∧
      Path leftCall [.left, .argument] (.literal "1") ∧
      [Step.left, .argument].countP Step.isOperation ≤ 1 * (1 + 3) / 2 := by
  have path : Path leftCall [.left, .argument] (.literal "1") :=
    .left (.argument (List.mem_singleton_self _) .here)
  exact ⟨text_leftCall, path, (text_nests text_leftCall _ _ path).2.1⟩

/-- A limit of one level does not keep a node from being in two operations. -/
theorem leftCall_exceeds :
    ¬ ∀ tree, (text 1 "abs(1)+2".toList).value = .ok tree →
      ∀ steps node, Path tree steps node → steps.countP Step.isOperation ≤ 1 := by
  intro bounded
  have path : Path leftCall [.left, .argument] (.literal "1") :=
    .left (.argument (List.mem_singleton_self _) .here)
  exact absurd (bounded leftCall text_leftCall _ _ path) (by decide)

end Parse
end Reckon
