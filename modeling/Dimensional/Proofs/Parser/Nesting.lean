import Dimensional.Proofs.Parser.Depth
import Dimensional.Proofs.Parser.Numeric
import Dimensional.Proofs.Tree

/-! The limit on nesting changes nothing but which sources are refused as too deep. -/

namespace Dimensional.Parser

section Limits

variable (vocabulary : Vocabulary) (limit : Nat)

/-- With a limit, a computation fails as too deep if one of its calls exceeds the limit, and else
comes to the same as without one. -/
def Limits (calls : List Call) (limited unlimited : Except ParseError α) : Prop :=
  ((∃ call ∈ calls, call.Exceeds vocabulary limit) → limited = .error (.tooDeep limit)) ∧
    ((∀ call ∈ calls, ¬ call.Exceeds vocabulary limit) → limited = unlimited)

variable {vocabulary limit} {call : Call} {calls : List Call} {x y : Except ParseError α}

namespace Limits

section Fresh

variable (fresh : call.state.depth = 0)

include fresh

theorem eq_of_opens (limits : Limits vocabulary limit [call] x y)
    (within : ∀ count, call.Opens vocabulary count → count ≤ limit) : x = y := by
  refine limits.2 fun inner member => ?_
  obtain rfl := List.mem_singleton.mp member
  rintro ⟨count, opens, more⟩
  rw [fresh, Nat.zero_add] at more
  exact absurd more (Nat.not_lt_of_le (within count opens))

theorem tooDeep_of_opens (limits : Limits vocabulary limit [call] x y) {count : Nat}
    (opens : call.Opens vocabulary count) (more : limit < count) :
    x = .error (.tooDeep limit) := by
  refine limits.1 ⟨call, List.mem_cons_self, count, opens, ?_⟩
  rwa [fresh, Nat.zero_add]

end Fresh

end Limits

theorem Deepens.limits {state : State} {here free : Step state α}
    (deepens : Deepens vocabulary limit 0 calls here free) :
    Limits vocabulary limit calls here.result free.result :=
  ⟨fun exceeded => (deepens.deep exceeded).1, fun fits => (deepens.shallow fits).1⟩

/-- What is read as a whole with a limit is what is read without one, or it is too deep. -/
theorem limits_readTokens (vocabulary : Vocabulary) (limit : Nat) (grammar : Grammar)
    (tokens : List Token) :
    Limits vocabulary limit [.whole grammar (.ofCursor (.ofTokens tokens))]
      (readTokens ⟨vocabulary, some limit⟩ grammar tokens)
      (readTokens (.unlimited vocabulary) grammar tokens) :=
  (deepens_whole (Nat.zero_le limit)).limits

theorem limits_readStatements (vocabulary : Vocabulary) (limit : Nat) (grammar : Grammar)
    (tokens : List Token) :
    Limits vocabulary limit [.statements grammar (.ofCursor (.ofTokens tokens))]
      (readStatements ⟨vocabulary, some limit⟩ grammar tokens)
      (readStatements (.unlimited vocabulary) grammar tokens) :=
  (deepens_statements vocabulary grammar _ (Nat.zero_le limit)).limits

end Limits

end Dimensional.Parser

namespace Dimensional

def Shape.isExpression : Shape → Bool
  | .expression _ => true
  | _ => false

def Mark.isExpression (mark : Mark) : Bool := mark.shape.isExpression

def Node.isExpression (node : Node) : Bool := node.shape.isExpression

/-- On a path through the trees of a derivation there are at most as many expressions as are inside
one another. -/
theorem Derivation.passAtMost_trees (derivation : Derivation category) :
    Tree.PassAtMost Mark.isExpression derivation.nesting derivation.trees := by
  induction derivation with
  | expression _ _ ihFirst ihRest => exact (ihFirst.append ihRest).node
  | lastTerm | lastFactor => exact Tree.passAtMost_nil
  | sum _ _ _ _ ihNext ihRest | product _ _ _ _ ihNext ihRest | silent _ _ ihNext ihRest =>
    exact (ihNext.append ihRest).plain_cons rfl
  | term _ _ ihFirst ihRest => exact (ihFirst.append ihRest).plain rfl
  | negated _ _ _ ihFirst ihRest => exact ((ihFirst.append ihRest).plain_cons rfl).plain rfl
  | factor _ ih => exact ih.plain rfl
  | raised _ _ _ ihBase ihExponent => exact (ihBase.append (ihExponent.plain_cons rfl)).plain rfl
  | name | literal => exact Tree.passAtMost_nil.plain rfl
  | parenthesized _ _ _ ih | grouped _ _ _ ih => exact ih
  | vector _ _ _ _ _ _ _ ihLeft ihRight => exact (ihLeft.append ihRight).plain rfl
  | integer => exact (Tree.passAtMost_nil.plain_cons rfl).plain rfl
  | negativeInteger => exact ((Tree.passAtMost_nil.plain_cons rfl).plain_cons rfl).plain rfl

namespace Parser

variable {vocabulary : Vocabulary} {grammar : Grammar} {tokens : List Token} {tree : Expression}

/-- No path through what is read passes more expressions than may be open. -/
theorem countP_le_of_readTokens (h : readTokens (.standard vocabulary) grammar tokens = .ok tree)
    {nodes : List Node} (path : tree.Path nodes) :
    nodes.countP Node.isExpression ≤ nestingLimit := by
  obtain ⟨derivation, _, permitted, same, evaluated⟩ := readTokens_evaluated h
  have nested := evaluated.admits (admits_standard.mpr (Nat.zero_le _))
  rw [Nat.zero_add] at nested
  have trees := marks_of_readTokens derivation permitted same h
  have passed := derivation.passAtMost_trees (tree.map Node.mark) (by simp [trees]) _
    (path.map Node.mark)
  rw [List.countP_map] at passed
  exact Nat.le_trans passed (admits_standard.mp nested)

theorem exists_of_mem_forall₂ {α β : Type} {r : α → β → Prop} {list : List α} {others : List β}
    (related : List.Forall₂ r list others) {other : β} (member : other ∈ others) :
    ∃ entry, r entry other := by
  induction related with
  | nil => cases member
  | cons head _ ih =>
    rcases List.mem_cons.mp member with rfl | later
    · exact ⟨_, head⟩
    · exact ih later

theorem countP_le_of_readStatements {trees : List Expression}
    (h : readStatements (.standard vocabulary) grammar tokens = .ok trees) (member : tree ∈ trees)
    {nodes : List Node} (path : tree.Path nodes) :
    nodes.countP Node.isExpression ≤ nestingLimit := by
  obtain ⟨part, read⟩ := exists_of_mem_forall₂ ((readStatements_eq_ok_iff .start).mp h) member
  exact countP_le_of_readTokens read path

/-- The limit on nesting changes nothing but which tokens are refused as too deep: those that make a
parser without a limit open more expressions inside one another. No path through what is read passes
more expressions than that, and a call that succeeds leaves as many open as there were. -/
theorem nesting_exact (vocabulary : Vocabulary) (grammar : Grammar) (tokens : List Token) :
    let start := State.ofCursor (.ofTokens tokens)
    ((∀ count, (Call.whole grammar start).Opens vocabulary count → count ≤ nestingLimit) →
      readTokens (.standard vocabulary) grammar tokens =
        readTokens (.unlimited vocabulary) grammar tokens) ∧
    (∀ count, (Call.whole grammar start).Opens vocabulary count → nestingLimit < count →
      readTokens (.standard vocabulary) grammar tokens = .error (.tooDeep nestingLimit)) ∧
    ((∀ count, (Call.statements grammar start).Opens vocabulary count → count ≤ nestingLimit) →
      readStatements (.standard vocabulary) grammar tokens =
        readStatements (.unlimited vocabulary) grammar tokens) ∧
    (∀ count, (Call.statements grammar start).Opens vocabulary count → nestingLimit < count →
      readStatements (.standard vocabulary) grammar tokens = .error (.tooDeep nestingLimit)) ∧
    (∀ tree, (readTokens (.standard vocabulary) grammar tokens = .ok tree ∨
      ∃ trees, readStatements (.standard vocabulary) grammar tokens = .ok trees ∧ tree ∈ trees) →
      ∀ nodes, tree.Path nodes → nodes.countP Node.isExpression ≤ nestingLimit) ∧
    (∀ setting (call : Call) after, call.finish setting = .ok after →
      after.depth = call.state.depth) := by
  intro start
  have whole := limits_readTokens vocabulary nestingLimit grammar tokens
  have statements := limits_readStatements vocabulary nestingLimit grammar tokens
  refine ⟨fun within => ?_, fun count opens more => ?_, fun within => ?_,
    fun count opens more => ?_, ?_, fun _ _ _ => Call.depth_of_finish⟩
  · exact whole.eq_of_opens rfl within
  · exact whole.tooDeep_of_opens rfl opens more
  · exact statements.eq_of_opens rfl within
  · exact statements.tooDeep_of_opens rfl opens more
  · rintro tree (h | ⟨trees, h, member⟩) nodes path
    · exact countP_le_of_readTokens h path
    · exact countP_le_of_readStatements h member path

/-- A number is read in as many parentheses as may be open with the expression around them, and in
one more it is read without a limit only. -/
theorem exists_tooDeep_of_parentheses :
    let nested (count : Nat) : List Token :=
      List.replicate count ⟨.openParen, "(", .start⟩ ++
        ⟨.number, "1", .start⟩ :: List.replicate count ⟨.closeParen, ")", .start⟩
    let opens (tokens : List Token) : Nat → Prop :=
      (Call.whole .quantity (.ofCursor (.ofTokens tokens))).Opens Scope.si.vocabulary
    ((∀ count, opens (nested 199) count → count ≤ nestingLimit) ∧
      ∃ tree, readTokens (.standard Scope.si.vocabulary) .quantity (nested 199) = .ok tree ∧
        readTokens (.unlimited Scope.si.vocabulary) .quantity (nested 199) = .ok tree) ∧
    (∃ count, opens (nested 200) count ∧ nestingLimit < count) ∧
      readTokens (.standard Scope.si.vocabulary) .quantity (nested 200) =
        .error (.tooDeep nestingLimit) := by
  intro nested opens
  have exact (count : Nat) := nesting_exact Scope.si.vocabulary .quantity (nested count)
  have accepted :
      (readTokens (.standard Scope.si.vocabulary) .quantity (nested 199)).toOption.isSome := by
    decide +kernel
  have refused :
      (readTokens (.standard Scope.si.vocabulary) .quantity (nested 200)).toOption = none := by
    decide +kernel
  have endless :
      (readTokens (.unlimited Scope.si.vocabulary) .quantity (nested 200)).toOption.isSome := by
    decide +kernel
  have shallow : ∀ count, opens (nested 199) count → count ≤ nestingLimit := by
    intro count opened
    by_contra more
    rw [(exact 199).2.1 count opened (Nat.lt_of_not_le more)] at accepted
    cases accepted
  have deep : ∃ count, opens (nested 200) count ∧ nestingLimit < count := by
    by_contra none
    have same := (exact 200).1 fun count opened => Nat.le_of_not_lt fun more =>
      none ⟨count, opened, more⟩
    rw [← same, refused] at endless
    cases endless
  obtain ⟨tree, some⟩ := Option.isSome_iff_exists.mp accepted
  have read := Except.toOption_eq_some.mp some
  obtain ⟨count, opened, more⟩ := deep
  exact ⟨⟨shallow, tree, read, (exact 199).1 shallow ▸ read⟩, ⟨count, opened, more⟩,
    (exact 200).2.1 count opened more⟩

end Parser

end Dimensional
