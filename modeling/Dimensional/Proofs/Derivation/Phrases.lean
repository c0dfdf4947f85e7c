import Dimensional.Proofs.Annotation
import Dimensional.Proofs.Token.Division
import Dimensional.Proofs.Tree
import Mathlib.Data.List.TakeWhile

/-! The tokens that every node of a tree is read from. A node stands at the first of its tokens, and
a walk through the tree passes these from left to right. -/

namespace Dimensional

open Dimensional.Parser

/-- A node and the tokens that it is read from. -/
structure Phrase where
  shape : Shape
  tokens : List Token
deriving DecidableEq, Repr

/-- What a phrase is and where its first token stands. -/
def Phrase.spot (phrase : Phrase) : Shape × Option Location :=
  (phrase.shape, phrase.tokens.head?.map Token.location)

/-- What a node is and where it is said to stand. -/
def Node.spot (node : Node) : Shape × Option Location := (node.shape, some node.location)

def Mark.spot (mark : Mark) : Shape × Option Location := (mark.shape, some mark.location)

/-- The trees of what is derived, every node with its tokens. Parentheses belong to the factor that
they are, and not to the expression inside. A sign that is left out is read from the token behind
it. -/
def Derivation.phrases : Derivation category → List (Tree Phrase)
  | @expression grammar first rest =>
    [.node ⟨.expression grammar, first.tokens ++ rest.tokens⟩ (first.phrases ++ rest.phrases)]
  | lastTerm => []
  | sum op sign next rest => .leaf ⟨.sum op, [sign.val]⟩ :: (next.phrases ++ rest.phrases)
  | term first rest =>
    [.node ⟨.term, first.tokens ++ rest.tokens⟩ (first.phrases ++ rest.phrases)]
  | negated minus first rest =>
    [.node ⟨.term, minus.val :: (first.tokens ++ rest.tokens)⟩
      (.leaf ⟨.negation, [minus.val]⟩ :: (first.phrases ++ rest.phrases))]
  | lastFactor => []
  | product op sign next rest => .leaf ⟨.product op, [sign.val]⟩ :: (next.phrases ++ rest.phrases)
  | silent next rest => .leaf ⟨.product .times, [next.leading]⟩ :: (next.phrases ++ rest.phrases)
  | factor base => [.node ⟨.factor, base.tokens⟩ base.phrases]
  | raised base sign exponent =>
    [.node ⟨.factor, base.tokens ++ sign.val :: exponent.tokens⟩
      (base.phrases ++ .leaf ⟨.power, [sign.val]⟩ :: exponent.phrases)]
  | name token => [.leaf ⟨.identifier, [token.val]⟩]
  | literal token => [.leaf ⟨.number, [token.val]⟩]
  | parenthesized _ inner _ => inner.phrases
  | vector op keyword opening left comma right closing =>
    [.node ⟨.vector op, keyword.val :: opening.val ::
        (left.tokens ++ comma.val :: (right.tokens ++ [closing.val]))⟩
      (left.phrases ++ right.phrases)]
  | integer number => [.node ⟨.integer, [number.val]⟩ [.leaf ⟨.number, [number.val]⟩]]
  | negativeInteger minus number =>
    [.node ⟨.integer, [minus.val, number.val]⟩
      [.leaf ⟨.negation, [minus.val]⟩, .leaf ⟨.number, [number.val]⟩]]
  | grouped _ inner _ => inner.phrases

/-- Phrases met from left to right: each starts at the token that the last one started at, or
later. -/
inductive Sweeps : (tokens : List Token) → (phrases : List Phrase) → Prop where
  | done : Sweeps tokens []
  | meet (some : phrase.tokens ≠ []) (starts : phrase.tokens <+: tokens)
      (more : Sweeps tokens phrases) : Sweeps tokens (phrase :: phrases)
  | pass (more : Sweeps tokens phrases) : Sweeps (token :: tokens) phrases

namespace Sweeps

variable {tokens others : List Token} {phrases later : List Phrase} {token : Token} {shape : Shape}

theorem behind (sweeps : Sweeps others phrases) : Sweeps (tokens ++ others) phrases := by
  induction tokens with
  | nil => exact sweeps
  | cons token tokens ih => exact .pass ih

theorem append (first : Sweeps tokens phrases) (second : Sweeps others later) :
    Sweeps (tokens ++ others) (phrases ++ later) := by
  induction first with
  | done => exact second.behind
  | meet some starts _ ih => exact .meet some (starts.trans (List.prefix_append _ _)) ih
  | pass _ ih => exact .pass ih

/-- The phrases of what stands in parentheses. -/
theorem enclosed {last : Token} (sweeps : Sweeps tokens phrases) :
    Sweeps (token :: (tokens ++ [last])) phrases := by
  have ended : Sweeps (tokens ++ [last]) (phrases ++ []) := sweeps.append .done
  rw [List.append_nil] at ended
  exact .pass ended

section Trees

variable {trees more : List (Tree Phrase)}

theorem both (first : Sweeps tokens (Tree.preorders trees))
    (second : Sweeps others (Tree.preorders more)) :
    Sweeps (tokens ++ others) (Tree.preorders (trees ++ more)) := by
  rw [Tree.preorders_append]
  exact first.append second

/-- A node comes before what is below it. -/
theorem node (some : tokens ≠ []) (below : Sweeps tokens (Tree.preorders trees)) :
    Sweeps tokens (Tree.preorders [.node ⟨shape, tokens⟩ trees]) := by
  rw [Tree.preorders, Tree.preorders, Tree.preorder, List.append_nil]
  exact .meet some (List.prefix_refl tokens) below

/-- A leaf for the next token. -/
theorem leaf (after : Sweeps (token :: tokens) (Tree.preorders trees)) :
    Sweeps (token :: tokens) (Tree.preorders (.leaf ⟨shape, [token]⟩ :: trees)) :=
  .meet (List.cons_ne_nil _ _) (List.prefix_append [token] tokens) after

/-- A sign between two operands. -/
theorem sign (after : Sweeps tokens (Tree.preorders trees)) :
    Sweeps (token :: tokens) (Tree.preorders (.leaf ⟨shape, [token]⟩ :: trees)) :=
  .leaf (.pass after)

/-- A token alone. -/
theorem alone : Sweeps [token] (Tree.preorders [.leaf ⟨shape, [token]⟩]) :=
  .sign .done

end Trees

/-- A phrase is some of the tokens, one after another. -/
theorem isInfix (sweeps : Sweeps tokens phrases) :
    ∀ phrase ∈ phrases, phrase.tokens ≠ [] ∧ phrase.tokens <:+: tokens := by
  induction sweeps with
  | done => exact nofun
  | meet some starts _ ih => exact List.forall_mem_cons.mpr ⟨⟨some, starts.isInfix⟩, ih⟩
  | pass _ ih =>
    intro phrase member
    obtain ⟨some, inside⟩ := ih phrase member
    exact ⟨some, inside.trans (List.suffix_cons _ _).isInfix⟩

/-- Where the tokens stand in order, so do the first tokens of the phrases. -/
theorem pairwise {r : Token → Token → Prop} (sweeps : Sweeps tokens phrases)
    (same : ∀ token, r token token) (ordered : tokens.Pairwise r) :
    phrases.Pairwise fun earlier later => ∀ first ∈ earlier.tokens.head?,
      ∀ second ∈ later.tokens.head?, r first second := by
  induction sweeps with
  | done => exact .nil
  | pass _ ih => exact ih ordered.tail
  | @meet tokens phrase _ some starts more ih =>
    refine List.pairwise_cons.mpr ⟨fun other member first ofFirst second ofSecond => ?_, ih ordered⟩
    obtain ⟨own, parts⟩ := List.head?_eq_some_iff.mp ofFirst
    rw [parts] at starts
    obtain ⟨beyond, rfl⟩ := starts
    have present : second ∈ first :: (own ++ beyond) :=
      (more.isInfix other member).2.subset (List.mem_of_mem_head? ofSecond)
    rcases List.mem_cons.mp present with rfl | behind
    · exact same second
    · exact (List.pairwise_cons.mp ordered).1 second behind

end Sweeps

namespace Derivation

theorem head?_tokens (derivation : Derivation category) (h : category.isRest = false) :
    derivation.tokens.head? = some derivation.leading := by
  rw [derivation.tokens_eq_leading_cons h]
  rfl

/-- Every node stands at the first of its tokens. -/
theorem spots_trees (derivation : Derivation category) :
    derivation.trees.map (Tree.map Mark.spot) = derivation.phrases.map (Tree.map Phrase.spot) := by
  induction derivation with
  | lastTerm | lastFactor => rfl
  | expression first rest ihFirst ihRest | term first rest ihFirst ihRest =>
    simp [trees, phrases, Mark.spot, Phrase.spot, ihFirst, ihRest, first.head?_tokens rfl, location]
  | negated minus first rest ihFirst ihRest | sum op minus first rest ihFirst ihRest
  | product op minus first rest ihFirst ihRest | silent first rest ihFirst ihRest =>
    simp [trees, phrases, Mark.spot, Phrase.spot, ihFirst, ihRest, location]
  | factor base ih =>
    simp [trees, phrases, Mark.spot, Phrase.spot, ih, base.head?_tokens rfl, location]
  | raised base sign exponent ihBase ihExponent =>
    simp [trees, phrases, Mark.spot, Phrase.spot, ihBase, ihExponent, base.head?_tokens rfl,
      location]
  | parenthesized opening inner closing ih | grouped opening inner closing ih => exact ih
  | vector op keyword opening left comma right closing ihLeft ihRight =>
    simp [trees, phrases, Mark.spot, Phrase.spot, ihLeft, ihRight]
  | name | literal | integer | negativeInteger => simp [trees, phrases, Mark.spot, Phrase.spot]

/-- A walk through the trees of a derivation passes its tokens from left to right. -/
theorem sweeps (derivation : Derivation category) :
    Sweeps derivation.tokens (Tree.preorders derivation.phrases) := by
  induction derivation with
  | lastTerm | lastFactor => exact .done
  | expression first rest ihFirst ihRest | term first rest ihFirst ihRest =>
    exact .node (by simp [first.tokens_ne_nil rfl]) (ihFirst.both ihRest)
  | negated minus first rest ihFirst ihRest =>
    exact .node (List.cons_ne_nil _ _) (.sign (ihFirst.both ihRest))
  | sum op sign next rest ihNext ihRest | product op sign next rest ihNext ihRest =>
    exact .sign (ihNext.both ihRest)
  | silent next rest ihNext ihRest =>
    have both := ihNext.both ihRest
    rw [next.tokens_eq_leading_cons rfl] at both
    rw [tokens, next.tokens_eq_leading_cons rfl]
    exact .leaf both
  | factor base ih => exact .node (base.tokens_ne_nil rfl) ih
  | raised base sign exponent ihBase ihExponent =>
    exact .node (by simp) (ihBase.both (.sign ihExponent))
  | name token => exact .alone
  | literal token => exact .alone
  | parenthesized opening inner closing ih | grouped opening inner closing ih => exact ih.enclosed
  | vector op keyword opening left comma right closing ihLeft ihRight =>
    have after : Sweeps (comma.val :: (right.tokens ++ [closing.val])) _ := ihRight.enclosed
    exact .node (List.cons_ne_nil _ _) (.pass (.pass (ihLeft.both after)))
  | integer number => exact .node (List.cons_ne_nil _ _) .alone
  | negativeInteger minus number => exact .node (List.cons_ne_nil _ _) (.sign .alone)

end Derivation

/-- The tokens of a source stand one after another. -/
theorem Scanner.ascending_of_tokenize {source : String} {tokens : List Token}
    (h : tokenize source = .ok tokens) :
    (beforeEnd tokens).Pairwise fun earlier later =>
      earlier.location.position ≤ later.location.position := by
  obtain ⟨rfl, _⟩ := tokenize_eq_ok_iff.mp h
  have divides : Divides [] source.toList (ofString source).tokens :=
    divides_tokens (ofString source) rfl
  refine (divides.pairwise_precedes.sublist (List.takeWhile_sublist _)).imp_of_mem ?_
  intro earlier later _ member precedes
  have continues : later.kind ≠ .eof := by simpa using List.mem_takeWhile_imp member
  exact Nat.le_of_lt (precedes.rises continues)

/-- Every node of what is read stands at the first of the tokens that it is read from, and a walk
never goes back in the source. -/
theorem Parser.locations_exact (vocabulary : Vocabulary) {grammar : Grammar} {source : String}
    {tree : Expression} (h : read (.standard vocabulary) grammar source = .ok tree) :
    ∃ tokens, ∃ (derivation : Derivation (.expression grammar)) (phrases : Tree Phrase),
      Scanner.tokenize source = .ok tokens ∧ derivation.Permitted vocabulary ∧
      derivation.tokens = beforeEnd tokens ∧ derivation.phrases = [phrases] ∧
      tree.map Node.spot = phrases.map Phrase.spot ∧
      (∀ phrase ∈ phrases.walk, phrase.tokens ≠ [] ∧ phrase.tokens <:+: beforeEnd tokens) ∧
      tree.walk.Pairwise fun earlier later =>
        earlier.location.position ≤ later.location.position := by
  obtain ⟨tokens, scanned, reached⟩ := exists_tokens_of_read h
  obtain ⟨derivation, permitted, same⟩ := readTokens_recognized reached
  obtain ⟨phrases, single⟩ : ∃ phrases, derivation.phrases = [phrases] := by
    cases derivation
    exact ⟨_, rfl⟩
  have spots : tree.map Node.spot = phrases.map Phrase.spot := by
    have both := derivation.spots_trees
    rw [marks_of_readTokens derivation permitted same reached, single, List.map_singleton,
      List.map_singleton, List.singleton_inj, Tree.map_map] at both
    exact both
  have sweeps := derivation.sweeps
  rw [single, Tree.preorders, Tree.preorders, List.append_nil, same] at sweeps
  refine ⟨tokens, derivation, phrases, scanned, permitted, same, single, spots, ?_, ?_⟩
  · rw [Tree.walk_eq_preorder]
    exact sweeps.isInfix
  · have ordered := sweeps.pairwise (fun _ => Nat.le_refl _) (Scanner.ascending_of_tokenize scanned)
    have inPlace : (tree.map Node.spot).preorder.Pairwise fun earlier later =>
        ∀ first ∈ earlier.2, ∀ second ∈ later.2, first.position ≤ second.position := by
      rw [spots, Tree.preorder_map, List.pairwise_map]
      refine ordered.imp fun rises => ?_
      simpa [Phrase.spot] using rises
    rw [Tree.preorder_map, List.pairwise_map] at inPlace
    rw [Tree.walk_eq_preorder]
    exact inPlace.imp fun rises => rises _ rfl _ rfl

/-- In a product without a sign and a quotient by what is in parentheses. -/
theorem Parser.exists_locations_of_quotient :
    ∃ tree, read (.standard Scope.si.vocabulary) .quantity "2 m / (-s)" = .ok tree ∧
      tree.walk.map (fun node => node.location.position) =
        [0, 0, 0, 0, 2, 2, 2, 4, 6, 7, 7, 7, 8, 8] ∧
      tree.walk.Pairwise fun earlier later =>
        earlier.location.position ≤ later.location.position := by
  have accepted : ((read (.standard Scope.si.vocabulary) .quantity "2 m / (-s)").toOption.map
      fun tree => tree.walk.map fun node => node.location.position) =
        some [0, 0, 0, 0, 2, 2, 2, 4, 6, 7, 7, 7, 8, 8] := by
    decide +kernel
  obtain ⟨tree, found, places⟩ := Option.map_eq_some_iff.mp accepted
  have reached := Except.toOption_eq_some.mp found
  obtain ⟨_, _, _, _, _, _, _, _, _, rises⟩ := locations_exact Scope.si.vocabulary reached
  exact ⟨tree, reached, places, rises⟩

end Dimensional
