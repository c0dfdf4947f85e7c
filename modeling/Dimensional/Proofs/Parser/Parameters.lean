import Dimensional.Proofs.Parser.Statements
import Dimensional.Proofs.Tree.Parameters

/-! Free names are numbered in the order in which they first appear in the source, and the parameters
of an expression are its free names in that order. -/

namespace Dimensional

open Dimensional.Parser

/-- Whether a name stands for a quantity that is neither known by its value nor without dimensions,
and is no dimension itself. -/
def Vocabulary.isFreeName (vocabulary : Vocabulary) (name : String) : Bool :=
  (vocabulary.resolve? name).any (isFree vocabulary name)

/-- The names among some tokens, in order. -/
def identifiers (tokens : List Token) : List String :=
  (tokens.filter fun token => token.kind = .identifier).map Token.text

/-- The free names among some tokens, in order. -/
def Vocabulary.freeNames (vocabulary : Vocabulary) (tokens : List Token) : List String :=
  (identifiers tokens).filter vocabulary.isFreeName

section Tokens

variable {vocabulary : Vocabulary} {tokens rest : List Token} {kind : Token.Kind}

theorem identifiers_nil : identifiers [] = [] := rfl

theorem identifiers_append :
    identifiers (tokens ++ rest) = identifiers tokens ++ identifiers rest := by
  simp [identifiers]

theorem identifiers_name (token : Terminal .identifier) :
    identifiers [token.val] = [token.val.text] := by
  simp [identifiers, token.property]

/-- Signs, literals and parentheses are no names. -/
theorem identifiers_sign (sign : Terminal kind) (other : kind ≠ .identifier) :
    identifiers (sign.val :: rest) = identifiers rest := by
  have noName : sign.val.kind ≠ .identifier := by rwa [sign.property]
  simp [identifiers, noName]

theorem freeNames_nil : vocabulary.freeNames [] = [] := rfl

theorem freeNames_append :
    vocabulary.freeNames (tokens ++ rest) =
      vocabulary.freeNames tokens ++ vocabulary.freeNames rest := by
  simp [Vocabulary.freeNames, identifiers_append]

theorem freeNames_sign (sign : Terminal kind) (other : kind ≠ .identifier) :
    vocabulary.freeNames (sign.val :: rest) = vocabulary.freeNames rest := by
  rw [Vocabulary.freeNames, identifiers_sign sign other, Vocabulary.freeNames]

end Tokens

theorem AddOp.kind_ne_identifier (op : AddOp) : op.kind ≠ .identifier := by
  cases op <;> nofun

theorem MulOp.kind_ne_identifier (op : MulOp) : op.kind ≠ .identifier := by
  cases op <;> nofun

theorem VectorOp.kind_ne_identifier (op : VectorOp) : op.kind ≠ .identifier := by
  cases op <;> nofun

/-- A node has the number of its name among some names, if that name is free, and none otherwise. -/
structure Node.IsNumberedIn (vocabulary : Vocabulary) (names : List String) (node : Node) :
    Prop where
  isName : node.identifier?.isSome = decide (node.shape = .identifier)
  isFree : node.parameter?.isSome = node.identifier?.any vocabulary.isFreeName
  place : ∀ name ∈ node.identifier?, ∀ number ∈ node.parameter?, names.idxOf? name = some number

namespace Node.IsNumberedIn

variable {vocabulary : Vocabulary} {names more : List String} {node : Node}

theorem append (numbered : node.IsNumberedIn vocabulary names) :
    node.IsNumberedIn vocabulary (names ++ more) :=
  ⟨numbered.isName, numbered.isFree, fun name isName number isNumber =>
    idxOf?_append (numbered.place name isName number isNumber)⟩

/-- A node of anything but a name has no number. -/
theorem of_shape (other : node.shape ≠ .identifier) (nameless : node.identifier? = none)
    (unnumbered : node.parameter? = none) : node.IsNumberedIn vocabulary names := by
  constructor <;> simp [other, nameless, unnumbered]

end Node.IsNumberedIn

/-- All nodes of some trees are numbered. -/
def AreNumberedIn (vocabulary : Vocabulary) (names : List String) (trees : List Expression) :
    Prop :=
  ∀ node ∈ Tree.preorders trees, node.IsNumberedIn vocabulary names

namespace AreNumberedIn

variable {vocabulary : Vocabulary} {names : List String} {tree : Expression}
  {trees : List Expression} {numbering : Numbering}

theorem nil : AreNumberedIn vocabulary names [] := by
  simp [AreNumberedIn, Tree.preorders]

theorem cons (first : AreNumberedIn vocabulary names [tree])
    (rest : AreNumberedIn vocabulary names trees) :
    AreNumberedIn vocabulary names (tree :: trees) := by
  intro node member
  rw [Tree.preorders, List.mem_append] at member
  rcases member with inFirst | inRest
  · exact first node (by simpa [Tree.preorders] using inFirst)
  · exact rest node inRest

theorem node {root : Node} (numbered : root.IsNumberedIn vocabulary names)
    (children : AreNumberedIn vocabulary names trees) :
    AreNumberedIn vocabulary names [.node root trees] := by
  intro node member
  simp only [Tree.preorders, Tree.preorder, List.append_nil, List.mem_cons] at member
  rcases member with rfl | below
  · exact numbered
  · exact children node below

theorem leaf {root : Node} (numbered : root.IsNumberedIn vocabulary names) :
    AreNumberedIn vocabulary names [.leaf root] :=
  node numbered nil

theorem signLeaf {shape : Shape} {token : Token} (other : shape ≠ .identifier) :
    AreNumberedIn vocabulary names [Dimensional.signLeaf shape token] :=
  leaf (.of_shape other rfl rfl)

/-- Names numbered later change nothing. -/
theorem later {after : Numbering} (numbered : AreNumberedIn vocabulary numbering.names trees)
    (h : after = numbering.including names) : AreNumberedIn vocabulary after.names trees := by
  intro node member
  rw [h, Numbering.names_including]
  exact (numbered node member).append

end AreNumberedIn

section Leaf

variable {vocabulary : Vocabulary} {grammar : Grammar} {token : Token} {leaf : Expression}
  {numbering after : Numbering}

theorem areNumberedIn_literalNode {names : List String} (found : literalNode token = .ok leaf) :
    AreNumberedIn vocabulary names [leaf] := by
  unfold literalNode at found
  split at found
  · cases found
  · cases found
    exact .leaf (.of_shape nofun rfl rfl)

/-- Only free names change the numbering. -/
theorem numbering_of_namedNode (isName : token.kind = .identifier)
    (named : namedNode vocabulary grammar token numbering = .ok (leaf, after)) :
    after = numbering.including (vocabulary.freeNames [token]) ∧
      AreNumberedIn vocabulary after.names [leaf] := by
  have names : identifiers [token] = [token.text] := identifiers_name ⟨token, isName⟩
  obtain ⟨quantity, resolved, _, same⟩ := namedNode_eq_ok named
  have decided : vocabulary.isFreeName token.text = isFree vocabulary token.text quantity := by
    rw [Vocabulary.isFreeName, Option.mem_def.mp resolved, Option.any_some]
  split at same
  · rename_i free
    cases same
    rw [free] at decided
    have included : vocabulary.freeNames [token] = [token.text] := by
      simp [Vocabulary.freeNames, names, decided]
    refine ⟨by rw [included]; rfl, .leaf ⟨rfl, ?_, ?_⟩⟩
    · exact decided.symm
    · intro name isText number isNumber
      cases isText
      cases isNumber
      exact Numbering.idxOf?_numberFor
  · rename_i bound
    cases same
    rw [Bool.eq_false_iff.mpr bound] at decided
    have omitted : vocabulary.freeNames [token] = [] := by
      simp [Vocabulary.freeNames, names, decided]
    refine ⟨by rw [omitted]; rfl, .leaf ⟨rfl, ?_, ?_⟩⟩
    · exact decided.symm
    · intro name _ number isNumber
      cases isNumber

end Leaf

namespace Derivation.Evaluates

variable {setting : Setting} {derivation : Derivation category} {carried : category.Carried}
  {depth : Nat} {numbering after : Numbering} {value : category.Evaluated}

/-- Evaluation numbers the free names in the order of the tokens. -/
theorem numbering_eq (h : derivation.Evaluates setting carried depth numbering value after) :
    after = numbering.including (setting.vocabulary.freeNames derivation.tokens) := by
  induction h with
  | expression _ _ _ ihFirst ihRest | term _ _ _ ihFirst ihRest | silent _ _ _ ihFirst ihRest =>
    simp [ihRest, ihFirst, freeNames_append, Numbering.including_append]
  | sum _ _ _ ihNext ihRest | product _ _ _ ihNext ihRest | negated _ _ _ ihNext ihRest =>
    simp [ihRest, ihNext, freeNames_sign, AddOp.kind_ne_identifier, MulOp.kind_ne_identifier,
      freeNames_append, Numbering.including_append]
  | factor _ ih => exact ih
  | raised _ _ _ ihBase ihExponent =>
    simp [ihExponent, ihBase, freeNames_append, freeNames_sign, Numbering.including_append]
  | @name _ _ _ _ token _ named => exact (numbering_of_namedNode token.property named).1
  | lastTerm | lastFactor | literal | integer | negativeInteger =>
    simp [freeNames_sign, freeNames_nil, Numbering.including]
  | parenthesized _ ih | grouped _ ih =>
    simp [ih, freeNames_sign, freeNames_append, freeNames_nil]
  | vector _ _ _ ihLeft ihRight =>
    simp [ihRight, ihLeft, freeNames_sign, VectorOp.kind_ne_identifier, freeNames_append,
      freeNames_nil, Numbering.including_append]

/-- Evaluation gives nodes that are numbered. -/
theorem areNumberedIn (h : derivation.Evaluates setting carried depth numbering value after) :
    AreNumberedIn setting.vocabulary after.names (category.trees value) := by
  induction h with
  | expression _ _ ofRest ihFirst ihRest =>
    exact .node (.of_shape nofun rfl rfl) (.cons (ihFirst.later ofRest.numbering_eq) ihRest)
  | lastTerm | lastFactor => exact .nil
  | sum _ _ ofRest ihNext ihRest | product _ _ ofRest ihNext ihRest
  | silent _ _ ofRest ihNext ihRest =>
    exact .cons (.signLeaf (by simp)) (.cons (ihNext.later ofRest.numbering_eq) ihRest)
  | term _ _ ofRest ihFirst ihRest =>
    exact .node (.of_shape nofun rfl rfl) (.cons (ihFirst.later ofRest.numbering_eq) ihRest)
  | negated _ _ ofRest ihFirst ihRest =>
    exact .node (.of_shape nofun rfl rfl)
      (.cons (.signLeaf (by simp)) (.cons (ihFirst.later ofRest.numbering_eq) ihRest))
  | factor _ ih => exact .node (.of_shape nofun rfl rfl) ih
  | raised _ ofExponent _ ihBase ihExponent =>
    exact .node (.of_shape nofun rfl rfl)
      (.cons (ihBase.later ofExponent.numbering_eq) (.cons (.signLeaf (by simp)) ihExponent))
  | @name _ _ _ _ token _ named => exact (numbering_of_namedNode token.property named).2
  | literal found => exact areNumberedIn_literalNode found
  | parenthesized _ ih | grouped _ ih => exact ih
  | vector _ ofRight _ ihLeft ihRight =>
    exact .node (.of_shape nofun rfl rfl) (.cons (ihLeft.later ofRight.numbering_eq) ihRight)
  | integer found => exact .node (.of_shape nofun rfl rfl) (areNumberedIn_literalNode found)
  | negativeInteger found =>
    exact .node (.of_shape nofun rfl rfl)
      (.cons (.signLeaf (by simp)) (areNumberedIn_literalNode found))

end Derivation.Evaluates

/-- The names of the trees of a derivation are those of its tokens, in order. -/
theorem Derivation.identifiers_trees (derivation : Derivation category) :
    (Tree.preorders derivation.trees).filterMap Mark.identifier? =
      identifiers derivation.tokens := by
  induction derivation with
  | name token =>
    simp [trees, Tree.leaf, Tree.preorders, Tree.preorder, identifiers_name]
  | lastTerm | lastFactor | literal | integer | negativeInteger =>
    simp [trees, Tree.leaf, Tree.preorders, Tree.preorder, identifiers_nil, identifiers_sign]
  | expression | term | negated | silent | factor | raised =>
    simp [trees, Tree.leaf, Tree.preorders, Tree.preorder, Tree.preorders_append,
      identifiers_append, identifiers_sign, *]
  | sum op | product op | vector op =>
    simp [trees, Tree.leaf, Tree.preorders, Tree.preorder, Tree.preorders_append,
      identifiers_append, identifiers_nil, identifiers_sign, op.kind_ne_identifier, *]
  | parenthesized | grouped =>
    simp [trees, identifiers_append, identifiers_nil, identifiers_sign, *]

/-- The numbered names of a tree, sorted by their numbers, are all the names that are numbered. -/
theorem AreNumberedIn.parameters {vocabulary : Vocabulary} {names : List String} {tree : Expression}
    (numbered : AreNumberedIn vocabulary names [tree]) (distinct : names.Nodup)
    (used : ∀ name ∈ names, vocabulary.isFreeName name ∧ ∃ node ∈ tree.preorder,
      node.identifier? = some name) : tree.parameters = names.zipIdx := by
  have within : ∀ node ∈ tree.preorder, node.IsNumberedIn vocabulary names := by
    simpa [AreNumberedIn, Tree.preorders] using numbered
  refine sorted_eq_zipIdx fun entry => ?_
  rw [Tree.walk_eq_preorder, List.mem_filterMap]
  constructor
  · rintro ⟨node, member, found⟩
    obtain ⟨isName, isNumber⟩ := Node.parameterEntry?_eq_some_iff.mp found
    obtain ⟨bound, place, _⟩ := List.idxOf?_eq_some_iff.mp
      ((within node member).place _ isName _ isNumber)
    rw [List.getElem?_eq_getElem bound, place]
  · intro placed
    obtain ⟨free, node, member, isName⟩ := used entry.1 (List.mem_of_getElem? placed)
    have unique := within node member
    have some : node.parameter?.isSome := by rw [unique.isFree, isName]; exact free
    obtain ⟨number, isNumber⟩ := Option.isSome_iff_exists.mp some
    obtain ⟨bound, place, _⟩ := List.idxOf?_eq_some_iff.mp (unique.place _ isName _ isNumber)
    have same : number = entry.2 := by
      rw [← List.getElem?_inj bound distinct, placed, List.getElem?_eq_getElem bound, place]
    exact ⟨node, member, Node.parameterEntry?_eq_some_iff.mpr ⟨isName, same ▸ isNumber⟩⟩

namespace Derivation.Evaluates

variable {setting : Setting}

theorem identifiers {derivation : Derivation category} {carried : category.Carried}
    {depth : Nat} {numbering after : Numbering} {value : category.Evaluated}
    (h : derivation.Evaluates setting carried depth numbering value after) :
    (Tree.preorders (category.trees value)).filterMap Node.identifier? =
      Dimensional.identifiers derivation.tokens := by
  rw [← derivation.identifiers_trees, ← trees_of_evaluate h.evaluate_eq_ok, ← Tree.maps_eq_map,
    Tree.preorders_map, List.filterMap_map]
  rfl

/-- The parameters of an expression that starts to number are its free names. -/
theorem parameters {derivation : Derivation (.expression grammar)} {depth : Nat}
    {after : Numbering} {tree : Expression}
    (h : derivation.Evaluates setting () depth .empty tree after) :
    tree.parameters = (setting.vocabulary.freeNames derivation.tokens).eraseDups.zipIdx := by
  have names : after.names = (setting.vocabulary.freeNames derivation.tokens).eraseDups := by
    rw [h.numbering_eq, Numbering.names_including]
    simp [Numbering.empty]
  have distinct : after.names.Nodup := by
    rw [h.numbering_eq]
    exact Numbering.nodup_including .nil
  rw [← names]
  refine AreNumberedIn.parameters h.areNumberedIn distinct fun name member => ?_
  rw [names, List.mem_eraseDups] at member
  obtain ⟨isName, free⟩ := List.mem_filter.mp member
  rw [← h.identifiers, List.mem_filterMap] at isName
  obtain ⟨node, inside, isName⟩ := isName
  exact ⟨free, node, by simpa [Category.trees, Tree.preorders] using inside, isName⟩

end Derivation.Evaluates

namespace Parser

variable {setting : Setting} {grammar : Grammar} {tokens : List Token} {tree : Expression}

theorem parameters_of_readTokens (h : readTokens setting grammar tokens = .ok tree) :
    tree.parameters = (setting.vocabulary.freeNames (beforeEnd tokens)).eraseDups.zipIdx := by
  obtain ⟨derivation, numbering, _, same, evaluated⟩ := readTokens_evaluated h
  rw [evaluated.parameters, same]

theorem parameters_of_readsAlone {location : Location} {part : List Token}
    (noEnd : ∀ token ∈ part, token.kind ≠ .eof)
    (h : ReadsAlone setting grammar location part tree) :
    tree.parameters = (setting.vocabulary.freeNames part).eraseDups.zipIdx := by
  rw [parameters_of_readTokens h, beforeEnd_append noEnd]
  simp [beforeEnd, Token.eof]

/-- Wherever an expression is read, its free names are numbered behind the names that have numbers
already, in the order in which they first appear, and no other node has a number. The parameters of
an expression that is read alone or as one of several are its own free names in that order. -/
theorem numbering_exact (setting : Setting) (grammar : Grammar) :
    (∀ state tree after, (expression setting grammar state).outcome = .ok (tree, after) →
      ∃ tokens, state.Spans tokens after ∧
        after.numbering.names = state.numbering.names ++
          ((setting.vocabulary.freeNames tokens).filter fun name =>
            name ∉ state.numbering.names).eraseDups ∧
        (∀ name number, state.numbering.names.idxOf? name = some number →
          after.numbering.names.idxOf? name = some number) ∧
        ∀ node ∈ tree.walk, node.IsNumberedIn setting.vocabulary after.numbering.names) ∧
    (∀ tokens tree, readTokens setting grammar tokens = .ok tree →
      tree.parameters = (setting.vocabulary.freeNames (beforeEnd tokens)).eraseDups.zipIdx) ∧
    (∀ tokens trees, readStatements setting grammar tokens = .ok trees →
      List.Forall₂ (fun part tree =>
        tree.parameters = (setting.vocabulary.freeNames part).eraseDups.zipIdx)
        (segments tokens) trees) := by
  refine ⟨?_, fun tokens tree h => parameters_of_readTokens h, ?_⟩
  · intro state tree after h
    obtain ⟨derivation, _, spans, _, evaluated⟩ := (recognized setting).1 _ _ _ _ h
    have names := congrArg Numbering.names evaluated.numbering_eq
    rw [Numbering.names_including] at names
    refine ⟨derivation.tokens, spans, names, ?_, ?_⟩
    · intro name number place
      rw [names]
      exact idxOf?_append place
    · rw [Tree.walk_eq_preorder]
      simpa [AreNumberedIn, Category.trees, Tree.preorders] using evaluated.areNumberedIn
  · intro tokens trees h
    have alone := (List.forall₂_and_left _ _).mpr
      ⟨fun part member => kind_ne_eof_of_mem_segments member, (readStatements_eq_ok_iff .start).mp h⟩
    exact alone.imp fun part tree both => parameters_of_readsAlone both.1 both.2

/-- A name that has a number already keeps it, wherever it stands in a source. -/
theorem exists_numbering_of_product :
    ∃ vocabulary tokens tree after,
      Scanner.tokenize "t * (d + d)" = .ok tokens ∧
      (expression (.standard vocabulary) .quantity
        ((State.ofCursor (.ofTokens tokens)).withNumbering ⟨["d"]⟩)).outcome = .ok (tree, after) ∧
      after.numbering.names = ["d", "t"] ∧
      (∀ node ∈ tree.walk, node.IsNumberedIn vocabulary ["d", "t"]) ∧
      (∀ other, readTokens (.standard vocabulary) .quantity tokens = .ok other →
        other.parameters = [("t", 0), ("d", 1)]) := by
  let scope := (Scope.si.bind "d" (.ofDimension ⟨"meter", some "m", 2⟩)).bind "t"
    (.ofDimension ⟨"second", some "s", 5⟩)
  let tokens : List Token :=
    [⟨.identifier, "t", .start⟩, ⟨.times, "*", ⟨2, 1, 3⟩⟩, ⟨.openParen, "(", ⟨4, 1, 5⟩⟩,
      ⟨.identifier, "d", ⟨5, 1, 6⟩⟩, ⟨.plus, "+", ⟨7, 1, 8⟩⟩, ⟨.identifier, "d", ⟨9, 1, 10⟩⟩,
      ⟨.closeParen, ")", ⟨10, 1, 11⟩⟩, .eof ⟨11, 1, 12⟩]
  let state := (State.ofCursor (.ofTokens tokens)).withNumbering ⟨["d"]⟩
  have scanned : Scanner.tokenize "t * (d + d)" = .ok tokens :=
    Except.toOption_eq_some.mp (by decide +kernel)
  let outcome := (expression (.standard scope.vocabulary) .quantity state).outcome
  have both : outcome.toOption.map (fun reached => reached.2.numbering.names) = some ["d", "t"] := by
    decide +kernel
  obtain ⟨⟨tree, after⟩, some, names⟩ := Option.map_eq_some_iff.mp both
  have read := Except.toOption_eq_some.mp some
  have numbered := numbering_exact (.standard scope.vocabulary) .quantity
  obtain ⟨_, _, _, _, nodes⟩ := numbered.1 state tree after read
  rw [names] at nodes
  refine ⟨scope.vocabulary, tokens, tree, after, scanned, read, names, nodes, fun other alone => ?_⟩
  rw [numbered.2.1 tokens other alone]
  decide +kernel

end Parser

end Dimensional
