import Dimensional.Proofs.Parser.Statements

/-! Reading the same tokens twice, with names that mean one thing here and another there. Whatever
relation between the two meanings all operations keep, the readings keep. -/

namespace Dimensional

/-- The tokens of a source that is scanned are all its tokens. -/
theorem Scanner.tokens_of_tokenize {source : String} {tokens : List Token}
    (h : tokenize source = .ok tokens) : tokens = (ofString source).tokens :=
  (tokenize_eq_ok_iff.mp h).1

namespace Parser

/-- How two readings are compared: which tokens can be met, what is seen of a worth, when worths and
unfinished terms are alike, and which errors put an end to the comparison. -/
structure Likeness where
  admits : Token → Prop
  excused : AlgebraError → Prop
  seen : Worth → Worth
  worth : Worth → Worth → Prop
  chain : Chain → Chain → Prop

namespace Likeness

variable (likeness : Likeness)

def Excuses : ParseError → Prop
  | .algebra error _ => likeness.excused error
  | _ => False

/-- What is seen of a node. -/
def look (node : Node) : Node := { node with worth := likeness.seen node.worth }

/-- Nothing can be seen of a difference between two trees, and their worths are alike. -/
def Trees (tree other : Expression) : Prop :=
  tree.map likeness.look = other.map likeness.look ∧
    likeness.worth tree.root.worth other.root.worth

def Lists (trees others : List Expression) : Prop :=
  Tree.maps likeness.look trees = Tree.maps likeness.look others

/-- What has been read so far is alike, and nothing can be seen of a difference between the
trees. -/
def Rests (related : α → α → Prop) (read other : α × List Expression) : Prop :=
  related read.1 other.1 ∧ likeness.Lists read.2 other.2

/-- All tokens ahead can be met. -/
def Admits (state : State) : Prop := ∀ token ∈ state.cursor.ahead, likeness.admits token

/-- Both readings come to the same state, from where they can go on, with related values. -/
def Reaches (related : α → β → Prop) (reached : α × State) (other : β × State) : Prop :=
  related reached.1 other.1 ∧ reached.2 = other.2 ∧ likeness.Admits reached.2

def Agree (related : α → β → Prop) (x : Except ParseError (α × State))
    (y : Except ParseError (β × State)) : Prop :=
  x.Alike likeness.Excuses (likeness.Reaches related) y

/-- All that is done with names and worths keeps them alike. -/
structure Holds (vocabulary other : Vocabulary) : Prop where
  seen_eq : likeness.worth left right → likeness.seen left = likeness.seen right
  value_eq : likeness.worth left right → left.value = right.value
  number (value : Float) : likeness.worth (.number value) (.number value)
  constant (value : Float) :
    likeness.worth (.quantity (.constant value)) (.quantity (.constant value))
  knowsDimension : likeness.admits token → token.kind = .identifier →
    vocabulary.knowsDimension token.text = other.knowsDimension token.text
  named : likeness.admits token → token.kind = .identifier →
    (namedNode vocabulary grammar token numbering).Alike likeness.Excuses
      (fun left right => likeness.Trees left.1 right.1 ∧ left.2 = right.2)
      (namedNode other grammar token numbering)
  ofAtom : likeness.worth left right →
    likeness.worth (.ofAtom grammar left) (.ofAtom grammar right)
  power (times : Float) : likeness.worth left right →
    (left.power times).Alike likeness.excused likeness.worth (right.power times)
  add : likeness.worth left right → likeness.worth leftTerm rightTerm →
    (left.add op leftTerm).Alike likeness.excused likeness.worth (right.add op rightTerm)
  ofFactor : likeness.worth left right →
    (Chain.ofFactor grammar negated left).Alike likeness.excused likeness.chain
      (Chain.ofFactor grammar negated right)
  apply {begun counterpart : Chain} : likeness.chain begun counterpart →
    likeness.worth left right →
    (begun.apply op left).Alike likeness.excused likeness.chain (counterpart.apply op right)
  finish {begun counterpart : Chain} : likeness.chain begun counterpart →
    likeness.worth begun.finish counterpart.finish
  vectorProduct : likeness.worth left right → likeness.worth leftSecond rightSecond →
    (Quantity.vectorProduct op left.toQuantity leftSecond.toQuantity
      (vocabulary.dimension? Quantity.angleKey)).Alike likeness.excused
      (fun product same => likeness.worth (.quantity product) (.quantity same))
      (Quantity.vectorProduct op right.toQuantity rightSecond.toQuantity
        (other.dimension? Quantity.angleKey))

variable {likeness} {state : State} {tree other : Expression} {trees others : List Expression}

theorem Admits.advance (admits : likeness.Admits state) : likeness.Admits state.advance := by
  obtain ⟨⟨ahead, last, ends⟩, depth, numbering⟩ := state
  intro token member
  refine admits token ?_
  cases ahead with
  | nil => exact member
  | cons first rest =>
    by_cases isEnd : first.kind = .eof
    · simpa [State.advance, Cursor.advance, isEnd] using member
    · exact List.mem_cons_of_mem _ (by simpa [State.advance, Cursor.advance, isEnd] using member)

/-- The next token can be met unless it marks the end. -/
theorem Admits.current (admits : likeness.Admits state) (continues : state.kind ≠ .eof) :
    likeness.admits state.current := by
  obtain ⟨⟨ahead, last, ends⟩, depth, numbering⟩ := state
  cases ahead with
  | nil => exact absurd ends continues
  | cons first rest => exact admits first List.mem_cons_self

namespace Trees

theorem look_root (trees : likeness.Trees tree other) :
    likeness.look tree.root = likeness.look other.root := by
  cases tree
  cases other
  exact (Tree.node.inj trees.1).1

theorem location_eq (trees : likeness.Trees tree other) :
    tree.root.location = other.root.location := by
  have same := congrArg Node.location trees.look_root
  exact same

/-- Looking at trees leaves their literals apart from the others. -/
theorem isLiteral_map (likeness : Likeness) (tree : Expression) :
    isLiteral (tree.map likeness.look) = isLiteral tree := by
  obtain ⟨root, children⟩ := tree
  match children with
  | [] => rfl
  | [.node _ _] => rfl
  | _ :: _ :: _ => rfl

theorem isLiteral_eq (trees : likeness.Trees tree other) : isLiteral tree = isLiteral other := by
  rw [← isLiteral_map likeness tree, trees.1, isLiteral_map]

end Trees

/-- Children that look the same hang under nodes that do. -/
theorem trees_node (holds : likeness.Holds vocabulary otherVocabulary) {shape : Shape}
    {location : Location} {left right : Worth} (worths : likeness.worth left right)
    (lists : likeness.Lists trees others) :
    likeness.Trees (.node { shape, location, worth := left } trees)
      (.node { shape, location, worth := right } others) := by
  refine ⟨?_, worths⟩
  rw [Tree.map, Tree.map, show Tree.maps _ trees = Tree.maps _ others from lists, look, look]
  dsimp only
  rw [holds.seen_eq worths]

theorem lists_nil : likeness.Lists [] [] := rfl

theorem lists_cons (first : tree.map likeness.look = other.map likeness.look)
    (rest : likeness.Lists trees others) : likeness.Lists (tree :: trees) (other :: others) := by
  unfold Lists
  rw [Tree.maps, Tree.maps, first, show Tree.maps _ trees = Tree.maps _ others from rest]

section Agree

variable {related further : α → β → Prop}

theorem agree_ok {a : α} {b : β} (values : related a b) (admits : likeness.Admits state) :
    likeness.Agree related (.ok (a, state)) (.ok (b, state)) :=
  .ok ⟨values, rfl, admits⟩

theorem Agree.bind {x : Except ParseError (α × State)} {y : Except ParseError (β × State)}
    {f : α × State → Except ParseError (γ × State)} {g : β × State → Except ParseError (δ × State)}
    {further : γ → δ → Prop} (first : likeness.Agree related x y)
    (next : ∀ a b later, x = .ok (a, later) → related a b → likeness.Admits later →
      likeness.Agree further (f (a, later)) (g (b, later))) :
    likeness.Agree further (x >>= f) (y >>= g) := by
  refine Except.Alike.bind first ?_
  rintro ⟨a, later⟩ ⟨b, _⟩ read _ ⟨values, rfl, admits⟩
  exact next a b later read values admits

/-- An operation that its operands admit in both readings is gone on from. -/
theorem agree_locate {location : Location} {x : Except AlgebraError α} {y : Except AlgebraError β}
    {f : α → Except ParseError (γ × State)} {g : β → Except ParseError (δ × State)}
    {further : γ → δ → Prop} (operated : x.Alike likeness.excused related y)
    (next : ∀ a b, related a b → likeness.Agree further (f a) (g b)) :
    likeness.Agree further (locate location x >>= f) (locate location y >>= g) := by
  have located : (locate location x).Alike likeness.Excuses related (locate location y) :=
    operated.mapError fun _ excused => excused
  exact located.bind fun a b _ _ values => next a b values

theorem agree_enter (limit? : Option Nat) (admits : likeness.Admits state) :
    likeness.Agree (fun _ _ => True) (state.enter limit?).outcome (state.enter limit?).outcome := by
  refine .self ?_
  rintro ⟨_, after⟩ h
  obtain ⟨_, same⟩ := State.enter_eq_ok h
  exact ⟨trivial, rfl, same ▸ admits⟩

theorem agree_expect (kind : Token.Kind) (admits : likeness.Admits state) :
    likeness.Agree (fun _ _ => True) (state.expect kind).outcome (state.expect kind).outcome := by
  refine .self ?_
  rintro ⟨_, after⟩ h
  obtain ⟨_, _, same⟩ := State.expect_eq_ok h
  exact ⟨trivial, rfl, same ▸ admits.advance⟩

end Agree

section Leaf

variable {vocabulary otherVocabulary : Vocabulary}
  (holds : likeness.Holds vocabulary otherVocabulary) (admits : likeness.Admits state)

include holds admits

theorem Holds.literal :
    likeness.Agree likeness.Trees (literal state).outcome (literal state).outcome := by
  rw [literal_outcome]
  refine .self fun reached h => ?_
  obtain ⟨tree, found, rfl⟩ := Except.map_eq_ok.mp h
  refine ⟨⟨rfl, ?_⟩, rfl, admits.advance⟩
  unfold literalNode at found
  split at found
  · cases found
  · cases found
    exact holds.constant _

theorem Holds.name (isName : state.kind = .identifier) :
    likeness.Agree likeness.Trees (name vocabulary grammar state).outcome
      (name otherVocabulary grammar state).outcome := by
  have known := admits.current (by rw [isName]; nofun)
  rw [name_outcome, name_outcome]
  refine (holds.named known isName).map ?_
  rintro ⟨tree, numbering⟩ ⟨other, _⟩ ⟨trees, rfl⟩
  exact ⟨trees, rfl, admits.advance⟩

theorem Holds.integer :
    likeness.Agree likeness.Trees (integer state).outcome (integer state).outcome := by
  refine .self fun reached h => ?_
  rw [integer_outcome] at h
  split at h
  · obtain ⟨⟨number, last⟩, read, same⟩ := Except.bind_eq_ok.mp h
    obtain ⟨_, _, rfl⟩ := magnitude_eq_ok read
    cases same
    exact ⟨⟨rfl, holds.number _⟩, rfl, admits.advance.advance⟩
  · obtain ⟨⟨number, last⟩, read, same⟩ := Except.bind_eq_ok.mp h
    obtain ⟨_, _, rfl⟩ := magnitude_eq_ok read
    cases same
    exact ⟨⟨rfl, holds.number _⟩, rfl, admits.advance⟩

/-- Both readings leave out the same signs of multiplication. -/
theorem Holds.multipliesSilently :
    multipliesSilently vocabulary grammar state =
      multipliesSilently otherVocabulary grammar state := by
  unfold Parser.multipliesSilently
  by_cases isName : state.kind = .identifier
  · have known := admits.current (by rw [isName]; nofun)
    rw [holds.knowsDimension known isName]
  · simp [isName]

end Leaf

/-- The induction follows the calls of the parser in one reading; the other makes the same calls. -/
theorem Holds.reads {setting another : Setting}
    (holds : likeness.Holds setting.vocabulary another.vocabulary)
    (limits : setting.limit? = another.limit?) :
    (∀ grammar state, likeness.Admits state → likeness.Agree likeness.Trees
      (expression setting grammar state).outcome (expression another grammar state).outcome) ∧
    (∀ grammar sum state, likeness.Admits state → ∀ total, likeness.worth sum total →
      likeness.Agree (likeness.Rests likeness.worth) (sumRest setting grammar sum state).outcome
        (sumRest another grammar total state).outcome) ∧
    (∀ grammar state, likeness.Admits state → likeness.Agree likeness.Trees
      (term setting grammar state).outcome (term another grammar state).outcome) ∧
    (∀ grammar afterLiteral chain state, likeness.Admits state →
      ∀ counterpart, likeness.chain chain counterpart →
        likeness.Agree (likeness.Rests likeness.chain)
          (productRest setting grammar afterLiteral chain state).outcome
          (productRest another grammar afterLiteral counterpart state).outcome) ∧
    (∀ grammar state, likeness.Admits state → likeness.Agree likeness.Trees
      (factor setting grammar state).outcome (factor another grammar state).outcome) ∧
    (∀ state, likeness.Admits state → likeness.Agree likeness.Trees
      (exponent setting state).outcome (exponent another state).outcome) ∧
    (∀ grammar state, likeness.Admits state → likeness.Agree likeness.Trees
      (atom setting grammar state).outcome (atom another grammar state).outcome) := by
  refine expression.mutual_induct setting _ _ _ _ _ _ _ ?expression ?lastTerm ?sum ?negated ?term
    ?product ?silent ?lastFactor ?factor ?grouped ?integer ?name ?literal ?parenthesized ?vector
    ?nothing
  case expression =>
    intro grammar state ihTerm ihRest admits
    rw [expression_outcome, expression_outcome, ← limits]
    refine (agree_enter _ admits).bind fun _ _ opened entered _ inside => ?_
    have le := Step.remaining_le_of_outcome entered
    dsimp only
    split
    · refine (ihTerm opened le inside).bind fun first same later read trees further => ?_
      refine (ihRest opened le first later (Step.remaining_le_of_outcome read) further _
        trees.2).bind ?_
      rintro ⟨sum, rest⟩ ⟨total, others⟩ last _ ⟨totals, lists⟩ ends
      exact agree_ok (trees_node holds totals (lists_cons trees.1 lists)) ends
    · exact .same _
  case lastTerm =>
    intro grammar sum state none admits total worths
    rw [sumRest_outcome, sumRest_outcome, none]
    exact agree_ok ⟨worths, lists_nil⟩ admits
  case sum =>
    intro grammar sum state op some ihTerm ihRest admits total worths
    rw [sumRest_outcome, sumRest_outcome, some]
    refine (ihTerm admits.advance).bind fun next same later read trees further => ?_
    refine agree_locate (holds.add worths trees.2) fun sum total worths => ?_
    refine (ihRest later (Step.remaining_le_of_outcome read) sum further total worths).bind ?_
    rintro ⟨_, rest⟩ ⟨_, others⟩ last _ ⟨totals, lists⟩ ends
    exact agree_ok ⟨totals, lists_cons rfl (lists_cons trees.1 lists)⟩ ends
  case negated =>
    intro grammar state minus ihFactor ihRest admits
    rw [term_outcome, term_outcome, if_pos minus, if_pos minus]
    refine (ihFactor admits.advance).bind fun first same later read trees further => ?_
    dsimp only
    rw [trees.location_eq, ← trees.isLiteral_eq]
    refine agree_locate (holds.ofFactor trees.2) fun chain counterpart begun => ?_
    refine (ihRest first later (Step.remaining_le_of_outcome read) chain further _ begun).bind ?_
    rintro ⟨_, rest⟩ ⟨_, others⟩ last _ ⟨chains, lists⟩ ends
    refine agree_ok (trees_node holds (holds.finish chains) ?_) ends
    exact lists_cons rfl (lists_cons trees.1 lists)
  case term =>
    intro grammar state plain ihFactor ihRest admits
    rw [term_outcome, term_outcome, if_neg plain, if_neg plain]
    refine (ihFactor admits).bind fun first same later read trees further => ?_
    dsimp only
    rw [trees.location_eq, ← trees.isLiteral_eq]
    refine agree_locate (holds.ofFactor trees.2) fun chain counterpart begun => ?_
    refine (ihRest first later (Step.remaining_le_of_outcome read) chain further _ begun).bind ?_
    rintro ⟨_, rest⟩ ⟨_, others⟩ last _ ⟨chains, lists⟩ ends
    exact agree_ok (trees_node holds (holds.finish chains) (lists_cons trees.1 lists)) ends
  case product =>
    intro grammar afterLiteral chain state op some ihFactor ihRest admits counterpart chains
    rw [productRest_outcome, productRest_outcome, some]
    refine (ihFactor admits.advance).bind fun next same later read trees further => ?_
    dsimp only
    rw [← trees.isLiteral_eq]
    refine agree_locate (holds.apply chains trees.2) fun chain counterpart extended => ?_
    refine (ihRest next later (Step.remaining_le_of_outcome read) chain further _ extended).bind ?_
    rintro ⟨_, rest⟩ ⟨_, others⟩ last _ ⟨chains, lists⟩ ends
    exact agree_ok ⟨chains, lists_cons rfl (lists_cons trees.1 lists)⟩ ends
  case silent =>
    intro grammar afterLiteral chain state none silently ihFactor ihRest admits counterpart chains
    rw [productRest_outcome, productRest_outcome, none]
    simp only [← holds.multipliesSilently admits, if_pos silently]
    refine (ihFactor admits).bind fun next same later read trees further => ?_
    refine agree_locate (holds.apply chains trees.2) fun chain counterpart extended => ?_
    refine (ihRest later (Step.remaining_le_of_outcome read) chain further _ extended).bind ?_
    rintro ⟨_, rest⟩ ⟨_, others⟩ last _ ⟨chains, lists⟩ ends
    exact agree_ok ⟨chains, lists_cons rfl (lists_cons trees.1 lists)⟩ ends
  case lastFactor =>
    intro grammar afterLiteral chain state none signed admits counterpart chains
    rw [productRest_outcome, productRest_outcome, none]
    simp only [← holds.multipliesSilently admits, if_neg signed]
    exact agree_ok ⟨chains, lists_nil⟩ admits
  case factor =>
    intro grammar state ihAtom ihExponent admits
    rw [factor_outcome, factor_outcome]
    refine (ihAtom admits).bind fun base same later read trees further => ?_
    dsimp only
    split
    · rename_i power
      have le := Step.remaining_le_of_outcome read
      refine (ihExponent later le power further.advance).bind fun times times' last
        _ powers ends => ?_
      have value : times.root.value = times'.root.value := holds.value_eq powers.2
      dsimp only
      rw [powers.location_eq, value]
      refine agree_locate (holds.power _ (holds.ofAtom trees.2)) fun raised raised' worths => ?_
      refine agree_ok (trees_node holds worths ?_) ends
      exact lists_cons trees.1 (lists_cons rfl (lists_cons powers.1 lists_nil))
    · have children := lists_cons trees.1 lists_nil
      exact agree_ok (trees_node holds (holds.ofAtom trees.2) children) further
  case grouped =>
    intro state opening ihExpression admits
    rw [exponent_outcome, exponent_outcome, if_pos opening, if_pos opening]
    refine (ihExpression admits.advance).bind fun inner same later _ trees further => ?_
    refine (agree_expect _ further).bind fun _ _ last _ _ ends => ?_
    exact agree_ok trees ends
  case integer =>
    intro state plain admits
    rw [exponent_outcome, exponent_outcome, if_neg plain, if_neg plain]
    exact holds.integer admits
  case name =>
    intro grammar state opens admits
    simp only [atom_outcome, opens]
    exact holds.name admits (Grammar.opening?_name_iff.mp opens)
  case literal =>
    intro grammar state opens admits
    simp only [atom_outcome, opens]
    exact holds.literal admits
  case parenthesized =>
    intro grammar state opens ihExpression admits
    simp only [atom_outcome, opens]
    refine (ihExpression admits.advance).bind fun inner same later _ trees further => ?_
    refine (agree_expect _ further).bind fun _ _ last _ _ ends => ?_
    exact agree_ok trees ends
  case vector =>
    intro grammar state op opens ihLeft ihRight admits
    simp only [atom_outcome, opens]
    refine (agree_expect _ admits.advance).bind fun _ _ opened started _ inside => ?_
    have le := Step.remaining_le_of_outcome started
    refine (ihLeft opened le inside).bind fun left left' later read lefts further => ?_
    refine (agree_expect _ further).bind fun _ _ separated parted _ beyond => ?_
    refine (ihRight opened le later (Step.remaining_le_of_outcome read) separated
      (Step.remaining_le_of_outcome parted) beyond).bind fun right right' last _ rights ends => ?_
    refine (agree_expect _ ends).bind fun _ _ closed _ _ finished => ?_
    refine agree_locate (holds.vectorProduct lefts.2 rights.2) fun product product' worths => ?_
    have children := lists_cons lefts.1 (lists_cons rights.1 lists_nil)
    exact agree_ok (trees_node holds worths children) finished
  case nothing =>
    intro grammar state closed admits
    simp only [atom_outcome, closed]
    exact .same _

theorem admits_ofTokens {tokens : List Token} (known : ∀ token ∈ tokens, likeness.admits token) :
    likeness.Admits (.ofCursor (.ofTokens tokens)) := by
  intro token member
  refine known token ?_
  change token ∈ (Cursor.ofTokens tokens).ahead at member
  unfold Cursor.ofTokens at member
  split at member
  · cases member
  · split at member
    · exact List.dropLast_subset _ member
    · exact member

section Whole

variable {setting another : Setting} (holds : likeness.Holds setting.vocabulary another.vocabulary)
  (limits : setting.limit? = another.limit?)

include holds limits

theorem Holds.apart (admits : likeness.Admits state) :
    likeness.Agree likeness.Trees (state.apart (expression setting grammar)).outcome
      (state.apart (expression another grammar)).outcome := by
  rw [State.apart_outcome, State.apart_outcome]
  refine Except.Alike.map ((holds.reads limits).1 grammar _ admits) ?_
  rintro ⟨tree, after⟩ ⟨other, _⟩ ⟨trees, rfl, further⟩
  exact ⟨trees, rfl, further⟩

/-- Both readings take one expression after another. -/
theorem Holds.statements (grammar : Grammar) (state : State) (admits : likeness.Admits state) :
    likeness.Agree likeness.Lists (statements setting grammar state).outcome
      (statements another grammar state).outcome := by
  induction state using statements_induction with
  | atEnd state ends =>
    rw [statements_of_end ends, statements_of_end ends]
    exact agree_ok lists_nil admits
  | semicolon state isSemicolon ih =>
    rw [statements_of_semicolon isSemicolon, statements_of_semicolon isSemicolon]
    exact ih admits.advance
  | expression state goesOn ih =>
    rw [statements_of_expression goesOn, statements_of_expression goesOn]
    refine (holds.apart limits admits).bind fun tree other later read trees further => ?_
    dsimp only
    split
    · rename_i stops
      refine (ih later (Step.remaining_le_of_outcome read) stops further).bind
        fun _ _ last _ lists ends => ?_
      exact agree_ok (lists_cons trees.1 lists) ends
    · exact .same _

variable {tokens : List Token} (known : ∀ token ∈ tokens, likeness.admits token)

include known

theorem Holds.readTokens (grammar : Grammar) :
    (readTokens setting grammar tokens).Alike likeness.Excuses likeness.Trees
      (readTokens another grammar tokens) := by
  unfold Parser.readTokens
  rw [whole_result, whole_result]
  refine Except.Alike.bind ((holds.reads limits).1 grammar _ (admits_ofTokens known)) ?_
  rintro ⟨tree, after⟩ ⟨other, _⟩ _ _ ⟨trees, rfl, _⟩
  dsimp only
  split
  · exact .ok trees
  · exact .same _

theorem Holds.readStatements (grammar : Grammar) :
    (readStatements setting grammar tokens).Alike likeness.Excuses likeness.Lists
      (readStatements another grammar tokens) := by
  unfold Parser.readStatements
  rw [Step.result_eq_map_outcome, Step.result_eq_map_outcome]
  exact Except.Alike.map (holds.statements limits grammar _ (admits_ofTokens known))
    fun _ _ reaches => reaches.1

end Whole

section Source

variable {vocabulary otherVocabulary : Vocabulary}
  (holds : likeness.Holds vocabulary otherVocabulary) {source : String}
  (known : ∀ token ∈ (Scanner.ofString source).tokens, likeness.admits token)

include holds known

/-- What the scanner refuses is refused in both readings. -/
theorem Holds.read (grammar : Grammar) :
    (read (.standard vocabulary) grammar source).Alike likeness.Excuses likeness.Trees
      (read (.standard otherVocabulary) grammar source) := by
  have limits : (Setting.standard vocabulary).limit? = (Setting.standard otherVocabulary).limit? :=
    rfl
  cases scanned : Scanner.tokenize source with
  | error token =>
    unfold Parser.read State.ofSource
    rw [scanned]
    exact .same _
  | ok tokens =>
    obtain rfl := Scanner.tokens_of_tokenize scanned
    rw [read_eq_readTokens scanned, read_eq_readTokens scanned]
    exact holds.readTokens limits known grammar

theorem Holds.readAll (grammar : Grammar) :
    (readAll (.standard vocabulary) grammar source).Alike likeness.Excuses likeness.Lists
      (readAll (.standard otherVocabulary) grammar source) := by
  have limits : (Setting.standard vocabulary).limit? = (Setting.standard otherVocabulary).limit? :=
    rfl
  cases scanned : Scanner.tokenize source with
  | error token =>
    unfold Parser.readAll State.ofSource
    rw [scanned]
    exact .same _
  | ok tokens =>
    obtain rfl := Scanner.tokens_of_tokenize scanned
    rw [readAll_eq_readStatements scanned, readAll_eq_readStatements scanned]
    exact holds.readStatements limits known grammar

end Source

end Likeness

end Parser

end Dimensional
