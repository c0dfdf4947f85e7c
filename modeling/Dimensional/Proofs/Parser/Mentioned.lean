import Dimensional.Proofs.Dimension.Table
import Dimensional.Proofs.Parser.Likeness
import Dimensional.Proofs.Parser.Parameters

/-! What is read depends on the names that are mentioned only. Whatever else a scope knows can be
left out or added. -/

namespace Dimensional

/-- A name means the same in two vocabularies. -/
def Vocabulary.AgreeOn (left right : Vocabulary) (name : String) : Prop :=
  left.quantity? name = right.quantity? name ∧ left.dimension? name = right.dimension? name

namespace Vocabulary.AgreeOn

variable {left right : Vocabulary} {name : String}

theorem resolve?_eq (agree : left.AgreeOn right name) :
    left.resolve? name = right.resolve? name := by
  unfold resolve?
  rw [agree.1, agree.2]

theorem knowsDimension_eq (agree : left.AgreeOn right name) :
    left.knowsDimension name = right.knowsDimension name :=
  congrArg Option.isSome agree.2

end Vocabulary.AgreeOn

namespace Parser

/-- The names that a source mentions. -/
def mentioned (source : String) : List String := identifiers (Scanner.ofString source).tokens

theorem mem_mentioned {source : String} {token : Token}
    (member : token ∈ (Scanner.ofString source).tokens) (isName : token.kind = .identifier) :
    token.text ∈ mentioned source :=
  List.mem_map_of_mem (List.mem_filter.mpr ⟨member, decide_eq_true isName⟩)

/-- Nothing is alike that is not the same, where all names mean the same that can be met. -/
def sameness (left right : Vocabulary) : Likeness where
  admits token := token.kind = .identifier → left.AgreeOn right token.text
  excused _ := False
  seen := id
  worth := Eq
  chain := Eq

namespace Likeness

variable {left right : Vocabulary} {tree other : Expression} {trees others : List Expression}

theorem namedNode_eq {token : Token} {numbering : Numbering}
    (agree : left.AgreeOn right token.text) :
    namedNode left grammar token numbering = namedNode right grammar token numbering := by
  unfold namedNode isFree
  rw [agree.resolve?_eq, agree.knowsDimension_eq]

theorem look_sameness : (sameness left right).look = id := rfl

theorem trees_sameness : (sameness left right).Trees tree other ↔ tree = other := by
  unfold Trees
  rw [look_sameness, Tree.map_id, Tree.map_id]
  constructor
  · exact And.left
  · rintro rfl
    exact ⟨rfl, rfl⟩

theorem lists_sameness : (sameness left right).Lists trees others ↔ trees = others := by
  unfold Lists
  rw [look_sameness, Tree.maps_id, Tree.maps_id]

/-- Everything that is done keeps what is the same. -/
theorem holds_sameness
    (angles : left.dimension? Quantity.angleKey = right.dimension? Quantity.angleKey) :
    (sameness left right).Holds left right where
  seen_eq same := congrArg id same
  value_eq same := congrArg Worth.value same
  number _ := rfl
  constant _ := rfl
  knowsDimension agrees isName := (agrees isName).knowsDimension_eq
  named agrees isName := by
    rw [namedNode_eq (agrees isName)]
    exact .self fun _ _ => ⟨trees_sameness.mpr rfl, rfl⟩
  ofAtom same := congrArg _ same
  power := by
    rintro _ _ _ rfl
    exact .self fun _ _ => rfl
  add := by
    rintro _ _ _ _ _ rfl rfl
    exact .self fun _ _ => rfl
  ofFactor := by
    rintro _ _ _ _ rfl
    exact .self fun _ _ => rfl
  apply := by
    rintro _ _ _ _ _ rfl rfl
    exact .self fun _ _ => rfl
  finish same := congrArg Chain.finish same
  vectorProduct := by
    rintro _ _ _ _ _ rfl rfl
    rw [angles]
    exact .self fun _ _ => rfl

theorem not_excuses_sameness (error : ParseError) : ¬ (sameness left right).Excuses error := by
  cases error <;> exact id

theorem eq_of_alike {x y : Except ParseError α} {related : α → α → Prop}
    (alike : x.Alike (sameness left right).Excuses related y)
    (same : ∀ a b, related a b → a = b) : x = y := by
  have equal := alike.map_eq (f := id) (g := id) same (fun error _ => not_excuses_sameness error)
    (fun error _ => not_excuses_sameness error)
  rwa [Except.map_id] at equal

end Likeness

end Parser

namespace Scope

variable {scope extended : Scope} {name key : String} {symbol? : Option String}
  {dimension : Dimension} {quantity : Quantity}

theorem lookup_filter_ne (differs : key ≠ name) (entries : List (String × Quantity)) :
    (entries.filter fun entry => entry.1 != name).lookup key = entries.lookup key := by
  induction entries with
  | nil => rfl
  | cons entry entries ih =>
    obtain ⟨other, bound⟩ := entry
    by_cases same : other = name
    · rw [List.filter_cons_of_neg (by simp [same]), ih, List.lookup_cons, same,
        beq_false_of_ne differs]
    · rw [List.filter_cons_of_pos (by simp [same]), List.lookup_cons, List.lookup_cons, ih]

/-- Binding a name leaves all others as they are. -/
theorem agreeOn_bind (differs : key ≠ name) :
    (scope.bind name quantity).vocabulary.AgreeOn scope.vocabulary key := by
  refine ⟨?_, rfl⟩
  change List.lookup key ((name, quantity.named name) :: _) = _
  rw [List.lookup_cons, beq_false_of_ne differs]
  exact lookup_filter_ne differs scope.bindings

/-- A new dimension answers to its own keys only. -/
theorem agreeOn_insertDimension (h : scope.insertDimension name symbol? = .ok (dimension, extended))
    (differs : key ≠ name) (other : symbol? ≠ some key) :
    extended.vocabulary.AgreeOn scope.vocabulary key := by
  obtain ⟨⟨_, table⟩, inserted, same⟩ := Except.map_eq_ok.mp h
  cases same
  exact ⟨rfl, Table.get?_of_insert inserted differs other⟩

end Scope

namespace Parser

/-- Where all names that are mentioned mean the same, and angles do, the same is read. -/
theorem read_eq_of_agreeOn {left right : Vocabulary} {source : String} (grammar : Grammar)
    (agree : ∀ name ∈ mentioned source, left.AgreeOn right name)
    (angles : left.dimension? Quantity.angleKey = right.dimension? Quantity.angleKey) :
    read (.standard left) grammar source = read (.standard right) grammar source ∧
      readAll (.standard left) grammar source = readAll (.standard right) grammar source := by
  have holds := Likeness.holds_sameness angles
  have known : ∀ token ∈ (Scanner.ofString source).tokens, (sameness left right).admits token :=
    fun token member isName => agree token.text (mem_mentioned member isName)
  constructor
  · exact Likeness.eq_of_alike (holds.read known grammar) fun _ _ => Likeness.trees_sameness.mp
  · exact Likeness.eq_of_alike (holds.readAll known grammar) fun _ _ => Likeness.lists_sameness.mp

/-- What is read is the same in all vocabularies in which the names that are mentioned mean the same
and the dimension of angles does. A further name or dimension that is not mentioned changes
nothing. -/
theorem read_determined (source : String) (grammar : Grammar) :
    (∀ left right : Vocabulary, (∀ name ∈ mentioned source, left.AgreeOn right name) →
      left.dimension? Quantity.angleKey = right.dimension? Quantity.angleKey →
      read (.standard left) grammar source = read (.standard right) grammar source ∧
      readAll (.standard left) grammar source = readAll (.standard right) grammar source) ∧
    (∀ (scope : Scope) name quantity, name ∉ mentioned source →
      read (.standard (scope.bind name quantity).vocabulary) grammar source =
        read (.standard scope.vocabulary) grammar source ∧
      readAll (.standard (scope.bind name quantity).vocabulary) grammar source =
        readAll (.standard scope.vocabulary) grammar source) ∧
    (∀ (scope extended : Scope) name symbol? dimension,
      scope.insertDimension name symbol? = .ok (dimension, extended) →
      (∀ key, key = name ∨ symbol? = some key → key ∉ mentioned source ∧ key ≠ Quantity.angleKey) →
      read (.standard extended.vocabulary) grammar source =
        read (.standard scope.vocabulary) grammar source ∧
      readAll (.standard extended.vocabulary) grammar source =
        readAll (.standard scope.vocabulary) grammar source) := by
  refine ⟨fun left right agree angles => read_eq_of_agreeOn grammar agree angles, ?_, ?_⟩
  · intro scope name quantity absent
    refine read_eq_of_agreeOn grammar (fun key member => Scope.agreeOn_bind ?_) rfl
    rintro rfl
    exact absent member
  · intro scope extended name symbol? dimension inserted absent
    have kept {key : String} (differs : ¬ (key = name ∨ symbol? = some key)) :
        extended.vocabulary.AgreeOn scope.vocabulary key := by
      obtain ⟨other, another⟩ := not_or.mp differs
      exact Scope.agreeOn_insertDimension inserted other another
    refine read_eq_of_agreeOn grammar (fun key member => kept fun own => ?_)
      (kept fun own => (absent _ own).2 rfl).2
    exact (absent key own).1 member

/-- A speed is read as before when bits are declared as well and their number is bound, and also
where nothing but its units and the angle is known. -/
theorem exists_reading_beside_bits :
    ∃ extended tree, Scope.si.insertDimension "bit" (some "b") =
        .ok (⟨"bit", some "b", 23⟩, extended) ∧
      read (.standard extended.vocabulary) .quantity "2 m / s" = .ok tree ∧
      read (.standard (Scope.si.bind "bits" .unknown).vocabulary) .quantity "2 m / s" = .ok tree ∧
      read (.standard ⟨fun _ => none, Table.si.get?⟩) .quantity "2 m / s" = .ok tree := by
  let extended : Scope := ⟨⟨Table.si.dimensions ++ [⟨"bit", some "b", 23⟩]⟩, Scope.si.bindings⟩
  have inserted : Scope.si.insertDimension "bit" (some "b") =
      .ok (⟨"bit", some "b", 23⟩, extended) := by
    refine Except.map_eq_ok.mpr ⟨(_, extended.table), ?_, rfl⟩
    exact Except.toOption_eq_some.mp (by decide +kernel)
  have names : mentioned "2 m / s" = ["m", "s"] := by decide +kernel
  have accepted : (read (.standard Scope.si.vocabulary) .quantity "2 m / s").toOption.isSome := by
    decide +kernel
  obtain ⟨tree, some⟩ := Option.isSome_iff_exists.mp accepted
  have read := Except.toOption_eq_some.mp some
  obtain ⟨determined, bound, declared⟩ := read_determined "2 m / s" .quantity
  rw [names] at determined bound declared
  refine ⟨extended, tree, inserted, ?_, ?_, ?_⟩
  · have same := declared Scope.si extended "bit" (Option.some "b") _ inserted
      (by simp [Quantity.angleKey])
    exact same.1.trans read
  · exact (bound Scope.si "bits" .unknown (by decide)).1.trans read
  · have same := determined ⟨fun _ => none, Table.si.get?⟩ Scope.si.vocabulary
      (by simpa using ⟨⟨rfl, rfl⟩, ⟨rfl, rfl⟩⟩) rfl
    exact same.1.trans read

end Parser

end Dimensional
