import Dimensional.Proofs.Parting
import Dimensional.Proofs.Tree.Outline
import Dimensional.Proofs.Tree.Quoting

/-! Every drawing of an expression lists its nodes in the order of a walk, with what they hang on.
Where no label goes over more than one line, each drawing tells the whole tree. -/

namespace Dimensional

/-- A text that is lines, each with a newline at its end. -/
structure IsLines (text : String) (lines : List String) : Prop where
  ended : text = String.join (lines.map (· ++ "\n"))
  single : ∀ line ∈ lines, '\n' ∉ line.toList

namespace IsLines

variable {text other : String} {lines others : List String} {line : String}

theorem join_cons : String.join ((line :: lines).map (· ++ "\n")) =
    line ++ ("\n" ++ String.join (lines.map (· ++ "\n"))) := by
  rw [List.map_cons, String.join_cons, String.append_assoc]

theorem append {more : List String} (first : IsLines text lines) (second : IsLines other more) :
    IsLines (text ++ other) (lines ++ more) where
  ended := by rw [List.map_append, String.join_append, first.ended, second.ended]
  single := List.forall_mem_append.mpr ⟨first.single, second.single⟩

theorem join {α : Type} {write : α → String} {list : α → List String} : {items : List α} →
    (∀ item ∈ items, IsLines (write item) (list item)) →
    IsLines (String.join (items.map write)) (items.flatMap list)
  | [], _ => ⟨rfl, nofun⟩
  | item :: items, each => by
    rw [List.map_cons, String.join_cons, List.flatMap_cons]
    rw [List.forall_mem_cons] at each
    exact each.1.append (join each.2)

/-- A text is only one list of lines. -/
theorem unique (first : IsLines text lines) (second : IsLines text others) : lines = others := by
  have same := first.ended.symm.trans second.ended
  have single := first.single
  have plain := second.single
  clear first second
  induction lines generalizing others with
  | nil =>
    cases others with
    | nil => rfl
    | cons other others =>
      rw [join_cons] at same
      exact absurd (congrArg String.toList same) (by simp)
  | cons line lines ih =>
    cases others with
    | nil =>
      rw [join_cons] at same
      exact absurd (congrArg String.toList same) (by simp)
    | cons other others =>
      rw [List.forall_mem_cons] at single plain
      rw [join_cons, join_cons, ← String.toList_inj, String.toList_append, String.toList_append,
        String.toList_append, String.toList_append] at same
      obtain ⟨equal, _, below⟩ := eq_of_append_cons (p := (· ≠ '\n'))
        (fun c member newline => single.1 (newline ▸ member))
        (fun c member newline => plain.1 (newline ▸ member)) (not_not_intro rfl) (not_not_intro rfl)
        same
      rw [String.toList_inj.mp equal, ih (String.toList_inj.mp below) single.2 plain.2]

end IsLines

namespace Expression

/-- The line of a node that is so deep, as indented text. -/
def indented (depth : Nat) (label : String) : String :=
  String.join (List.replicate depth "  ") ++ "├─ " ++ label

/-- What a graph says: which nodes there are, and which one each of them hangs on. -/
inductive Statement where
  | node (id : Nat) (label : String)
  | edge (above below : Nat)
deriving DecidableEq, Repr

namespace Statement

def node? : Statement → Option (Nat × String)
  | node id label => some (id, label)
  | edge _ _ => none

def edge? : Statement → Option (Nat × Nat)
  | node _ _ => none
  | edge above below => some (above, below)

/-- What is said of a node by its place and its label. -/
def ofEntry (entry : Tree.Entry String) : List Statement :=
  node entry.id entry.root :: entry.parent?.toList.map (edge · entry.id)

end Statement

/-- The two ways to write a graph. -/
inductive Dialect where
  | dot
  | mermaid
deriving DecidableEq, Repr

namespace Dialect

def form : Dialect → Form
  | dot => .dot
  | mermaid => .mermaid

/-- The lines in front of all statements. -/
def opening : Dialect → List String
  | dot => ["digraph AST \x7b", "    node [shape=box, style=rounded];"]
  | mermaid => ["graph TD"]

/-- The lines behind all statements. -/
def closing : Dialect → List String
  | dot => ["\x7d"]
  | mermaid => []

/-- What is written of an entry. -/
def written : Dialect → Tree.Entry Node → String
  | dot => dotLines
  | mermaid => mermaidLines

/-- The line of a statement. -/
def line : Dialect → Statement → String
  | dot, .node id label =>
    "    " ++ identity id ++ " [label=\"" ++ .ofList (escaped label.toList) ++ "\"];"
  | dot, .edge above below => "    " ++ identity above ++ " -> " ++ identity below ++ ";"
  | mermaid, .node id label => "    " ++ identity id ++ "[\"" ++ label ++ "\"]"
  | mermaid, .edge above below => "    " ++ identity above ++ " --> " ++ identity below

end Dialect

section Lines

variable {dialect : Dialect} {expression other : Expression}

theorem toList_identity (n : Nat) : (identity n).toList = 'n' :: Nat.toDigits 10 n := by
  simp [identity, Nat.toString_eq_repr, Nat.repr_eq_ofList_toDigits]

theorem isDigit_of_mem_toDigits (n : Nat) : ∀ c ∈ Nat.toDigits 10 n, c.isDigit = true :=
  fun _ member => Nat.isDigit_of_mem_toDigits (by decide) (by decide) member

theorem toDigits_injective : Function.Injective (Nat.toDigits 10) := by
  intro m n same
  rw [← Nat.ofDigitChars_toDigits (b := 10) (n := m) (by decide) (by decide), same,
    Nat.ofDigitChars_toDigits (by decide) (by decide)]

theorem identity_injective : Function.Injective identity := by
  intro m n same
  rw [← String.toList_inj, toList_identity, toList_identity, List.cons_inj_right] at same
  exact toDigits_injective same

/-- Numbers end where something else than a digit follows. -/
theorem eq_of_identity_append {m n : Nat} {c d : Char} {back further : List Char}
    (ends : ¬ c.isDigit = true) (stops : ¬ d.isDigit = true)
    (same : (identity m).toList ++ c :: back = (identity n).toList ++ d :: further) :
    m = n ∧ c = d ∧ back = further := by
  rw [toList_identity, toList_identity, List.cons_append, List.cons_append,
    List.cons_inj_right] at same
  obtain ⟨digits, rest⟩ := eq_of_append_cons (p := fun c => c.isDigit = true)
    (isDigit_of_mem_toDigits m) (isDigit_of_mem_toDigits n) ends stops same
  exact ⟨toDigits_injective digits, rest⟩

theorem line_injective : Function.Injective dialect.line := by
  intro statement other same
  have lists := congrArg String.toList same
  cases dialect <;> cases statement <;> cases other <;>
    simp only [Dialect.line, String.toList_append, String.reduceToList, List.cons_append,
      List.nil_append, List.append_assoc, List.cons.injEq, true_and] at lists
  case dot.node.node id label number text =>
    obtain ⟨rfl, _, rest⟩ := eq_of_identity_append (by decide) (by decide) lists
    have labels : escaped label.toList = escaped text.toList := by simpa using rest
    rw [String.toList_inj.mp (escaped_injective labels)]
  case mermaid.node.node id label number text =>
    obtain ⟨rfl, _, rest⟩ := eq_of_identity_append (by decide) (by decide) lists
    have labels : label.toList = text.toList := by simpa using rest
    rw [String.toList_inj.mp labels]
  case dot.edge.edge above below number child | mermaid.edge.edge above below number child =>
    obtain ⟨rfl, _, rest⟩ := eq_of_identity_append (by decide) (by decide) lists
    have ends : (identity below).toList = (identity child).toList := by simpa using rest
    rw [identity_injective (String.toList_inj.mp ends)]
  case dot.node.edge | dot.edge.node =>
    obtain ⟨_, _, rest⟩ := eq_of_identity_append (by decide) (by decide) lists
    exact absurd (List.cons_eq_cons.mp rest).1 (by decide)
  case mermaid.node.edge | mermaid.edge.node =>
    obtain ⟨_, rest, _⟩ := eq_of_identity_append (by decide) (by decide) lists
    exact absurd rest (by decide)

theorem newline_not_mem_identity (n : Nat) : '\n' ∉ (identity n).toList := by
  rw [toList_identity, List.mem_cons, not_or]
  exact ⟨by decide, fun member => absurd (isDigit_of_mem_toDigits n _ member) (by decide)⟩

/-- Lines of graphs stay single where labels are. -/
theorem newline_not_mem_line {statement : Statement}
    (single : ∀ entry ∈ statement.node?, '\n' ∉ entry.2.toList) :
    '\n' ∉ (dialect.line statement).toList := by
  cases statement with
  | node id label =>
    have own : '\n' ∉ label.toList := single _ rfl
    have quoted : '\n' ∉ escaped label.toList :=
      fun member => own (mem_of_mem_escaped (by decide) member)
    cases dialect <;> simp [Dialect.line, newline_not_mem_identity, own, quoted]
  | edge above below => cases dialect <;> simp [Dialect.line, newline_not_mem_identity]

theorem toList_indented (depth : Nat) (label : String) : (indented depth label).toList =
    List.replicate (2 * depth) ' ' ++ '├' :: '─' :: ' ' :: label.toList := by
  have spaces : (List.replicate depth "  ").flatMap String.toList =
      List.replicate (2 * depth) ' ' := by
    induction depth with
    | zero => rfl
    | succ depth ih =>
      rw [List.replicate_succ, List.flatMap_cons, ih, Nat.mul_succ, Nat.add_comm,
        List.replicate_add]
      simp
  simp [indented, String.toList_join, spaces]

theorem indented_injective {depth more : Nat} {label text : String}
    (same : indented depth label = indented more text) : depth = more ∧ label = text := by
  rw [← String.toList_inj, toList_indented, toList_indented] at same
  obtain ⟨spaces, _, rest⟩ := eq_of_append_cons (p := (· = ' '))
    (fun _ member => List.eq_of_mem_replicate member)
    (fun _ member => List.eq_of_mem_replicate member) (by decide) (by decide) same
  have lengths := congrArg List.length spaces
  have labels := (List.cons_eq_cons.mp (List.cons_eq_cons.mp rest).2).2
  rw [List.length_replicate, List.length_replicate] at lengths
  exact ⟨by omega, String.toList_inj.mp labels⟩

theorem newline_not_mem_indented {depth : Nat} {label : String} (single : '\n' ∉ label.toList) :
    '\n' ∉ (indented depth label).toList := by
  rw [toList_indented]
  simp [single]

theorem isLines_ascii (single : ∀ node ∈ expression.walk, '\n' ∉ node.label.toList) :
    IsLines (expression.draw .ascii) ((expression.map Node.label).outline.map fun entry =>
      indented entry.depth entry.root) where
  ended := by
    rw [Tree.outline_map, List.map_map, List.map_map]
    rfl
  single := by
    rw [Tree.outline_map, List.map_map]
    intro line member
    obtain ⟨entry, inside, rfl⟩ := List.mem_map.mp member
    exact newline_not_mem_indented (single _ (Tree.root_mem_walk inside))

theorem asciiLines_eq : ((expression.map Node.label).outline.map fun entry =>
    indented entry.depth entry.root) =
      (expression.places.map fun place => (place.1.length, place.2.label)).map fun level =>
        indented level.1 level.2 := by
  rw [← Tree.levels_eq_places, List.map_map]
  rfl

theorem isLines_written {entry : Tree.Entry Node} (single : '\n' ∉ entry.root.label.toList) :
    IsLines (dialect.written entry)
      ((Statement.ofEntry (entry.map Node.label)).map dialect.line) where
  ended := by
    obtain ⟨id, parent?, depth, root⟩ := entry
    rw [← String.toList_inj]
    cases dialect <;> cases parent? <;>
      simp [Statement.ofEntry, Tree.Entry.map, Dialect.written, Dialect.line, dotLines,
        mermaidLines, escapeQuotes_eq]
  single := by
    intro line member
    obtain ⟨statement, said, rfl⟩ := List.mem_map.mp member
    refine newline_not_mem_line fun stated isNode => ?_
    rcases List.mem_cons.mp said with rfl | edge
    · obtain rfl := Option.some.inj isNode
      exact single
    · obtain ⟨_, _, rfl⟩ := List.mem_map.mp edge
      cases isNode

/-- What a graph says of an expression. -/
def statements (expression : Expression) : List Statement :=
  (expression.map Node.label).outline.flatMap Statement.ofEntry

/-- A graph is an opening, what is said of the nodes in turn, and a closing. -/
theorem isLines_graph (dialect : Dialect)
    (single : ∀ node ∈ expression.walk, '\n' ∉ node.label.toList) :
    IsLines (expression.draw dialect.form)
      (dialect.opening ++ expression.statements.map dialect.line ++ dialect.closing) := by
  have all : IsLines (String.join (expression.outline.map dialect.written))
      (expression.outline.flatMap fun entry =>
        (Statement.ofEntry (entry.map Node.label)).map dialect.line) :=
    .join fun entry member => isLines_written (single _ (Tree.root_mem_walk member))
  rw [statements, Tree.outline_map, List.flatMap_map, List.map_flatMap]
  cases dialect with
  | dot =>
    have opens : IsLines "digraph AST \x7b\n    node [shape=box, style=rounded];\n"
        Dialect.dot.opening := ⟨by decide, by decide⟩
    have closes : IsLines "\x7d\n" Dialect.dot.closing := ⟨by decide, by decide⟩
    exact (opens.append all).append closes
  | mermaid =>
    have opens : IsLines "graph TD\n" Dialect.mermaid.opening := ⟨by decide, by decide⟩
    have drawn := opens.append all
    rw [← List.append_nil (_ ++ _)] at drawn
    exact drawn

end Lines

/-- Statements say what an expression is: its nodes, numbered in the order of a walk from 0 on, and
for all of them but the root an edge from what it hangs on. -/
structure Describe (expression : Expression) (statements : List Statement) : Prop where
  nodes : statements.filterMap Statement.node? =
    (List.range expression.size).zip (expression.walk.map Node.label)
  below : (statements.filterMap Statement.edge?).map Prod.snd = List.range' 1 (expression.size - 1)
  edges : ∀ edge ∈ statements.filterMap Statement.edge?, expression.IsEdge edge

section Describe

variable {expression other : Expression} {statements : List Statement}

theorem nodes_of_entry (entry : Tree.Entry String) :
    (Statement.ofEntry entry).filterMap Statement.node? = [(entry.id, entry.root)] := by
  obtain ⟨id, parent?, depth, root⟩ := entry
  cases parent? <;> rfl

theorem edges_of_entry (entry : Tree.Entry String) :
    (Statement.ofEntry entry).filterMap Statement.edge? =
      (entry.parent?.map (·, entry.id)).toList := by
  obtain ⟨id, parent?, depth, root⟩ := entry
  cases parent? <;> rfl

theorem describe_statements : Describe expression expression.statements := by
  have links : expression.statements.filterMap Statement.edge? = expression.links := by
    rw [Expression.statements, Tree.outline_map, List.flatMap_map, List.filterMap_flatMap,
      Tree.links, List.filterMap_eq_flatMap_toList]
    exact List.flatMap_congr fun entry _ => edges_of_entry _
  refine ⟨?_, ?_, ?_⟩
  · rw [Expression.statements, List.filterMap_flatMap, ← Tree.ids_outline, ← Tree.roots_outline,
      List.map_map, List.zip_map', Tree.outline_map, List.flatMap_map, List.map_eq_flatMap]
    exact List.flatMap_congr fun entry _ => nodes_of_entry _
  · rw [links]
    exact Tree.map_snd_links
  · rw [links]
    exact fun edge => Tree.isEdge_of_mem_links

/-- Statements describe only one tree of labels. -/
theorem Describe.unique (first : Describe expression statements)
    (second : Describe other statements) : expression.map Node.label = other.map Node.label := by
  refine Tree.eq_of_edges ?_ first.below first.edges second.edges
  have same := congrArg (List.map Prod.snd) (first.nodes.symm.trans second.nodes)
  rwa [List.map_snd_zip, List.map_snd_zip] at same
  all_goals rw [List.length_map, List.length_range, Tree.length_walk]

end Describe

section Recovery

variable {expression other : Expression}

theorem draw_ascii_eq_iff (single : ∀ node ∈ expression.walk, '\n' ∉ node.label.toList)
    (plain : ∀ node ∈ other.walk, '\n' ∉ node.label.toList) :
    expression.draw .ascii = other.draw .ascii ↔
      expression.map Node.label = other.map Node.label := by
  constructor
  · intro same
    have lines := (isLines_ascii single).unique (same ▸ isLines_ascii plain)
    rw [asciiLines_eq, asciiLines_eq] at lines
    have injective : Function.Injective fun level : Nat × String => indented level.1 level.2 :=
      fun _ _ equal => Prod.ext_iff.mpr (indented_injective equal)
    exact Tree.eq_of_places (List.map_injective_iff.mpr injective lines)
  · intro same
    rw [(isLines_ascii single).ended, (isLines_ascii plain).ended, same]

theorem draw_graph_eq_iff (dialect : Dialect)
    (single : ∀ node ∈ expression.walk, '\n' ∉ node.label.toList)
    (plain : ∀ node ∈ other.walk, '\n' ∉ node.label.toList) :
    expression.draw dialect.form = other.draw dialect.form ↔
      expression.map Node.label = other.map Node.label := by
  constructor
  · intro same
    have lines := (isLines_graph dialect single).unique (same ▸ isLines_graph dialect plain)
    rw [List.append_cancel_right_eq, List.append_cancel_left_eq] at lines
    have described : Describe other expression.statements := by
      rw [List.map_injective_iff.mpr line_injective lines]
      exact describe_statements
    exact describe_statements.unique described
  · intro same
    rw [(isLines_graph dialect single).ended, (isLines_graph dialect plain).ended, statements,
      statements, same]

end Recovery

/-- Every drawing lists the nodes of an expression in the order of a walk: indented text with their
depths, graphs with edges. Any of them tells which labels hang on which. -/
theorem drawings_exact {expression : Expression}
    (single : ∀ node ∈ expression.walk, '\n' ∉ node.label.toList) :
    (expression.places.map Prod.snd = expression.walk ∧
      expression.places.length = expression.size ∧ (expression.places.map Prod.fst).Nodup ∧
      ∀ place ∈ expression.places, (expression.at? place.1).map Tree.root = some place.2) ∧
    IsLines (expression.draw .ascii) (expression.places.map fun place =>
      indented place.1.length place.2.label) ∧
    (∀ dialect : Dialect, ∃ statements, Describe expression statements ∧
      IsLines (expression.draw dialect.form)
        (dialect.opening ++ statements.map dialect.line ++ dialect.closing)) ∧
    ∀ (form : Form) (other : Expression), (∀ node ∈ other.walk, '\n' ∉ node.label.toList) →
      (expression.draw form = other.draw form ↔
        expression.map Node.label = other.map Node.label) := by
  refine ⟨⟨Tree.map_snd_places, Tree.length_places, Tree.nodup_places,
    fun place => Tree.at?_of_mem_places⟩, ?_, fun dialect => ⟨_, describe_statements,
      isLines_graph dialect single⟩, fun form other plain => ?_⟩
  · have lines := isLines_ascii single
    rw [asciiLines_eq, List.map_map] at lines
    exact lines
  · cases form with
    | ascii => exact draw_ascii_eq_iff single plain
    | dot => exact draw_graph_eq_iff .dot single plain
    | mermaid => exact draw_graph_eq_iff .mermaid single plain

/-- A product that nobody has read: a name with two quotes in it, and a literal whose value is not the
one of its quantity. Each drawing shows both values and the graph puts a backslash in front of both
quotes. -/
theorem exists_drawings_of_product : ∃ expression : Expression,
    (∀ node ∈ expression.walk, '\n' ∉ node.label.toList) ∧
    expression.draw .ascii =
      "├─ Term [1] = 4\n" ++ "  ├─ Identifier: \"x\"\n" ++ "  ├─ MidPrecedenceBinaryOp: *\n" ++
        "  ├─ Number: 3 [1]\n" ∧
    (∃ statements, Describe expression statements ∧ IsLines (expression.draw .dot)
      (Dialect.dot.opening ++ statements.map Dialect.dot.line ++ Dialect.dot.closing)) ∧
    expression.draw .dot =
      "digraph AST \x7b\n    node [shape=box, style=rounded];\n" ++
        "    n0 [label=\"Term [1] = 4\"];\n" ++
        "    n1 [label=\"Identifier: \\\"x\\\"\"];\n    n0 -> n1;\n" ++
        "    n2 [label=\"MidPrecedenceBinaryOp: *\"];\n    n0 -> n2;\n" ++
        "    n3 [label=\"Number: 3 [1]\"];\n    n0 -> n3;\n\x7d\n" := by
  let product : Expression := .node
    { shape := .term, location := .start, worth := ⟨3.0, some (.constant 4.0)⟩ }
    [.leaf { shape := .identifier, location := .start, identifier? := some "\"x\"" },
      .leaf { shape := .product .times, location := .start },
      .leaf { shape := .number, location := .start, worth := ⟨3.0, some (.constant 4.0)⟩ }]
  have single : ∀ node ∈ product.walk, '\n' ∉ node.label.toList := by
    rw [Tree.walk_eq_preorder]
    decide +kernel
  exact ⟨product, single, by decide +kernel, (drawings_exact single).2.2.1 .dot, by decide +kernel⟩

end Expression

end Dimensional
