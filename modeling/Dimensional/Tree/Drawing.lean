import Dimensional.Tree.Node

/-! Drawings of expression trees as indented text, DOT graphs and Mermaid flowcharts. -/
namespace Dimensional

namespace Node

/-- A node's shape, with the name, literal or operator that it stands for. -/
def title (node : Node) : String :=
  match node.identifier?, node.shape.isAtom, node.shape.operator? with
  | some identifier, _, _ => node.shape.name ++ ": " ++ identifier
  | none, true, _ => node.shape.name ++ ": " ++ Number.text node.value
  | none, false, some operator => node.shape.name ++ ": " ++ operator
  | none, false, none => node.shape.name

/-- The dimensions of a node, its value where that is constant, and whether it is a vector. -/
def details (node : Node) : String :=
  match node.quantity? with
  | some quantity =>
    let value :=
      if quantity.isConstant && !node.shape.isAtom then " = " ++ Number.text quantity.value else ""
    let vector := if quantity.isVector then " (vector)" else ""
    " [" ++ quantity.dimensionText ++ "]" ++ value ++ vector
  | none =>
    if node.shape = .expression .numeric ∨ node.shape = .integer then
      " = " ++ Number.text node.value
    else ""

/-- The text of a node in every drawing. -/
def label (node : Node) : String :=
  let number := match node.parameter? with
    | some number => " #" ++ toString number
    | none => ""
  node.title ++ node.details ++ number

end Node

namespace Expression

/-- Forms of drawings. -/
inductive Form where
  | ascii
  | dot
  | mermaid
deriving DecidableEq, Repr

/-- A line of indented text. -/
def asciiLine (entry : Tree.Entry Node) : String :=
  String.join (List.replicate entry.depth "  ") ++ "├─ " ++ entry.root.label ++ "\n"

/-- Quotes in the labels of a DOT graph follow a backslash. -/
def escapeQuotes (text : String) : String :=
  String.ofList (text.toList.flatMap fun c => if c = '"' then ['\\', '"'] else [c])

def identity (id : Nat) : String := "n" ++ toString id

/-- A node of a DOT graph and the edge that leads to it. -/
def dotLines (entry : Tree.Entry Node) : String :=
  let node := "    " ++ identity entry.id ++ " [label=\"" ++ escapeQuotes entry.root.label ++ "\"];\n"
  match entry.parent? with
  | some parent => node ++ "    " ++ identity parent ++ " -> " ++ identity entry.id ++ ";\n"
  | none => node

/-- A node of a Mermaid flowchart and the edge that leads to it. -/
def mermaidLines (entry : Tree.Entry Node) : String :=
  let node := "    " ++ identity entry.id ++ "[\"" ++ entry.root.label ++ "\"]\n"
  match entry.parent? with
  | some parent => node ++ "    " ++ identity parent ++ " --> " ++ identity entry.id ++ "\n"
  | none => node

def draw (expression : Expression) : Form → String
  | .ascii => String.join (expression.outline.map asciiLine)
  | .dot =>
    "digraph AST \x7b\n    node [shape=box, style=rounded];\n" ++
      String.join (expression.outline.map dotLines) ++ "\x7d\n"
  | .mermaid => "graph TD\n" ++ String.join (expression.outline.map mermaidLines)

end Expression

end Dimensional
