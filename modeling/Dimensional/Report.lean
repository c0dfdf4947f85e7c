import Dimensional.Tree.Drawing

/-! Reports on the expressions of a file. -/
namespace Dimensional

inductive Report where
  | summary
  | drawing (form : Expression.Form)
deriving DecidableEq, Repr

namespace Report

/-- The dimensions of an expression, and whether it is constant or a vector. -/
def dimensionFields (expression : Expression) : List String :=
  match expression.root.quantity? with
  | none => []
  | some quantity =>
    ["dimensions=" ++ quantity.dimensionText] ++
      (if quantity.isConstant then ["constant"] else []) ++
      (if quantity.isVector then ["vector"] else [])

/-- The free names of an expression and their numbers. -/
def parameterFields (expression : Expression) : List String :=
  let entries := expression.parameters.map fun (name, number) => name ++ "=" ++ toString number
  if entries.isEmpty then [] else ["parameters=" ++ ",".intercalate entries]

/-- Where an expression stands in its file and what is known of it, on one line with a tab between
each two fields. -/
def summaryLine (file : String) (expression : Expression) : String :=
  let location := expression.root.location
  let place := file ++ ":" ++ toString location.line ++ ":" ++ toString location.column
  let fields := [place, "value=" ++ Number.text expression.root.value] ++
    dimensionFields expression ++ parameterFields expression
  "\t".intercalate fields ++ "\n"

/-- The report on the expressions of a file. -/
def render (report : Report) (file : String) (expressions : List Expression) : String :=
  match report with
  | summary => String.join (expressions.map (summaryLine file))
  | drawing form => String.join (expressions.map fun expression => expression.draw form)

end Report

end Dimensional
