/-! Trees with any number of ordered children. -/
namespace Dimensional

inductive Tree (α : Type) where
  | node (root : α) (children : List (Tree α))
deriving Repr

namespace Tree

variable {α β : Type}

def root : Tree α → α
  | node root _ => root

def children : Tree α → List (Tree α)
  | node _ children => children

/-- A tree of one node. -/
def leaf (root : α) : Tree α := node root []

mutual

/-- Trees are equal when their nodes and the trees below them are. -/
def decEq [DecidableEq α] : (left right : Tree α) → Decidable (left = right)
  | node a trees, node b others =>
    if roots : a = b then
      match decEqs trees others with
      | isTrue below => isTrue (by rw [roots, below])
      | isFalse differ => isFalse fun equal => differ (by injection equal)
    else isFalse fun equal => roots (by injection equal)

/-- Lists of trees are equal when they hold equal trees one by one. -/
def decEqs [DecidableEq α] : (left right : List (Tree α)) → Decidable (left = right)
  | [], [] => isTrue rfl
  | [], _ :: _ => isFalse nofun
  | _ :: _, [] => isFalse nofun
  | tree :: trees, other :: others =>
    match decEq tree other, decEqs trees others with
    | isTrue first, isTrue rest => isTrue (by rw [first, rest])
    | isFalse differ, _ => isFalse fun equal => differ (by injection equal)
    | _, isFalse differ => isFalse fun equal => differ (by injection equal)

end

instance [DecidableEq α] : DecidableEq (Tree α) := decEq

mutual

/-- How many nodes a tree has. -/
def size : Tree α → Nat
  | node _ children => sizes children + 1

/-- How many nodes some trees have together. -/
def sizes : List (Tree α) → Nat
  | [] => 0
  | tree :: rest => size tree + sizes rest

end

mutual

/-- A node, and then in turn what is below it. -/
def preorder : Tree α → List α
  | node root children => root :: preorders children

/-- What some trees hold, one after another. -/
def preorders : List (Tree α) → List α
  | [] => []
  | tree :: rest => preorder tree ++ preorders rest

end

theorem sizes_append (trees rest : List (Tree α)) :
    sizes (trees ++ rest) = sizes trees + sizes rest := by
  induction trees with
  | nil => simp [sizes]
  | cons tree trees ih => simp [sizes, ih, Nat.add_assoc]

/-- Visit the trees of a stack from the top. A visited node leaves its children in its place. -/
def walkStack : List (Tree α) → List α
  | [] => []
  | node root children :: stack => root :: walkStack (children ++ stack)
termination_by stack => sizes stack
decreasing_by simp only [sizes, size, sizes_append]; omega

/-- The nodes of a tree in the order in which they are written down. -/
def walk (tree : Tree α) : List α := walkStack [tree]

/-- A node and its place in a tree: its number in the order of the nodes, the number of the node
that it hangs on, and how many nodes are above it. -/
structure Entry (α : Type) where
  id : Nat
  parent? : Option Nat
  depth : Nat
  root : α
deriving Repr

mutual

/-- The nodes of a tree with their places, numbered from `id`. -/
def outlineFrom (id : Nat) (parent? : Option Nat) (depth : Nat) : Tree α → List (Entry α)
  | node root children =>
    ⟨id, parent?, depth, root⟩ :: outlinesFrom (id + 1) (some id) (depth + 1) children

/-- The nodes of some trees with their places, numbered from `id`. -/
def outlinesFrom (id : Nat) (parent? : Option Nat) (depth : Nat) : List (Tree α) → List (Entry α)
  | [] => []
  | tree :: rest =>
    outlineFrom id parent? depth tree ++ outlinesFrom (id + size tree) parent? depth rest

end

/-- The nodes of a tree with their places. -/
def outline (tree : Tree α) : List (Entry α) := outlineFrom 0 none 0 tree

mutual

/-- Replace what every node holds. -/
def map (f : α → β) : Tree α → Tree β
  | node root children => node (f root) (maps f children)

def maps (f : α → β) : List (Tree α) → List (Tree β)
  | [] => []
  | tree :: rest => map f tree :: maps f rest

end

end Tree

end Dimensional
