import Dimensional.Tree

/-! Walking a tree passes its nodes in the order in which they are written down, and its paths lead
down to its leaves. -/

namespace Dimensional.Tree

variable {α β γ : Type}

theorem preorders_append (trees rest : List (Tree α)) :
    preorders (trees ++ rest) = preorders trees ++ preorders rest := by
  induction trees with
  | nil => rfl
  | cons tree trees ih => rw [List.cons_append, preorders, preorders, ih, List.append_assoc]

theorem preorders_eq_flatMap (trees : List (Tree α)) : preorders trees = trees.flatMap preorder := by
  induction trees with
  | nil => rfl
  | cons tree trees ih => rw [preorders, ih, List.flatMap_cons]

theorem walkStack_eq_preorders (stack : List (Tree α)) : walkStack stack = preorders stack := by
  induction stack using walkStack.induct with
  | case1 => rw [walkStack, preorders]
  | case2 root children stack ih =>
    rw [walkStack, ih, preorders_append, preorders, preorder, List.cons_append]

theorem walk_eq_preorder (tree : Tree α) : tree.walk = tree.preorder := by
  rw [walk, walkStack_eq_preorders, preorders, preorders, List.append_nil]

/-- A walk passes the root and then walks through one child after another. -/
theorem walk_eq_cons (tree : Tree α) : tree.walk = tree.root :: tree.children.flatMap walk := by
  cases tree with
  | node root children =>
    have walks : (walk : Tree α → List α) = preorder := funext walk_eq_preorder
    rw [walks, preorder, preorders_eq_flatMap]
    rfl

mutual

theorem preorder_map (f : α → β) : (tree : Tree α) → (tree.map f).preorder = tree.preorder.map f
  | node root children => by rw [map, preorder, preorder, preorders_map f children, List.map_cons]

theorem preorders_map (f : α → β) :
    (trees : List (Tree α)) → preorders (maps f trees) = (preorders trees).map f
  | [] => rfl
  | tree :: rest => by
    rw [maps, preorders, preorders, preorder_map f tree, preorders_map f rest, List.map_append]

end

mutual

theorem map_id : (tree : Tree α) → tree.map id = tree
  | node root children => by rw [map, maps_id children, id_eq]

theorem maps_id : (trees : List (Tree α)) → maps id trees = trees
  | [] => rfl
  | tree :: rest => by rw [maps, map_id tree, maps_id rest]

end

mutual

theorem map_map (f : α → β) (g : β → γ) : (tree : Tree α) → (tree.map f).map g = tree.map (g ∘ f)
  | node root children => by rw [map, map, map, maps_maps f g children, Function.comp_apply]

theorem maps_maps (f : α → β) (g : β → γ) :
    (trees : List (Tree α)) → maps g (maps f trees) = maps (g ∘ f) trees
  | [] => rfl
  | tree :: rest => by rw [maps, maps, maps, map_map f g tree, maps_maps f g rest]

end

/-- What the nodes hold from the root of a tree down to a leaf. -/
inductive Path : Tree α → List α → Prop where
  | leaf (value : α) : Path (leaf value) [value]
  | node {value : α} {child : Tree α} {children : List (Tree α)} {values : List α}
      (member : child ∈ children) (path : Path child values) :
      Path (node value children) (value :: values)

/-- A tree and all that is below it. -/
inductive Part : Tree α → Tree α → Prop where
  | whole {tree : Tree α} : Part tree tree
  | inside {value : α} {child part : Tree α} {children : List (Tree α)} (member : child ∈ children)
      (within : Part child part) : Part (node value children) part

theorem Part.of_child {tree child part : Tree α} (member : child ∈ tree.children)
    (within : child.Part part) : tree.Part part := by
  cases tree with
  | node root children => exact .inside member within

/-- All trees of a list and all that is below them are of a kind. -/
def AllParts (p : Tree α → Prop) (trees : List (Tree α)) : Prop :=
  ∀ tree ∈ trees, ∀ part, tree.Part part → p part

section AllParts

variable {p : Tree α → Prop} {root : α} {tree : Tree α} {trees : List (Tree α)}

theorem allParts_nil : AllParts p [] := fun _ member => absurd member List.not_mem_nil

theorem AllParts.cons (first : AllParts p [tree]) (rest : AllParts p trees) :
    AllParts p (tree :: trees) :=
  List.forall_mem_cons.mpr ⟨List.forall_mem_singleton.mp first, rest⟩

theorem AllParts.node (below : AllParts p trees) (own : p (.node root trees)) :
    AllParts p [.node root trees] := by
  refine List.forall_mem_singleton.mpr fun part isPart => ?_
  cases isPart with
  | whole => exact own
  | inside member within => exact below _ member part within

end AllParts

theorem mem_maps {f : α → β} {tree : Tree α} {trees : List (Tree α)} (member : tree ∈ trees) :
    tree.map f ∈ maps f trees := by
  induction trees with
  | nil => cases member
  | cons first trees ih =>
    rw [maps]
    rcases List.mem_cons.mp member with rfl | later
    · exact List.mem_cons_self
    · exact List.mem_cons_of_mem _ (ih later)

theorem Path.map {tree : Tree α} {values : List α} (path : tree.Path values) (f : α → β) :
    (tree.map f).Path (values.map f) := by
  induction path with
  | leaf value => exact .leaf (f value)
  | node member _ ih =>
    rw [Tree.map]
    exact .node (mem_maps member) ih

section Passing

variable (p : α → Bool)

/-- No path through some trees passes more than a number of nodes of a kind. -/
def PassAtMost (count : Nat) (trees : List (Tree α)) : Prop :=
  ∀ tree ∈ trees, ∀ values, tree.Path values → values.countP p ≤ count

variable {p} {count more : Nat} {value : α} {trees rest : List (Tree α)}

theorem passAtMost_nil : PassAtMost p count [] := fun _ member => absurd member List.not_mem_nil

theorem PassAtMost.append (first : PassAtMost p count trees) (second : PassAtMost p more rest) :
    PassAtMost p (max count more) (trees ++ rest) := by
  intro tree member values path
  rcases List.mem_append.mp member with before | later
  · exact Nat.le_trans (first tree before values path) (Nat.le_max_left _ _)
  · exact Nat.le_trans (second tree later values path) (Nat.le_max_right _ _)

/-- A node is one more to pass if it is of the kind itself. -/
theorem PassAtMost.node (below : PassAtMost p count trees) :
    PassAtMost p (count + if p value then 1 else 0) [.node value trees] := by
  intro tree member values path
  obtain rfl := List.mem_singleton.mp member
  cases path with
  | leaf =>
    rw [List.countP_singleton]
    exact Nat.le_add_left _ _
  | node member path =>
    rw [List.countP_cons]
    exact Nat.add_le_add_right (below _ member _ path) _

theorem PassAtMost.plain (below : PassAtMost p count trees) (plain : p value = false) :
    PassAtMost p count [.node value trees] := by
  have all : PassAtMost p (count + if p value then 1 else 0) [.node value trees] := below.node
  simpa [plain] using all

theorem PassAtMost.plain_cons (others : PassAtMost p count trees) (plain : p value = false) :
    PassAtMost p count (leaf value :: trees) := by
  have all := (passAtMost_nil.plain plain : PassAtMost p 0 [leaf value]).append others
  rwa [Nat.zero_max] at all

end Passing

end Dimensional.Tree
