import Dimensional.Proofs.Tree
import Mathlib.Data.List.Nodup

/-! The outline of a tree: its nodes in the order of a walk, each under its number, with the number
of the node that it hangs on and its depth. Depths alone tell the whole tree, and so do the numbers
of the nodes above. -/

namespace Dimensional.Tree

variable {α β : Type}

/-- The tree below the node at an address. An address says which child to go on to at each node on
the way from the root, the children counted from 0. -/
def at? (tree : Tree α) : List Nat → Option (Tree α)
  | [] => some tree
  | place :: address => (tree.children[place]?).bind fun child => child.at? address

mutual

/-- A tree at an address, every node along with its own address. -/
def addressedFrom (address : List Nat) : Tree α → Tree (List Nat × α)
  | node root children => node (address, root) (addressedsFrom address 0 children)

/-- Children of the node at an address, the first of them at the given place. -/
def addressedsFrom (address : List Nat) (place : Nat) : List (Tree α) → List (Tree (List Nat × α))
  | [] => []
  | tree :: rest =>
    addressedFrom (address ++ [place]) tree :: addressedsFrom address (place + 1) rest

end

/-- A tree with the addresses of its nodes. -/
def addressed (tree : Tree α) : Tree (List Nat × α) := tree.addressedFrom []

section Addresses

theorem addressedFrom_mem_addressedsFrom (base : List Nat) (first : Nat) {place : Nat}
    {trees : List (Tree α)} {tree : Tree α} (inside : trees[place]? = some tree) :
    tree.addressedFrom (base ++ [first + place]) ∈ addressedsFrom base first trees := by
  induction trees generalizing first place with
  | nil => cases inside
  | cons next rest ih =>
    rw [addressedsFrom]
    cases place with
    | zero =>
      obtain rfl := Option.some.inj inside
      exact List.mem_cons_self
    | succ place =>
      have later := ih (first + 1) inside
      rw [Nat.add_assoc, Nat.add_comm 1] at later
      exact List.mem_cons_of_mem _ later

mutual

theorem map_addressedFrom (base : List Nat) :
    (tree : Tree α) → (tree.addressedFrom base).map Prod.snd = tree
  | node root children => by rw [addressedFrom, map, maps_addressedsFrom base 0 children]

theorem maps_addressedsFrom (base : List Nat) (place : Nat) :
    (trees : List (Tree α)) → maps Prod.snd (addressedsFrom base place trees) = trees
  | [] => rfl
  | tree :: rest => by
    rw [addressedsFrom, maps, map_addressedFrom _ tree, maps_addressedsFrom base (place + 1) rest]

end

mutual

/-- Addresses lead to the nodes that they stand beside. -/
theorem at?_of_mem_addressedFrom (base : List Nat) {entry : List Nat × α} : (tree : Tree α) →
    entry ∈ (tree.addressedFrom base).preorder →
    ∃ address, entry.1 = base ++ address ∧ (tree.at? address).map root = some entry.2
  | node root children, member => by
    rw [addressedFrom, preorder] at member
    rcases List.mem_cons.mp member with rfl | below
    · exact ⟨[], (List.append_nil _).symm, rfl⟩
    · obtain ⟨place, address, same, found⟩ := at?_of_mem_addressedsFrom base 0 children below
      rw [Nat.zero_add] at same
      exact ⟨place :: address, same, found⟩

theorem at?_of_mem_addressedsFrom (base : List Nat) (first : Nat) {entry : List Nat × α} :
    (trees : List (Tree α)) → entry ∈ preorders (addressedsFrom base first trees) →
    ∃ place address, entry.1 = base ++ (first + place) :: address ∧
      ((trees[place]?).bind fun child => child.at? address).map root = some entry.2
  | [], member => absurd member List.not_mem_nil
  | tree :: rest, member => by
    rw [addressedsFrom, preorders] at member
    rcases List.mem_append.mp member with here | later
    · obtain ⟨address, same, found⟩ := at?_of_mem_addressedFrom _ tree here
      exact ⟨0, address, by rw [same, List.append_assoc]; rfl, found⟩
    · obtain ⟨place, address, same, found⟩ := at?_of_mem_addressedsFrom base (first + 1) rest later
      refine ⟨place + 1, address, ?_, found⟩
      rw [same, Nat.add_assoc, Nat.add_comm 1]

end

/-- Every node stands beside the address that leads to it. -/
theorem mem_addressedFrom_of_at? {value : α} {address : List Nat} (base : List Nat) {tree : Tree α}
    (found : (tree.at? address).map root = some value) :
    (base ++ address, value) ∈ (tree.addressedFrom base).preorder := by
  induction address generalizing base tree with
  | nil =>
    cases tree with
    | node root children =>
      obtain rfl := Option.some.inj found
      rw [addressedFrom, preorder, List.append_nil]
      exact List.mem_cons_self
  | cons place address ih =>
    cases tree with
    | node root children =>
      obtain ⟨part, reached, same⟩ := Option.map_eq_some_iff.mp found
      obtain ⟨child, inside, below⟩ := Option.bind_eq_some_iff.mp reached
      have member := ih (base ++ [place]) (Option.map_eq_some_iff.mpr ⟨part, below, same⟩)
      rw [List.append_assoc] at member
      rw [addressedFrom, preorder, preorders_eq_flatMap]
      refine List.mem_cons_of_mem _ (List.mem_flatMap.mpr ⟨_, ?_, member⟩)
      have beside := addressedFrom_mem_addressedsFrom base 0 inside
      rwa [Nat.zero_add] at beside

mutual

/-- Addresses rise in the order of the nodes: an address comes before all that go on from it, and the
addresses below a child before those below the next ones. -/
theorem pairwise_addressedFrom (base : List Nat) :
    (tree : Tree α) → ((tree.addressedFrom base).preorder.map Prod.fst).Pairwise (· < ·)
  | node root children => by
    rw [addressedFrom, preorder, List.map_cons, List.pairwise_cons]
    refine ⟨fun other member => ?_, pairwise_addressedsFrom base 0 children⟩
    obtain ⟨entry, below, rfl⟩ := List.mem_map.mp member
    obtain ⟨place, address, longer, _⟩ := at?_of_mem_addressedsFrom base 0 children below
    have further : base ++ [] < base ++ (0 + place) :: address :=
      List.append_left_lt (List.nil_lt_cons _ _)
    rwa [List.append_nil, ← longer] at further

theorem pairwise_addressedsFrom (base : List Nat) (first : Nat) : (trees : List (Tree α)) →
    ((preorders (addressedsFrom base first trees)).map Prod.fst).Pairwise (· < ·)
  | [] => .nil
  | tree :: rest => by
    rw [addressedsFrom, preorders, List.map_append, List.pairwise_append]
    refine ⟨pairwise_addressedFrom _ tree, pairwise_addressedsFrom base (first + 1) rest, ?_⟩
    intro left here right later
    obtain ⟨entry, inFirst, rfl⟩ := List.mem_map.mp here
    obtain ⟨other, inRest, rfl⟩ := List.mem_map.mp later
    obtain ⟨address, ofFirst, _⟩ := at?_of_mem_addressedFrom _ tree inFirst
    obtain ⟨place, further, ofRest, _⟩ := at?_of_mem_addressedsFrom base (first + 1) rest inRest
    rw [ofFirst, ofRest, List.append_assoc]
    exact List.append_left_lt (List.cons_lt_cons_iff.mpr (.inl (by omega)))

end

end Addresses

namespace Entry

/-- Replace what an entry holds. -/
def map (f : α → β) (entry : Entry α) : Entry β := { entry with root := f entry.root }

/-- The depth of an entry and what it holds. -/
def level (entry : Entry α) : Nat × α := (entry.depth, entry.root)

end Entry

section Outline

variable {id : Nat} {parent? : Option Nat} {depth : Nat}

mutual

theorem size_map (f : α → β) : (tree : Tree α) → (tree.map f).size = tree.size
  | node root children => by rw [map, size, size, sizes_maps f children]

theorem sizes_maps (f : α → β) : (trees : List (Tree α)) → sizes (maps f trees) = sizes trees
  | [] => rfl
  | tree :: rest => by rw [maps, sizes, sizes, size_map f tree, sizes_maps f rest]

end

mutual

theorem outlineFrom_map (f : α → β) (id : Nat) (parent? : Option Nat) (depth : Nat) :
    (tree : Tree α) → (tree.map f).outlineFrom id parent? depth =
      (tree.outlineFrom id parent? depth).map (Entry.map f)
  | node root children => by
    rw [map, outlineFrom, outlineFrom, outlinesFrom_maps f _ _ _ children]
    rfl

theorem outlinesFrom_maps (f : α → β) (id : Nat) (parent? : Option Nat) (depth : Nat) :
    (trees : List (Tree α)) → outlinesFrom id parent? depth (maps f trees) =
      (outlinesFrom id parent? depth trees).map (Entry.map f)
  | [] => rfl
  | tree :: rest => by
    rw [maps, outlinesFrom, outlinesFrom, outlineFrom_map f _ _ _ tree,
      outlinesFrom_maps f _ _ _ rest, size_map, List.map_append]

end

theorem outline_map (f : α → β) (tree : Tree α) :
    (tree.map f).outline = tree.outline.map (Entry.map f) :=
  outlineFrom_map f 0 none 0 tree

mutual

/-- An outline is in the order of a walk. -/
theorem roots_outlineFrom (id : Nat) (parent? : Option Nat) (depth : Nat) : (tree : Tree α) →
    (tree.outlineFrom id parent? depth).map Entry.root = tree.preorder
  | node root children => by
    rw [outlineFrom, preorder, List.map_cons, roots_outlinesFrom _ _ _ children]

theorem roots_outlinesFrom (id : Nat) (parent? : Option Nat) (depth : Nat) :
    (trees : List (Tree α)) →
    (outlinesFrom id parent? depth trees).map Entry.root = preorders trees
  | [] => rfl
  | tree :: rest => by
    rw [outlinesFrom, preorders, List.map_append, roots_outlineFrom _ _ _ tree,
      roots_outlinesFrom _ _ _ rest]

end

theorem root_mem_walk {tree : Tree α} {entry : Entry α} (member : entry ∈ tree.outline) :
    entry.root ∈ tree.walk := by
  rw [walk_eq_preorder, ← roots_outlineFrom 0 none 0 tree]
  exact List.mem_map_of_mem member

mutual

/-- The nodes are numbered one after another. -/
theorem ids_outlineFrom (id : Nat) (parent? : Option Nat) (depth : Nat) : (tree : Tree α) →
    (tree.outlineFrom id parent? depth).map Entry.id = List.range' id tree.size
  | node root children => by
    rw [outlineFrom, size, List.map_cons, ids_outlinesFrom _ _ _ children, List.range'_succ]

theorem ids_outlinesFrom (id : Nat) (parent? : Option Nat) (depth : Nat) :
    (trees : List (Tree α)) →
    (outlinesFrom id parent? depth trees).map Entry.id = List.range' id (sizes trees)
  | [] => rfl
  | tree :: rest => by
    rw [outlinesFrom, sizes, List.map_append, ids_outlineFrom _ _ _ tree,
      ids_outlinesFrom _ _ _ rest, ← List.range'_append_1]

end

end Outline

section Links

mutual

/-- A node is as deep as its address is long. -/
theorem depth_of_mem_outlineFrom {entry : Entry (List Nat × α)} (id : Nat) (parent? : Option Nat)
    (base : List Nat) : (tree : Tree α) →
    entry ∈ (tree.addressedFrom base).outlineFrom id parent? base.length →
    entry.depth = entry.root.1.length
  | node root children, member => by
    rw [addressedFrom, outlineFrom] at member
    rcases List.mem_cons.mp member with rfl | below
    · rfl
    · exact depth_of_mem_outlinesFrom _ _ base 0 children below

theorem depth_of_mem_outlinesFrom {entry : Entry (List Nat × α)} (id : Nat) (parent? : Option Nat)
    (base : List Nat) (first : Nat) : (trees : List (Tree α)) →
    entry ∈ outlinesFrom id parent? (base.length + 1) (addressedsFrom base first trees) →
    entry.depth = entry.root.1.length
  | [], member => absurd member List.not_mem_nil
  | tree :: rest, member => by
    rw [addressedsFrom, outlinesFrom] at member
    rcases List.mem_append.mp member with here | later
    · have deeper : base.length + 1 = (base ++ [first]).length := by rw [List.length_append]; rfl
      rw [deeper] at here
      exact depth_of_mem_outlineFrom _ _ _ tree here
    · exact depth_of_mem_outlinesFrom _ _ base (first + 1) rest later

end

/-- An entry hangs on another one: its address goes one step further. -/
def Entry.HangsOn (entry above : Entry (List Nat × α)) : Prop :=
  entry.parent? = some above.id ∧ ∃ place, entry.root.1 = above.root.1 ++ [place]

mutual

/-- All nodes but the root hang on a node of the tree. -/
theorem hangsOn_of_mem_outlineFrom {entry : Entry (List Nat × α)} (id : Nat)
    (parent? : Option Nat) (depth : Nat) (base : List Nat) : (tree : Tree α) →
    entry ∈ (tree.addressedFrom base).outlineFrom id parent? depth →
    (entry.parent? = parent? ∧ entry.root.1 = base) ∨
      ∃ above ∈ (tree.addressedFrom base).outlineFrom id parent? depth, entry.HangsOn above
  | node root children, member => by
    rw [addressedFrom, outlineFrom] at member ⊢
    rcases List.mem_cons.mp member with rfl | below
    · exact .inl ⟨rfl, rfl⟩
    · refine .inr ?_
      rcases hangsOn_of_mem_outlinesFrom _ _ _ base 0 children below with
        ⟨parent, place, address⟩ | ⟨above, inside, hangs⟩
      · exact ⟨_, List.mem_cons_self, parent, place, address⟩
      · exact ⟨above, List.mem_cons_of_mem _ inside, hangs⟩

theorem hangsOn_of_mem_outlinesFrom {entry : Entry (List Nat × α)} (id : Nat)
    (parent? : Option Nat) (depth : Nat) (base : List Nat) (first : Nat) :
    (trees : List (Tree α)) →
    entry ∈ outlinesFrom id parent? depth (addressedsFrom base first trees) →
    (entry.parent? = parent? ∧ ∃ place, entry.root.1 = base ++ [place]) ∨
      ∃ above ∈ outlinesFrom id parent? depth (addressedsFrom base first trees),
        entry.HangsOn above
  | [], member => absurd member List.not_mem_nil
  | tree :: rest, member => by
    rw [addressedsFrom, outlinesFrom] at member ⊢
    rcases List.mem_append.mp member with here | later
    · rcases hangsOn_of_mem_outlineFrom _ _ _ _ tree here with
        ⟨parent, address⟩ | ⟨above, inside, hangs⟩
      · exact .inl ⟨parent, first, address⟩
      · exact .inr ⟨above, List.mem_append_left _ inside, hangs⟩
    · rcases hangsOn_of_mem_outlinesFrom _ _ _ base (first + 1) rest later with
        top | ⟨above, inside, hangs⟩
      · exact .inl top
      · exact .inr ⟨above, List.mem_append_right _ inside, hangs⟩

end

end Links

section Recovery

/-- The first entry of a list, if there is one, is above a depth. -/
def EndsAbove (depth : Nat) (levels : List (Nat × α)) : Prop :=
  ∀ level ∈ levels.head?, level.1 < depth

theorem endsAbove_outlinesFrom (id : Nat) (parent? : Option Nat) {depth : Nat}
    (trees : List (Tree α)) {beyond : List (Nat × α)} (ends : EndsAbove depth beyond) :
    EndsAbove (depth + 1) ((outlinesFrom id parent? depth trees).map Entry.level ++ beyond) := by
  cases trees with
  | nil => exact fun level first => Nat.lt_succ_of_lt (ends level first)
  | cons tree rest =>
    cases tree with
    | node root children =>
      rintro level first
      obtain rfl := Option.mem_some_iff.mp first
      exact Nat.lt_succ_self depth

/-- The depths of the nodes in the order of a walk tell where each subtree ends. -/
theorem eq_of_levels (id : Nat) (parent? : Option Nat) (depth : Nat) :
    (trees others : List (Tree α)) → {beyond further : List (Nat × α)} →
    EndsAbove depth beyond → EndsAbove depth further →
    (outlinesFrom id parent? depth trees).map Entry.level ++ beyond =
      (outlinesFrom id parent? depth others).map Entry.level ++ further →
    trees = others ∧ beyond = further
  | [], [], _, _, _, _, same => ⟨rfl, same⟩
  | [], node root children :: rest, _, _, ends, _, same => by
    rw [outlinesFrom, List.map_nil, List.nil_append] at same
    subst same
    exact absurd (ends _ rfl) (Nat.lt_irrefl depth)
  | node root children :: rest, [], _, _, _, ends, same => by
    rw [outlinesFrom, outlinesFrom, List.map_nil, List.nil_append] at same
    subst same
    exact absurd (ends _ rfl) (Nat.lt_irrefl depth)
  | node root children :: rest, node first below :: others, beyond, further, ends, others_end,
      same => by
    simp only [outlinesFrom, outlineFrom, List.map_append, List.map_cons, List.cons_append,
      List.append_assoc] at same
    obtain ⟨roots, tails⟩ := List.cons_eq_cons.mp same
    obtain rfl : root = first := congrArg Prod.snd roots
    obtain ⟨rfl, remaining⟩ := eq_of_levels (id + 1) (some id) (depth + 1) children below
      (endsAbove_outlinesFrom _ _ rest ends) (endsAbove_outlinesFrom _ _ others others_end) tails
    obtain ⟨rfl, equal⟩ := eq_of_levels _ parent? depth rest others ends others_end remaining
    exact ⟨rfl, equal⟩
termination_by trees => sizes trees
decreasing_by all_goals simp only [sizes, size]; omega

end Recovery

/-- The nodes of a tree in the order of a walk, each behind its address. -/
def places (tree : Tree α) : List (List Nat × α) := tree.addressed.walk

section Places

variable {tree other : Tree α} {place : List Nat × α}

theorem map_snd_places : tree.places.map Prod.snd = tree.walk := by
  rw [places, walk_eq_preorder, ← preorder_map, addressed, map_addressedFrom, walk_eq_preorder]

theorem places_eq_roots : tree.places = tree.addressed.outline.map Entry.root := by
  rw [places, walk_eq_preorder, outline, roots_outlineFrom]

theorem size_addressed : tree.addressed.size = tree.size := by
  rw [← size_map Prod.snd, addressed, map_addressedFrom]

theorem length_places : tree.places.length = tree.size := by
  have ids := congrArg List.length (ids_outlineFrom 0 none 0 tree.addressed)
  rwa [List.length_map, List.length_range', size_addressed, ← outline,
    ← List.length_map Entry.root, ← places_eq_roots] at ids

theorem length_walk : tree.walk.length = tree.size := by
  rw [← map_snd_places, List.length_map, length_places]

theorem ids_outline : tree.outline.map Entry.id = List.range tree.size := by
  rw [outline, ids_outlineFrom, List.range_eq_range']

theorem roots_outline : tree.outline.map Entry.root = tree.walk := by
  rw [outline, roots_outlineFrom, walk_eq_preorder]

theorem pairwise_places : (tree.places.map Prod.fst).Pairwise (· < ·) := by
  rw [places, walk_eq_preorder]
  exact pairwise_addressedFrom [] tree

/-- No two nodes are at the same address. -/
theorem nodup_places : (tree.places.map Prod.fst).Nodup := pairwise_places.nodup

theorem at?_of_mem_places (member : place ∈ tree.places) :
    (tree.at? place.1).map root = some place.2 := by
  rw [places, walk_eq_preorder] at member
  obtain ⟨address, same, found⟩ := at?_of_mem_addressedFrom [] tree member
  rwa [same]

theorem mem_places_iff : place ∈ tree.places ↔ (tree.at? place.1).map root = some place.2 := by
  refine ⟨at?_of_mem_places, fun found => ?_⟩
  rw [places, walk_eq_preorder]
  exact mem_addressedFrom_of_at? [] found

/-- A walk meets what is at some address. -/
theorem mem_walk_iff {value : α} :
    value ∈ tree.walk ↔ ∃ address, (tree.at? address).map root = some value := by
  rw [← map_snd_places, List.mem_map]
  constructor
  · rintro ⟨place, member, rfl⟩
    exact ⟨place.1, mem_places_iff.mp member⟩
  · rintro ⟨address, found⟩
    exact ⟨(address, value), mem_places_iff.mpr found, rfl⟩

theorem places_zero : tree.places[0]? = some ([], tree.root) := by
  cases tree with
  | node root children =>
    rw [places, walk_eq_preorder]
    rfl

/-- An entry stands at its number. -/
theorem id_of_getElem? {entry : Entry α} {number : Nat}
    (found : tree.outline[number]? = some entry) : entry.id = number := by
  have numbered : (tree.outline.map Entry.id)[number]? = some entry.id := by
    rw [List.getElem?_map, found]
    rfl
  rw [ids_outline] at numbered
  obtain ⟨bound, same⟩ := List.getElem?_eq_some_iff.mp numbered
  rwa [List.getElem_range, eq_comm] at same

theorem exists_entry_of_walk {number : Nat} {root : α} (met : tree.walk[number]? = some root) :
    ∃ entry ∈ tree.outline, entry.id = number ∧ entry.root = root := by
  rw [← roots_outline, List.getElem?_map] at met
  obtain ⟨entry, found, same⟩ := Option.map_eq_some_iff.mp met
  exact ⟨entry, List.mem_of_getElem? found, id_of_getElem? found, same⟩

theorem getElem?_places_id {entry : Entry (List Nat × α)}
    (member : entry ∈ tree.addressed.outline) : tree.places[entry.id]? = some entry.root := by
  obtain ⟨number, found⟩ := List.mem_iff_getElem?.mp member
  rw [places_eq_roots, List.getElem?_map, id_of_getElem? found, found]
  rfl

theorem outline_eq : tree.outline = tree.addressed.outline.map (Entry.map Prod.snd) := by
  rw [← outline_map, addressed, map_addressedFrom]

theorem levels_eq_places (f : α → β) : (tree.map f).outline.map Entry.level =
    tree.places.map fun place => (place.1.length, f place.2) := by
  rw [outline_map, outline_eq, places_eq_roots, List.map_map, List.map_map, List.map_map]
  refine List.map_congr_left fun entry member => ?_
  have deep := depth_of_mem_outlineFrom 0 none [] tree member
  exact Prod.ext deep rfl

/-- Trees are the same when a walk meets the same at the same depths. -/
theorem eq_of_places {f : α → β}
    (same : (tree.places.map fun place => (place.1.length, f place.2)) =
      other.places.map fun place => (place.1.length, f place.2)) : tree.map f = other.map f := by
  have ends : EndsAbove 0 ([] : List (Nat × β)) := nofun
  rw [← levels_eq_places, ← levels_eq_places, outline, outline] at same
  have levels : (outlinesFrom 0 none 0 [tree.map f]).map Entry.level ++ [] =
      (outlinesFrom 0 none 0 [other.map f]).map Entry.level ++ [] := by
    simpa only [outlinesFrom, List.append_nil] using same
  have both := eq_of_levels 0 none 0 [tree.map f] [other.map f] ends ends levels
  exact (List.cons_eq_cons.mp both.1).1

end Places

/-- The number of a node and that of the node that it hangs on, for all nodes but the root. -/
def links (tree : Tree α) : List (Nat × Nat) :=
  tree.outline.filterMap fun entry => entry.parent?.map (·, entry.id)

/-- The second of two numbers is that of a child of the first. -/
def IsEdge (tree : Tree α) (edge : Nat × Nat) : Prop :=
  ∃ above below place, tree.places[edge.1]? = some above ∧ tree.places[edge.2]? = some below ∧
    below.1 = above.1 ++ [place]

section Links

variable {tree other : Tree α} {link : Nat × Nat} {edges : List (Nat × Nat)}

theorem links_eq : tree.links =
    tree.addressed.outline.filterMap fun entry => entry.parent?.map (·, entry.id) := by
  rw [links, outline_eq, List.filterMap_map]
  rfl

/-- All nodes but the root have one link, in their order. -/
theorem map_snd_links : tree.links.map Prod.snd = List.range' 1 (tree.size - 1) := by
  rw [links_eq, List.map_filterMap]
  cases tree with
  | node root children =>
    rw [addressed, addressedFrom, outline, outlineFrom, List.filterMap_cons_none rfl,
      ← size_addressed, addressed, addressedFrom, size, Nat.add_sub_cancel, ← ids_outlinesFrom]
    refine List.filterMap_eq_map_iff_forall_eq_some.mpr fun entry member => ?_
    rcases hangsOn_of_mem_outlinesFrom 1 (some 0) 1 [] 0 children member with
      ⟨parent, _⟩ | ⟨above, _, parent, _⟩
    · rw [parent]
      rfl
    · rw [parent]
      rfl

theorem isEdge_of_mem_links (member : link ∈ tree.links) : tree.IsEdge link := by
  rw [links_eq] at member
  obtain ⟨entry, inside, linked⟩ := List.mem_filterMap.mp member
  obtain ⟨number, parent, rfl⟩ := Option.map_eq_some_iff.mp linked
  rcases hangsOn_of_mem_outlineFrom 0 none 0 [] tree inside with
    ⟨root, _⟩ | ⟨above, outside, hangs, place, address⟩
  · rw [root] at parent
    cases parent
  · rw [hangs] at parent
    obtain rfl := Option.some.inj parent
    exact ⟨above.root, entry.root, place, getElem?_places_id outside, getElem?_places_id inside,
      address⟩

/-- The depths of all nodes are told by what they hang on. -/
theorem length_eq_of_edges (numbered : edges.map Prod.snd = List.range' 1 (tree.size - 1))
    (first : ∀ edge ∈ edges, tree.IsEdge edge) (second : ∀ edge ∈ edges, other.IsEdge edge)
    {id : Nat} {place : List Nat × α} {twin : List Nat × α}
    (here : tree.places[id]? = some place) (there : other.places[id]? = some twin) :
    place.1.length = twin.1.length := by
  induction h : place.1.length using Nat.strongRecOn generalizing id place twin with
  | ind depth ih =>
    subst h
    cases id with
    | zero =>
      rw [places_zero] at here there
      cases here
      cases there
      rfl
    | succ id =>
      have inside : id + 1 ∈ edges.map Prod.snd := by
        have bound := (List.getElem?_eq_some_iff.mp here).1
        rw [length_places] at bound
        rw [numbered, List.mem_range'_1]
        omega
      obtain ⟨edge, member, target⟩ := List.mem_map.mp inside
      obtain ⟨above, below, last, found, hangs, address⟩ := first edge member
      obtain ⟨above', below', last', found', hangs', address'⟩ := second edge member
      rw [target] at hangs hangs'
      obtain rfl := Option.some.inj (hangs.symm.trans here)
      obtain rfl := Option.some.inj (hangs'.symm.trans there)
      rw [address, address', List.length_append, List.length_append,
        ih _ (by rw [address, List.length_append]; exact Nat.lt_succ_self _) found found' rfl]
      rfl

/-- What a walk meets, and which numbers hang on which, tells the whole tree. -/
theorem eq_of_edges {f : α → β} (walks : tree.walk.map f = other.walk.map f)
    (numbered : edges.map Prod.snd = List.range' 1 (tree.size - 1))
    (first : ∀ edge ∈ edges, tree.IsEdge edge) (second : ∀ edge ∈ edges, other.IsEdge edge) :
    tree.map f = other.map f := by
  rw [← map_snd_places, ← map_snd_places, List.map_map, List.map_map] at walks
  refine eq_of_places (List.ext_getElem? fun id => ?_)
  have roots := congrArg (·[id]?) walks
  simp only [List.getElem?_map] at roots ⊢
  cases here : tree.places[id]? with
  | none =>
    rw [here] at roots
    cases there : other.places[id]? with
    | none => rfl
    | some twin =>
      rw [there] at roots
      cases roots
  | some place =>
    rw [here] at roots
    cases there : other.places[id]? with
    | none =>
      rw [there] at roots
      cases roots
    | some twin =>
      rw [there] at roots
      have deep := length_eq_of_edges numbered first second here there
      exact congrArg some (Prod.ext deep (Option.some.inj roots))

end Links

end Dimensional.Tree
