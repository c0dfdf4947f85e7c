import Dimensional.Recent
import Mathlib.Data.Finset.Card
import Mathlib.Data.Finset.Dedup
import Mathlib.Data.List.Nodup

/-! What a store keeps is told by all the uses before: it is the last use of each key, as far as the
capacity reaches. Uses are listed with the last one first. Nothing is assumed of a store but the laws
that all stores of what was used last obey. -/

namespace Dimensional.Recent

/-- Stores that keep what was used last, by their operations and laws. A store shows how many values
it has room for and lists its entries, the one used last first. A value that is put or found comes to
the front, the others keep their order, and the last ones are dropped where there is no room. -/
structure Policy (α Store : Type) where
  room : Store → Nat
  entries : Store → List (String × α)
  ofCapacity : Nat → Store
  put : Store → String → α → Store
  use? : Store → String → Option (α × Store)
  size : Store → Nat
  room_ofCapacity : ∀ capacity, room (ofCapacity capacity) = max 1 capacity
  entries_ofCapacity : ∀ capacity, entries (ofCapacity capacity) = []
  room_put : ∀ store key value, room (put store key value) = room store
  entries_put : ∀ store key value, entries (put store key value) =
    ((key, value) :: (entries store).filter fun entry => entry.1 != key).take (room store)
  use?_of_absent : ∀ store key, (entries store).lookup key = none → use? store key = none
  use?_of_present : ∀ store key value, (entries store).lookup key = some value →
    ∃ after, use? store key = some (value, after) ∧ room after = room store ∧
      entries after = (key, value) :: (entries store).filter fun entry => entry.1 != key
  size_eq : ∀ store, size store = (entries store).length

variable {α Store : Type} {uses entries : List (String × α)} {key : String} {value : α}
  {capacity n : Nat}

/-- The stores that are run obey the laws. -/
def policy : Policy α (Recent α) where
  room := Recent.capacity
  entries := Recent.entries
  ofCapacity := ofCapacity
  put := put
  use? := use?
  size := size
  room_ofCapacity _ := rfl
  entries_ofCapacity _ := rfl
  room_put _ _ _ := rfl
  entries_put _ _ _ := rfl
  use?_of_absent store key absent := by
    rw [use?, get?, absent, Option.map_none]
  use?_of_present store key value present := by
    refine ⟨{ store with entries := (key, value) :: store.others key }, ?_, rfl, rfl⟩
    rw [use?, get?, present, Option.map_some]
  size_eq _ := rfl

/-- The last use of each key. -/
def latest : List (String × α) → List (String × α)
  | [] => []
  | use :: uses => use :: (latest uses).filter fun other => other.1 != use.1

/-- How many different keys were used. -/
def distinct (uses : List (String × α)) : Nat := (uses.map Prod.fst).toFinset.card

/-- The uses since a key was used last. -/
def since (uses : List (String × α)) (key : String) : List (String × α) :=
  uses.takeWhile fun use => use.1 != key

/-- A key was used, and fewer other keys since then than there is room for. -/
def Keeps (capacity : Nat) (uses : List (String × α)) (key : String) : Prop :=
  key ∈ uses.map Prod.fst ∧ distinct (since uses key) < capacity

instance : Decidable (Keeps capacity uses key) := inferInstanceAs (Decidable (_ ∧ _))

/-- What is found under a key in a store that has seen some uses. -/
def kept? (capacity : Nat) (uses : List (String × α)) (key : String) : Option α :=
  ((latest uses).take capacity).lookup key

theorem latest_subset : latest uses ⊆ uses := by
  induction uses with
  | nil => exact List.Subset.refl _
  | cons use uses ih =>
    exact List.cons_subset_cons _ fun _ member => ih (List.mem_filter.mp member).1

theorem mem_keys_latest : key ∈ (latest uses).map Prod.fst ↔ key ∈ uses.map Prod.fst := by
  induction uses with
  | nil => rfl
  | cons use uses ih =>
    rw [latest, List.map_cons, List.map_cons, List.mem_cons, List.mem_cons, ← ih]
    by_cases same : key = use.1
    · simp [same]
    · simp only [same, false_or, List.mem_map, List.mem_filter, bne_iff_ne]
      constructor
      · rintro ⟨other, ⟨member, _⟩, rfl⟩
        exact ⟨other, member, rfl⟩
      · rintro ⟨other, member, rfl⟩
        exact ⟨other, ⟨member, same⟩, rfl⟩

theorem nodup_keys_latest : ((latest uses).map Prod.fst).Nodup := by
  induction uses with
  | nil => exact List.nodup_nil
  | cons use uses ih =>
    refine List.nodup_cons.mpr ⟨?_, ih.sublist (List.filter_sublist.map _)⟩
    rintro member
    obtain ⟨other, kept, same⟩ := List.mem_map.mp member
    exact bne_iff_ne.mp (List.mem_filter.mp kept).2 same

theorem length_latest : (latest uses).length = distinct uses := by
  have same : (uses.map Prod.fst).toFinset = ((latest uses).map Prod.fst).toFinset := by
    ext key
    rw [List.mem_toFinset, List.mem_toFinset, mem_keys_latest]
  rw [distinct, same, List.toFinset_card_of_nodup nodup_keys_latest, List.length_map]

theorem mem_of_lookup (found : uses.lookup key = some value) : (key, value) ∈ uses := by
  obtain ⟨before, rest, same, _⟩ := List.lookup_eq_some_iff.mp found
  simp [same]

/-- Nothing is kept that was not used. -/
theorem mem_of_kept? (kept : kept? capacity uses key = some value) : (key, value) ∈ uses :=
  latest_subset (List.mem_of_mem_take (mem_of_lookup kept))

/-- The key used last is listed behind those used since. -/
theorem latest_eq_append (found : uses.lookup key = some value) :
    ∃ rest, latest uses = latest (since uses key) ++ (key, value) :: rest := by
  induction uses with
  | nil => cases found
  | cons use uses ih =>
    have entry : List.lookup key ((use.1, use.2) :: uses) = some value := found
    rw [List.lookup_cons] at entry
    by_cases same : use.1 = key
    · have value_eq : use.2 = value := by simpa [same] using entry
      refine ⟨(latest uses).filter fun other => other.1 != use.1, ?_⟩
      rw [since, List.takeWhile_cons_of_neg (by simp [same]), latest, latest, ← same, ← value_eq]
      rfl
    · have further : uses.lookup key = some value := by
        rwa [beq_false_of_ne (Ne.symm same)] at entry
      obtain ⟨rest, later⟩ := ih further
      refine ⟨rest.filter fun other => other.1 != use.1, ?_⟩
      rw [since, List.takeWhile_cons_of_pos (by simpa using same), latest, latest, later,
        List.filter_append, List.filter_cons_of_pos (by simpa using Ne.symm same)]
      rfl

/-- What is kept is found as it was used last. -/
theorem kept?_eq_some_iff : kept? capacity uses key = some value ↔
    uses.lookup key = some value ∧ distinct (since uses key) < capacity := by
  unfold kept?
  cases found : uses.lookup key with
  | none =>
    have silent : ((latest uses).take capacity).lookup key = none := by
      refine List.lookup_eq_none_iff.mpr fun use member => ?_
      exact List.lookup_eq_none_iff.mp found use (latest_subset (List.mem_of_mem_take member))
    simp [silent]
  | some last =>
    obtain ⟨rest, same⟩ := latest_eq_append found
    have fresh : ∀ use ∈ latest (since uses key), key != use.1 := by
      intro use member
      have others := List.all_eq_true.mp List.all_takeWhile use (latest_subset member)
      exact bne_comm.trans others
    have silent : ((latest (since uses key)).take capacity).lookup key = none :=
      List.lookup_eq_none_iff.mpr fun use member => fresh use (List.mem_of_mem_take member)
    rw [same, ← length_latest, List.take_append, List.lookup_append, silent, Option.none_or]
    cases room : capacity - (latest (since uses key)).length with
    | zero =>
      have full : ¬ (latest (since uses key)).length < capacity := by omega
      simp [full]
    | succ _ =>
      have free : (latest (since uses key)).length < capacity := by omega
      simp [free]

theorem keeps_iff :
    Keeps capacity uses key ↔ ∃ value, kept? capacity uses key = some value := by
  have used : key ∈ uses.map Prod.fst ↔ ∃ value, uses.lookup key = some value := by
    rw [← Option.isSome_iff_exists, List.lookup_isSome_iff, List.mem_map]
    simp only [beq_iff_eq, eq_comm (a := key)]
  simp only [kept?_eq_some_iff, exists_and_right, Keeps, used]

/-- Where a key is dropped, one more entry is looked at. -/
theorem take_filter_take (nodup : (entries.map Prod.fst).Nodup) :
    ((entries.take (n + 1)).filter fun other => other.1 != key).take n =
      (entries.filter fun other => other.1 != key).take n := by
  induction entries generalizing n with
  | nil => rfl
  | cons entry entries ih =>
    obtain ⟨fresh, nodup⟩ := List.nodup_cons.mp nodup
    by_cases same : entry.1 = key
    · have others : ∀ other ∈ entries, (other.1 != key) = true := by
        rintro other member
        refine bne_iff_ne.mpr fun again => fresh ?_
        rw [same, ← again]
        exact List.mem_map_of_mem member
      have kept : ∀ other ∈ entries.take n, (other.1 != key) = true :=
        fun other member => others other (List.mem_of_mem_take member)
      rw [List.take_succ_cons, List.filter_cons_of_neg (by simp [same]),
        List.filter_cons_of_neg (by simp [same]), List.filter_eq_self.mpr kept,
        List.filter_eq_self.mpr others, List.take_take, Nat.min_self]
    · cases n with
      | zero => rfl
      | succ n =>
        rw [List.take_succ_cons, List.filter_cons_of_pos (by simpa using same),
          List.filter_cons_of_pos (by simpa using same), List.take_succ_cons, List.take_succ_cons,
          ih nodup]

namespace Policy

variable {policy : Policy α Store} {store : Store}

/-- A store with some capacity lists what it keeps of some uses. -/
structure HasSeen (policy : Policy α Store) (store : Store) (capacity : Nat)
    (uses : List (String × α)) : Prop where
  room : policy.room store = capacity
  entries : policy.entries store = (latest uses).take capacity

theorem hasSeen_ofCapacity : policy.HasSeen (policy.ofCapacity capacity) (max 1 capacity) [] :=
  ⟨policy.room_ofCapacity capacity, by
    rw [policy.entries_ofCapacity, latest, List.take_nil]⟩

namespace HasSeen

variable (seen : policy.HasSeen store capacity uses)

include seen

/-- A value is put in front of all that was used. -/
theorem put : policy.HasSeen (policy.put store key value) capacity ((key, value) :: uses) := by
  refine ⟨(policy.room_put store key value).trans seen.room, ?_⟩
  rw [policy.entries_put, seen.room, seen.entries, latest]
  cases capacity with
  | zero => rfl
  | succ n =>
    rw [List.take_succ_cons, List.take_succ_cons]
    exact congrArg _ (take_filter_take nodup_keys_latest)

theorem use?_eq_none (forgotten : kept? capacity uses key = none) :
    policy.use? store key = none :=
  policy.use?_of_absent store key (seen.entries ▸ forgotten)

/-- A value that is found counts as used. -/
theorem use? (kept : kept? capacity uses key = some value) :
    ∃ after, policy.use? store key = some (value, after) ∧
      policy.HasSeen after capacity ((key, value) :: uses) := by
  obtain ⟨after, used, room, entries⟩ :=
    policy.use?_of_present store key value (seen.entries ▸ kept)
  refine ⟨after, used, room.trans seen.room, ?_⟩
  -- The entry under the key is one of those in store, so that the others leave room for it.
  have others : ((policy.entries store).filter fun entry => entry.1 != key).length < capacity := by
    have fewer : ((policy.entries store).filter fun entry => entry.1 != key).length <
        (policy.entries store).length := by
      rw [seen.entries]
      exact List.length_filter_lt_length_iff_exists.mpr ⟨(key, value), mem_of_lookup kept, by simp⟩
    rw [seen.entries] at fewer ⊢
    exact Nat.lt_of_lt_of_le fewer (List.length_take_le _ _)
  have put : policy.HasSeen (policy.put store key value) capacity ((key, value) :: uses) := seen.put
  have listed := put.entries
  rw [policy.entries_put, seen.room, List.take_of_length_le others] at listed
  rw [entries, listed]

theorem size : policy.size store = min capacity (distinct uses) := by
  rw [policy.size_eq, seen.entries, List.length_take, length_latest]

end HasSeen

end Policy

end Dimensional.Recent
