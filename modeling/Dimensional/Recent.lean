/-! Stores that keep what was used last. -/
namespace Dimensional

/-- A store of at most `capacity` values under different keys, the one used last first. -/
structure Recent (α : Type) where
  capacity : Nat
  entries : List (String × α)
deriving DecidableEq, Repr

namespace Recent

variable {α : Type}

/-- An empty store. One value is the least that it can hold. -/
def ofCapacity (capacity : Nat) : Recent α := ⟨max 1 capacity, []⟩

def size (store : Recent α) : Nat := store.entries.length

/-- The entries under other keys. -/
def others (store : Recent α) (key : String) : List (String × α) :=
  store.entries.filter fun entry => entry.1 != key

def get? (store : Recent α) (key : String) : Option α :=
  store.entries.lookup key

/-- Put a value under a key. The value not used for longest makes room. -/
def put (store : Recent α) (key : String) (value : α) : Recent α :=
  { store with entries := ((key, value) :: store.others key).take store.capacity }

/-- Use a value, if there is one under the key. -/
def use? (store : Recent α) (key : String) : Option (α × Recent α) :=
  (store.get? key).map fun value =>
    (value, { store with entries := (key, value) :: store.others key })

end Recent

end Dimensional
