import Dimensional.Dimension.Table
import Dimensional.Proofs.Prime
import Mathlib.Data.List.Nodup
import Mathlib.Tactic.NormNum.Prime

/-! The tables that declarations lead to tell their dimensions apart by primes. -/

namespace Dimensional.Table

/-- The tables that declarations lead to. -/
inductive Reached : Table → Prop where
  | empty : Reached .empty
  | si : Reached .si
  | insert (reached : Reached table)
      (h : table.insert name symbol? = .ok (dimension, extended)) : Reached extended

/-- The dimensions are numbered by ever greater primes. -/
structure Numbered (table : Table) : Prop where
  prime : ∀ dimension ∈ table.dimensions, dimension.prime.Prime
  fits : ∀ dimension ∈ table.dimensions, dimension.prime < 2 ^ 64
  ascending : (table.dimensions.map Dimension.prime).Pairwise (· < ·)

variable {table extended : Table} {name key : String} {symbol? : Option String}
  {dimension : Dimension}

/-- A declaration puts a dimension under the next prime behind the others. -/
theorem insert_eq_ok (h : table.insert name symbol? = .ok (dimension, extended)) :
    table.taken? name symbol? = none ∧ dimension.name = name ∧ dimension.symbol? = symbol? ∧
      Prime.nextPrime? table.lastPrime = some dimension.prime ∧
      extended.dimensions = table.dimensions ++ [dimension] := by
  unfold insert at h
  split at h
  · cases h
  · rename_i free
    split at h
    · cases h
    · rename_i prime found
      cases h
      exact ⟨free, rfl, rfl, found, rfl⟩

theorem subset_of_insert (h : table.insert name symbol? = .ok (dimension, extended)) :
    table.dimensions ⊆ extended.dimensions := by
  rw [(insert_eq_ok h).2.2.2.2]
  exact List.subset_append_left _ _

/-- A declaration does not change what other keys mean. -/
theorem get?_of_insert (h : table.insert name symbol? = .ok (dimension, extended))
    (differs : key ≠ name) (other : symbol? ≠ some key) : extended.get? key = table.get? key := by
  obtain ⟨_, rfl, rfl, _, dimensions⟩ := insert_eq_ok h
  have silent : dimension.answersTo key = false := by
    simpa [Dimension.answersTo, differs.symm] using other
  unfold get?
  rw [dimensions, List.find?_append, List.find?_cons_of_neg (by simp [silent]), List.find?_nil,
    Option.or_none]

/-- The last prime is the greatest. -/
theorem Numbered.le_lastPrime (numbered : table.Numbered) (member : dimension ∈ table.dimensions) :
    dimension.prime ≤ table.lastPrime := by
  unfold lastPrime
  cases last : table.dimensions.getLast? with
  | none =>
    rw [List.getLast?_eq_none_iff.mp last] at member
    cases member
  | some final =>
    obtain ⟨before, same⟩ := List.getLast?_eq_some_iff.mp last
    have ascending := numbered.ascending
    rw [same, List.map_append, List.pairwise_append] at ascending
    rw [same, List.mem_append, List.mem_singleton] at member
    change dimension.prime ≤ final.prime
    rcases member with earlier | rfl
    · exact Nat.le_of_lt
        (ascending.2.2 _ (List.mem_map_of_mem earlier) _ (List.mem_singleton.mpr rfl))
    · exact Nat.le_refl _

theorem numbered_empty : empty.Numbered :=
  ⟨by simp [empty], by simp [empty], by simp [empty]⟩

theorem numbered_si : si.Numbered := by
  refine ⟨?_, ?_, ?_⟩
  · simp only [si, List.forall_mem_cons]
    norm_num
  · simp [si]
  · simp [si]

theorem Numbered.insert (numbered : table.Numbered)
    (h : table.insert name symbol? = .ok (dimension, extended)) : extended.Numbered := by
  obtain ⟨_, _, _, next, same⟩ := insert_eq_ok h
  obtain ⟨prime, fits, above, _⟩ := Prime.nextPrime?_eq_some next
  refine ⟨?_, ?_, ?_⟩
  · rw [same]
    intro other member
    rcases List.mem_append.mp member with earlier | last
    · exact numbered.prime other earlier
    · obtain rfl := List.mem_singleton.mp last
      exact prime
  · rw [same]
    intro other member
    rcases List.mem_append.mp member with earlier | last
    · exact numbered.fits other earlier
    · obtain rfl := List.mem_singleton.mp last
      exact fits
  · rw [same, List.map_append, List.pairwise_append]
    refine ⟨numbered.ascending, List.pairwise_singleton _ _, ?_⟩
    intro earlier member last single
    obtain ⟨other, present, rfl⟩ := List.mem_map.mp member
    obtain rfl := List.mem_singleton.mp single
    exact Nat.lt_of_le_of_lt (numbered.le_lastPrime present) above

theorem Numbered.of_insert (numbered : extended.Numbered)
    (h : table.insert name symbol? = .ok (dimension, extended)) : table.Numbered := by
  have ascending := numbered.ascending
  rw [(insert_eq_ok h).2.2.2.2, List.map_append, List.pairwise_append] at ascending
  exact ⟨fun other member => numbered.prime other (subset_of_insert h member),
    fun other member => numbered.fits other (subset_of_insert h member), ascending.1⟩

theorem Reached.numbered (reached : table.Reached) : table.Numbered := by
  induction reached with
  | empty => exact numbered_empty
  | si => exact numbered_si
  | insert _ h ih => exact ih.insert h

/-- A prime tells its dimension. -/
theorem Numbered.eq_of_prime_eq {other : Dimension} (numbered : table.Numbered)
    (member : dimension ∈ table.dimensions) (present : other ∈ table.dimensions)
    (same : dimension.prime = other.prime) : dimension = other :=
  List.inj_on_of_nodup_map (numbered.ascending.imp Nat.ne_of_lt) member present same

end Dimensional.Table
