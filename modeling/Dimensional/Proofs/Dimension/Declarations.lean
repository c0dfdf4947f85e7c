import Dimensional.Proofs.Dimension.Renumbering
import Mathlib.Data.Nat.Nth
import Mathlib.Data.Nat.PrimeFin

/-! Declarations one after another. Those that fail leave the table as it is; the others number
their dimensions by all the primes in order, and no key is ever answered to twice. -/

namespace Dimensional.Table

variable {table extended : Table} {name key : String} {symbol? : Option String}
  {dimension other : Dimension} {error : AlgebraError} {calls more : List (String × Option String)}

/-- The table after a declaration, which may have failed. -/
def declare (table : Table) (name : String) (symbol? : Option String) : Table :=
  match table.insert name symbol? with
  | .ok (_, extended) => extended
  | .error _ => table

/-- The table after some declarations. -/
def declareAll (table : Table) (calls : List (String × Option String)) : Table :=
  calls.foldl (fun table call => table.declare call.1 call.2) table

theorem declareAll_append :
    table.declareAll (calls ++ more) = (table.declareAll calls).declareAll more :=
  List.foldl_append

theorem declare_of_error (h : table.insert name symbol? = .error error) :
    table.declare name symbol? = table := by
  rw [declare, h]

/-- Declarations behind a failed one do not know of it. -/
theorem declareAll_of_error
    (h : (table.declareAll calls).insert name symbol? = .error error) :
    table.declareAll (calls ++ (name, symbol?) :: more) = table.declareAll (calls ++ more) := by
  rw [declareAll_append, declareAll_append]
  change ((table.declareAll calls).declare name symbol?).declareAll more = _
  rw [declare_of_error h]

/-- What holds at first and after every declaration that succeeds holds after all of them. -/
theorem declareAll_preserves {p : Table → Prop} (begun : p table)
    (step : ∀ {table name symbol? dimension extended}, p table →
      table.insert name symbol? = .ok (dimension, extended) → p extended) :
    p (table.declareAll calls) := by
  induction calls generalizing table with
  | nil => exact begun
  | cons call calls ih =>
    have next : p (table.declare call.1 call.2) := by
      unfold declare
      split
      · exact step begun ‹_›
      · exact begun
    exact ih next

/-- The SI base units are declared like any other dimensions. -/
theorem si_eq_declareAll :
    si = empty.declareAll [("meter", some "m"), ("kilogram", some "kg"), ("second", some "s"),
      ("ampere", some "A"), ("kelvin", some "K"), ("mole", some "mol"), ("candela", some "cd"),
      ("radian", some "rad")] := by
  decide +kernel

/-- The dimensions are numbered by the first primes in order. -/
def InOrder (table : Table) : Prop :=
  ∀ i dimension, table.dimensions[i]? = some dimension → dimension.prime = Nat.nth Nat.Prime i

theorem inOrder_empty : empty.InOrder := by
  intro i dimension found
  simp [empty] at found

/-- The last prime lies below a prime exactly when all the first ones do. -/
theorem InOrder.lastPrime_lt_iff (inOrder : table.InOrder) {m : Nat} (isPrime : m.Prime) :
    table.lastPrime < m ↔ ∀ k < table.dimensions.length, Nat.nth Nat.Prime k < m := by
  have mono := Nat.nth_strictMono Nat.infinite_setOfPred_prime
  unfold lastPrime
  cases last : table.dimensions.getLast? with
  | none =>
    rw [List.getLast?_eq_none_iff.mp last]
    exact ⟨nofun, fun _ => isPrime.one_lt⟩
  | some final =>
    obtain ⟨before, same⟩ := List.getLast?_eq_some_iff.mp last
    have final_prime : final.prime = Nat.nth Nat.Prime before.length :=
      inOrder before.length final (by simp [same])
    have length : table.dimensions.length = before.length + 1 := by simp [same]
    change final.prime < m ↔ _
    rw [final_prime, length]
    constructor
    · intro below k inside
      exact Nat.lt_of_le_of_lt (mono.monotone (Nat.le_of_lt_succ inside)) below
    · intro all
      exact all before.length (Nat.lt_succ_self _)

/-- The next prime is the one behind those that are used. -/
theorem InOrder.nextPrime?_eq (inOrder : table.InOrder) {prime : Nat}
    (next : Prime.nextPrime? table.lastPrime = some prime) :
    prime = Nat.nth Nat.Prime table.dimensions.length := by
  obtain ⟨isPrime, _, above, least⟩ := Prime.nextPrime?_eq_some next
  obtain ⟨⟨nth_isPrime, nth_above⟩, nth_least⟩ :=
    Nat.isLeast_nth_of_infinite Nat.infinite_setOfPred_prime table.dimensions.length
  apply Nat.le_antisymm
  · by_contra beyond
    exact least _ ((inOrder.lastPrime_lt_iff nth_isPrime).mpr nth_above) (Nat.lt_of_not_le beyond)
      nth_isPrime
  · exact nth_least ⟨isPrime, (inOrder.lastPrime_lt_iff isPrime).mp above⟩

theorem InOrder.insert (inOrder : table.InOrder)
    (h : table.insert name symbol? = .ok (dimension, extended)) : extended.InOrder := by
  obtain ⟨_, _, _, next, same⟩ := insert_eq_ok h
  intro i other found
  rw [same, List.getElem?_append] at found
  split at found
  · exact inOrder i other found
  · have last : i - table.dimensions.length = 0 := by
      by_contra beyond
      rw [List.getElem?_eq_none (by simp; omega)] at found
      cases found
    rw [last] at found
    cases found
    rw [inOrder.nextPrime?_eq next]
    congr 1
    omega

/-- One of a new dimension's keys is the name or the symbol of a dimension of the table. -/
def Clashes (table : Table) (name : String) (symbol? : Option String) : Prop :=
  ∃ other ∈ table.dimensions, ∃ key, (key = name ∨ symbol? = some key) ∧
    (key = other.name ∨ other.symbol? = some key)

theorem answersTo_iff :
    dimension.answersTo key = true ↔ key = dimension.name ∨ dimension.symbol? = some key := by
  rw [Dimension.answersTo, Bool.or_eq_true, beq_iff_eq, beq_iff_eq, eq_comm (a := key)]

/-- The names and symbols that clash are those that are found taken. -/
theorem isSome_taken?_iff : (table.taken? name symbol?).isSome ↔ table.Clashes name symbol? := by
  have taken : (table.taken? name symbol?).isSome ↔
      ∃ key, (key = name ∨ symbol? = some key) ∧ (table.get? key).isSome := by
    unfold taken?
    by_cases named : (table.get? name).isSome
    · simp [named]
    · cases symbol? <;> simp [named]
  simp only [taken, get?_isSome_iff, answersTo_iff]
  constructor
  · rintro ⟨key, own, other, member, answers⟩
    exact ⟨other, member, key, own, answers⟩
  · rintro ⟨other, member, key, own, answers⟩
    exact ⟨key, own, other, member, answers⟩

/-- A declaration is a duplicate exactly when it clashes. -/
theorem insert_eq_duplicate_iff :
    (∃ key, table.insert name symbol? = .error (.duplicateDimension key)) ↔
      table.Clashes name symbol? := by
  rw [← isSome_taken?_iff]
  unfold insert
  cases taken : table.taken? name symbol? with
  | some key => simp
  | none =>
    simp only [Option.isSome_none, Bool.false_eq_true, iff_false]
    rintro ⟨key, h⟩
    split at h <;> cases h

/-- What does not clash is declared if there is a prime for it. -/
theorem insert_isOk_of_nextPrime? {prime : Nat} (next : Prime.nextPrime? table.lastPrime = some prime)
    (free : ¬ table.Clashes name symbol?) :
    ∃ dimension extended, table.insert name symbol? = .ok (dimension, extended) := by
  have untaken : table.taken? name symbol? = none := by
    rw [← isSome_taken?_iff, Bool.not_eq_true, Option.isSome_eq_false_iff,
      Option.isNone_iff_eq_none] at free
    exact free
  unfold insert
  rw [untaken, next]
  exact ⟨_, _, rfl⟩

/-- What does not clash is declared, as long as the primes are small. -/
theorem insert_isOk (small : ∀ dimension ∈ table.dimensions, dimension.prime < 2 ^ 62)
    (free : ¬ table.Clashes name symbol?) :
    ∃ dimension extended, table.insert name symbol? = .ok (dimension, extended) := by
  have last : table.lastPrime ≤ 2 ^ 62 := by
    unfold lastPrime
    cases final : table.dimensions.getLast? with
    | none => exact Nat.one_le_two_pow
    | some dimension => exact Nat.le_of_lt (small dimension (List.mem_of_getLast? final))
  obtain ⟨prime, next⟩ := Option.isSome_iff_exists.mp (Prime.nextPrime?_isSome last)
  exact insert_isOk_of_nextPrime? next free

/-- A dimension stands in one place only. -/
theorem Numbered.eq_of_getElem? (numbered : table.Numbered) {i j : Nat}
    (first : table.dimensions[i]? = some dimension)
    (second : table.dimensions[j]? = some dimension) : i = j := by
  obtain ⟨inside, rfl⟩ := List.getElem?_eq_some_iff.mp first
  have nodup : table.dimensions.Nodup :=
    List.Nodup.of_map Dimension.prime (numbered.ascending.imp Nat.ne_of_lt)
  exact (List.getElem?_inj inside nodup).mp (first.trans second.symm)

/-- What declarations keep: the order of the primes and that no key is answered to twice. -/
structure Orderly (table : Table) : Prop where
  numbered : table.Numbered
  inOrder : table.InOrder
  distinct : table.Distinct

theorem Orderly.insert (orderly : table.Orderly)
    (h : table.insert name symbol? = .ok (dimension, extended)) : extended.Orderly :=
  ⟨orderly.numbered.insert h, orderly.inOrder.insert h, orderly.distinct.insert h⟩

theorem orderly_empty : empty.Orderly := ⟨numbered_empty, inOrder_empty, distinct_empty⟩

theorem orderly_si : si.Orderly := by
  rw [si_eq_declareAll]
  exact declareAll_preserves orderly_empty Orderly.insert

/-- Whatever is declared, and however many declarations fail, the dimensions carry the first primes
in order and each key has one answer at most. A declaration fails as a duplicate exactly when it
clashes, and then leaves no trace; one that succeeds changes what its own two keys mean and nothing
else. -/
theorem declareAll_exact {start : Table} (begun : start = .empty ∨ start = .si)
    (calls : List (String × Option String)) (h : start.declareAll calls = table) :
    (∀ i dimension, table.dimensions[i]? = some dimension →
      dimension.prime = Nat.nth Nat.Prime i) ∧
    (∀ (i j : Nat) (first second : Dimension) (key : String),
      table.dimensions[i]? = some first → table.dimensions[j]? = some second →
      first.answersTo key → second.answersTo key → i = j) ∧
    (∀ dimension ∈ table.dimensions, ∀ key, dimension.answersTo key →
      table.get? key = some dimension) ∧
    (∀ name symbol?, (∃ key, table.insert name symbol? = .error (.duplicateDimension key)) ↔
      table.Clashes name symbol?) ∧
    ((∀ dimension ∈ table.dimensions, dimension.prime < 2 ^ 62) →
      ∀ name symbol?, ¬ table.Clashes name symbol? →
        ∃ dimension extended, table.insert name symbol? = .ok (dimension, extended)) ∧
    (∀ name symbol? error, table.insert name symbol? = .error error →
      table.declare name symbol? = table ∧
      ∀ more, start.declareAll (calls ++ (name, symbol?) :: more) =
        start.declareAll (calls ++ more)) ∧
    (∀ name symbol? dimension extended, table.insert name symbol? = .ok (dimension, extended) →
      start.declareAll (calls ++ [(name, symbol?)]) = extended ∧
      dimension = ⟨name, symbol?, Nat.nth Nat.Prime table.dimensions.length⟩ ∧
      extended.dimensions = table.dimensions ++ [dimension] ∧
      (∀ key, key = name ∨ symbol? = some key → extended.get? key = some dimension) ∧
      ∀ key, key ≠ name → symbol? ≠ some key → extended.get? key = table.get? key) := by
  have orderly : table.Orderly := by
    rw [← h]
    rcases begun with rfl | rfl
    · exact declareAll_preserves orderly_empty Orderly.insert
    · exact declareAll_preserves orderly_si Orderly.insert
  refine ⟨orderly.inOrder, ?_, fun _ member _ => orderly.distinct.get?_eq member,
    fun _ _ => insert_eq_duplicate_iff, fun small _ _ => insert_isOk small, ?_, ?_⟩
  · intro i j first second key atFirst atSecond ofFirst ofSecond
    obtain rfl := orderly.distinct first (List.mem_of_getElem? atFirst) second
      (List.mem_of_getElem? atSecond) key ofFirst ofSecond
    exact orderly.numbered.eq_of_getElem? atFirst atSecond
  · intro name symbol? error failed
    refine ⟨declare_of_error failed, fun more => ?_⟩
    rw [← h] at failed
    exact declareAll_of_error failed
  · intro name symbol? dimension extended inserted
    obtain ⟨_, rfl, rfl, next, dimensions⟩ := insert_eq_ok inserted
    refine ⟨?_, ?_, dimensions, ?_, fun _ => get?_of_insert inserted⟩
    · rw [declareAll_append, h]
      change table.declare dimension.name dimension.symbol? = extended
      rw [declare, inserted]
    · rw [← orderly.inOrder.nextPrime?_eq next]
    · intro key own
      have member : dimension ∈ extended.dimensions := by simp [dimensions]
      exact (orderly.distinct.insert inserted).get?_eq member (answersTo_iff.mpr own)

/-- Metres are not declared again, so bits are the ninth dimension and carry the ninth prime. -/
theorem exists_bit_behind_duplicate :
    ∃ extended, si.declareAll [("metre", some "m"), ("bit", some "b")] = extended ∧
      si.insert "bit" (some "b") = .ok (⟨"bit", some "b", 23⟩, extended) ∧
      Nat.nth Nat.Prime 8 = 23 ∧ extended.get? "b" = some ⟨"bit", some "b", 23⟩ ∧
      extended.get? "m" = si.get? "m" := by
  have nothing : si.declareAll [] = si := rfl
  obtain ⟨_, _, _, duplicate, succeeds, untraced, inserts⟩ :=
    declareAll_exact (.inr rfl) [] nothing
  have clash : si.Clashes "metre" (some "m") :=
    ⟨⟨"meter", some "m", 2⟩, by decide, "m", .inr rfl, .inr rfl⟩
  have free : ¬ si.Clashes "bit" (some "b") := by
    rw [← isSome_taken?_iff]
    decide
  obtain ⟨key, failed⟩ := (duplicate "metre" (some "m")).mpr clash
  obtain ⟨dimension, extended, inserted⟩ := succeeds (by decide) "bit" (some "b") free
  obtain ⟨(reached : si.declareAll [("bit", some "b")] = extended), rfl, _, own, kept⟩ :=
    inserts _ _ _ _ inserted
  have prime : Nat.nth Nat.Prime 8 = 23 := by
    obtain ⟨inOrder, _⟩ := declareAll_exact (.inr rfl) [("bit", some "b")] reached
    have ninth : extended.dimensions[8]? = some ⟨"bit", some "b", 23⟩ := by
      rw [← reached]
      decide +kernel
    exact (inOrder 8 _ ninth).symm
  have length : si.dimensions.length = 8 := rfl
  rw [length, prime] at inserted own
  exact ⟨extended, ((untraced _ _ _ failed).2 [("bit", some "b")]).trans reached, inserted, prime,
    own "b" (.inr rfl), kept "m" (by decide) (by decide)⟩

end Dimensional.Table
