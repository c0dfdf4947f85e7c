import Dimensional.Parser.State
import Mathlib.Data.List.Nodup

/-! Names are numbered in the order in which they first appear, and sorting the numbered names puts
each of them in its place. -/

namespace List

variable {α : Type}

theorem eraseRepsBy_loop_eq (r : α → α → Bool) (last : α) (rest seen : List α) :
    eraseRepsBy.loop r last rest seen = seen.reverse ++ eraseRepsBy.loop r last rest [] := by
  induction rest generalizing last seen with
  | nil => simp [eraseRepsBy.loop]
  | cons next rest ih =>
    simp only [eraseRepsBy.loop]
    split
    · exact ih last seen
    · rw [ih next (last :: seen), ih next [last]]
      simp

variable [BEq α] [LawfulBEq α]

theorem eraseReps_cons_cons_self (first : α) (rest : List α) :
    (first :: first :: rest).eraseReps = (first :: rest).eraseReps := by
  simp [eraseReps, eraseRepsBy, eraseRepsBy.loop]

theorem eraseReps_cons_cons_of_ne {first second : α} (differ : first ≠ second) (rest : List α) :
    (first :: second :: rest).eraseReps = first :: (second :: rest).eraseReps := by
  simp only [eraseReps, eraseRepsBy, eraseRepsBy.loop, beq_false_of_ne differ]
  rw [eraseRepsBy_loop_eq]
  rfl

theorem mem_eraseReps {entry : α} {entries : List α} :
    entry ∈ entries.eraseReps ↔ entry ∈ entries := by
  induction entries with
  | nil => rfl
  | cons first rest ih =>
    cases rest with
    | nil => rfl
    | cons second rest =>
      by_cases same : first = second
      · rw [same, eraseReps_cons_cons_self, ih]
        simp
      · rw [eraseReps_cons_cons_of_ne same, mem_cons, ih]
        exact mem_cons.symm

/-- Sorted entries without neighbours that are equal rise strictly, where each place in the order is
that of one entry only. -/
theorem pairwise_lt_eraseReps {key : α → Nat} {entries : List α}
    (sorted : entries.Pairwise fun left right => key left ≤ key right)
    (single : ∀ left ∈ entries, ∀ right ∈ entries, key left = key right → left = right) :
    entries.eraseReps.Pairwise fun left right => key left < key right := by
  induction entries with
  | nil => exact .nil
  | cons first rest ih =>
    obtain ⟨least, sorted⟩ := pairwise_cons.mp sorted
    have rises := ih sorted fun left member right other =>
      single left (mem_cons_of_mem _ member) right (mem_cons_of_mem _ other)
    cases rest with
    | nil => exact pairwise_singleton _ _
    | cons second rest =>
      by_cases same : first = second
      · rw [same, eraseReps_cons_cons_self]
        exact rises
      · rw [eraseReps_cons_cons_of_ne same, pairwise_cons]
        refine ⟨fun entry member => ?_, rises⟩
        have differ : key first ≠ key second := fun equal =>
          same (single first (by simp) second (by simp) equal)
        have below : key first < key second := Nat.lt_of_le_of_ne (least second (by simp)) differ
        rcases mem_cons.mp (mem_eraseReps.mp member) with rfl | later
        · exact below
        · exact Nat.lt_of_lt_of_le below ((pairwise_cons.mp sorted).1 entry later)

end List

namespace Dimensional

/-- Later names leave earlier ones in their places. -/
theorem idxOf?_append {names more : List String} {name : String} {number : Nat}
    (place : names.idxOf? name = some number) : (names ++ more).idxOf? name = some number := by
  unfold List.idxOf? at place ⊢
  rw [List.findIdx?_append, place]
  rfl

/-- Entries that are sorted are in the order of their numbers. -/
theorem pairwise_sorted (entries : List (String × Nat)) :
    (entries.mergeSort fun left right => left.2 ≤ right.2).Pairwise
      fun left right => left.2 ≤ right.2 := by
  have transitive (a b c : String × Nat) : decide (a.2 ≤ b.2) → decide (b.2 ≤ c.2) →
      decide (a.2 ≤ c.2) := by
    simpa using Nat.le_trans
  have total (a b : String × Nat) : decide (a.2 ≤ b.2) || decide (b.2 ≤ a.2) := by
    simpa using Nat.le_total a.2 b.2
  simpa using List.pairwise_mergeSort transitive total entries

/-- Entries sorted by their numbers and taken once each are the names in their places. -/
theorem sorted_eq_zipIdx {names : List String} {entries : List (String × Nat)}
    (placed : ∀ entry, entry ∈ entries ↔ names[entry.2]? = some entry.1) :
    (entries.mergeSort fun left right => left.2 ≤ right.2).eraseReps = names.zipIdx := by
  have single : ∀ left ∈ entries.mergeSort fun left right => left.2 ≤ right.2,
      ∀ right ∈ entries.mergeSort fun left right => left.2 ≤ right.2,
        left.2 = right.2 → left = right := by
    intro left first right second same
    have ofLeft := (placed left).mp (List.mem_mergeSort.mp first)
    have ofRight := (placed right).mp (List.mem_mergeSort.mp second)
    rw [same, ofRight] at ofLeft
    exact Prod.ext (Option.some.inj ofLeft).symm same
  have rises := List.pairwise_lt_eraseReps (pairwise_sorted entries) single
  have places : names.zipIdx.Pairwise fun left right => left.2 < right.2 := by
    rw [← List.pairwise_map (f := Prod.snd) (R := (· < ·)), List.zipIdx_map_snd]
    exact List.pairwise_lt_range'
  have distinct {list : List (String × Nat)}
      (pairwise : list.Pairwise fun left right => left.2 < right.2) : list.Nodup :=
    pairwise.imp fun less same => by simp [same] at less
  refine List.Perm.eq_of_pairwise (fun left right _ _ less more => absurd less (Nat.lt_asymm more))
    rises places ?_
  refine (List.perm_ext_iff_of_nodup (distinct rises) (distinct places)).mpr fun entry => ?_
  rw [List.mem_eraseReps, List.mem_mergeSort, placed, List.mem_zipIdx_iff_getElem?]

namespace Parser.Numbering

variable {numbering : Numbering} {name : String} {names more : List String}

/-- Number some names one after another. -/
def including (numbering : Numbering) (names : List String) : Numbering :=
  names.foldl (fun numbering name => (numbering.numberFor name).2) numbering

theorem including_append :
    numbering.including (names ++ more) = (numbering.including names).including more :=
  List.foldl_append

/-- A name that is numbered keeps its number, and a new one gets the next. -/
theorem names_numberFor :
    (numbering.numberFor name).2.names =
      if name ∈ numbering.names then numbering.names else numbering.names ++ [name] := by
  unfold numberFor
  cases found : numbering.names.findIdx? fun known => known == name with
  | none =>
    have new : name ∉ numbering.names := List.idxOf?_eq_none_iff.mp found
    simp [new]
  | some number =>
    have known : name ∈ numbering.names :=
      List.isSome_idxOf?.mp (Option.isSome_of_eq_some found)
    simp [known]

/-- The number of a name is its place among the names. -/
theorem idxOf?_numberFor :
    (numbering.numberFor name).2.names.idxOf? name = some (numbering.numberFor name).1 := by
  unfold numberFor
  cases found : numbering.names.findIdx? fun known => known == name with
  | none => simp [List.idxOf?, List.findIdx?_append, found]
  | some number => exact found

/-- The new names come after the old ones, in the order in which they first appear. -/
theorem names_including (numbering : Numbering) (names : List String) :
    (numbering.including names).names =
      numbering.names ++ (names.filter fun name => name ∉ numbering.names).eraseDups := by
  induction names generalizing numbering with
  | nil => simp [including]
  | cons name names ih =>
    change ((numbering.numberFor name).2.including names).names = _
    rw [ih, names_numberFor]
    by_cases known : name ∈ numbering.names
    · simp [known]
    · have others : (names.filter fun other => other ∉ numbering.names ++ [name]) =
          (names.filter fun other => other ∉ numbering.names).filter fun other => !other == name := by
        rw [List.filter_filter]
        refine List.filter_congr fun other _ => ?_
        by_cases same : other = name <;> simp [same, known]
      rw [if_neg known, others, List.filter_cons_of_pos (by simp [known]), List.eraseDups_cons,
        List.append_assoc, List.singleton_append]

/-- No name is numbered twice. -/
theorem nodup_including (distinct : numbering.names.Nodup) :
    (numbering.including names).names.Nodup := by
  induction names generalizing numbering with
  | nil => exact distinct
  | cons name names ih =>
    refine ih ?_
    rw [names_numberFor]
    split
    · exact distinct
    · rename_i new
      rw [← List.concat_eq_append]
      exact distinct.concat new

end Parser.Numbering

end Dimensional
