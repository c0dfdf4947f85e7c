import Mathlib.Data.List.Basic

/-! Texts that are put together of others, and how these are told apart again. -/

namespace Dimensional

section Parting

variable {p : Char → Prop} {c d : Char} {front back others further sign : List Char}

/-- Where a run of characters of a kind ends is told by the text. -/
theorem eq_of_append_cons (first : ∀ c ∈ front, p c) (second : ∀ c ∈ others, p c) (ends : ¬ p c)
    (stops : ¬ p d) (same : front ++ c :: back = others ++ d :: further) :
    front = others ∧ c = d ∧ back = further := by
  induction front generalizing others with
  | nil =>
    cases others with
    | nil => exact ⟨rfl, List.cons_eq_cons.mp same⟩
    | cons other others =>
      obtain ⟨rfl, _⟩ := List.cons_eq_cons.mp same
      exact absurd (second c List.mem_cons_self) ends
  | cons own front ih =>
    cases others with
    | nil =>
      obtain ⟨rfl, _⟩ := List.cons_eq_cons.mp same
      exact absurd (first own List.mem_cons_self) stops
    | cons other others =>
      obtain ⟨rfl, below⟩ := List.cons_eq_cons.mp same
      obtain ⟨rfl, rest⟩ := ih (List.forall_mem_cons.mp first).2 (List.forall_mem_cons.mp second).2
        below
      exact ⟨rfl, rest⟩

/-- What stands in texts that are joined stands between two of them or in one of them. -/
theorem mem_intercalate : {texts : List (List Char)} → c ∈ sign.intercalate texts →
    c ∈ sign ∨ ∃ text ∈ texts, c ∈ text
  | [], member => absurd member List.not_mem_nil
  | [text], member => .inr ⟨text, List.mem_singleton_self text, by simpa using member⟩
  | text :: other :: texts, member => by
    rw [List.intercalate_cons_cons, List.append_assoc, List.mem_append, List.mem_append] at member
    rcases member with inFirst | between | later
    · exact .inr ⟨text, List.mem_cons_self, inFirst⟩
    · exact .inl between
    · refine (mem_intercalate later).imp_right ?_
      rintro ⟨found, present, inFound⟩
      exact ⟨found, List.mem_cons_of_mem _ present, inFound⟩

end Parting

end Dimensional
