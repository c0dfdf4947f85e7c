import Dimensional.Token.Scanner
import Mathlib.Data.List.Infix

/-! What stands between two tokens: blanks and complete comments. The scanner passes over all of it
and keeps count of lines and columns. -/

namespace Dimensional

namespace Location

/-- The place behind some characters: their number, one line more than there are line feeds among
them, and one column more than there are characters behind the last of those. -/
def behind (before : List Char) : Location :=
  ⟨before.length, before.count '\n' + 1, (before.reverse.takeWhile (· != '\n')).length + 1⟩

variable {before cs : List Char}

theorem behind_concat (c : Char) : behind (before ++ [c]) = (behind before).after c := by
  unfold behind after
  by_cases isFeed : c = '\n'
  · simp [isFeed]
  · simp [isFeed]

theorem behind_append : behind (before ++ cs) = (behind before).afterAll cs := by
  induction cs generalizing before with
  | nil => rw [List.append_nil]; rfl
  | cons c cs ih =>
    rw [List.append_cons, ih, behind_concat]
    rfl

end Location

namespace Scanner

/-- A comment before some other text: from `#` to the end of the line or of the text, or from `/*`
to the first `*/` behind that. -/
inductive IsComment : (comment beyond : List Char) → Prop where
  | line {body beyond : List Char} (inLine : '\n' ∉ body) :
      IsComment ('#' :: (body ++ ['\n'])) beyond
  | lastLine {body : List Char} (inLine : '\n' ∉ body) : IsComment ('#' :: body) []
  | block {body beyond : List Char} (inside : ¬ ['*', '/'] <:+: body ++ ['*']) :
      IsComment ('/' :: '*' :: (body ++ ['*', '/'])) beyond

/-- Blanks and comments before some other text. -/
inductive IsLayout : (gap beyond : List Char) → Prop where
  | nil : IsLayout [] beyond
  | blank (isBlank : Character.isBlank c) (more : IsLayout gap beyond) : IsLayout (c :: gap) beyond
  | comment (isComment : IsComment text (gap ++ beyond)) (more : IsLayout gap beyond) :
      IsLayout (text ++ gap) beyond

/-- What ends a blank, a line comment or a block comment once it has begun, and the layout behind
it. -/
inductive Layout.Closes : Layout → (gap beyond : List Char) → Prop where
  | blank (layout : IsLayout gap beyond) : Closes .blank gap beyond
  | line (inLine : '\n' ∉ body) (layout : IsLayout gap beyond) :
      Closes .lineComment (body ++ '\n' :: gap) beyond
  | lastLine (inLine : '\n' ∉ body) : Closes .lineComment body []
  | block (inside : ¬ ['*', '/'] <:+: body ++ ['*']) (layout : IsLayout gap beyond) :
      Closes .blockComment (body ++ '*' :: '/' :: gap) beyond

namespace Layout.Closes

variable {gap beyond : List Char} {c : Char}

theorem isLayout (closes : Layout.blank.Closes gap beyond) : IsLayout gap beyond := by
  cases closes with
  | blank layout => exact layout

/-- What opens a line comment and what closes it are a comment together. -/
theorem isLayout_line (closes : Layout.lineComment.Closes gap beyond) :
    IsLayout ('#' :: gap) beyond := by
  cases closes with
  | @line body gap beyond inLine layout =>
    have split : '#' :: (body ++ '\n' :: gap) = '#' :: (body ++ ['\n']) ++ gap := by simp
    rw [split]
    exact .comment (.line inLine) layout
  | lastLine inLine =>
    rw [← List.append_nil ('#' :: gap)]
    exact .comment (.lastLine inLine) .nil

theorem isLayout_block (closes : Layout.blockComment.Closes gap beyond) :
    IsLayout ('/' :: '*' :: gap) beyond := by
  cases closes with
  | @block body gap beyond inside layout =>
    have split : '/' :: '*' :: (body ++ '*' :: '/' :: gap) =
        '/' :: '*' :: (body ++ ['*', '/']) ++ gap := by simp
    rw [split]
    exact .comment (.block inside) layout

theorem cons_line (closes : Layout.lineComment.Closes gap beyond) (inLine : c ≠ '\n') :
    Layout.lineComment.Closes (c :: gap) beyond := by
  cases closes with
  | line others layout =>
    rw [← List.cons_append]
    exact .line (by simp [others, inLine.symm]) layout
  | lastLine others => exact .lastLine (by simp [others, inLine.symm])

/-- A character goes on with a block comment unless it closes that together with the next one. -/
theorem cons_block (closes : Layout.blockComment.Closes gap beyond)
    (continues : ∀ more, c = '*' → gap ++ beyond ≠ '/' :: more) :
    Layout.blockComment.Closes (c :: gap) beyond := by
  cases closes with
  | @block body gap beyond inside layout =>
    rw [← List.cons_append]
    refine .block ?_ layout
    rw [List.cons_append, List.infix_cons_iff]
    rintro (starts | within)
    · obtain ⟨rfl, next⟩ := List.cons_prefix_cons.mp starts
      cases body with
      | nil => simp at next
      | cons d body =>
        obtain ⟨rfl, _⟩ := List.cons_prefix_cons.mp next
        exact continues _ rfl rfl
    · exact inside within

end Layout.Closes

/-- What is passed over is layout, and the place behind it is kept. -/
theorem closes_of_skip {layout : Layout} {location : Location} {cs : List Char} {left : Scanner}
    (h : skip layout location cs = .ok left) :
    ∃ gap, cs = gap ++ left.rest ∧ left.location = location.afterAll gap ∧
      layout.Closes gap left.rest := by
  fun_induction skip layout location cs with
  | case1 location =>
    cases h
    exact ⟨[], rfl, rfl, .blank .nil⟩
  | case2 location cs ih =>
    obtain ⟨gap, rfl, place, closes⟩ := ih h
    exact ⟨'/' :: '*' :: gap, rfl, place, .blank closes.isLayout_block⟩
  | case3 location cs _ ih =>
    obtain ⟨gap, rfl, place, closes⟩ := ih h
    exact ⟨'#' :: gap, rfl, place, .blank closes.isLayout_line⟩
  | case4 location c cs _ _ isBlank ih =>
    obtain ⟨gap, rfl, place, closes⟩ := ih h
    exact ⟨c :: gap, rfl, place, .blank (.blank isBlank closes.isLayout)⟩
  | case5 location c cs =>
    cases h
    exact ⟨[], rfl, rfl, .blank .nil⟩
  | case6 location =>
    cases h
    exact ⟨[], rfl, rfl, .lastLine List.not_mem_nil⟩
  | case7 location cs ih =>
    obtain ⟨gap, rfl, place, closes⟩ := ih h
    exact ⟨'\n' :: gap, rfl, place, .line (List.not_mem_nil : '\n' ∉ []) closes.isLayout⟩
  | case8 location c cs inLine ih =>
    obtain ⟨gap, rfl, place, closes⟩ := ih h
    exact ⟨c :: gap, rfl, place, closes.cons_line inLine⟩
  | case9 location => cases h
  | case10 location cs ih =>
    obtain ⟨gap, rfl, place, closes⟩ := ih h
    have nothing : ¬ ['*', '/'] <:+: [] ++ ['*'] := by decide
    exact ⟨'*' :: '/' :: gap, rfl, place, .block nothing closes.isLayout⟩
  | case11 location c cs continues ih =>
    obtain ⟨gap, rfl, place, closes⟩ := ih h
    exact ⟨c :: gap, rfl, place, closes.cons_block continues⟩

/-- A block comment that is not closed reaches to the end. -/
theorem finish_of_skip {layout : Layout} {location finish : Location} {cs : List Char}
    (h : skip layout location cs = .error finish) : finish = location.afterAll cs := by
  fun_induction skip layout location cs with
  | case1 | case5 | case6 => cases h
  | case2 _ _ ih | case3 _ _ _ ih | case4 _ _ _ _ _ _ ih | case7 _ _ ih | case8 _ _ _ _ ih
  | case10 _ _ ih | case11 _ _ _ _ ih => exact ih h
  | case9 => cases h; rfl

/-- A comment reaches from one position of a text to another. -/
def CommentSpans (cs : List Char) (start finish : Nat) : Prop :=
  ∃ first comment beyond, cs = first ++ comment ++ beyond ∧ IsComment comment beyond ∧
    first.length = start ∧ start + comment.length = finish

theorem CommentSpans.append {cs : List Char} {start finish : Nat}
    (spans : CommentSpans cs start finish) (before : List Char) :
    CommentSpans (before ++ cs) (before.length + start) (before.length + finish) := by
  obtain ⟨first, comment, beyond, rfl, isComment, rfl, rfl⟩ := spans
  exact ⟨before ++ first, comment, beyond, by simp, isComment, by simp, Nat.add_assoc _ _ _⟩

/-- Every character of layout is blank or part of a comment. -/
theorem IsLayout.isBlank_or_commentSpans {gap beyond : List Char} {i : Nat} {c : Char}
    (layout : IsLayout gap beyond) (found : gap[i]? = some c) :
    Character.isBlank c = true ∨ ∃ start finish, CommentSpans (gap ++ beyond) start finish ∧
      start ≤ i ∧ i < finish ∧ finish ≤ gap.length := by
  induction layout generalizing i with
  | nil => cases found
  | @blank d gap beyond isBlank _ ih =>
    cases i with
    | zero =>
      cases found
      exact .inl isBlank
    | succ i =>
      refine (ih found).imp_right ?_
      rintro ⟨start, finish, spans, starts, ends, inside⟩
      have spans := spans.append [d]
      rw [List.length_singleton] at spans
      exact ⟨_, _, spans, by omega, by omega, by rw [List.length_cons]; omega⟩
  | @comment text gap beyond isComment _ ih =>
    rw [List.append_assoc, List.length_append]
    by_cases inside : i < text.length
    · refine .inr ⟨0, text.length, ⟨[], text, gap ++ beyond, rfl, isComment, rfl, ?_⟩, ?_, inside,
        ?_⟩
      · exact Nat.zero_add _
      · exact Nat.zero_le _
      · exact Nat.le_add_right _ _
    · rw [List.getElem?_append_right (Nat.not_lt.mp inside)] at found
      refine (ih found).imp_right ?_
      rintro ⟨start, finish, spans, starts, ends, inside⟩
      exact ⟨_, _, spans.append text, by omega, by omega, by omega⟩

end Scanner

end Dimensional
