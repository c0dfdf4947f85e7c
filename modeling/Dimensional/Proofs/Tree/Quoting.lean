import Dimensional.Tree.Drawing
import Mathlib.Algebra.Group.Nat.Even
import Mathlib.Data.List.Basic
import Mathlib.Data.Prod.Basic

/-! Texts between quotes. A quote in a text is put behind a backslash and a backslash stays as it
is, so that a text reads back only where its backslashes in front of quotes come in pairs. -/

namespace Dimensional.Expression

/-- A text with a backslash in front of each quote. -/
def escaped : List Char → List Char
  | [] => []
  | '"' :: cs => '\\' :: '"' :: escaped cs
  | c :: cs => c :: escaped cs

/-- Read up to the first quote that is not behind a backslash, which takes the next character along.
What has been read and what is behind that quote; a quote behind a backslash stands for itself. -/
def readQuoted : List Char → Option (List Char × List Char)
  | [] => none
  | ['\\'] => none
  | '"' :: rest => some ([], rest)
  | '\\' :: c :: rest =>
    (readQuoted rest).map (Prod.map ((if c = '"' then ['"'] else ['\\', c]) ++ ·) id)
  | c :: rest => (readQuoted rest).map (Prod.map (c :: ·) id)

/-- How many backslashes a text ends in. -/
def backslashes (cs : List Char) : Nat := (cs.reverse.takeWhile (· == '\\')).length

/-- Every quote of a text stands behind an even number of backslashes. -/
def Paired (cs : List Char) : Prop :=
  ∀ front back, cs = front ++ '"' :: back → Even (backslashes front)

section Escaped

variable {c : Char} {cs rest : List Char}

theorem escaped_cons_quote : escaped ('"' :: cs) = '\\' :: '"' :: escaped cs := rfl

theorem escaped_cons (other : c ≠ '"') : escaped (c :: cs) = c :: escaped cs := by
  rw [escaped]
  exact other

/-- Replacing each character on its own puts a backslash in front of each quote. -/
theorem escapeQuotes_eq (text : String) : escapeQuotes text = .ofList (escaped text.toList) := by
  have characters (cs : List Char) :
      (cs.flatMap fun c => if c = '"' then ['\\', '"'] else [c]) = escaped cs := by
    induction cs with
    | nil => rfl
    | cons c cs ih =>
      rw [List.flatMap_cons, ih]
      by_cases quote : c = '"'
      · rw [if_pos quote, quote]
        rfl
      · rw [if_neg quote, escaped_cons quote]
        rfl
  rw [escapeQuotes, characters]

/-- Only backslashes are put in. -/
theorem mem_of_mem_escaped (other : c ≠ '\\') (member : c ∈ escaped cs) : c ∈ cs := by
  induction cs with
  | nil => cases member
  | cons own cs ih =>
    by_cases quote : own = '"'
    · rw [quote, escaped_cons_quote, List.mem_cons, List.mem_cons] at member
      rcases member with backslash | isQuote | further
      · exact absurd backslash other
      · rw [isQuote, quote]
        exact List.mem_cons_self
      · exact List.mem_cons_of_mem _ (ih further)
    · rw [escaped_cons quote, List.mem_cons] at member
      exact List.mem_cons.mpr (member.imp_right ih)

/-- No escaped text starts with a quote. -/
theorem escaped_ne_quote_cons : escaped cs ≠ '"' :: rest := by
  cases cs with
  | nil => exact nofun
  | cons c cs =>
    by_cases quote : c = '"'
    · rw [quote, escaped_cons_quote]
      simp
    · rw [escaped_cons quote]
      simp [quote]

theorem escaped_injective : Function.Injective escaped := by
  intro cs
  induction cs with
  | nil =>
    rintro (_ | ⟨c, others⟩) same
    · rfl
    · by_cases quote : c = '"'
      · rw [quote, escaped_cons_quote] at same
        cases same
      · rw [escaped_cons quote] at same
        cases same
  | cons c cs ih =>
    rintro (_ | ⟨d, others⟩) same
    · by_cases quote : c = '"'
      · rw [quote, escaped_cons_quote] at same
        cases same
      · rw [escaped_cons quote] at same
        cases same
    -- A backslash in front of a quote was put there, since the text behind another one is escaped.
    by_cases first : c = '"' <;> by_cases second : d = '"'
    · subst first second
      rw [escaped_cons_quote, escaped_cons_quote, List.cons_inj_right, List.cons_inj_right] at same
      rw [ih same]
    · rw [first, escaped_cons_quote, escaped_cons second] at same
      exact absurd (List.cons_eq_cons.mp same).2.symm escaped_ne_quote_cons
    · rw [second, escaped_cons_quote, escaped_cons first] at same
      exact absurd (List.cons_eq_cons.mp same).2 escaped_ne_quote_cons
    · rw [escaped_cons first, escaped_cons second] at same
      obtain ⟨rfl, below⟩ := List.cons_eq_cons.mp same
      rw [ih below]

end Escaped

section Paired

variable {c : Char} {cs rest : List Char}

/-- Backslashes before another character do not count. -/
theorem backslashes_append (other : c ≠ '\\') (cs : List Char) :
    backslashes (cs ++ c :: rest) = backslashes rest := by
  rw [backslashes, List.reverse_append, List.reverse_cons, List.append_assoc, List.singleton_append,
    List.takeWhile_append, List.takeWhile_cons_of_neg (by simpa)]
  split
  case isTrue all => rw [backslashes, List.append_nil, all]
  case isFalse => rfl

theorem even_backslashes_cons_cons :
    Even (backslashes ('\\' :: '\\' :: cs)) ↔ Even (backslashes cs) := by
  rw [backslashes, List.reverse_cons, List.reverse_cons, List.append_assoc, List.takeWhile_append]
  split
  case isTrue all =>
    rw [backslashes, List.length_append, all, Nat.even_add]
    exact iff_true_right (by decide)
  case isFalse => rfl

theorem paired_nil : Paired [] := fun _ _ same => absurd same.symm (by simp)

theorem not_paired_quote : ¬ Paired ('\\' :: '"' :: cs) := fun paired =>
  absurd (paired ['\\'] cs rfl) (by decide)

theorem paired_cons_iff (other : c ≠ '\\') : Paired (c :: cs) ↔ Paired cs := by
  have even_iff (front : List Char) : Even (backslashes (c :: front)) ↔ Even (backslashes front) :=
    iff_of_eq (congrArg Even (backslashes_append other []))
  constructor
  · rintro paired front back rfl
    exact (even_iff front).mp (paired (c :: front) back rfl)
  · rintro paired (_ | ⟨first, front⟩) back same
    · exact Even.zero
    · obtain ⟨rfl, below⟩ := List.cons_eq_cons.mp same
      exact (even_iff front).mpr (paired front back below)

/-- A backslash takes the next character along. -/
theorem paired_cons_cons_iff (other : c ≠ '"') : Paired ('\\' :: c :: cs) ↔ Paired cs := by
  have even_iff (front : List Char) :
      Even (backslashes ('\\' :: c :: front)) ↔ Even (backslashes front) := by
    by_cases backslash : c = '\\'
    · rw [backslash]
      exact even_backslashes_cons_cons
    · exact iff_of_eq (congrArg Even (backslashes_append backslash ['\\']))
  constructor
  · rintro paired front back rfl
    exact (even_iff front).mp (paired ('\\' :: c :: front) back rfl)
  · rintro paired (_ | ⟨first, _ | ⟨second, front⟩⟩) back same
    · cases same
    · exact absurd (List.cons_eq_cons.mp (List.cons_eq_cons.mp same).2).1 other
    · obtain ⟨rfl, tails⟩ := List.cons_eq_cons.mp same
      obtain ⟨rfl, below⟩ := List.cons_eq_cons.mp tails
      exact (even_iff front).mpr (paired front back below)

/-- A character that is neither a quote nor a backslash parts a text. -/
theorem paired_append_cons_iff (quote : c ≠ '"') (backslash : c ≠ '\\') :
    Paired (cs ++ c :: rest) ↔ Paired cs ∧ Paired rest := by
  constructor
  · intro paired
    constructor
    · rintro front back rfl
      exact paired front (back ++ c :: rest) (List.append_assoc _ _ _)
    · rintro front back rfl
      have even := paired (cs ++ c :: front) back (by rw [List.append_assoc]; rfl)
      rwa [backslashes_append backslash] at even
  · rintro ⟨first, second⟩ front back same
    rcases List.append_eq_append_iff.mp same with ⟨more, rfl, parts⟩ | ⟨more, rfl, parts⟩
    · cases more with
      | nil => exact absurd (List.cons_eq_cons.mp parts).1 quote
      | cons d more =>
        obtain ⟨rfl, below⟩ := List.cons_eq_cons.mp parts
        rw [backslashes_append backslash]
        exact second more back below
    · cases more with
      | nil => exact absurd (List.cons_eq_cons.mp parts).1.symm quote
      | cons d more =>
        obtain ⟨rfl, _⟩ := List.cons_eq_cons.mp parts
        exact first front more rfl

end Paired

section Reading

variable {c : Char} {cs rest : List Char}

/-- What is read on is told from what is read so far. -/
theorem read_on_iff {f : List Char → List Char} (injective : Function.Injective f)
    {result? : Option (List Char × List Char)} :
    result?.map (Prod.map f id) = some (f cs, rest) ↔ result? = some (cs, rest) :=
  (Option.map_injective (injective.prodMap Function.injective_id)).eq_iff' rfl

theorem readQuoted_cons (quote : c ≠ '"') (backslash : c ≠ '\\') :
    readQuoted (c :: rest) = (readQuoted rest).map (Prod.map (c :: ·) id) := by
  rw [readQuoted.eq_def]
  split <;> simp_all

/-- A backslash at the end takes the closing quote along. -/
theorem readQuoted_backslash_ne : readQuoted ('\\' :: '"' :: rest) ≠ some (['\\'], cs) := by
  intro read
  rw [readQuoted] at read
  obtain ⟨result, _, same⟩ := Option.map_eq_some_iff.mp read
  exact absurd (congrArg Prod.fst same) (by simp)

/-- A backslash in front of a quote takes the one along that is put in. -/
theorem readQuoted_pair :
    readQuoted ('\\' :: '\\' :: '"' :: rest) = some (['\\', '\\'], rest) := by
  rw [readQuoted, readQuoted, if_neg (by decide)]
  rfl

/-- Exactly the texts whose backslashes come in pairs before quotes, and at the end, are read back
as they are. -/
theorem readQuoted_escaped_iff (rest : List Char) : (cs : List Char) →
    (readQuoted (escaped cs ++ '"' :: rest) = some (cs, rest) ↔ Paired (cs ++ ['"']))
  | [] => iff_of_true rfl ((paired_cons_iff (by decide)).mpr paired_nil)
  | c :: cs => by
    by_cases quote : c = '"'
    · rw [quote, escaped_cons_quote, List.cons_append, List.cons_append, List.cons_append,
        paired_cons_iff (by decide), readQuoted, if_pos rfl, ← readQuoted_escaped_iff rest cs]
      exact read_on_iff List.cons_injective
    by_cases backslash : c = '\\'
    · cases cs with
      | nil =>
        rw [backslash]
        exact iff_of_false readQuoted_backslash_ne not_paired_quote
      | cons d cs =>
        rw [backslash, escaped_cons (by decide), List.cons_append, List.cons_append,
          List.cons_append]
        by_cases second : d = '"'
        · rw [second, escaped_cons_quote]
          refine iff_of_false (fun read => ?_) not_paired_quote
          rw [List.cons_append, List.cons_append, readQuoted_pair] at read
          cases read
        · rw [escaped_cons second, List.cons_append, paired_cons_cons_iff second, readQuoted,
            if_neg second, ← readQuoted_escaped_iff rest cs]
          exact read_on_iff (List.append_right_injective _)
    · rw [escaped_cons quote, List.cons_append, List.cons_append, paired_cons_iff backslash,
        readQuoted_cons quote backslash, ← readQuoted_escaped_iff rest cs]
      exact read_on_iff List.cons_injective
termination_by cs => cs.length

end Reading

end Dimensional.Expression
