/-! Computations that can fail, taken apart. -/

namespace Except

variable {ε α β : Type}

/-- A sequence succeeds exactly when its parts do, one after another. -/
theorem bind_eq_ok {x : Except ε α} {f : α → Except ε β} {b : β} :
    (x >>= f) = .ok b ↔ ∃ a, x = .ok a ∧ f a = .ok b := by
  cases x <;> simp [bind, Except.bind]

/-- Two parts that do not depend on each other succeed together. -/
theorem both_eq_ok {x : Except ε α} {y : Except ε β} {both : α × β} :
    (do
      let a ← x
      let b ← y
      .ok (a, b)) = Except.ok both ↔ x = .ok both.1 ∧ y = .ok both.2 := by
  cases x <;> cases y <;> simp [bind, Except.bind, Prod.ext_iff]

theorem map_eq_ok {x : Except ε α} {f : α → β} {b : β} :
    x.map f = .ok b ↔ ∃ a, x = .ok a ∧ f a = b := by
  cases x <;> simp [Except.map]

@[simp] theorem ok_bind {a : α} {f : α → Except ε β} : (Except.ok a >>= f) = f a := rfl

@[simp] theorem map_of_ok {a : α} {f : α → β} : (Except.ok a : Except ε α).map f = .ok (f a) := rfl

theorem exists_error_bind {x : Except ε α} {f : α → Except ε β}
    (h : ∀ a, ∃ error, f a = .error error) : ∃ error, (x >>= f) = .error error := by
  cases x with
  | error error => exact ⟨error, rfl⟩
  | ok a => exact h a

theorem mapError_eq_ok {δ : Type} {x : Except ε α} {f : ε → δ} {a : α} :
    x.mapError f = .ok a ↔ x = .ok a := by
  cases x with
  | error error => exact ⟨nofun, nofun⟩
  | ok value =>
    constructor
    · rintro ⟨⟩
      rfl
    · rintro ⟨⟩
      rfl

theorem toOption_eq_some {x : Except ε α} {a : α} : x.toOption = some a ↔ x = .ok a := by
  cases x with
  | error error => exact ⟨nofun, nofun⟩
  | ok value =>
    constructor
    · rintro ⟨⟩
      rfl
    · rintro ⟨⟩
      rfl

/-- The error of a computation that fails. -/
def error? : Except ε α → Option ε
  | .error reason => some reason
  | .ok _ => none

theorem error?_eq_some {x : Except ε α} {reason : ε} :
    x.error? = some reason ↔ x = .error reason := by
  cases x <;> simp [error?]

/-- What every step keeps is kept to the end. -/
theorem foldlM_preserves {f : β → α → Except ε β} {p : β → Prop} {list : List α}
    (step : ∀ b, ∀ a ∈ list, ∀ next, p b → f b a = .ok next → p next) {start last : β}
    (begins : p start) (h : list.foldlM f start = .ok last) : p last := by
  induction list generalizing start with
  | nil =>
    cases h
    exact begins
  | cons a list ih =>
    rw [List.foldlM_cons] at h
    obtain ⟨next, first, h⟩ := bind_eq_ok.mp h
    have later := fun b a member => step b a (List.mem_cons_of_mem _ member)
    exact ih later (step start a List.mem_cons_self next begins first) h

/-- All errors that can come of a computation have a property. -/
def FailsOnly (x : Except ε α) (p : ε → Prop) : Prop := ∀ error, x = .error error → p error

theorem FailsOnly.ok {a : α} {p : ε → Prop} : (Except.ok a).FailsOnly p := by
  intro error failed
  cases failed

theorem FailsOnly.bind {x : Except ε α} {f : α → Except ε β} {p : ε → Prop}
    (first : x.FailsOnly p) (next : ∀ a, (f a).FailsOnly p) : (x >>= f).FailsOnly p := by
  intro error failed
  cases x with
  | error reason =>
    cases failed
    exact first _ rfl
  | ok a => exact next a error failed

theorem FailsOnly.map {x : Except ε α} {f : α → β} {p : ε → Prop} (first : x.FailsOnly p) :
    (x.map f).FailsOnly p := by
  intro error failed
  cases x with
  | error reason =>
    cases failed
    exact first _ rfl
  | ok a => cases failed

theorem FailsOnly.error {p : ε → Prop} (reason : ε) (h : p reason) :
    (Except.error reason : Except ε α).FailsOnly p := by
  rintro _ ⟨⟩
  exact h

/-- Two computations come to related values or to the same error, unless one of them fails in a way
that is excused. -/
inductive Alike (excused : ε → Prop) (related : α → β → Prop) :
    Except ε α → Except ε β → Prop where
  | ok (h : related a b) : Alike excused related (.ok a) (.ok b)
  | same (reason : ε) : Alike excused related (.error reason) (.error reason)
  | left {reason : ε} (h : excused reason) : Alike excused related (.error reason) y
  | right {reason : ε} (h : excused reason) : Alike excused related x (.error reason)

namespace Alike

variable {γ δ : Type} {excused : ε → Prop} {related : α → β → Prop} {x : Except ε α}
  {y : Except ε β}

theorem bind {f : α → Except ε γ} {g : β → Except ε δ} {further : γ → δ → Prop}
    (first : x.Alike excused related y)
    (next : ∀ a b, x = .ok a → y = .ok b → related a b → (f a).Alike excused further (g b)) :
    (x >>= f).Alike excused further (y >>= g) := by
  cases first with
  | ok h => exact next _ _ rfl rfl h
  | same reason => exact .same reason
  | left h => exact .left h
  | right h => exact .right h

theorem map {f : α → γ} {g : β → δ} {further : γ → δ → Prop} (first : x.Alike excused related y)
    (next : ∀ a b, related a b → further (f a) (g b)) :
    (x.map f).Alike excused further (y.map g) := by
  cases first with
  | ok h => exact .ok (next _ _ h)
  | same reason => exact .same reason
  | left h => exact .left h
  | right h => exact .right h

theorem mono {further : α → β → Prop} (alike : x.Alike excused related y)
    (weaker : ∀ a b, related a b → further a b) : x.Alike excused further y := by
  cases alike with
  | ok h => exact .ok (weaker _ _ h)
  | same reason => exact .same reason
  | left h => exact .left h
  | right h => exact .right h

theorem mapError {f : ε → γ} {forgiven : γ → Prop} (first : x.Alike excused related y)
    (next : ∀ error, excused error → forgiven (f error)) :
    (x.mapError f).Alike forgiven related (y.mapError f) := by
  cases first with
  | ok h => exact .ok h
  | same reason => exact .same (f reason)
  | left h => exact .left (next _ h)
  | right h => exact .right (next _ h)

/-- A computation is like itself if what it comes to is related to itself. -/
theorem self {x : Except ε α} {related : α → α → Prop} (h : ∀ a, x = .ok a → related a a) :
    x.Alike excused related x := by
  cases x with
  | error reason => exact .same reason
  | ok a => exact .ok (h a rfl)

/-- Two computations that both succeed come to related values. -/
theorem related_of_ok {a : α} {b : β} (alike : x.Alike excused related y) (left : x = .ok a)
    (right : y = .ok b) : related a b := by
  subst left right
  cases alike with
  | ok h => exact h

/-- Going through a list keeps alike what every step keeps alike. -/
theorem foldlM {f : β → α → Except ε β} {g : γ → α → Except ε γ} {related : β → γ → Prop}
    {b : β} {c : γ} (step : ∀ b c a, related b c → (f b a).Alike excused related (g c a))
    (begun : related b c) (list : List α) :
    (list.foldlM f b).Alike excused related (list.foldlM g c) := by
  induction list generalizing b c with
  | nil => exact .ok begun
  | cons a list ih =>
    rw [List.foldlM_cons, List.foldlM_cons]
    exact (step b c a begun).bind fun _ _ _ _ next => ih next

/-- Where no error is excused, nothing can be seen of a difference that cannot be seen of values. -/
theorem map_eq {f : α → γ} {g : β → γ} (alike : x.Alike excused related y)
    (same : ∀ a b, related a b → f a = g b) (left : ∀ error, x = .error error → ¬ excused error)
    (right : ∀ error, y = .error error → ¬ excused error) : x.map f = y.map g := by
  cases alike with
  | ok h => exact congrArg Except.ok (same _ _ h)
  | same => rfl
  | left h => exact absurd h (left _ rfl)
  | right h => exact absurd h (right _ rfl)

end Alike

end Except
