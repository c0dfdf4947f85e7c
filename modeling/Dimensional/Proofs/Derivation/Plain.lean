import Dimensional.Proofs.Derivation.Result

/-! Derivations without locations in which every sign of multiplication is written. They come to the
same as those that they are made from, locations aside. -/

namespace Except

variable {ε α β γ δ : Type} {f : α → β}

/-- One computation succeeds exactly when another does, and with the image of its value. -/
def Maps (f : α → β) (x : Except ε α) (y : Except ε β) : Prop := y.toOption = x.toOption.map f

namespace Maps

theorem ok {a : α} : (Except.ok a : Except ε α).Maps f (.ok (f a)) := rfl

theorem same (x : Except ε α) : x.Maps id x := by
  unfold Maps
  rw [Option.map_id, id_eq]

theorem bind {x : Except ε α} {y : Except ε β} {g : α → Except ε γ} {k : β → Except ε δ}
    {h : γ → δ} (first : x.Maps f y) (next : ∀ a, (g a).Maps h (k (f a))) :
    (x >>= g).Maps h (y >>= k) := by
  cases x with
  | error error =>
    cases y with
    | error reason => rfl
    | ok b => cases first
  | ok a =>
    cases y with
    | error reason => cases first
    | ok b =>
      obtain rfl : b = f a := Option.some.inj first
      exact next a

end Maps

end Except

namespace Dimensional

open Dimensional.Parser

def Token.unplaced (token : Token) : Token := { token with location := .start }

def Node.unplaced (node : Node) : Node := { node with location := .start }

def Terminal.unplaced {kind : Token.Kind} (token : Terminal kind) : Terminal kind :=
  ⟨token.val.unplaced, token.property⟩

/-- A sign of which nothing but its kind is told. -/
def Terminal.bare (kind : Token.Kind) : Terminal kind := ⟨⟨kind, "", .start⟩, rfl⟩

def Category.unplaced : (category : Category) → category.Evaluated → category.Evaluated
  | .sumRest _, evaluated => (evaluated.1, Tree.maps Node.unplaced evaluated.2)
  | .productRest _ _, evaluated => (evaluated.1, Tree.maps Node.unplaced evaluated.2)
  | .expression _, tree | .term _, tree | .factor _ _, tree | .atom _ _, tree | .exponent, tree =>
    tree.map Node.unplaced

namespace Derivation

/-- The derivation with all signs of multiplication and without locations. -/
def plain : Derivation category → Derivation category
  | expression first rest => expression first.plain rest.plain
  | lastTerm => lastTerm
  | sum op sign next rest => sum op (Terminal.unplaced sign) next.plain rest.plain
  | term first rest => term first.plain rest.plain
  | negated minus first rest => negated (Terminal.unplaced minus) first.plain rest.plain
  | lastFactor => lastFactor
  | product op _ next rest => product op (Terminal.bare op.kind) next.plain rest.plain
  | silent next rest => product .times (Terminal.bare .times) next.plain rest.plain
  | factor base => factor base.plain
  | raised base sign exponent => raised base.plain (Terminal.unplaced sign) exponent.plain
  | name token => name (Terminal.unplaced token)
  | literal token => literal (Terminal.unplaced token)
  | parenthesized opening inner closing =>
    parenthesized (Terminal.unplaced opening) inner.plain (Terminal.unplaced closing)
  | vector op keyword opening left comma right closing =>
    vector op (Terminal.unplaced keyword) (Terminal.unplaced opening) left.plain
      (Terminal.unplaced comma) right.plain (Terminal.unplaced closing)
  | integer number => integer (Terminal.unplaced number)
  | negativeInteger minus number =>
    negativeInteger (Terminal.unplaced minus) (Terminal.unplaced number)
  | grouped opening inner closing =>
    grouped (Terminal.unplaced opening) inner.plain (Terminal.unplaced closing)

theorem leading_plain (derivation : Derivation category) (h : category.isRest = false) :
    derivation.plain.leading = derivation.leading.unplaced := by
  induction derivation with
  | expression first rest ih _ =>
    rw [(expression first rest).leading_eq_of_tokens first rfl rfl, ← ih rfl]
    exact leading_eq_of_tokens _ first.plain rfl rfl
  | term first rest ih _ =>
    rw [(term first rest).leading_eq_of_tokens first rfl rfl, ← ih rfl]
    exact leading_eq_of_tokens _ first.plain rfl rfl
  | raised base sign exponent ih _ =>
    rw [(raised base sign exponent).leading_eq_of_tokens base rfl rfl, ← ih rfl]
    exact leading_eq_of_tokens _ base.plain rfl rfl
  | factor base ih => exact ih rfl
  | negated | name | literal | parenthesized | vector | integer | negativeInteger | grouped => rfl
  | lastTerm | sum | lastFactor | product | silent => cases h

theorem location_plain (derivation : Derivation category) (h : category.isRest = false) :
    derivation.plain.location = .start := congrArg Token.location (derivation.leading_plain h)

end Derivation

section Leaf

variable {vocabulary : Vocabulary} {grammar : Grammar} {numbering : Numbering}

theorem maps_literalNode (token : Token) :
    (literalNode token).Maps (Tree.map Node.unplaced) (literalNode token.unplaced) := by
  unfold literalNode
  have text : token.unplaced.text = token.text := rfl
  rw [text]
  cases Number.read? token.text <;> rfl

theorem maps_namedNode (token : Token) :
    (namedNode vocabulary grammar token numbering).Maps
      (fun read => (read.1.map Node.unplaced, read.2))
      (namedNode vocabulary grammar token.unplaced numbering) := by
  unfold namedNode
  have text : token.unplaced.text = token.text := rfl
  rw [text]
  cases vocabulary.resolve? token.text with
  | none => rfl
  | some quantity =>
    cases grammar <;> dsimp only
    · split
      · rfl
      · split <;> rfl
    · split <;> rfl

theorem maps_locate {α : Type} {first second : Location} (result : Except AlgebraError α) :
    (locate first result).Maps id (locate second result) := by
  cases result <;> rfl

end Leaf

/-- Without its locations a derivation is evaluated to what it was, without its locations. -/
theorem Derivation.evaluate_plain (derivation : Derivation category) (setting : Setting)
    (carried : category.Carried) (depth : Nat) (numbering : Numbering) :
    (derivation.evaluate setting carried depth numbering).Maps
      (fun read => (category.unplaced read.1, read.2))
      (derivation.plain.evaluate setting carried depth numbering) := by
  induction derivation generalizing depth numbering with
  | expression first rest ihFirst ihRest =>
    refine (Except.Maps.same _).bind fun _ => (ihFirst _ _ _).bind ?_
    rintro ⟨⟨root, children⟩, between⟩
    refine (ihRest _ _ _).bind fun read => ?_
    rw [first.location_plain rfl]
    exact .ok
  | lastTerm | lastFactor => exact .ok
  | sum _ _ _ _ ihFirst ihRest | product _ _ _ _ ihFirst ihRest | silent _ _ ihFirst ihRest
  | negated _ _ _ ihFirst ihRest =>
    refine (ihFirst _ _ _).bind ?_
    rintro ⟨⟨root, children⟩, between⟩
    exact (maps_locate _).bind fun _ => (ihRest _ _ _).bind fun _ => .ok
  | term first rest ihFirst ihRest =>
    refine (ihFirst _ _ _).bind ?_
    rintro ⟨⟨root, children⟩, between⟩
    refine (maps_locate _).bind fun _ => (ihRest _ _ _).bind fun _ => ?_
    rw [first.location_plain rfl]
    exact .ok
  | factor base ih =>
    refine (ih _ _ _).bind ?_
    rintro ⟨⟨root, children⟩, after⟩
    rw [base.location_plain rfl]
    exact .ok
  | raised base sign exponent ihBase ihExponent =>
    refine (ihBase _ _ _).bind ?_
    rintro ⟨⟨root, children⟩, between⟩
    refine (ihExponent _ _ _).bind ?_
    rintro ⟨⟨power, below⟩, after⟩
    refine (maps_locate _).bind fun _ => ?_
    rw [base.location_plain rfl]
    exact .ok
  | name token => exact maps_namedNode token.val
  | literal token => exact (maps_literalNode token.val).bind fun _ => .ok
  | parenthesized opening inner closing ih | grouped opening inner closing ih => exact ih _ _ _
  | vector op keyword opening left comma right closing ihLeft ihRight =>
    refine (ihLeft _ _ _).bind ?_
    rintro ⟨⟨first, below⟩, between⟩
    refine (ihRight _ _ _).bind ?_
    rintro ⟨⟨second, further⟩, after⟩
    exact (maps_locate _).bind fun _ => .ok
  | integer number | negativeInteger minus number =>
    refine (maps_literalNode number.val).bind ?_
    rintro ⟨root, children⟩
    exact .ok

end Dimensional
