import Dimensional.Proofs.Derivation.Plain
import Dimensional.Proofs.Parser.Whole
import Mathlib.Logic.Basic

/-! Signs of multiplication that are left out. Written or not, what is read is the same up to the
locations of its nodes. -/

namespace Dimensional

open Dimensional.Parser

namespace Derivation

/-- Whether a derivation starts with a name that the vocabulary knows as a dimension. -/
def StartsWithDimension (vocabulary : Vocabulary) (derivation : Derivation category) : Prop :=
  derivation.leading.kind = .identifier ∧ vocabulary.knowsDimension derivation.leading.text

/-- Where a literal is multiplied by a factor that starts with the name of a dimension, the sign may
be left out. One derivation leaves out some of the signs that another has. -/
inductive Omits (vocabulary : Vocabulary) :
    {category : Category} → Derivation category → Derivation category → Prop where
  | same (derivation : Derivation category) : Omits vocabulary derivation derivation
  | omitted (sign : Terminal .times) {next other : Derivation (.factor .quantity false)}
      {rest others : Derivation (.productRest .quantity false)}
      (starts : next.StartsWithDimension vocabulary) (ofNext : Omits vocabulary next other)
      (ofRest : Omits vocabulary rest others) :
      Omits vocabulary (.product .times sign next rest : Derivation (.productRest .quantity true))
        (.silent other others)
  | expression {first other : Derivation (.term grammar)}
      {rest others : Derivation (.sumRest grammar)} (ofFirst : Omits vocabulary first other)
      (ofRest : Omits vocabulary rest others) :
      Omits vocabulary (.expression first rest) (.expression other others)
  | sum (op : AddOp) (sign : Terminal op.kind) {next other : Derivation (.term grammar)}
      {rest others : Derivation (.sumRest grammar)} (ofNext : Omits vocabulary next other)
      (ofRest : Omits vocabulary rest others) :
      Omits vocabulary (.sum op sign next rest) (.sum op sign other others)
  | term {first other : Derivation (.factor grammar isNumber)}
      {rest others : Derivation (.productRest grammar isNumber)}
      (ofFirst : Omits vocabulary first other) (ofRest : Omits vocabulary rest others) :
      Omits vocabulary (.term first rest) (.term other others)
  | negated (minus : Terminal .minus) {first other : Derivation (.factor grammar isNumber)}
      {rest others : Derivation (.productRest grammar isNumber)}
      (ofFirst : Omits vocabulary first other) (ofRest : Omits vocabulary rest others) :
      Omits vocabulary (.negated minus first rest) (.negated minus other others)
  | product (op : MulOp) (sign : Terminal op.kind)
      {next other : Derivation (.factor grammar isNumber)}
      {rest others : Derivation (.productRest grammar isNumber)}
      (ofNext : Omits vocabulary next other) (ofRest : Omits vocabulary rest others) :
      Omits vocabulary
        (.product op sign next rest : Derivation (.productRest grammar afterLiteral))
        (.product op sign other others)
  | silent {next other : Derivation (.factor .quantity false)}
      {rest others : Derivation (.productRest .quantity false)}
      (ofNext : Omits vocabulary next other) (ofRest : Omits vocabulary rest others) :
      Omits vocabulary (.silent next rest) (.silent other others)
  | factor {base other : Derivation (.atom grammar isNumber)}
      (ofBase : Omits vocabulary base other) : Omits vocabulary (.factor base) (.factor other)
  | raised {base other : Derivation (.atom grammar isNumber)} (sign : Terminal .power)
      (exponent : Derivation .exponent) (ofBase : Omits vocabulary base other) :
      Omits vocabulary (.raised base sign exponent) (.raised other sign exponent)
  | parenthesized (opening : Terminal .openParen) {inner other : Derivation (.expression grammar)}
      (closing : Terminal .closeParen) (ofInner : Omits vocabulary inner other) :
      Omits vocabulary (.parenthesized opening inner closing)
        (.parenthesized opening other closing)
  | vector (op : VectorOp) (keyword : Terminal op.kind) (opening : Terminal .openParen)
      {left right first second : Derivation (.expression .quantity)} (comma : Terminal .comma)
      (closing : Terminal .closeParen) (ofLeft : Omits vocabulary left first)
      (ofRight : Omits vocabulary right second) :
      Omits vocabulary (.vector op keyword opening left comma right closing)
        (.vector op keyword opening first comma second closing)

/-- The derivation with a sign before each factor that another one is multiplied by silently. The
sign depends on the token that it stands before. -/
def spelledOut (sign : Token → Terminal .times) : Derivation category → Derivation category
  | expression first rest => expression (first.spelledOut sign) (rest.spelledOut sign)
  | lastTerm => lastTerm
  | sum op plus next rest => sum op plus (next.spelledOut sign) (rest.spelledOut sign)
  | term first rest => term (first.spelledOut sign) (rest.spelledOut sign)
  | negated minus first rest => negated minus (first.spelledOut sign) (rest.spelledOut sign)
  | lastFactor => lastFactor
  | product op times next rest =>
    product op times (next.spelledOut sign) (rest.spelledOut sign)
  | silent next rest =>
    product .times (sign next.leading) (next.spelledOut sign) (rest.spelledOut sign)
  | factor base => factor (base.spelledOut sign)
  | raised base power exponent => raised (base.spelledOut sign) power exponent
  | name token => name token
  | literal token => literal token
  | parenthesized opening inner closing =>
    parenthesized opening (inner.spelledOut sign) closing
  | vector op keyword opening left comma right closing =>
    vector op keyword opening (left.spelledOut sign) comma (right.spelledOut sign) closing
  | integer number => integer number
  | negativeInteger minus number => negativeInteger minus number
  | grouped opening inner closing => grouped opening inner closing

variable {vocabulary : Vocabulary} {setting : Setting} {grammar : Grammar} {category : Category}
  {left right longer shorter derivation : Derivation category}

theorem plain_of_omits (omits : longer.Omits vocabulary shorter) :
    shorter.plain = longer.plain := by
  induction omits with
  | same => rfl
  | omitted _ _ _ _ ihNext ihRest => exact congrArg₂ (product .times _) ihNext ihRest
  | expression _ _ ihFirst ihRest => exact congrArg₂ expression ihFirst ihRest
  | sum _ _ _ _ ihNext ihRest => exact congrArg₂ (sum _ _) ihNext ihRest
  | term _ _ ihFirst ihRest => exact congrArg₂ term ihFirst ihRest
  | negated _ _ _ ihFirst ihRest => exact congrArg₂ (negated _) ihFirst ihRest
  | product _ _ _ _ ihNext ihRest => exact congrArg₂ (product _ _) ihNext ihRest
  | silent _ _ ihNext ihRest => exact congrArg₂ (product .times _) ihNext ihRest
  | factor _ ih => exact congrArg factor ih
  | raised _ _ _ ih => exact congrArg (raised · _ _) ih
  | parenthesized _ _ _ ih => exact congrArg (parenthesized _ · _) ih
  | vector _ _ _ _ _ _ _ ihLeft ihRight =>
    exact congrArg₂ (fun left right => vector _ _ _ left _ right _) ihLeft ihRight

/-- What a derivation starts with does not depend on its signs of multiplication. -/
theorem startsWithDimension_congr (same : left.plain = right.plain)
    (h : category.isRest = false) :
    left.StartsWithDimension vocabulary ↔ right.StartsWithDimension vocabulary := by
  have leading : left.leading.unplaced = right.leading.unplaced := by
    rw [← left.leading_plain h, ← right.leading_plain h, same]
  have kind : left.leading.kind = right.leading.kind := (congrArg Token.kind leading :)
  have text : left.leading.text = right.leading.text := (congrArg Token.text leading :)
  rw [StartsWithDimension, StartsWithDimension, kind, text]

theorem permitted_of_omits (omits : longer.Omits vocabulary shorter) :
    longer.Permitted vocabulary ↔ shorter.Permitted vocabulary := by
  induction omits with
  | same => rfl
  | omitted _ starts ofNext _ ihNext ihRest =>
    have known := (startsWithDimension_congr (plain_of_omits ofNext) rfl).mpr starts
    exact (and_congr ihNext ihRest).trans (and_iff_right known).symm
  | @silent next other _ _ ofNext _ ihNext ihRest =>
    have known : other.StartsWithDimension vocabulary ↔ next.StartsWithDimension vocabulary :=
      startsWithDimension_congr (plain_of_omits ofNext) rfl
    exact and_congr known.symm (and_congr ihNext ihRest)
  | expression _ _ ihFirst ihRest | sum _ _ _ _ ihFirst ihRest | term _ _ ihFirst ihRest
  | negated _ _ _ ihFirst ihRest | product _ _ _ _ ihFirst ihRest
  | vector _ _ _ _ _ _ _ ihFirst ihRest => exact and_congr ihFirst ihRest
  | factor _ ih | parenthesized _ _ _ ih => exact ih
  | raised _ _ _ ih => exact and_congr_left' ih

/-- A permitted derivation leaves out the signs that are written in its place. -/
theorem omits_spelledOut (sign : Token → Terminal .times)
    (permitted : derivation.Permitted vocabulary) :
    (derivation.spelledOut sign).Omits vocabulary derivation := by
  induction derivation with
  | expression _ _ ihFirst ihRest => exact .expression (ihFirst permitted.1) (ihRest permitted.2)
  | sum op plus _ _ ihNext ihRest => exact .sum op plus (ihNext permitted.1) (ihRest permitted.2)
  | term _ _ ihFirst ihRest => exact .term (ihFirst permitted.1) (ihRest permitted.2)
  | negated minus _ _ ihFirst ihRest =>
    exact .negated minus (ihFirst permitted.1) (ihRest permitted.2)
  | product op times _ _ ihNext ihRest =>
    exact .product op times (ihNext permitted.1) (ihRest permitted.2)
  | silent next rest ihNext ihRest =>
    obtain ⟨starts, ofNext, ofRest⟩ := permitted
    have known := (startsWithDimension_congr (plain_of_omits (ihNext ofNext)) rfl).mp starts
    exact .omitted (sign next.leading) known (ihNext ofNext) (ihRest ofRest)
  | factor _ ih => exact .factor (ih permitted)
  | raised _ power exponent ih _ => exact .raised power exponent (ih permitted.1)
  | parenthesized opening _ closing ih => exact .parenthesized opening closing (ih permitted)
  | vector op keyword opening _ comma _ closing ihLeft ihRight =>
    exact .vector op keyword opening comma closing (ihLeft permitted.1) (ihRight permitted.2)
  | lastTerm | lastFactor | name | literal | integer | negativeInteger | grouped => exact .same _

end Derivation

section Read

variable {vocabulary : Vocabulary} {setting : Setting} {grammar : Grammar}
  {tokens others : List Token} {tree : Expression}

/-- Derivations that are the same but for locations and signs that are left out are read alike. -/
theorem exists_readTokens_of_plain {left right : Derivation (.expression grammar)}
    (same : left.plain = right.plain) (permitted : left.Permitted setting.vocabulary)
    (also : right.Permitted setting.vocabulary) (ofLeft : left.tokens = beforeEnd tokens)
    (ofRight : right.tokens = beforeEnd others)
    (h : readTokens setting grammar tokens = .ok tree) :
    ∃ other, readTokens setting grammar others = .ok other ∧
      other.map Node.unplaced = tree.map Node.unplaced := by
  rw [readTokens_eq_evaluate left permitted ofLeft] at h
  obtain ⟨⟨value, numbering⟩, evaluated, rfl⟩ := Except.map_eq_ok.mp h
  have first := left.evaluate_plain setting () 0 .empty
  have second := right.evaluate_plain setting () 0 .empty
  unfold Except.Maps at first second
  rw [evaluated, same, second] at first
  obtain ⟨⟨other, after⟩, found, unplaced⟩ := Option.map_eq_some_iff.mp first
  refine ⟨other, ?_, congrArg Prod.fst unplaced⟩
  rw [readTokens_eq_evaluate right also ofRight, Except.toOption_eq_some.mp found]
  rfl

/-- Silent multiplication is multiplication. However what is read is derived, its tree stays the same,
locations aside, when a sign is written wherever one is left out, and when signs are left out between
a literal and a factor that starts with the name of a dimension. -/
theorem silent_products_exact (vocabulary : Vocabulary)
    (h : readTokens (.standard vocabulary) .quantity tokens = .ok tree) :
    (∃ derivation : Derivation (.expression .quantity),
      derivation.Permitted vocabulary ∧ derivation.tokens = beforeEnd tokens) ∧
    ∀ derivation : Derivation (.expression .quantity), derivation.Permitted vocabulary →
      derivation.tokens = beforeEnd tokens →
      derivation.trees = [tree.map Node.mark] ∧
      (∀ sign, (derivation.spelledOut sign).Omits vocabulary derivation ∧
        ∀ others, beforeEnd others = (derivation.spelledOut sign).tokens →
          ∃ other, readTokens (.standard vocabulary) .quantity others = .ok other ∧
            other.map Node.unplaced = tree.map Node.unplaced) ∧
      ∀ shorter others, derivation.Omits vocabulary shorter →
        beforeEnd others = shorter.tokens →
        ∃ other, readTokens (.standard vocabulary) .quantity others = .ok other ∧
          other.map Node.unplaced = tree.map Node.unplaced := by
  refine ⟨readTokens_recognized h, fun derivation permitted same =>
    ⟨marks_of_readTokens derivation permitted same h, ?_, ?_⟩⟩
  · intro sign
    have omits := derivation.omits_spelledOut sign permitted
    have also := (Derivation.permitted_of_omits omits).mpr permitted
    refine ⟨omits, fun others spelled => ?_⟩
    exact exists_readTokens_of_plain (Derivation.plain_of_omits omits) permitted also same
      spelled.symm h
  · intro shorter others omits left
    have also := (Derivation.permitted_of_omits omits).mp permitted
    exact exists_readTokens_of_plain (Derivation.plain_of_omits omits).symm permitted also same
      left.symm h

/-- A bound name of a dimension with an exponent, which a number before it is multiplied by, and the
name of a dimension behind another number. -/
theorem exists_silent_product :
    let vocabulary := (Scope.si.bindConstant "m" 5.0).vocabulary
    ∃ (tokens written left : List Token) (tree first second : Expression),
      Scanner.tokenize "2 m ** 2 * 3 * s" = .ok tokens ∧
      readTokens (.standard vocabulary) .quantity tokens = .ok tree ∧
      written.map Token.text = ["2", "*", "m", "**", "2", "*", "3", "*", "s", ""] ∧
      readTokens (.standard vocabulary) .quantity written = .ok first ∧
      first.map Node.unplaced = tree.map Node.unplaced ∧
      left.map Token.text = ["2", "m", "**", "2", "*", "3", "s", ""] ∧
      readTokens (.standard vocabulary) .quantity left = .ok second ∧
      second.map Node.unplaced = tree.map Node.unplaced := by
  intro vocabulary
  let place (column : Nat) : Location := ⟨column, 1, column + 1⟩
  let number (text : String) (column : Nat) : Terminal .number :=
    ⟨⟨.number, text, place column⟩, rfl⟩
  let word (text : String) (column : Nat) : Terminal .identifier :=
    ⟨⟨.identifier, text, place column⟩, rfl⟩
  let times (column : Nat) : Terminal .times := ⟨⟨.times, "*", place column⟩, rfl⟩
  let square : Derivation (.factor .quantity false) :=
    .raised (.name (word "m" 2)) ⟨⟨.power, "**", place 4⟩, rfl⟩ (.integer (number "2" 7))
  let second : Derivation (.factor .quantity false) := .factor (.name (word "s" 15))
  let around (rest : Derivation (.productRest .quantity true)) :
      Derivation (.expression .quantity) :=
    .expression (.term (.factor (.literal (number "2" 0)))
      (.silent square (.product .times (times 9) (.factor (.literal (number "3" 11))) rest)))
      .lastTerm
  let derivation := around (.product .times (times 13) second .lastFactor)
  let shorter := around (.silent second .lastFactor)
  let ended (derivation : Derivation (.expression .quantity)) : List Token :=
    derivation.tokens ++ [.eof (place 16)]
  have accepted :
      (readTokens (.standard vocabulary) .quantity (ended derivation)).toOption.isSome := by
    decide +kernel
  obtain ⟨tree, some⟩ := Option.isSome_iff_exists.mp accepted
  have h := Except.toOption_eq_some.mp some
  have same (derivation : Derivation (.expression .quantity)) :
      beforeEnd (ended derivation) = derivation.tokens :=
    (beforeEnd_append derivation.kind_ne_eof).trans (List.append_nil _)
  have omits : derivation.Omits vocabulary shorter :=
    .expression (.term (.same _) (.silent (.same _) (.product .times _ (.same _)
      (.omitted _ ⟨rfl, by decide +kernel⟩ (.same _) (.same _))))) (.same _)
  obtain ⟨_, spelled, unwritten⟩ := (silent_products_exact vocabulary h).2 derivation
    (by decide +kernel) (same derivation).symm
  let sign (token : Token) : Terminal .times := ⟨⟨.times, "*", token.location⟩, rfl⟩
  obtain ⟨first, readFirst, alike⟩ := (spelled sign).2 (ended (derivation.spelledOut sign)) (same _)
  obtain ⟨second, readSecond, also⟩ := unwritten shorter (ended shorter) omits (same shorter)
  refine ⟨ended derivation, ended (derivation.spelledOut sign), ended shorter, tree, first, second,
    Except.toOption_eq_some.mp ?_, h, ?_, readFirst, alike, ?_, readSecond, also⟩
  · decide +kernel
  · decide +kernel
  · decide +kernel

end Read

end Dimensional
