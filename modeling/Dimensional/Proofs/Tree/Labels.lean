import Dimensional.Proofs.Annotation
import Dimensional.Proofs.Token.Spacing
import Dimensional.Proofs.Tree.Drawing
import Dimensional.Scope.Description

/-! Labels between the quotes of a DOT graph. A label is read back as it is unless it shows a
dimension in whose symbol, or name, a quote stands behind an odd number of backslashes. -/

namespace Dimensional

namespace Expression

/-- A text without quotes and backslashes. -/
def Plain (cs : List Char) : Prop := ∀ c ∈ cs, c ≠ '"' ∧ c ≠ '\\'

instance (cs : List Char) : Decidable (Plain cs) :=
  List.decidableBAll (fun c => c ≠ '"' ∧ c ≠ '\\') cs

section Plain

variable {cs gap rest : List Char} {c : Char}

theorem Plain.append (first : Plain gap) (second : Plain rest) : Plain (gap ++ rest) :=
  List.forall_mem_append.mpr ⟨first, second⟩

theorem plain_of_isDigit (all : ∀ c ∈ cs, c.isDigit = true) : Plain cs := by
  intro c member
  have isDigit := all c member
  constructor <;> rintro rfl <;> exact absurd isDigit (by decide)

theorem paired_append_iff (plain : Plain gap) : Paired (gap ++ rest) ↔ Paired rest := by
  induction gap with
  | nil => rfl
  | cons c gap ih =>
    rw [Plain, List.forall_mem_cons] at plain
    rw [List.cons_append, paired_cons_iff plain.1.2, ih plain.2]

theorem Plain.paired (plain : Plain gap) : Paired gap := by
  rw [← List.append_nil gap]
  exact (paired_append_iff plain).mpr paired_nil

/-- What is plain parts a text. -/
theorem paired_parted_iff (plain : Plain gap) (some : gap ≠ []) :
    Paired (cs ++ (gap ++ rest)) ↔ Paired cs ∧ Paired rest := by
  cases gap with
  | nil => exact absurd rfl some
  | cons c gap =>
    rw [Plain, List.forall_mem_cons] at plain
    rw [List.cons_append, paired_append_cons_iff plain.1.1 plain.1.2, paired_append_iff plain.2]

end Plain

end Expression

open Expression

namespace Number

theorem plain_digits (n : Nat) : Plain (digits n) :=
  plain_of_isDigit (isDigit_of_mem_toDigits n)

theorem Decimal.plain_text (decimal : Decimal) : Plain decimal.text.toList := by
  have zeros (n : Nat) : ∀ c ∈ List.replicate n '0', c.isDigit = true := by
    intro c member
    rw [List.eq_of_mem_replicate member]
    rfl
  have padded (count place : Nat) : ∀ c ∈ List.replicate count '0' ++
      (digits decimal.coefficient ++ List.replicate place '0'), c.isDigit = true :=
    List.forall_mem_append.mpr ⟨zeros count,
      List.forall_mem_append.mpr ⟨isDigit_of_mem_toDigits _, zeros place⟩⟩
  unfold Decimal.text
  dsimp only
  split
  · rw [String.toList_ofList]
    exact plain_of_isDigit fun c member => padded _ _ c (List.mem_of_mem_take member)
  · rw [String.toList_ofList]
    refine .append (plain_of_isDigit fun c member => padded _ _ c (List.mem_of_mem_take member)) ?_
    refine List.forall_mem_cons.mpr ⟨by decide, plain_of_isDigit fun c member => ?_⟩
    have kept := (List.dropWhile_sublist _).subset (List.mem_reverse.mp member)
    exact padded _ _ c (List.mem_of_mem_drop (List.mem_reverse.mp kept))

theorem plain_text (x : Float) : Plain (text x).toList := by
  unfold text
  split
  case h_1 => decide
  case h_2 negative _ => cases negative <;> decide
  case h_3 negative significand power _ =>
    have magnitude : Plain (if significand = 0 then "0"
        else (Basin.of significand power).shortest.text).toList := by
      split
      · decide
      · exact Decimal.plain_text _
    dsimp only
    split
    · rw [String.toList_append]
      exact .append (by decide) magnitude
    · exact magnitude

end Number

/-- Texts that are joined by a plain one are paired together. -/
theorem Expression.paired_intercalate_iff {gap : List Char} (plain : Plain gap) (some : gap ≠ []) :
    {texts : List (List Char)} →
      (Paired (gap.intercalate texts) ↔ ∀ text ∈ texts, Paired text)
  | [] => by simp [paired_nil]
  | [text] => by simp
  | text :: other :: texts => by
    rw [List.intercalate_cons_cons, List.append_assoc, paired_parted_iff plain some,
      paired_intercalate_iff plain some, List.forall_mem_cons (a := text)]

namespace Monomial

/-- Every quote in the text of a product is in the label of a dimension. -/
theorem paired_text_iff (monomial : Monomial) : Paired monomial.text.toList ↔
    ∀ dimension ∈ monomial.factors, Paired dimension.label.toList := by
  rw [text, String.toList_intercalate, paired_intercalate_iff (by decide) (by decide), List.map_map,
    List.forall_mem_map]
  rfl

end Monomial

namespace Quantity

theorem paired_dimensionText_iff (quantity : Quantity) : Paired quantity.dimensionText.toList ↔
    ∀ dimension ∈ quantity.numerator.factors ++ quantity.denominator.factors,
      Paired dimension.label.toList := by
  have ofAbove : Paired (if quantity.numerator.factors.isEmpty then "1"
      else quantity.numerator.text).toList ↔
        ∀ dimension ∈ quantity.numerator.factors, Paired dimension.label.toList := by
    split
    case isTrue empty =>
      rw [List.isEmpty_iff.mp empty]
      exact iff_of_true (Plain.paired (by decide)) nofun
    case isFalse => exact quantity.numerator.paired_text_iff
  rw [List.forall_mem_append, ← ofAbove, dimensionText]
  split
  case isTrue empty =>
    rw [List.isEmpty_iff.mp empty]
    exact (and_iff_left nofun).symm
  case isFalse =>
    rw [String.toList_append, String.toList_append, List.append_assoc,
      paired_parted_iff (by decide) (by decide), Monomial.paired_text_iff]

end Quantity

theorem Shape.plain_name (shape : Shape) : Plain shape.name.toList := by
  cases shape
  case expression grammar => cases grammar <;> decide
  case sum op => cases op <;> decide
  case product op => cases op <;> decide
  case vector op => cases op <;> decide
  all_goals decide

theorem Shape.plain_operator {shape : Shape} {operator : String}
    (signed : shape.operator? = some operator) : Plain operator.toList := by
  cases shape <;> cases signed
  case sum op => cases op <;> decide
  case product op => cases op <;> decide
  case vector op => cases op <;> decide
  all_goals decide

namespace Node

variable {node : Node}

theorem plain_title (plain : ∀ identifier ∈ node.identifier?, Plain identifier.toList) :
    Plain node.title.toList := by
  have titled {text : String} (isPlain : Plain text.toList) :
      Plain (node.shape.name ++ ": " ++ text).toList := by
    rw [String.toList_append, String.toList_append]
    exact (node.shape.plain_name.append (by decide)).append isPlain
  unfold title
  split
  · rename_i found
    exact titled (plain _ found)
  · exact titled (Number.plain_text _)
  · rename_i signed
    exact titled (Shape.plain_operator signed)
  · exact node.shape.plain_name

theorem plain_value (x : Float) : Plain (" = " ++ Number.text x).toList := by
  rw [String.toList_append]
  exact .append (by decide) (Number.plain_text x)

/-- What a label has behind title and details is plain. -/
theorem toList_label (node : Node) : ∃ number, Plain number ∧
    node.label.toList = node.title.toList ++ (node.details.toList ++ number) := by
  unfold label
  cases node.parameter? with
  | none => exact ⟨[], nofun, by simp⟩
  | some number =>
    refine ⟨(" #" ++ toString number).toList, ?_, by simp⟩
    have digits : (toString number).toList = Number.digits number := by
      rw [Nat.toString_eq_repr, Nat.repr_eq_ofList_toDigits, String.toList_ofList]
      rfl
    rw [String.toList_append, digits]
    exact .append (by decide) (Number.plain_digits number)

theorem plain_details (unmeasured : node.quantity? = none) : Plain node.details.toList := by
  unfold details
  rw [unmeasured]
  dsimp only
  split
  · exact plain_value _
  · decide

/-- The text of the dimensions stands between plain ones. -/
theorem toList_details {quantity : Quantity} (measured : node.quantity? = some quantity) :
    ∃ gap, Plain gap ∧ gap ≠ [] ∧
      node.details.toList = " [".toList ++ (quantity.dimensionText.toList ++ gap) := by
  unfold details
  rw [measured]
  refine ⟨']' :: ((if quantity.isConstant && !node.shape.isAtom then
      " = " ++ Number.text quantity.value else "").toList ++
    (if quantity.isVector then " (vector)" else "").toList), ?_, List.cons_ne_nil _ _, by simp⟩
  refine List.forall_mem_cons.mpr ⟨by decide, Plain.append ?_ ?_⟩
  · split
    · exact plain_value _
    · decide
  · split <;> decide

/-- A label reads back between quotes exactly if the labels of all its dimensions are paired. -/
theorem paired_label_iff (plain : ∀ identifier ∈ node.identifier?, Plain identifier.toList) :
    Paired (node.label.toList ++ ['"']) ↔ ∀ quantity ∈ node.quantity?,
      ∀ dimension ∈ quantity.numerator.factors ++ quantity.denominator.factors,
        Paired dimension.label.toList := by
  obtain ⟨number, numbered, label⟩ := node.toList_label
  have closed : Paired (number ++ ['"']) :=
    (paired_append_iff numbered).mpr ((paired_cons_iff (by decide)).mpr paired_nil)
  rw [label, List.append_assoc, List.append_assoc, paired_append_iff (plain_title plain)]
  cases measured : node.quantity? with
  | none => exact iff_of_true ((paired_append_iff (plain_details measured)).mpr closed) nofun
  | some quantity =>
    obtain ⟨gap, between, some, details⟩ := toList_details measured
    rw [details, List.append_assoc, List.append_assoc, paired_append_iff (by decide),
      paired_parted_iff between some, quantity.paired_dimensionText_iff, and_iff_left closed]
    constructor
    · rintro all _ ⟨⟩
      exact all
    · exact fun all => all quantity rfl

end Node

namespace Scanner

/-- Only a name is read as an identifier. -/
theorem eq_name_of_lexeme {cs text : List Char} (h : lexeme cs = (.identifier, text)) :
    text = name cs := by
  unfold lexeme at h
  split at h <;> try cases h
  split at h
  · cases h
  split at h
  · exact (Prod.mk.inj h).2.symm
  · cases h

theorem plain_name (cs : List Char) : Plain (name cs) := by
  intro c member
  have continues : Character.continuesName c = true := List.mem_takeWhile_imp member
  constructor <;> rintro rfl <;> exact absurd continues (by decide)

theorem plain_of_identifier {token : Token} (scanned : token.IsScanned)
    (isName : token.kind = .identifier) : Plain token.text.toList := by
  obtain ⟨cs, _, found⟩ := exists_lexeme_of_isScanned scanned (by simp [isName]) (by simp [isName])
  rw [isName] at found
  rw [eq_name_of_lexeme found]
  exact plain_name cs

end Scanner

/-- Nodes are named after identifiers of the source. -/
theorem Derivation.exists_token_of_identifier {identifier : String} {mark : Mark}
    (derivation : Derivation category) (member : mark ∈ Tree.preorders derivation.trees)
    (named : mark.identifier? = some identifier) :
    ∃ token ∈ derivation.tokens, token.kind = .identifier ∧ token.text = identifier := by
  induction derivation with
  | name token =>
    obtain rfl : mark = _ := by simpa [trees, Tree.preorders, Tree.preorder, Tree.leaf] using member
    exact ⟨token.val, List.mem_singleton_self _, token.property, Option.some.inj named⟩
  | lastTerm | lastFactor => cases member
  | literal | integer | negativeInteger =>
    simp only [trees, Tree.leaf, Tree.preorders, Tree.preorder, List.append_nil, List.mem_cons,
      List.not_mem_nil, or_false] at member
    grind
  | parenthesized opening inner closing ih | grouped opening inner closing ih =>
    obtain ⟨token, inside, found⟩ := ih member
    exact ⟨token, by simp [inside], found⟩
  | expression | sum | term | negated | product | silent | factor | raised | vector =>
    simp only [trees, Tree.leaf, Tree.preorders, Tree.preorder, Tree.preorders_append,
      List.append_nil, List.nil_append, List.cons_append, List.mem_cons, List.mem_append] at member
    grind [tokens]

namespace Expression

open Dimensional.Parser

/-- In what is read, no name holds a quote or a backslash. -/
theorem plain_identifier_of_read {setting : Setting} {grammar : Grammar} {source : String}
    {tree : Expression} {node : Node} (h : read setting grammar source = .ok tree)
    (met : node ∈ tree.walk) : ∀ identifier ∈ node.identifier?, Plain identifier.toList := by
  intro identifier named
  obtain ⟨tokens, scanned, reached⟩ := exists_tokens_of_read h
  obtain ⟨derivation, permitted, same⟩ := readTokens_recognized reached
  have marked : node.mark ∈ Tree.preorders derivation.trees := by
    rw [marks_of_readTokens derivation permitted same reached, Tree.preorders, Tree.preorders,
      List.append_nil, Tree.preorder_map, ← Tree.walk_eq_preorder]
    exact List.mem_map_of_mem met
  obtain ⟨token, member, isName, rfl⟩ := derivation.exists_token_of_identifier marked named
  refine Scanner.plain_of_identifier (Scanner.isScanned_of_tokenize scanned token ?_) isName
  rw [same] at member
  exact List.takeWhile_subset _ member

theorem toList_dotLines (entry : Tree.Entry Node) : ∃ edge : List Char,
    (dotLines entry).toList = ("    " ++ identity entry.id ++ " [label=\"").toList ++
      (escaped entry.root.label.toList ++ '"' :: ("];\n".toList ++ edge)) := by
  unfold dotLines
  cases entry.parent? with
  | none => exact ⟨[], by simp [escapeQuotes_eq]⟩
  | some parent =>
    exact ⟨("    " ++ identity parent ++ " -> " ++ identity entry.id ++ ";\n").toList,
      by simp [escapeQuotes_eq]⟩

/-- A node of a DOT graph is written with its label between quotes. -/
theorem draw_dot_eq {expression : Expression} {id : Nat} {node : Node}
    (met : expression.walk[id]? = some node) : ∃ before after : List Char,
    (expression.draw .dot).toList = before ++ ("    " ++ identity id ++ " [label=\"").toList ++
      (escaped node.label.toList ++ '"' :: after) ∧ "];\n".toList <+: after := by
  obtain ⟨entry, member, rfl, rfl⟩ := Tree.exists_entry_of_walk met
  obtain ⟨front, back, parts⟩ := List.mem_iff_append.mp member
  obtain ⟨edge, written⟩ := toList_dotLines entry
  refine ⟨"digraph AST \x7b\n    node [shape=box, style=rounded];\n".toList ++
    (String.join (front.map dotLines)).toList,
    "];\n".toList ++ (edge ++ ((String.join (back.map dotLines)).toList ++ "\x7d\n".toList)),
    ?_, List.prefix_append _ _⟩
  have drawn : expression.draw .dot = "digraph AST \x7b\n    node [shape=box, style=rounded];\n" ++
      String.join (expression.outline.map dotLines) ++ "\x7d\n" := rfl
  simp only [drawn, parts, List.map_append, List.map_cons, String.join_append, String.join_cons,
    String.toList_append, written, List.append_assoc, List.cons_append]

/-- Read back between the quotes of a DOT graph, the label of a node of what is read is as it was
exactly if no dimension in it is labelled with a quote behind an odd number of backslashes. -/
theorem dot_labels_exact {setting : Setting} {grammar : Grammar} {source : String}
    {tree : Expression} (h : read setting grammar source = .ok tree) {id : Nat} {node : Node}
    (met : tree.walk[id]? = some node) : ∃ before after : List Char,
    (tree.draw .dot).toList = before ++ ("    " ++ identity id ++ " [label=\"").toList ++
      (escaped node.label.toList ++ '"' :: after) ∧
    "];\n".toList <+: after ∧
    (readQuoted (escaped node.label.toList ++ '"' :: after) = some (node.label.toList, after) ↔
      ∀ quantity ∈ node.quantity?,
        ∀ dimension ∈ quantity.numerator.factors ++ quantity.denominator.factors,
          Paired dimension.label.toList) := by
  obtain ⟨before, after, drawn, closes⟩ := draw_dot_eq met
  refine ⟨before, after, drawn, closes, ?_⟩
  rw [readQuoted_escaped_iff, Node.paired_label_iff]
  exact plain_identifier_of_read h (List.mem_of_getElem? met)

/-- A quote in a symbol, with a backslash put in front. -/
theorem exists_label_read_back : ∃ scope tree node,
    Scope.ofDescription ⟨false, [⟨"x", some "\""⟩], [], []⟩ = .ok scope ∧
    read (.standard scope.vocabulary) .quantity "x" = .ok tree ∧ tree.walk[0]? = some node ∧
    node.label = "QuantityExpression [\"]" ∧
    ∃ before after : List Char, (tree.draw .dot).toList =
      before ++ ("    " ++ identity 0 ++ " [label=\"").toList ++
        (escaped node.label.toList ++ '"' :: after) ∧
      readQuoted (escaped node.label.toList ++ '"' :: after) = some (node.label.toList, after) := by
  have accepted : ((Scope.ofDescription ⟨false, [⟨"x", some "\""⟩], [], []⟩).toOption.bind
      fun scope => (read (.standard scope.vocabulary) .quantity "x").toOption.bind fun tree =>
        tree.walk[0]?.map fun node => (node.label, node.quantity?.map fun quantity =>
          (quantity.numerator.factors ++ quantity.denominator.factors).map Dimension.label)) =
      some ("QuantityExpression [\"]", some ["\""]) := by
    decide +kernel
  obtain ⟨scope, described, accepted⟩ := Option.bind_eq_some_iff.mp accepted
  obtain ⟨tree, found, accepted⟩ := Option.bind_eq_some_iff.mp accepted
  obtain ⟨node, met, same⟩ := Option.map_eq_some_iff.mp accepted
  obtain ⟨label, listed⟩ := Prod.mk.inj same
  have reached := Except.toOption_eq_some.mp found
  obtain ⟨before, after, drawn, _, reads⟩ := dot_labels_exact reached met
  refine ⟨scope, tree, node, Except.toOption_eq_some.mp described, reached, met, label, before,
    after, drawn, reads.mpr fun own holds dimension member => ?_⟩
  rw [holds] at listed
  have labels : dimension.label ∈ ["\""] := Option.some.inj listed ▸ List.mem_map_of_mem member
  rw [List.mem_singleton.mp labels]
  exact (paired_cons_iff (by decide)).mpr paired_nil

/-- A backslash and a quote in a symbol: the backslash that is put in belongs to the one before it,
so that the quote ends the label. -/
theorem exists_label_not_read_back : ∃ scope tree node,
    Scope.ofDescription ⟨false, [⟨"x", some "\\\""⟩], [], []⟩ = .ok scope ∧
    read (.standard scope.vocabulary) .quantity "x" = .ok tree ∧ tree.walk[0]? = some node ∧
    node.label = "QuantityExpression [\\\"]" ∧
    ∃ before after : List Char, (tree.draw .dot).toList =
      before ++ ("    " ++ identity 0 ++ " [label=\"").toList ++
        (escaped node.label.toList ++ '"' :: after) ∧
      "];\n".toList <+: after ∧
      readQuoted (escaped node.label.toList ++ '"' :: after) =
        some ("QuantityExpression [\\\\".toList, "]\"".toList ++ after) := by
  have accepted : ((Scope.ofDescription ⟨false, [⟨"x", some "\\\""⟩], [], []⟩).toOption.bind
      fun scope => (read (.standard scope.vocabulary) .quantity "x").toOption.bind fun tree =>
        tree.walk[0]?.map Node.label) = some "QuantityExpression [\\\"]" := by
    decide +kernel
  obtain ⟨scope, described, accepted⟩ := Option.bind_eq_some_iff.mp accepted
  obtain ⟨tree, found, accepted⟩ := Option.bind_eq_some_iff.mp accepted
  obtain ⟨node, met, label⟩ := Option.map_eq_some_iff.mp accepted
  obtain ⟨before, after, drawn, closes⟩ := draw_dot_eq met
  refine ⟨scope, tree, node, Except.toOption_eq_some.mp described, Except.toOption_eq_some.mp found,
    met, label, before, after, drawn, closes, ?_⟩
  rw [label]
  simp [escaped, readQuoted]

end Expression

end Dimensional
