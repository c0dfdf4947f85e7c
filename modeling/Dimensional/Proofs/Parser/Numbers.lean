import Dimensional.Proofs.Parser.Balance
import Dimensional.Proofs.Parser.Faults
import Dimensional.Proofs.Token.EndMark

/-! Every number that the scanner finds is one that the parser can read. -/

namespace Dimensional.Parser

variable {α β : Type} {setting : Setting} {grammar : Grammar} {before later state reached : State}

/-- Where an error rejects a number, it is one of some tokens and cannot be read. -/
def Rejects (tokens : List Token) (error : ParseError) (_ : State) : Prop :=
  ∀ token, error = .invalidNumber token →
    token ∈ tokens ∧ token.kind = .number ∧ Number.read? token.text = none

theorem State.Precedes.tokens_subset (precedes : before.Precedes reached) :
    reached.cursor.tokens ⊆ before.cursor.tokens := by
  obtain ⟨tokens, spans⟩ := precedes
  rw [spans.tokens_eq]
  exact List.subset_append_right _ _

theorem State.current_mem_tokens (state : State) : state.current ∈ state.cursor.tokens := by
  obtain ⟨⟨ahead, last, isEnd⟩, depth, numbering⟩ := state
  cases ahead with
  | nil => exact List.mem_singleton_self last
  | cons token rest => exact List.mem_cons_self

namespace Step

theorem FailsAs.earlier {step : Step before α} (precedes : state.Precedes later)
    (fails : step.FailsAs (Rejects later.cursor.tokens)) :
    step.FailsAs (Rejects state.cursor.tokens) := by
  intro error failed token rejected
  obtain ⟨member, isNumber, unreadable⟩ := fails error failed token rejected
  exact ⟨precedes.tokens_subset member, isNumber, unreadable⟩

end Step

section Rejects

variable {tokens : List Token}

theorem rejects_algebra {error : AlgebraError} {location : Location} :
    Rejects tokens (.algebra error location) state := by
  rintro _ ⟨⟩

theorem rejects_unexpected {expected : Expectation} :
    (state.unexpected expected : Step state α).FailsAs (Rejects tokens) :=
  .fail nofun

theorem rejects_expect {kind : Token.Kind} : (state.expect kind).FailsAs (Rejects tokens) :=
  .expect nofun

theorem rejects_enter {limit? : Option Nat} : (state.enter limit?).FailsAs (Rejects tokens) := by
  unfold State.enter
  dsimp only
  split
  · rintro _ ⟨⟩
    exact nofun
  · exact .of_ok rfl

/-- A literal is read where there is a number. -/
theorem rejects_literal (isNumber : state.kind = .number) :
    (literal state).FailsAs (Rejects state.cursor.tokens) := by
  unfold literal
  refine .andThen (.of_ok rfl) fun token later _ read => ?_
  cases read
  split
  · rename_i unreadable
    refine .fail ?_
    rintro _ ⟨⟩
    exact ⟨state.current_mem_tokens, isNumber, unreadable⟩
  · exact .of_ok rfl

theorem rejects_name {vocabulary : Vocabulary} :
    (name vocabulary grammar state).FailsAs (Rejects tokens) := by
  unfold name
  refine .andThen (.of_ok rfl) fun token later _ _ => ?_
  split
  · exact .fail nofun
  · split
    · exact .fail nofun
    · split
      · exact .fail nofun
      · exact .of_ok rfl
  · split <;> exact .of_ok rfl

theorem rejects_magnitude : (magnitude state).FailsAs (Rejects state.cursor.tokens) := by
  unfold magnitude
  split
  · exact rejects_literal ‹_›
  · exact rejects_unexpected

theorem rejects_integer : (integer state).FailsAs (Rejects state.cursor.tokens) := by
  unfold integer
  split
  · exact .since (.map (.earlier state.precedes_advance rejects_magnitude))
  · exact .map rejects_magnitude

end Rejects

/-- The induction follows the calls of the parser. -/
theorem rejects (setting : Setting) :
    (∀ grammar state,
      (expression setting grammar state).FailsAs (Rejects state.cursor.tokens)) ∧
    (∀ grammar sum state,
      (sumRest setting grammar sum state).FailsAs (Rejects state.cursor.tokens)) ∧
    (∀ grammar state, (term setting grammar state).FailsAs (Rejects state.cursor.tokens)) ∧
    (∀ grammar afterLiteral chain state,
      (productRest setting grammar afterLiteral chain state).FailsAs
        (Rejects state.cursor.tokens)) ∧
    (∀ grammar state, (factor setting grammar state).FailsAs (Rejects state.cursor.tokens)) ∧
    (∀ state, (exponent setting state).FailsAs (Rejects state.cursor.tokens)) ∧
    (∀ grammar state, (atom setting grammar state).FailsAs (Rejects state.cursor.tokens)) := by
  obtain ⟨ofExpression, _, ofTerm, _, ofFactor, _, ofAtom⟩ := advances setting
  refine expression.mutual_induct setting _ _ _ _ _ _ _ ?expression ?lastTerm ?sum ?negated ?term
    ?product ?silent ?lastFactor ?factor ?grouped ?integer ?name ?literal ?parenthesized ?vector
    ?nothing
  case expression =>
    intro grammar state ihTerm ihRest
    rw [expression]
    refine .andThen rejects_enter fun _ opened le entered => ?_
    have entering := Step.advances_enter.of_outcome entered
    split
    · refine .andThen ((ihTerm opened le).earlier entering) fun first later further read => ?_
      have precedes := entering.trans ((ofTerm grammar opened).of_outcome read)
      refine .andThen ((ihRest opened le first later further).earlier precedes) ?_
      exact fun _ _ _ _ => .of_ok rfl
    · exact rejects_unexpected
  case lastTerm =>
    intro grammar sum state none
    rw [sumRest_of_none none]
    exact .of_ok rfl
  case sum =>
    intro grammar sum state op some ihTerm ihRest
    rw [sumRest_of_some some]
    refine .since (.andThen (ihTerm.earlier state.precedes_advance) fun next later le read => ?_)
    have precedes := state.precedes_advance.trans ((ofTerm grammar _).of_outcome read)
    split
    · exact .fail rejects_algebra
    · exact .map ((ihRest later le _).earlier precedes)
  case negated =>
    intro grammar state minus ihFactor ihRest
    rw [term, if_pos minus]
    refine .since (.andThen (ihFactor.earlier state.precedes_advance) fun first later le read => ?_)
    have precedes := state.precedes_advance.trans ((ofFactor grammar _).of_outcome read)
    split
    · exact .fail rejects_algebra
    · exact .map ((ihRest first later le _).earlier precedes)
  case term =>
    intro grammar state plain ihFactor ihRest
    rw [term, if_neg plain]
    refine .andThen ihFactor fun first later le read => ?_
    split
    · exact .fail rejects_algebra
    · exact .map ((ihRest first later le _).earlier ((ofFactor grammar _).of_outcome read))
  case product =>
    intro grammar afterLiteral chain state op some ihFactor ihRest
    rw [productRest_of_some some]
    refine .since (.andThen (ihFactor.earlier state.precedes_advance) fun next later le read => ?_)
    have precedes := state.precedes_advance.trans ((ofFactor grammar _).of_outcome read)
    split
    · exact .fail rejects_algebra
    · exact .map ((ihRest next later le _).earlier precedes)
  case silent =>
    intro grammar afterLiteral chain state none silently ihFactor ihRest
    rw [productRest_of_silent none silently]
    refine .andThen ihFactor fun next later le read => ?_
    split
    · exact .fail rejects_algebra
    · exact .map ((ihRest later le _).earlier ((ofFactor grammar _).of_outcome read))
  case lastFactor =>
    intro grammar afterLiteral chain state none signed
    rw [productRest_of_none none signed]
    exact .of_ok rfl
  case factor =>
    intro grammar state ihAtom ihExponent
    rw [factor]
    refine .andThen ihAtom fun base later le read => ?_
    have precedes := (ofAtom grammar _).of_outcome read
    dsimp only
    split
    · rename_i power
      have beyond := precedes.trans later.precedes_advance
      refine .since (.andThen ((ihExponent later le power).earlier beyond) fun _ _ _ _ => ?_)
      split
      · exact .fail rejects_algebra
      · exact .of_ok rfl
    · exact .of_ok rfl
  case grouped =>
    intro state opening ihExpression
    rw [exponent_of_opening opening]
    refine .since (.andThen (ihExpression.earlier state.precedes_advance) ?_)
    exact fun _ _ _ _ => .map rejects_expect
  case integer =>
    intro state plain
    rw [exponent_of_plain plain]
    exact rejects_integer
  case name =>
    intro grammar state opens
    rw [atom_of_name opens]
    exact rejects_name
  case literal =>
    intro grammar state opens
    rw [atom_of_literal opens]
    exact rejects_literal (Grammar.opening?_literal_iff.mp opens)
  case parenthesized =>
    intro grammar state opens ihExpression
    rw [atom_of_parenthesis opens]
    refine .since (.andThen (ihExpression.earlier state.precedes_advance) ?_)
    exact fun _ _ _ _ => .map rejects_expect
  case vector =>
    intro grammar state op opens ihLeft ihRight
    rw [atom_of_vector opens]
    refine .since (.andThen rejects_expect fun _ opened le started => ?_)
    have inside := state.precedes_advance.trans (Step.Advances.expect.of_outcome started)
    refine .andThen ((ihLeft opened le).earlier inside) fun left later further read => ?_
    have behindLeft := inside.trans ((ofExpression _ _).of_outcome read)
    refine .andThen rejects_expect fun _ separated beyond parted => ?_
    have between := behindLeft.trans (Step.Advances.expect.of_outcome parted)
    refine .andThen ((ihRight opened le later further separated beyond).earlier between) ?_
    refine fun right last _ _ => .andThen rejects_expect fun _ _ _ _ => ?_
    split
    · exact .fail rejects_algebra
    · exact .of_ok rfl
  case nothing =>
    intro grammar state closed
    rw [atom_of_none closed]
    exact rejects_unexpected

theorem Step.FailsAs.apart_rejects {read : (state : State) → Step state α}
    (fails : (read (state.withNumbering .empty)).FailsAs (Rejects state.cursor.tokens)) :
    (state.apart read).FailsAs (Rejects state.cursor.tokens) := fails

theorem rejects_whole : (whole setting grammar state).FailsAs (Rejects state.cursor.tokens) := by
  refine .apart_rejects (.andThen ((rejects setting).1 grammar _) fun _ later _ _ => ?_)
  split
  · exact .of_ok rfl
  · exact rejects_unexpected

theorem rejects_statements :
    (statements setting grammar state).FailsAs (Rejects state.cursor.tokens) := by
  induction state using statements_induction with
  | atEnd state ends =>
    rw [statements_eq_done ends]
    exact .of_ok rfl
  | semicolon state isSemicolon ih =>
    rw [statements_eq_since isSemicolon]
    exact .since (ih.earlier state.precedes_advance)
  | expression state goesOn ih =>
    have precedes : (state.apart (expression setting grammar)).Advances :=
      .apart ((advances setting).1 grammar _)
    rw [statements_eq_andThen goesOn]
    refine .andThen (.apart_rejects ((rejects setting).1 grammar _)) fun _ later le read => ?_
    split
    · exact .map ((ih later le ‹_›).earlier (precedes.of_outcome read))
    · exact rejects_unexpected

namespace Query

variable {query : Query} {queries : List Query}

theorem rejects_answer : (query.answer setting state).FailsAs (Rejects state.cursor.tokens) := by
  cases query with
  | expression grammar => exact .map ((rejects setting).1 grammar state)
  | whole grammar => exact .map rejects_whole
  | statements grammar => exact rejects_statements

theorem advances_answer : (query.answer setting state).Advances := by
  cases query with
  | expression grammar => exact .map ((advances setting).1 grammar state)
  | whole grammar => exact .map advances_whole
  | statements grammar => exact advances_statements

/-- A parser never goes back. -/
theorem precedes_after : state.Precedes (after setting state queries) := by
  induction queries generalizing state with
  | nil => exact .refl state
  | cons query queries ih => exact State.Precedes.trans advances_answer ih

end Query

/-- Only a mark of the end is added to the tokens that a parser is given. -/
theorem mem_of_mem_ofTokens {tokens : List Token} {token : Token}
    (member : token ∈ (Cursor.ofTokens tokens).tokens) (continues : token.kind ≠ .eof) :
    token ∈ tokens := by
  rw [Cursor.tokens_ofTokens, Token.closed] at member
  split at member
  · exact member
  · obtain given | isMark := List.mem_append.mp member
    · exact given
    · obtain rfl := List.mem_singleton.mp isMark
      exact absurd rfl continues

/-- Numbers are found where they are and can be read. A call of the scanner gives a number exactly
where some text stands that is written like one, and its text is the longest such. No parser that is
given tokens of the scanner, and that has been asked for anything before, rejects a number. -/
theorem numbers_exact (source : String) (tokens : List Token) :
    (∀ k,
      let token := (Scanner.ofString source).call k
      let ahead := source.toList.drop token.location.position
      token.kind ≠ .invalid →
        (token.kind = .number ↔ ∃ text, IsNumeral text ∧ text <+: ahead) ∧
        (token.kind = .number → IsNumeral token.text.toList ∧ token.text.toList <+: ahead ∧
          (∀ text, IsNumeral text → text <+: ahead → text <+: token.text.toList) ∧
          (Number.read? token.text).isSome)) ∧
    ((∀ token ∈ tokens, token.IsScanned) →
      ∀ (setting : Setting) (queries : List Query) (query : Query) (token : Token),
        (query.answer setting
          (Query.after setting (.ofCursor (.ofTokens tokens)) queries)).result ≠
            .error (.invalidNumber token)) := by
  constructor
  · intro k token ahead valid
    obtain ⟨gap, beyond, parts, stands⟩ :=
      Scanner.exists_stands (Scanner.call_mem_tokens source k) valid
    have behind : ahead = token.text.toList ++ beyond := by
      unfold ahead
      rw [parts, stands.drop_eq]
    have read := stands.read
    rw [← behind] at read
    constructor
    · rw [← Scanner.kind_eq_number_iff, read]
    · intro isNumber
      rw [isNumber] at read
      obtain ⟨numeral, starts, longest⟩ := Scanner.lexeme_eq_number_iff.mp read
      exact ⟨numeral, starts, longest, Number.read?_isSome_of_isNumeral numeral⟩
  · intro scanned setting queries query token rejected
    obtain ⟨member, isNumber, unreadable⟩ := Query.rejects_answer _ rejected token rfl
    have inAll := Query.precedes_after.tokens_subset member
    have given : token ∈ tokens := mem_of_mem_ofTokens inAll (by rw [isNumber]; decide)
    have readable := (scanned token given).readable isNumber
    rw [unreadable] at readable
    cases readable

/-- A number that starts with its point ends before a second sign, and a letter goes on with no
power of ten. -/
theorem exists_number_before_name :
    let source := "2e3e.5e-1+m"
    let tokens := (Scanner.ofString source).tokens
    let setting := Setting.standard Scope.si.vocabulary
    (Scanner.ofString source).call 2 = ⟨.number, ".5e-1", ⟨4, 1, 5⟩⟩ ∧
      IsNumeral ".5e-1".toList ∧
      (∀ text, IsNumeral text → text <+: ".5e-1+m".toList → text <+: ".5e-1".toList) ∧
      ∀ token, ((Query.whole .quantity).answer setting
        (Query.after setting (.ofCursor (.ofTokens tokens)) [.expression .numeric])).result ≠
          .error (.invalidNumber token) := by
  intro source tokens setting
  have found : (Scanner.ofString source).call 2 = ⟨.number, ".5e-1", ⟨4, 1, 5⟩⟩ := by
    decide +kernel
  obtain ⟨calls, never⟩ := numbers_exact source tokens
  have third := calls 2
  rw [found] at third
  obtain ⟨numeral, _, longest, _⟩ := (third nofun).2 rfl
  have ahead : source.toList.drop 4 = ".5e-1+m".toList := by decide +kernel
  refine ⟨found, numeral, fun text isNumeral starts => longest text isNumeral ?_, ?_⟩
  · exact ahead ▸ starts
  · exact never (Scanner.isScanned_of_mem_tokens _) setting _ _

end Dimensional.Parser
