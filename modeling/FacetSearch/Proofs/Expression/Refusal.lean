import FacetSearch.Proofs.Expression.Grammar

/-!
What each state of the reader takes and refuses. A state takes a token exactly by one of its steps
(`Expression.State.Progress`), and has one thing against every other token and against the end
(`Expression.State.Refusal`). The last steps of a run tell what it expects next.
-/

set_option autoImplicit false

namespace FacetSearch

namespace Expression.State

/-- A state has something against what comes next, a token or the end. -/
def Refuses (state : State) (next : Option Token) (flaw : SyntaxFlaw) : Prop :=
  match next with
  | some token => state.step token = .error flaw
  | none => state.finish = .error flaw

/-- Each state's refusals. -/
inductive Refusal : State → Option Token → SyntaxFlaw → Prop
  | closing (level : Level) (outer : List Level) :
    Refusal ⟨.constraint, level, outer⟩ (some .closing) .unexpectedClosing
  | separator (level : Level) (outer : List Level) {token : Token}
    (joins : token = .semicolon ∨ token = .comma) :
    Refusal ⟨.constraint, level, outer⟩ (some token) .nothingToJoin
  | quoted (level : Level) (outer : List Level) (text : String) :
    Refusal ⟨.constraint, level, outer⟩ (some (.quoted text)) (.notASelector (.quoted text))
  | symbol (level : Level) (outer : List Level) (symbol : String) :
    Refusal ⟨.constraint, level, outer⟩ (some (.operator symbol))
      (.notASelector (.operator symbol))
  | constraint (level : Level) (outer : List Level) :
    Refusal ⟨.constraint, level, outer⟩ none .unexpectedEnd
  | operator (level : Level) (outer : List Level) (field : String) {next : Option Token}
    (other : ∀ symbol, next ≠ some (.operator symbol)) :
    Refusal ⟨.operator field, level, outer⟩ next (.missingOperator field)
  | list (level : Level) (outer : List Level) (field : String) {operator : Operator}
    (single : operator.takesList = false) :
    Refusal ⟨.arguments field operator, level, outer⟩ (some .opening)
      (.listNotAccepted operator)
  | argument (level : Level) (outer : List Level) (field : String) (operator : Operator)
      {token : Token}
    (other : token ≠ .opening ∧ ∀ text, token ≠ .word text ∧ token ≠ .quoted text) :
    Refusal ⟨.arguments field operator, level, outer⟩ (some token) (.notAnArgument token)
  | arguments (level : Level) (outer : List Level) (field : String) (operator : Operator) :
    Refusal ⟨.arguments field operator, level, outer⟩ none .missingArgument
  | listed (level : Level) (outer : List Level) (field : String) (operator : Operator)
    (given : List String) {token : Token} (other : ∀ text, token ≠ .word text ∧
      token ≠ .quoted text) :
    Refusal ⟨.listArgument field operator given, level, outer⟩ (some token)
      (.notAnArgument token)
  | listArgument (level : Level) (outer : List Level) (field : String) (operator : Operator)
    (given : List String) :
    Refusal ⟨.listArgument field operator given, level, outer⟩ none .missingArgument
  | listEnd (level : Level) (outer : List Level) (field : String) (operator : Operator)
    (given : List String) {next : Option Token} (other : next ≠ some .comma ∧
      next ≠ some .closing) :
    Refusal ⟨.listEnd field operator given, level, outer⟩ next .unclosedParenthesis
  | group (level around : Level) (outer : List Level) {next : Option Token}
    (other : next ≠ some .closing ∧
      ∀ token ∈ next, token.isConjunction = false ∧ token.isDisjunction = false) :
    Refusal ⟨.junction, level, around :: outer⟩ next .unclosedParenthesis
  | beyond (level : Level) {token : Token}
    (other : token.isConjunction = false ∧ token.isDisjunction = false) :
    Refusal ⟨.junction, level, []⟩ (some token) (.unexpectedToken token)

section Refuses

variable {level : Level} {outer : List Level} {field : String} {operator : Operator}
    {given : List String}
  {next : Option Token} {flaw : SyntaxFlaw}

theorem refusal_constraint (refuses : Refuses ⟨.constraint, level, outer⟩ next flaw) :
    Refusal ⟨.constraint, level, outer⟩ next flaw := by
  cases next with
  | none => cases refuses; exact .constraint level outer
  | some token =>
      cases token with
      | word text => cases refuses
      | opening => cases refuses
      | closing => cases refuses; exact .closing level outer
      | quoted text => cases refuses; exact .quoted level outer text
      | operator symbol => cases refuses; exact .symbol level outer symbol
      | semicolon => cases refuses; exact .separator level outer (.inl rfl)
      | comma => cases refuses; exact .separator level outer (.inr rfl)

theorem refusal_operator (refuses : Refuses ⟨.operator field, level, outer⟩ next flaw) :
    Refusal ⟨.operator field, level, outer⟩ next flaw := by
  cases next with
  | none => cases refuses; exact .operator level outer field (by simp)
  | some token =>
      cases token with
      | operator symbol => cases refuses
      | _ => cases refuses; exact .operator level outer field (by simp)

theorem refusal_arguments
    (refuses : Refuses ⟨.arguments field operator, level, outer⟩ next flaw) :
    Refusal ⟨.arguments field operator, level, outer⟩ next flaw := by
  cases next with
  | none => cases refuses; exact .arguments level outer field operator
  | some token =>
      cases token with
      | word text => cases refuses
      | quoted text => cases refuses
      | opening =>
          simp only [Refuses, step, takeArguments] at refuses
          split at refuses
          · cases refuses
          · rename_i single
            cases refuses
            exact .list level outer field (Bool.not_eq_true _ ▸ single)
      | _ => cases refuses; exact .argument level outer field operator (by simp)

theorem refusal_listArgument
    (refuses : Refuses ⟨.listArgument field operator given, level, outer⟩ next flaw) :
    Refusal ⟨.listArgument field operator given, level, outer⟩ next flaw := by
  cases next with
  | none => cases refuses; exact .listArgument level outer field operator given
  | some token =>
      cases token with
      | word text => cases refuses
      | quoted text => cases refuses
      | _ => cases refuses; exact .listed level outer field operator given (by simp)

theorem refusal_listEnd
    (refuses : Refuses ⟨.listEnd field operator given, level, outer⟩ next flaw) :
    Refusal ⟨.listEnd field operator given, level, outer⟩ next flaw := by
  cases next with
  | none => cases refuses; exact .listEnd level outer field operator given (by simp)
  | some token =>
      cases token with
      | comma => cases refuses
      | closing => cases refuses
      | _ => cases refuses; exact .listEnd level outer field operator given (by simp)

theorem refusal_junction (refuses : Refuses ⟨.junction, level, outer⟩ next flaw) :
    Refusal ⟨.junction, level, outer⟩ next flaw := by
  cases next with
  | none =>
      cases outer with
      | nil => cases refuses
      | cons around others => cases refuses; exact .group level around others (by simp)
  | some token =>
      simp only [Refuses, step, takeJunction] at refuses
      split at refuses
      · cases refuses
      rename_i all
      split at refuses
      · cases refuses
      rename_i any
      have other : token.isConjunction = false ∧ token.isDisjunction = false :=
        ⟨Bool.not_eq_true _ ▸ all, Bool.not_eq_true _ ▸ any⟩
      cases outer with
      | nil =>
          cases refuses
          exact .beyond level other
      | cons around others =>
          dsimp only at refuses
          split at refuses
          · cases refuses
          · rename_i closes
            cases refuses
            refine .group level around others ⟨fun same => closes (Option.some.inj same), ?_⟩
            rintro found ⟨⟩
            exact other

end Refuses

theorem refusal_of_refuses {state : State} {next : Option Token} {flaw : SyntaxFlaw}
    (refuses : state.Refuses next flaw) : Refusal state next flaw := by
  obtain ⟨expected, level, outer⟩ := state
  cases expected with
  | constraint => exact refusal_constraint refuses
  | operator field => exact refusal_operator refuses
  | arguments field operator => exact refusal_arguments refuses
  | listArgument field operator given => exact refusal_listArgument refuses
  | listEnd field operator given => exact refusal_listEnd refuses
  | junction => exact refusal_junction refuses

theorem Refusal.refuses {state : State} {next : Option Token} {flaw : SyntaxFlaw}
    (refusal : Refusal state next flaw) : state.Refuses next flaw := by
  cases refusal with
  | separator level outer joins => rcases joins with rfl | rfl <;> rfl
  | operator level outer field other =>
      cases next with
      | none => rfl
      | some token =>
          cases token with
          | operator symbol => exact absurd rfl (other symbol)
          | _ => rfl
  | list level outer field single =>
      simp only [Refuses, step, takeArguments, single, Bool.false_eq_true, if_false]
  | @argument level outer field operator token other =>
      cases token with
      | word text => exact absurd rfl (other.2 text).1
      | quoted text => exact absurd rfl (other.2 text).2
      | opening => exact absurd rfl other.1
      | _ => rfl
  | @listed level outer field operator given token other =>
      cases token with
      | word text => exact absurd rfl (other text).1
      | quoted text => exact absurd rfl (other text).2
      | _ => rfl
  | listEnd level outer field operator given other =>
      cases next with
      | none => rfl
      | some token =>
          cases token with
          | comma => exact absurd rfl other.1
          | closing => exact absurd rfl other.2
          | _ => rfl
  | group level around outer other =>
      cases next with
      | none => rfl
      | some token =>
          obtain ⟨all, any⟩ := other.2 token rfl
          have unlike : token ≠ .closing := fun same => other.1 (congrArg some same)
          simp only [Refuses, step, takeJunction, all, any, unlike, Bool.false_eq_true, if_false]
  | beyond level other =>
      simp only [Refuses, step, takeJunction, other.1, other.2, Bool.false_eq_true, if_false]
  | _ => rfl

/-- Each state's steps. -/
inductive Progress : State → Token → State → Prop
  | opening (level : Level) (outer : List Level) :
    Progress ⟨.constraint, level, outer⟩ .opening ⟨.constraint, .start, level :: outer⟩
  | field (level : Level) (outer : List Level) (field : String) :
    Progress ⟨.constraint, level, outer⟩ (.word field) ⟨.operator field, level, outer⟩
  | operator (level : Level) (outer : List Level) (field symbol : String) :
    Progress ⟨.operator field, level, outer⟩ (.operator symbol)
      ⟨.arguments field (.ofSymbol symbol), level, outer⟩
  | value (level : Level) (outer : List Level) (field : String) (operator : Operator)
      {token : Token}
    {text : String} (value : token = .word text ∨ token = .quoted text) :
    Progress ⟨.arguments field operator, level, outer⟩ token
      ⟨.junction, level.add (.comparison ⟨field, operator, [text]⟩), outer⟩
  | list (level : Level) (outer : List Level) (field : String) {operator : Operator}
    (takesList : operator.takesList = true) :
    Progress ⟨.arguments field operator, level, outer⟩ .opening
      ⟨.listArgument field operator [], level, outer⟩
  | listed (level : Level) (outer : List Level) (field : String) (operator : Operator)
    (given : List String) {token : Token} {text : String}
    (value : token = .word text ∨ token = .quoted text) :
    Progress ⟨.listArgument field operator given, level, outer⟩ token
      ⟨.listEnd field operator (given ++ [text]), level, outer⟩
  | comma (level : Level) (outer : List Level) (field : String) (operator : Operator)
    (given : List String) :
    Progress ⟨.listEnd field operator given, level, outer⟩ .comma
      ⟨.listArgument field operator given, level, outer⟩
  | listEnd (level : Level) (outer : List Level) (field : String) (operator : Operator)
    (given : List String) :
    Progress ⟨.listEnd field operator given, level, outer⟩ .closing
      ⟨.junction, level.add (.comparison ⟨field, operator, given⟩), outer⟩
  | conjunction (level : Level) (outer : List Level) {token : Token}
    (all : token.isConjunction = true) :
    Progress ⟨.junction, level, outer⟩ token ⟨.constraint, level, outer⟩
  | disjunction (level : Level) (outer : List Level) {token : Token}
    (all : token.isConjunction = false) (any : token.isDisjunction = true) :
    Progress ⟨.junction, level, outer⟩ token ⟨.constraint, level.next, outer⟩
  | closing (level around : Level) (outer : List Level) :
    Progress ⟨.junction, level, around :: outer⟩ .closing ⟨.junction,
      around.add level.close, outer⟩

section Steps

variable {level : Level} {outer : List Level} {field : String} {operator : Operator}
    {given : List String}
  {token : Token} {next : State}

theorem progress_constraint (stepped : step ⟨.constraint, level, outer⟩ token = .ok next) :
    Progress ⟨.constraint, level, outer⟩ token next := by
  cases token with
  | word text => cases stepped; exact .field level outer text
  | opening => cases stepped; exact .opening level outer
  | _ => cases stepped

theorem progress_operator (stepped : step ⟨.operator field, level, outer⟩ token = .ok next) :
    Progress ⟨.operator field, level, outer⟩ token next := by
  cases token with
  | operator symbol => cases stepped; exact .operator level outer field symbol
  | _ => cases stepped

theorem progress_arguments
    (stepped : step ⟨.arguments field operator, level, outer⟩ token = .ok next) :
    Progress ⟨.arguments field operator, level, outer⟩ token next := by
  cases token with
  | word text => cases stepped; exact .value level outer field operator (.inl rfl)
  | quoted text => cases stepped; exact .value level outer field operator (.inr rfl)
  | opening =>
      simp only [step, takeArguments] at stepped
      split at stepped
      · rename_i takesList
        cases stepped
        exact .list level outer field takesList
      · cases stepped
  | _ => cases stepped

theorem progress_listArgument
    (stepped : step ⟨.listArgument field operator given, level, outer⟩ token = .ok next) :
    Progress ⟨.listArgument field operator given, level, outer⟩ token next := by
  cases token with
  | word text => cases stepped; exact .listed level outer field operator given (.inl rfl)
  | quoted text => cases stepped; exact .listed level outer field operator given (.inr rfl)
  | _ => cases stepped

theorem progress_listEnd
    (stepped : step ⟨.listEnd field operator given, level, outer⟩ token = .ok next) :
    Progress ⟨.listEnd field operator given, level, outer⟩ token next := by
  cases token with
  | comma => cases stepped; exact .comma level outer field operator given
  | closing => cases stepped; exact .listEnd level outer field operator given
  | _ => cases stepped

theorem progress_junction (stepped : step ⟨.junction, level, outer⟩ token = .ok next) :
    Progress ⟨.junction, level, outer⟩ token next := by
  simp only [step, takeJunction] at stepped
  split at stepped
  · rename_i all
    cases stepped
    exact .conjunction level outer all
  rename_i all
  split at stepped
  · rename_i any
    cases stepped
    exact .disjunction level outer (Bool.not_eq_true _ ▸ all) any
  cases outer with
  | nil => cases stepped
  | cons around others =>
      dsimp only at stepped
      split at stepped
      · rename_i closes
        cases stepped
        rw [closes]
        exact .closing level around others
      · cases stepped

end Steps

theorem progress_of_step {state next : State} {token : Token}
    (stepped : state.step token = .ok next) : Progress state token next := by
  obtain ⟨expected, level, outer⟩ := state
  cases expected with
  | constraint => exact progress_constraint stepped
  | operator field => exact progress_operator stepped
  | arguments field operator => exact progress_arguments stepped
  | listArgument field operator given => exact progress_listArgument stepped
  | listEnd field operator given => exact progress_listEnd stepped
  | junction => exact progress_junction stepped

theorem Progress.step_eq {state next : State} {token : Token}
    (progress : Progress state token next) : state.step token = .ok next := by
  cases progress with
  | value level outer field operator value => rcases value with rfl | rfl <;> rfl
  | list level outer field takesList => simp only [step, takeArguments, takesList, if_true]
  | listed level outer field operator given value => rcases value with rfl | rfl <;> rfl
  | conjunction level outer all => simp only [step, takeJunction, all, if_true]
  | disjunction level outer all any =>
      simp only [step, takeJunction, all, any, Bool.false_eq_true, if_false, if_true]
  | _ => rfl

theorem exists_leads_of_reads {state : State} {front back : List Token} {expression : Expression}
    (reads : state.Reads (front ++ back) expression) : ∃ reached, state.Leads front reached := by
  induction front generalizing state with
  | nil => exact ⟨state, .refl state⟩
  | cons token rest ih =>
      obtain ⟨next, stepped, onward⟩ := reads
      obtain ⟨reached, leads⟩ := ih onward
      exact ⟨reached, .step next stepped leads⟩

theorem Leads.unique {state one other : State} {tokens : List Token}
    (first : state.Leads tokens one) (second : state.Leads tokens other) : one = other := by
  induction first with
  | refl state =>
      cases second
      rfl
  | step next stepped _ ih =>
      cases second with
      | step again same onward =>
          cases stepped.symm.trans same
          exact ih onward

theorem Leads.exists_of_append {state final : State} {front back : List Token}
    (leads : state.Leads (front ++ back) final) :
    ∃ reached, state.Leads front reached ∧ reached.Leads back final := by
  induction front generalizing state with
  | nil => exact ⟨state, .refl state, leads⟩
  | cons token rest ih =>
      cases leads with
      | step next stepped onward =>
          obtain ⟨reached, one, other⟩ := ih onward
          exact ⟨reached, .step next stepped one, other⟩

theorem leads_singleton_iff {state final : State} {token : Token} :
    state.Leads [token] final ↔ state.step token = .ok final := by
  refine ⟨fun leads => ?_, .single⟩
  cases leads with
  | step next stepped onward =>
      cases onward
      exact stepped

/-- The last token that led to a state, unless there was none. -/
theorem Leads.exists_last {state final : State} {tokens : List Token}
    (leads : state.Leads tokens final) :
    (tokens = [] ∧ state = final) ∨ ∃ earlier token reached, tokens = earlier ++ [token] ∧
      state.Leads earlier reached ∧ Progress reached token final := by
  rcases List.eq_nil_or_concat tokens with rfl | ⟨earlier, token, rfl⟩
  · cases leads
    exact .inl ⟨rfl, rfl⟩
  · rw [List.concat_eq_append] at leads ⊢
    obtain ⟨reached, one, other⟩ := leads.exists_of_append
    exact .inr ⟨earlier, token, reached, rfl, one,
      progress_of_step (leads_singleton_iff.mp other)⟩

theorem exists_field {field : String} {level : Level} {outer : List Level} {tokens : List Token}
    (leads : start.Leads tokens ⟨.operator field, level, outer⟩) :
    ∃ earlier, tokens = earlier ++ [.word field] := by
  rcases leads.exists_last with ⟨-, same⟩ | ⟨earlier, token, reached, rfl, -, progress⟩
  · cases same
  · cases progress
    exact ⟨earlier, rfl⟩

theorem exists_operator {field : String} {operator : Operator} {level : Level} {outer : List Level}
    {tokens : List Token}
    (leads : start.Leads tokens ⟨.arguments field operator, level, outer⟩) :
    ∃ earlier symbol, tokens = earlier ++ [.word field, .operator symbol] ∧
      operator = .ofSymbol symbol := by
  rcases leads.exists_last with ⟨-, same⟩ | ⟨front, token, reached, rfl, onward, progress⟩
  · cases same
  · cases progress with
    | operator _ _ _ symbol =>
        obtain ⟨earlier, rfl⟩ := exists_field onward
        exact ⟨earlier, symbol, by rw [List.append_assoc]; rfl, rfl⟩

theorem exists_expected_operator {state final : State} {symbol : String}
    (stepped : state.step (.operator symbol) = .ok final) :
    ∃ field, state.expected = .operator field := by
  generalize which : Token.operator symbol = token at stepped
  cases progress_of_step stepped with
  | operator level outer field symbol => exact ⟨field, rfl⟩
  | value _ _ _ _ value => rcases value with rfl | rfl <;> cases which
  | listed _ _ _ _ _ value => rcases value with rfl | rfl <;> cases which
  | conjunction _ _ all => cases which; cases all
  | disjunction _ _ _ any => cases which; cases any
  | _ => cases which

/-- Behind an operator an argument is due. -/
theorem exists_expected_arguments {state final : State} {tokens : List Token} {symbol : String}
    (leads : state.Leads (tokens ++ [.operator symbol]) final) :
    ∃ field, final.expected = .arguments field (.ofSymbol symbol) := by
  obtain ⟨⟨expected, level, outer⟩, -, last⟩ := leads.exists_of_append
  have stepped := leads_singleton_iff.mp last
  obtain ⟨field, expects⟩ := exists_expected_operator stepped
  cases expects
  cases stepped
  exact ⟨field, rfl⟩

end Expression.State

end FacetSearch
