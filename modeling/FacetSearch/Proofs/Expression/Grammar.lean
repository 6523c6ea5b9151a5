import FacetSearch.Proofs.Expression.NormalForm
import FacetSearch.Proofs.Expression.Run

/-!
The grammar of expressions as derivation trees, and the reader as a machine for it. The reader gets
through the tokens of a derivation (`Alternatives.leads`), whatever it reads has a derivation
(`exists_alternatives`), and tokens have at most one (`Alternatives.tokens_inj`).
-/

set_option autoImplicit false

namespace FacetSearch.Grammar

open Expression (State Level)

/-- Tokens that stand between the parts of a node. Words count whatever their case. -/
inductive Separates : Junction → Token → Prop
  | semicolon : Separates .all .semicolon
  | comma : Separates .any .comma
  | conjunction {text : String} (spelling : text.toLower = "and") : Separates .all (.word text)
  | disjunction {text : String} (spelling : text.toLower = "or") : Separates .any (.word text)

/-- A token that separates the parts of nodes of one kind. -/
structure Separator (kind : Junction) where
  token : Token
  separates : Separates kind token

/-- value → WORD | QUOTED -/
inductive Value where
  | word (text : String)
  | quoted (text : String)

/-- arguments → '(' value (',' value)* ')' | value -/
inductive Arguments where
  | lone (value : Value)
  | list (first : Value) (others : List Value)

/-- The symbols of comparisons with a single argument. -/
def loneSymbols : List String := ["==", "!=", "=gt=", ">", "=ge=", ">=", "=lt=", "<", "=le=", "<="]

/-- What symbols mean. Any other symbol is an operator of its own. -/
def meanings : List (String × Operator) :=
  [("==", .equal), ("!=", .unequal), ("=in=", .oneOf), ("=gt=", .above), (">", .above),
    ("=ge=", .atLeast), (">=", .atLeast), ("=lt=", .below), ("<", .below), ("=le=", .atMost),
    ("<=", .atMost)]

/-- comparison → SELECTOR OPERATOR arguments. A list stands only after `=in=` and after symbols
that have no meaning of their own. -/
structure Leaf where
  selector : String
  symbol : String
  arguments : Arguments
  listed : ∀ first others, arguments = .list first others → symbol ∉ loneSymbols

mutual

/-- or_expr → and_expr ((',' | "or") and_expr)* -/
inductive Alternatives where
  | last (only : Alternative)
  | more (first : Alternative) (separator : Separator .any) (rest : Alternatives)

/-- and_expr → constraint ((';' | "and") constraint)* -/
inductive Alternative where
  | last (only : Constraint)
  | more (first : Constraint) (separator : Separator .all) (rest : Alternative)

/-- constraint → '(' or_expr ')' | comparison -/
inductive Constraint where
  | enclosed (inner : Alternatives)
  | comparison (leaf : Leaf)

end

namespace Value

def token : Value → Token
  | word text => .word text
  | quoted text => .quoted text

def text : Value → String
  | word text | quoted text => text

theorem token_inj {first second : Value} (same : first.token = second.token) : first = second := by
  cases first <;> cases second <;> cases same <;> rfl

end Value

namespace Arguments

/-- What follows the first argument of a list. -/
def tail : List Value → List Token
  | [] => [.closing]
  | value :: rest => .comma :: value.token :: tail rest

def tokens : Arguments → List Token
  | lone value => [value.token]
  | list first others => .opening :: first.token :: tail others

def values : Arguments → List String
  | lone value => [value.text]
  | list first others => first.text :: others.map Value.text

end Arguments

namespace Leaf

def tokens (leaf : Leaf) : List Token :=
  .word leaf.selector :: .operator leaf.symbol :: leaf.arguments.tokens

/-- The comparison that a derivation stands for. -/
def comparison (leaf : Leaf) : Comparison :=
  ⟨leaf.selector, (meanings.lookup leaf.symbol).getD (.custom leaf.symbol),
    leaf.arguments.values⟩

end Leaf

mutual

def Alternatives.tokens : Alternatives → List Token
  | .last only => only.tokens
  | .more first separator rest => first.tokens ++ separator.token :: rest.tokens

def Alternative.tokens : Alternative → List Token
  | .last only => only.tokens
  | .more first separator rest => first.tokens ++ separator.token :: rest.tokens

def Constraint.tokens : Constraint → List Token
  | .enclosed inner => .opening :: (inner.tokens ++ [.closing])
  | .comparison leaf => leaf.tokens

end

mutual

/-- The trees of the alternatives, one node for each. -/
def Alternatives.parts : Alternatives → List Expression
  | .last only => [.all only.parts]
  | .more first _ rest => .all first.parts :: rest.parts

/-- The trees of the constraints of an alternative. -/
def Alternative.parts : Alternative → List Expression
  | .last only => [only.tree]
  | .more first _ rest => first.tree :: rest.parts

/-- The tree of a constraint. -/
def Constraint.tree : Constraint → Expression
  | .enclosed inner => .any inner.parts
  | .comparison leaf => .comparison leaf.comparison

end

theorem Alternatives.parts_ne_nil (derivation : Alternatives) : derivation.parts ≠ [] := by
  cases derivation <;> exact List.cons_ne_nil _ _

theorem Alternative.parts_ne_nil (derivation : Alternative) : derivation.parts ≠ [] := by
  cases derivation <;> exact List.cons_ne_nil _ _

/-- The syntax tree of a derivation, with a node for every rule that joins parts. -/
def Alternatives.tree (derivation : Alternatives) : Expression := .any derivation.parts

mutual

/-- The same derivation with `;` and `,` for all separators. -/
def Alternatives.plain : Alternatives → Alternatives
  | .last only => .last only.plain
  | .more first _ rest => .more first.plain ⟨.comma, .comma⟩ rest.plain

/-- The same derivation with `;` and `,` for all separators. -/
def Alternative.plain : Alternative → Alternative
  | .last only => .last only.plain
  | .more first _ rest => .more first.plain ⟨.semicolon, .semicolon⟩ rest.plain

/-- The same derivation with `;` and `,` for all separators. -/
def Constraint.plain : Constraint → Constraint
  | .enclosed inner => .enclosed inner.plain
  | .comparison leaf => .comparison leaf

end

theorem isKeyword_word (keyword text : String) :
    (Token.word text).isKeyword keyword = true ↔ text.toLower = keyword := by
  simp only [Token.isKeyword, beq_iff_eq, ← String.toList_map]
  exact String.toList_inj

theorem isConjunction_iff (token : Token) :
    token.isConjunction = true ↔ Separates .all token := by
  simp only [Token.isConjunction, Bool.or_eq_true, beq_iff_eq]
  constructor
  · rintro (rfl | keyword)
    · exact .semicolon
    · cases token with
      | word text => exact .conjunction ((isKeyword_word _ _).mp keyword)
      | _ => cases keyword
  · rintro (_ | _ | spelling)
    · exact .inl rfl
    · exact .inr ((isKeyword_word _ _).mpr spelling)

theorem isDisjunction_iff (token : Token) :
    token.isDisjunction = true ↔ Separates .any token := by
  simp only [Token.isDisjunction, Bool.or_eq_true, beq_iff_eq]
  constructor
  · rintro (rfl | keyword)
    · exact .comma
    · cases token with
      | word text => exact .disjunction ((isKeyword_word _ _).mp keyword)
      | _ => cases keyword
  · rintro (_ | _ | _ | spelling)
    · exact .inl rfl
    · exact .inr ((isKeyword_word _ _).mpr spelling)

/-- No token separates nodes of both kinds. -/
theorem Separates.unique {token : Token} (all : Separates .all token)
    (any : Separates .any token) : False := by
  cases all with
  | semicolon => cases any
  | conjunction spelling =>
      cases any with
      | disjunction other => exact absurd (spelling.symm.trans other) (by decide)

theorem step_conjunction {level : Level} {outer : List Level} {token : Token}
    (separates : Separates .all token) :
    State.step ⟨.junction, level, outer⟩ token = .ok ⟨.constraint, level, outer⟩ := by
  simp only [State.step, State.takeJunction, (isConjunction_iff token).mpr separates, ↓reduceIte]

theorem step_disjunction {level : Level} {outer : List Level} {token : Token}
    (separates : Separates .any token) :
    State.step ⟨.junction, level, outer⟩ token = .ok ⟨.constraint, level.next, outer⟩ := by
  have other : ¬ token.isConjunction = true := fun conjunction =>
    ((isConjunction_iff token).mp conjunction).unique separates
  simp only [State.step, State.takeJunction, other, (isDisjunction_iff token).mpr separates,
    Bool.false_eq_true, ↓reduceIte]

theorem step_closing (level around : Level) (outer : List Level) :
    State.step ⟨.junction, level, around :: outer⟩ .closing
      = .ok ⟨.junction, around.add level.close, outer⟩ := rfl

/-- What else the reader takes after a constraint: a parenthesis that is open. -/
theorem eq_closing_of_step {level : Level} {outer : List Level} {token : Token} {next : State}
    (unseparated : ∀ kind, ¬ Separates kind token)
    (stepped : State.step ⟨.junction, level, outer⟩ token = .ok next) :
    token = .closing ∧ ∃ around others, outer = around :: others := by
  simp only [State.step, State.takeJunction, mt (isConjunction_iff token).mp (unseparated .all),
    mt (isDisjunction_iff token).mp (unseparated .any)] at stepped
  cases outer with
  | nil => cases stepped
  | cons around others =>
      by_cases closing : token = .closing
      · exact ⟨closing, around, others, rfl⟩
      · simp only [closing, ↓reduceIte, Bool.false_eq_true, reduceCtorEq] at stepped

/-- A value where an argument is due. -/
theorem leads_lone (level : Level) (outer : List Level) (field : String) (operator : Operator)
    (value : Value) :
    State.Leads ⟨.arguments field operator, level, outer⟩ [value.token]
      ⟨.junction, level.add (.comparison ⟨field, operator, [value.text]⟩), outer⟩ := by
  cases value <;> exact .single rfl

/-- The rest of a list of arguments, some of which have been read. -/
theorem leads_tail (level : Level) (outer : List Level) (field : String) (operator : Operator)
    (given : List String) (others : List Value) :
    State.Leads ⟨.listEnd field operator given, level, outer⟩ (Arguments.tail others)
      ⟨.junction, level.add (.comparison ⟨field, operator, given ++ others.map Value.text⟩),
        outer⟩ := by
  induction others generalizing given with
  | nil =>
      rw [List.map_nil, List.append_nil]
      exact .single rfl
  | cons value rest ih =>
      have onward := ih (given ++ [value.text])
      rw [List.append_assoc, List.singleton_append] at onward
      rw [List.map_cons]
      refine .step ⟨.listArgument field operator given, level, outer⟩ rfl ?_
      cases value <;> exact .step _ rfl onward

theorem leads_list (level : Level) (outer : List Level) (field : String) (operator : Operator)
    (takesList : operator.takesList = true) (first : Value) (others : List Value) :
    State.Leads ⟨.arguments field operator, level, outer⟩ (Arguments.list first others).tokens
      ⟨.junction,
        level.add (.comparison ⟨field, operator, (Arguments.list first others).values⟩),
        outer⟩ := by
  have opened : State.step ⟨.arguments field operator, level, outer⟩ .opening
      = .ok ⟨.listArgument field operator [], level, outer⟩ := by
    simp only [State.step, State.takeArguments, takesList, ↓reduceIte]
  have onward := leads_tail level outer field operator [first.text] others
  cases first <;> exact .step _ opened (.step _ rfl onward)

theorem lookup_meanings (symbol : String) :
    (meanings.lookup symbol).getD (.custom symbol) = .ofSymbol symbol := by
  by_cases known : symbol ∈ meanings.map Prod.fst
  · have named : ∀ symbol ∈ meanings.map Prod.fst,
        (meanings.lookup symbol).getD (.custom symbol) = .ofSymbol symbol := by
      decide
    exact named symbol known
  · have absent : meanings.lookup symbol = none := by
      rw [List.lookup_eq_none_iff]
      intro pair member
      exact bne_iff_ne.mpr fun same => known (same ▸ List.mem_map_of_mem member)
    simp only [meanings, List.map_cons, List.map_nil, List.mem_cons, List.not_mem_nil, or_false,
      not_or] at known
    simp [absent, Operator.ofSymbol, known]

theorem Leaf.comparison_eq (leaf : Leaf) :
    leaf.comparison = ⟨leaf.selector, .ofSymbol leaf.symbol, leaf.arguments.values⟩ := by
  rw [Leaf.comparison, lookup_meanings]

/-- The operators that take a list are those of the symbols that a list can follow. -/
theorem takesList_ofSymbol_iff {symbol : String} :
    (Operator.ofSymbol symbol).takesList = true ↔ symbol ∉ loneSymbols := by
  constructor
  · intro takesList lone
    have single : ∀ symbol ∈ loneSymbols, (Operator.ofSymbol symbol).takesList = false := by
      decide
    rw [single symbol lone] at takesList
    cases takesList
  · intro other
    simp only [loneSymbols, List.mem_cons, List.not_mem_nil, or_false, not_or] at other
    by_cases among : symbol = "=in=" <;> simp [Operator.ofSymbol, Operator.takesList, among, other]

theorem mem_loneSymbols_iff {symbol : String} :
    symbol ∈ loneSymbols ↔ (Operator.ofSymbol symbol).takesList = false := by
  rw [← Bool.not_eq_true, takesList_ofSymbol_iff, not_not]

theorem Leaf.takesList {leaf : Leaf} {first : Value} {others : List Value}
    (list : leaf.arguments = .list first others) :
    (Operator.ofSymbol leaf.symbol).takesList = true :=
  takesList_ofSymbol_iff.mpr (leaf.listed first others list)

theorem Leaf.leads (leaf : Leaf) (level : Level) (outer : List Level) :
    State.Leads ⟨.constraint, level, outer⟩ leaf.tokens
      ⟨.junction, level.add (.comparison leaf.comparison), outer⟩ := by
  refine .step ⟨.operator leaf.selector, level, outer⟩ rfl (.step
    ⟨.arguments leaf.selector (.ofSymbol leaf.symbol), level, outer⟩ rfl ?_)
  rw [leaf.comparison_eq]
  cases given : leaf.arguments with
  | lone value => exact leads_lone level outer _ _ value
  | list first others => exact leads_list level outer _ _ (leaf.takesList given) first others

mutual

/-- Whatever has been read of a level, a derivation ends its current alternative and adds its
own. -/
theorem Alternatives.leads : ∀ (derivation : Alternatives) (before : List Expression)
    (outer : List Level), ∃ level : Level,
      State.Leads ⟨.constraint, ⟨before, []⟩, outer⟩ derivation.tokens ⟨.junction,
        level, outer⟩ ∧
      level.close = Expression.anyOf (before ++ derivation.parts.map Expression.flattened)
  | .last only, before, outer => by
      refine ⟨_, only.leads ⟨before, []⟩ outer, ?_⟩
      simp only [Level.close, List.nil_append, Alternatives.parts, List.map_cons, List.map_nil,
        Expression.allOf_map_flattened]
  | .more first separator rest, before, outer => by
      obtain ⟨level, onward, closed⟩ :=
        rest.leads (before ++ [(Expression.all first.parts).flattened])
        outer
      refine ⟨level, (first.leads ⟨before, []⟩ outer).trans (.step _
        (step_disjunction separator.separates) ?_), ?_⟩
      · simpa only [Level.next, List.nil_append, Expression.allOf_map_flattened] using onward
      · simpa only [Alternatives.parts, List.map_cons, List.append_assoc, List.singleton_append]
          using closed

theorem Alternative.leads : ∀ (derivation : Alternative) (level : Level) (outer : List Level),
    State.Leads ⟨.constraint, level, outer⟩ derivation.tokens
      ⟨.junction, ⟨level.alternatives,
        level.constraints ++ derivation.parts.map Expression.flattened⟩, outer⟩
  | .last only, level, outer => only.leads level outer
  | .more first separator rest, level, outer => by
      have onward := rest.leads (level.add first.tree.flattened) outer
      refine (first.leads level outer).trans (.step _ (step_conjunction separator.separates) ?_)
      simpa only [Level.add, Alternative.parts, List.map_cons, List.append_assoc,
        List.singleton_append] using onward

theorem Constraint.leads : ∀ (derivation : Constraint) (level : Level) (outer : List Level),
    State.Leads ⟨.constraint, level, outer⟩ derivation.tokens
      ⟨.junction, level.add derivation.tree.flattened, outer⟩
  | .enclosed inner, level, outer => by
      obtain ⟨inside, onward, closed⟩ := inner.leads [] (level :: outer)
      rw [List.nil_append, Expression.anyOf_map_flattened] at closed
      rw [Constraint.tree, ← closed]
      exact .step ⟨.constraint, .start, level :: outer⟩ rfl
        (onward.trans (.single (step_closing inside level outer)))
  | .comparison leaf, level, outer => leaf.leads level outer

end

/-- The tokens of a derivation are read as its flat tree. -/
theorem Alternatives.reads (derivation : Alternatives) :
    State.start.Reads derivation.tokens derivation.tree.flattened := by
  obtain ⟨level, leads, closed⟩ := derivation.leads [] []
  rw [List.nil_append, Expression.anyOf_map_flattened] at closed
  rw [← List.append_nil derivation.tokens, Alternatives.tree, ← closed]
  exact leads.reads_iff.mpr rfl

/-- A value stands where a list goes on. -/
theorem exists_value {level : Level} {outer : List Level} {field : String} {operator : Operator}
    {given : List String} {tokens : List Token} {expression : Expression}
    (reads : State.Reads ⟨.listArgument field operator given, level, outer⟩ tokens expression) :
    ∃ (value : Value) (rest : List Token), tokens = value.token :: rest ∧
      State.Reads ⟨.listEnd field operator (given ++ [value.text]), level, outer⟩ rest
        expression := by
  match tokens with
  | [] => cases reads
  | token :: after =>
      obtain ⟨next, stepped, onward⟩ := reads
      cases token with
      | word text =>
          cases stepped
          exact ⟨.word text, after, rfl, onward⟩
      | quoted text =>
          cases stepped
          exact ⟨.quoted text, after, rfl, onward⟩
      | _ => cases stepped

theorem exists_tail {level : Level} {outer : List Level} {field : String} {operator : Operator}
    {given : List String} {tokens : List Token} {expression : Expression}
    (reads : State.Reads ⟨.listEnd field operator given, level, outer⟩ tokens expression) :
    ∃ others rest, tokens = Arguments.tail others ++ rest := by
  induction size : tokens.length using Nat.strongRecOn generalizing tokens given with
  | ind size ih =>
      match tokens with
      | [] => cases reads
      | token :: after =>
          obtain ⟨next, stepped, onward⟩ := reads
          cases token with
          | comma =>
              cases stepped
              obtain ⟨value, more, rfl, remaining⟩ := exists_value onward
              obtain ⟨others, rest, rfl⟩ := ih more.length
                (by simp only [List.length_cons] at size; omega) remaining rfl
              exact ⟨value :: others, rest, rfl⟩
          | closing => exact ⟨[], after, rfl⟩
          | _ => cases stepped

theorem eq_of_ofSymbol_eq_custom {symbol other : String}
    (resolved : Operator.ofSymbol symbol = .custom other) : other = symbol := by
  unfold Operator.ofSymbol at resolved
  repeat' split at resolved
  all_goals cases resolved
  rfl

theorem exists_arguments {level : Level} {outer : List Level} {field : String}
    {operator : Operator} {tokens : List Token} {expression : Expression}
    (reads : State.Reads ⟨.arguments field operator, level, outer⟩ tokens expression) :
    ∃ (arguments : Arguments) (rest : List Token), tokens = arguments.tokens ++ rest ∧
      ∀ first others, arguments = .list first others → operator.takesList = true := by
  match tokens with
  | [] => cases reads
  | token :: after =>
      obtain ⟨next, stepped, onward⟩ := reads
      cases token with
      | word text => exact ⟨.lone (.word text), after, rfl, nofun⟩
      | quoted text => exact ⟨.lone (.quoted text), after, rfl, nofun⟩
      | opening =>
          simp only [State.step, State.takeArguments] at stepped
          split at stepped
          · rename_i takesList
            cases stepped
            obtain ⟨value, more, rfl, remaining⟩ := exists_value onward
            obtain ⟨others, rest, rfl⟩ := exists_tail remaining
            exact ⟨.list value others, rest, rfl, fun _ _ _ => takesList⟩
          · cases stepped
      | _ => cases stepped

theorem exists_leaf {level : Level} {outer : List Level} {field : String} {tokens : List Token}
    {expression : Expression}
    (reads : State.Reads ⟨.operator field, level, outer⟩ tokens expression) :
    ∃ (leaf : Leaf) (rest : List Token), .word field :: tokens = leaf.tokens ++ rest := by
  match tokens with
  | [] => cases reads
  | token :: after =>
      obtain ⟨next, stepped, onward⟩ := reads
      cases token with
      | operator symbol =>
          cases stepped
          obtain ⟨arguments, rest, split, takesList⟩ := exists_arguments onward
          refine ⟨⟨field, symbol, arguments, fun first others list =>
            takesList_ofSymbol_iff.mp (takesList first others list)⟩, rest, ?_⟩
          rw [split]
          rfl
      | _ => cases stepped

/-- Puts a constraint in front of the first alternative. -/
def Alternatives.consConstraint (constraint : Constraint) (separator : Separator .all) :
    Alternatives → Alternatives
  | .last only => .last (.more constraint separator only)
  | .more first next rest => .more (.more constraint separator first) next rest

theorem Alternatives.tokens_consConstraint (constraint : Constraint) (separator : Separator .all)
    (derivation : Alternatives) :
    (derivation.consConstraint constraint separator).tokens
      = constraint.tokens ++ separator.token :: derivation.tokens := by
  cases derivation with
  | last only => rfl
  | more first next rest =>
      simp only [consConstraint, Alternatives.tokens, Alternative.tokens, List.append_assoc,
        List.cons_append]

mutual

theorem exists_constraint {level : Level} {outer : List Level} {tokens : List Token}
    {expression : Expression}
    (reads : State.Reads ⟨.constraint, level, outer⟩ tokens expression) :
    ∃ (constraint : Constraint) (rest : List Token), tokens = constraint.tokens ++ rest := by
  match tokens with
  | [] => cases reads
  | token :: after =>
      obtain ⟨next, stepped, onward⟩ := reads
      cases token with
      | word field =>
          cases stepped
          obtain ⟨leaf, rest, split⟩ := exists_leaf onward
          exact ⟨.comparison leaf, rest, split⟩
      | opening =>
          cases stepped
          obtain ⟨inner, rest, split, ends⟩ := exists_alternatives onward
          obtain ⟨inside, leads, -⟩ := inner.leads [] (level :: outer)
          rw [split] at onward
          rcases ends with rfl | ⟨more, rfl⟩
          · cases leads.reads_iff.mp onward
          · exact ⟨.enclosed inner, more, by
              simp only [split, Constraint.tokens, List.cons_append, List.append_assoc,
                List.nil_append]⟩
      | _ => cases stepped
termination_by (tokens.length, 0)

/-- What can be read at the start of a level begins with alternatives, and these go up to the end of
the level. -/
theorem exists_alternatives {level : Level} {outer : List Level} {tokens : List Token}
    {expression : Expression}
    (reads : State.Reads ⟨.constraint, level, outer⟩ tokens expression) :
    ∃ (derivation : Alternatives) (rest : List Token), tokens = derivation.tokens ++ rest ∧
      (rest = [] ∨ ∃ more, rest = .closing :: more) := by
  obtain ⟨constraint, after, split⟩ := exists_constraint reads
  have onward := reads
  rw [split] at onward
  replace onward := (constraint.leads level outer).reads_iff.mp onward
  match after with
  | [] => exact ⟨.last (.last constraint), [], split, .inl rfl⟩
  | token :: more =>
      have shorter : more.length < tokens.length := by
        simp only [split, List.length_append, List.length_cons]
        omega
      obtain ⟨next, stepped, onward⟩ := onward
      by_cases conjunction : Separates .all token
      · rw [step_conjunction conjunction] at stepped
        cases stepped
        obtain ⟨derivation, rest, again, ends⟩ := exists_alternatives onward
        refine ⟨derivation.consConstraint constraint ⟨token, conjunction⟩, rest, ?_, ends⟩
        rw [Alternatives.tokens_consConstraint, split, again, List.append_assoc, List.cons_append]
      by_cases disjunction : Separates .any token
      · rw [step_disjunction disjunction] at stepped
        cases stepped
        obtain ⟨derivation, rest, again, ends⟩ := exists_alternatives onward
        refine ⟨.more (.last constraint) ⟨token, disjunction⟩ derivation, rest, ?_, ends⟩
        rw [Alternatives.tokens, Alternative.tokens, split, again, List.append_assoc,
          List.cons_append]
      · have unseparated : ∀ kind, ¬ Separates kind token := by
          intro kind
          cases kind
          · exact conjunction
          · exact disjunction
        obtain ⟨rfl, -⟩ := eq_closing_of_step unseparated stepped
        exact ⟨.last (.last constraint), .closing :: more, split, .inr ⟨more, rfl⟩⟩
termination_by (tokens.length, 1)

end

/-- Whatever is read from tokens has a derivation, and is its flat tree. -/
theorem exists_derivation {tokens : List Token} {expression : Expression}
    (reads : State.start.Reads tokens expression) :
    ∃ derivation : Alternatives, derivation.tokens = tokens ∧
      derivation.tree.flattened = expression := by
  obtain ⟨derivation, rest, split, ends⟩ := exists_alternatives reads
  obtain ⟨level, leads, -⟩ := derivation.leads [] []
  have onward := reads
  rw [split] at onward
  rcases ends with rfl | ⟨more, rfl⟩
  · rw [List.append_nil] at split
    exact ⟨derivation, split.symm, derivation.reads.unique (split ▸ reads)⟩
  · obtain ⟨next, stepped, -⟩ := leads.reads_iff.mp onward
    cases stepped

theorem Arguments.tail_inj {first second : List Value} {rest more : List Token}
    (same : tail first ++ rest = tail second ++ more) : first = second ∧ rest = more := by
  induction first generalizing second with
  | nil =>
      cases second with
      | nil => exact ⟨rfl, (List.cons.inj same).2⟩
      | cons value others => cases (List.cons.inj same).1
  | cons value others ih =>
      cases second with
      | nil => cases (List.cons.inj same).1
      | cons other values =>
          have inner := List.cons.inj (List.cons.inj same).2
          obtain ⟨rfl, ends⟩ := ih inner.2
          exact ⟨by rw [Value.token_inj inner.1], ends⟩

theorem Value.token_ne_opening (value : Value) : value.token ≠ .opening := by
  cases value <;> nofun

theorem Arguments.tokens_inj {first second : Arguments} {rest more : List Token}
    (same : first.tokens ++ rest = second.tokens ++ more) : first = second ∧ rest = more := by
  cases first with
  | lone value =>
      cases second with
      | lone other =>
          have inner := List.cons.inj same
          exact ⟨by rw [Value.token_inj inner.1], inner.2⟩
      | list other others => exact absurd (List.cons.inj same).1 value.token_ne_opening
  | list value values =>
      cases second with
      | lone other => exact absurd (List.cons.inj same).1.symm other.token_ne_opening
      | list other others =>
          have inner := List.cons.inj (List.cons.inj same).2
          obtain ⟨rfl, ends⟩ := tail_inj inner.2
          exact ⟨by rw [Value.token_inj inner.1], ends⟩

theorem Leaf.tokens_inj {first second : Leaf} {rest more : List Token}
    (same : first.tokens ++ rest = second.tokens ++ more) : first = second ∧ rest = more := by
  obtain ⟨field, symbol, arguments, listed⟩ := first
  obtain ⟨other, sign, given, allowed⟩ := second
  have words := List.cons.inj same
  have signs := List.cons.inj words.2
  cases words.1
  cases signs.1
  obtain ⟨rfl, ends⟩ := Arguments.tokens_inj signs.2
  exact ⟨rfl, ends⟩

/-- The tokens do not go on with a separator of a kind. -/
def Stops (kind : Junction) (tokens : List Token) : Prop :=
  ∀ token rest, tokens = token :: rest → ¬ Separates kind token

theorem stops_closing (kind : Junction) (rest : List Token) : Stops kind (.closing :: rest) := by
  rintro token more equal separates
  cases equal
  cases separates

theorem stops_disjunction (separator : Separator .any) (rest : List Token) :
    Stops .all (separator.token :: rest) := by
  rintro token more equal separates
  cases equal
  exact separates.unique separator.separates

theorem Stops.not_separator {kind : Junction} {tokens rest : List Token}
    (stops : Stops kind tokens) (separator : Separator kind)
    (equal : tokens = separator.token :: rest) : False :=
  stops separator.token rest equal separator.separates

theorem Separator.ext {kind : Junction} {first second : Separator kind}
    (same : first.token = second.token) : first = second := by
  cases first
  cases second
  cases same
  rfl

mutual

/-- Where no separator follows, the tokens say where a derivation ends and which one it is. -/
theorem Alternatives.tokens_inj : ∀ {first second : Alternatives} {rest more : List Token},
    (∀ kind, Stops kind rest) → (∀ kind, Stops kind more) →
    first.tokens ++ rest = second.tokens ++ more → first = second ∧ rest = more
  | .last only, .last other, rest, more, stops, ends, same => by
      obtain ⟨rfl, equal⟩ := Alternative.tokens_inj (stops .all) (ends .all) same
      exact ⟨rfl, equal⟩
  | .last only, .more other separator others, rest, more, stops, ends, same => by
      rw [Alternatives.tokens, Alternatives.tokens, List.append_assoc, List.cons_append] at same
      obtain ⟨-, equal⟩ :=
        Alternative.tokens_inj (stops .all) (stops_disjunction separator _) same
      exact ((stops .any).not_separator separator equal).elim
  | .more only separator others, .last other, rest, more, stops, ends, same => by
      rw [Alternatives.tokens, Alternatives.tokens, List.append_assoc, List.cons_append] at same
      obtain ⟨-, equal⟩ :=
        Alternative.tokens_inj (stops_disjunction separator _) (ends .all) same
      exact ((ends .any).not_separator separator equal.symm).elim
  | .more only separator others, .more other sign values, rest, more, stops, ends, same => by
      rw [Alternatives.tokens, Alternatives.tokens, List.append_assoc, List.cons_append,
        List.append_assoc, List.cons_append] at same
      obtain ⟨rfl, equal⟩ := Alternative.tokens_inj (stops_disjunction separator _)
        (stops_disjunction sign _) same
      obtain ⟨tokens, remaining⟩ := List.cons.inj equal
      obtain ⟨rfl, remainders⟩ := Alternatives.tokens_inj stops ends remaining
      exact ⟨by rw [Separator.ext tokens], remainders⟩

theorem Alternative.tokens_inj : ∀ {first second : Alternative} {rest more : List Token},
    Stops .all rest → Stops .all more →
    first.tokens ++ rest = second.tokens ++ more → first = second ∧ rest = more
  | .last only, .last other, rest, more, stops, ends, same => by
      obtain ⟨rfl, equal⟩ := Constraint.tokens_inj same
      exact ⟨rfl, equal⟩
  | .last only, .more other separator others, rest, more, stops, ends, same => by
      rw [Alternative.tokens, Alternative.tokens, List.append_assoc, List.cons_append] at same
      obtain ⟨-, equal⟩ := Constraint.tokens_inj same
      exact (stops.not_separator separator equal).elim
  | .more only separator others, .last other, rest, more, stops, ends, same => by
      rw [Alternative.tokens, Alternative.tokens, List.append_assoc, List.cons_append] at same
      obtain ⟨-, equal⟩ := Constraint.tokens_inj same
      exact (ends.not_separator separator equal.symm).elim
  | .more only separator others, .more other sign values, rest, more, stops, ends, same => by
      rw [Alternative.tokens, Alternative.tokens, List.append_assoc, List.cons_append,
        List.append_assoc, List.cons_append] at same
      obtain ⟨rfl, equal⟩ := Constraint.tokens_inj same
      obtain ⟨tokens, remaining⟩ := List.cons.inj equal
      obtain ⟨rfl, remainders⟩ := Alternative.tokens_inj stops ends remaining
      exact ⟨by rw [Separator.ext tokens], remainders⟩

/-- A constraint ends where its last parenthesis or its last argument does, whatever follows. -/
theorem Constraint.tokens_inj : ∀ {first second : Constraint} {rest more : List Token},
    first.tokens ++ rest = second.tokens ++ more → first = second ∧ rest = more
  | .enclosed inner, .enclosed other, rest, more, same => by
      simp only [Constraint.tokens, List.cons_append, List.append_assoc, List.nil_append,
        List.cons.injEq, true_and] at same
      obtain ⟨rfl, equal⟩ := Alternatives.tokens_inj (fun kind => stops_closing kind rest)
        (fun kind => stops_closing kind more) same
      exact ⟨rfl, (List.cons.inj equal).2⟩
  | .enclosed inner, .comparison other, rest, more, same => by cases (List.cons.inj same).1
  | .comparison leaf, .enclosed other, rest, more, same => by cases (List.cons.inj same).1
  | .comparison leaf, .comparison other, rest, more, same => by
      obtain ⟨rfl, equal⟩ := Leaf.tokens_inj same
      exact ⟨rfl, equal⟩

end

mutual

theorem Alternatives.parts_plain : ∀ derivation : Alternatives,
    derivation.plain.parts = derivation.parts
  | .last only => by simp only [Alternatives.plain, Alternatives.parts, only.parts_plain]
  | .more first separator rest => by
      simp only [Alternatives.plain, Alternatives.parts, first.parts_plain, rest.parts_plain]

theorem Alternative.parts_plain : ∀ derivation : Alternative,
    derivation.plain.parts = derivation.parts
  | .last only => by simp only [Alternative.plain, Alternative.parts, only.tree_plain]
  | .more first separator rest => by
      simp only [Alternative.plain, Alternative.parts, first.tree_plain, rest.parts_plain]

theorem Constraint.tree_plain : ∀ derivation : Constraint,
    derivation.plain.tree = derivation.tree
  | .enclosed inner => by simp only [Constraint.plain, Constraint.tree, inner.parts_plain]
  | .comparison leaf => rfl

end

end FacetSearch.Grammar
