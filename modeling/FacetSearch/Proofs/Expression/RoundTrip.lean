import FacetSearch.Proofs.Expression.Grammar
import FacetSearch.Proofs.Expression.Lexeme

/-!
Reading undoes writing. The text of an expression is read as its normal form (`parse_toText`), and
expressions that have been read are in normal form already.
-/

set_option autoImplicit false

namespace FacetSearch

open Token (Spells Scans Delimited IsNamed)
open Grammar (Value Arguments Leaf Alternatives Alternative Constraint)

/-- A comparison that has a text: a field that is a word, an operator with a symbol that reads as
this operator, and as many arguments as it takes. -/
structure Comparison.Writable (leaf : Comparison) : Prop where
  named : leaf.field.toList ≠ []
  plain : ∀ c ∈ leaf.field.toList, Text.isBlank c = false ∧
    c ∉ ['"', '\'', '(', ')', ';', ',', '=', '!', '<', '>']
  accepted : match leaf.operator with
    | .custom symbol =>
      (∃ letters, letters ≠ [] ∧ symbol.toList = '=' :: (letters ++ ['=']) ∧
        ∀ c ∈ letters, c.isAlpha = true) ∧
      symbol ∉ ["=in=", "=gt=", "=ge=", "=lt=", "=le="] ∧ leaf.arguments ≠ []
    | .oneOf => leaf.arguments ≠ []
    | _ => leaf.arguments.length = 1

namespace Operator

/-- The operator is read from its symbol, and the symbol can be taken from a text. -/
def Legible (operator : Operator) : Prop :=
  ofSymbol operator.symbol = operator ∧ (operator = .unequal ∨ IsNamed operator.symbol)

theorem legible_custom {symbol : String} {letters : List Char} (some : letters ≠ [])
    (spelled : symbol.toList = '=' :: (letters ++ ['='])) (alphabetic : ∀ c ∈ letters,
      c.isAlpha = true)
    (unnamed : symbol ∉ ["=in=", "=gt=", "=ge=", "=lt=", "=le="]) :
    (custom symbol).Legible := by
  refine ⟨?_, .inr ⟨letters, spelled, alphabetic⟩⟩
  have long : 3 ≤ symbol.toList.length := by
    have positive := List.length_pos_iff.mpr some
    simp only [spelled, List.length_cons, List.length_append, List.length_nil]
    omega
  have unlike : ∀ other : String, other.toList.length < 3 → symbol ≠ other := by
    rintro other short rfl
    omega
  simp only [List.mem_cons, List.not_mem_nil, or_false, not_or] at unnamed
  simp only [Operator.symbol, ofSymbol, unlike "==" (by decide), unlike "!=" (by decide),
    unlike ">" (by decide), unlike ">=" (by decide), unlike "<" (by decide),
    unlike "<=" (by decide), unnamed, or_self, ↓reduceIte]

theorem legible_of_writable {leaf : Comparison} (writable : leaf.Writable) :
    leaf.operator.Legible := by
  have accepted := writable.accepted
  cases operator : leaf.operator with
  | custom symbol =>
      rw [operator] at accepted
      obtain ⟨⟨letters, some, spelled, alphabetic⟩, unnamed, -⟩ := accepted
      exact legible_custom some spelled alphabetic unnamed
  | equal => exact ⟨rfl, .inr ⟨[], by decide, Text.forall_of_all (by decide)⟩⟩
  | unequal => exact ⟨rfl, .inl rfl⟩
  | oneOf => exact ⟨rfl, .inr ⟨['i', 'n'], by decide, Text.forall_of_all (by decide)⟩⟩
  | above => exact ⟨rfl, .inr ⟨['g', 't'], by decide, Text.forall_of_all (by decide)⟩⟩
  | atLeast => exact ⟨rfl, .inr ⟨['g', 'e'], by decide, Text.forall_of_all (by decide)⟩⟩
  | below => exact ⟨rfl, .inr ⟨['l', 't'], by decide, Text.forall_of_all (by decide)⟩⟩
  | atMost => exact ⟨rfl, .inr ⟨['l', 'e'], by decide, Text.forall_of_all (by decide)⟩⟩

theorem Legible.scans {operator : Operator} (legible : operator.Legible) {rest : List Char}
    {more : List Token} (onward : Scans rest more) :
    Scans (operator.symbol.toList ++ rest) (.operator operator.symbol :: more) := by
  rcases legible.2 with rfl | named
  · exact Scans.unequal onward
  · exact Scans.named named onward

end Operator

namespace Expression

theorem isWordChar_of_not_needsQuotes {c : Char} (plain : needsQuotes c = false) :
    Token.isWordChar c = true := by
  simp only [needsQuotes, List.contains_cons, List.contains_nil, Bool.or_eq_false_iff] at plain
  simp only [Token.isWordChar, Token.isReserved, List.contains_cons, List.contains_nil, plain,
    Bool.or_self, Bool.not_false, Bool.and_self]

theorem spells_argument (value : String) : ∃ argument : Value, argument.text = value ∧
    Spells (writeArgument value).toList [argument.token] := by
  unfold writeArgument
  split
  · refine ⟨.quoted value, rfl, fun rest more ends onward => ?_⟩
    have scans := Scans.quoted value.toList onward
    rw [String.ofList_toList] at scans
    rw [String.toList_ofList]
    exact scans
  · rename_i plain
    refine ⟨.word value, rfl, fun rest more ends onward => ?_⟩
    simp only [Bool.or_eq_true, not_or, Bool.not_eq_true, List.any_eq_false] at plain
    have named : value.toList ≠ [] := by
      rw [Ne, String.toList_eq_nil_iff, ← String.isEmpty_iff, plain.1]
      exact Bool.false_ne_true
    have scans := Scans.word named (fun c member =>
      isWordChar_of_not_needsQuotes (by simpa using plain.2 c member)) ends onward
    rwa [String.ofList_toList] at scans

/-- The arguments of a list up to its closing parenthesis. -/
theorem spells_list (first : String) (others : List String) :
    ∃ (argument : Value) (arguments : List Value),
      argument.text :: arguments.map Value.text = first :: others ∧
      Spells ((",".intercalate ((first :: others).map writeArgument)).toList ++ [')'])
        (argument.token :: Arguments.tail arguments) := by
  induction others generalizing first with
  | nil =>
      obtain ⟨argument, rfl, spells⟩ := spells_argument first
      refine ⟨argument, [], rfl, ?_⟩
      rw [List.map_singleton, String.intercalate_singleton]
      exact spells.closed
  | cons second rest ih =>
      obtain ⟨argument, rfl, spells⟩ := spells_argument first
      obtain ⟨next, arguments, texts, onward⟩ := ih second
      refine ⟨argument, next :: arguments, by rw [List.map_cons, texts], ?_⟩
      rw [List.map_cons, List.map_cons, String.intercalate_cons_cons, ← List.map_cons,
        String.toList_append, String.toList_append, List.append_assoc, List.append_assoc]
      exact spells.append onward.comma fun rest _ => Token.delimited_cons (by decide) _

/-- An operator and what stands for its arguments. -/
theorem spells_operator {operator : Operator} (legible : operator.Legible) {text : List Char}
    {tokens : List Token} (spells : Spells text tokens) :
    Spells (operator.symbol.toList ++ text) (.operator operator.symbol :: tokens) := by
  intro rest more ends onward
  rw [List.append_assoc]
  exact legible.scans (spells rest more ends onward)

theorem delimited_operator {operator : Operator} (legible : operator.Legible)
    (rest : List Char) : Delimited (operator.symbol.toList ++ rest) := by
  rcases legible.2 with rfl | ⟨letters, spelled, -⟩
  · exact Token.delimited_cons (by decide) _
  · rw [spelled]
    exact Token.delimited_cons (by decide) _

theorem spells_field {leaf : Comparison} (writable : leaf.Writable) :
    Spells leaf.field.toList [.word leaf.field] := by
  intro rest more ends onward
  have scans := Scans.word writable.named (fun c member => ?_) ends onward
  · rwa [String.ofList_toList] at scans
  · have plain := writable.plain c member
    exact Token.isWordChar_iff.mpr ⟨plain.1, by simpa [Token.isReserved] using plain.2⟩

/-- A field, an operator and the text of the arguments. -/
theorem spells_leaf {leaf : Comparison} (writable : leaf.Writable) (arguments : Arguments)
    (values : arguments.values = leaf.arguments)
    (takesList : ∀ first others, arguments = .list first others →
      leaf.operator.takesList = true)
    {text : List Char} (spells : Spells text arguments.tokens) :
    ∃ derivation : Leaf, derivation.comparison = leaf ∧
      Spells (leaf.field.toList ++ (leaf.operator.symbol.toList ++ text)) derivation.tokens := by
  have legible := Operator.legible_of_writable writable
  obtain ⟨name, operator, given⟩ := leaf
  have resolved : Operator.ofSymbol operator.symbol = operator := legible.1
  refine ⟨⟨name, operator.symbol, arguments, fun first others list => ?_⟩, ?_, ?_⟩
  · rw [← Grammar.takesList_ofSymbol_iff, resolved]
    exact takesList first others list
  · simp only [Leaf.comparison_eq, resolved, values]
  · refine (spells_field writable).append (spells_operator legible spells) fun rest _ => ?_
    rw [List.append_assoc]
    exact delimited_operator legible _

/-- The text of a comparison has the tokens of a derivation of this comparison. -/
theorem spells_comparison {leaf : Comparison} (writable : leaf.Writable) :
    ∃ derivation : Leaf, derivation.comparison = leaf ∧
      Spells (writeComparison leaf).toList derivation.tokens := by
  have accepted := writable.accepted
  obtain ⟨name, operator, arguments⟩ := leaf
  match arguments with
  | [] =>
      cases operator with
      | custom symbol => exact absurd rfl accepted.2.2
      | oneOf => exact absurd rfl accepted
      | _ => cases accepted
  | [only] =>
      by_cases named : operator = .oneOf
      · subst named
        obtain ⟨argument, others, texts, spells⟩ := spells_list only []
        obtain ⟨derivation, same, written⟩ := spells_leaf writable
          (.list argument others) texts (fun _ _ _ => rfl) spells.opening
        exact ⟨derivation, same, by simpa [writeComparison] using written⟩
      · obtain ⟨argument, rfl, spells⟩ := spells_argument only
        obtain ⟨derivation, same, written⟩ := spells_leaf writable
          (.lone argument) rfl nofun spells
        exact ⟨derivation, same, by simpa [writeComparison, named] using written⟩
  | first :: second :: rest =>
      have takesList : operator.takesList = true := by
        cases operator with
        | custom symbol => rfl
        | oneOf => rfl
        | _ =>
            simp only [List.length_cons] at accepted
            omega
      obtain ⟨argument, others, texts, spells⟩ := spells_list first (second :: rest)
      obtain ⟨derivation, same, written⟩ := spells_leaf writable
        (.list argument others) texts (fun _ _ _ => takesList) spells.opening
      exact ⟨derivation, same, by simpa [writeComparison] using written⟩

/-- The text brings the reader from the start of a constraint behind several of them. -/
def Continues (text : List Char) (constraints : List Expression) : Prop :=
  ∃ tokens, Spells text tokens ∧ ∀ (level : Level) (outer : List Level),
    State.Leads ⟨.constraint, level, outer⟩ tokens
      ⟨.junction, ⟨level.alternatives, level.constraints ++ constraints⟩, outer⟩

/-- The text brings the reader from the start of an alternative behind several of them. -/
def Alternates (text : List Char) (alternatives : List Expression) : Prop :=
  ∃ tokens, Spells text tokens ∧ ∀ (before : List Expression) (outer : List Level),
    ∃ level : Level, State.Leads ⟨.constraint, ⟨before, []⟩, outer⟩ tokens
      ⟨.junction, level, outer⟩ ∧ level.close = anyOf (before ++ alternatives)

theorem Continues.semicolon {front back : List Char} {first second : List Expression}
    (one : Continues front first) (other : Continues back second) :
    Continues (front ++ ';' :: back) (first ++ second) := by
  obtain ⟨tokens, spells, leads⟩ := one
  obtain ⟨more, spelled, onward⟩ := other
  refine ⟨tokens ++ .semicolon :: more, spells.append spelled.semicolon
    fun rest _ => Token.delimited_cons (by decide) _, fun level outer => ?_⟩
  have continued := onward ⟨level.alternatives, level.constraints ++ first⟩ outer
  rw [List.append_assoc] at continued
  exact (leads level outer).trans (.step _ (Grammar.step_conjunction .semicolon) continued)

theorem Continues.alternates {text : List Char} {constraints : List Expression}
    (continues : Continues text constraints) : Alternates text [allOf constraints] := by
  obtain ⟨tokens, spells, leads⟩ := continues
  exact ⟨tokens, spells, fun before outer => ⟨_, leads ⟨before, []⟩ outer, rfl⟩⟩

theorem Alternates.comma {front back : List Char} {constraints alternatives : List Expression}
    (one : Continues front constraints) (other : Alternates back alternatives) :
    Alternates (front ++ ',' :: back) (allOf constraints :: alternatives) := by
  obtain ⟨tokens, spells, leads⟩ := one
  obtain ⟨more, spelled, onward⟩ := other
  refine ⟨tokens ++ .comma :: more, spells.append spelled.comma
    fun rest _ => Token.delimited_cons (by decide) _, fun before outer => ?_⟩
  obtain ⟨level, continued, closed⟩ := onward (before ++ [allOf constraints]) outer
  rw [List.append_assoc, List.singleton_append] at closed
  exact ⟨level, (leads ⟨before, []⟩ outer).trans
    (.step _ (Grammar.step_disjunction .comma) continued), closed⟩

/-- Alternatives in parentheses are one constraint. -/
theorem Alternates.enclosed {text : List Char} {alternatives : List Expression}
    (alternates : Alternates text alternatives) :
    Continues ('(' :: (text ++ [')'])) [anyOf alternatives] := by
  obtain ⟨tokens, spells, leads⟩ := alternates
  refine ⟨.opening :: (tokens ++ [.closing]), spells.closed.opening, fun level outer => ?_⟩
  obtain ⟨inside, onward, closed⟩ := leads [] (level :: outer)
  rw [List.nil_append] at closed
  rw [← closed]
  exact .step ⟨.constraint, .start, level :: outer⟩ rfl
    (onward.trans (.single (Grammar.step_closing inside level outer)))

theorem Alternates.parse {text : String} {alternatives : List Expression}
    (alternates : Alternates text.toList alternatives) :
    parse text = .ok (some (anyOf alternatives)) := by
  obtain ⟨tokens, spells, leads⟩ := alternates
  obtain ⟨level, onward, closed⟩ := leads [] []
  refine (parse_eq_some_iff text _).mpr ⟨tokens, Token.tokenize_of_scans spells.scans, ?_⟩
  rw [List.nil_append] at closed
  rw [← List.append_nil tokens, ← closed]
  exact onward.reads_iff.mpr rfl

theorem writeParts_eq (parts : List Expression) : writeParts parts = parts.map (write true) := by
  induction parts with
  | nil => rfl
  | cons part rest ih => rw [writeParts, ih, List.map_cons]

/-- Constraints joined by semicolons. -/
theorem continues_all {parts : List Expression} (inhabited : parts ≠ [])
    (each : ∀ part ∈ parts, Continues (part.write true).toList part.flattened.conjuncts) :
    Continues (";".intercalate (parts.map (write true))).toList
      (parts.flatMap fun part => part.flattened.conjuncts) := by
  induction parts with
  | nil => exact absurd rfl inhabited
  | cons part rest ih =>
      have here := each part List.mem_cons_self
      cases rest with
      | nil =>
          rw [List.map_singleton, String.intercalate_singleton, List.flatMap_singleton]
          exact here
      | cons next others =>
          have onward := ih (List.cons_ne_nil _ _) fun other member =>
            each other (List.mem_cons_of_mem _ member)
          rw [List.map_cons, List.map_cons, String.intercalate_cons_cons, ← List.map_cons,
            String.toList_append, String.toList_append, List.append_assoc, List.flatMap_cons]
          exact here.semicolon onward

/-- Alternatives joined by commas. -/
theorem alternates_any {parts : List Expression} (inhabited : parts ≠ [])
    (flat : ∀ part ∈ parts, part.flattened.IsFlat)
    (each : ∀ part ∈ parts, Continues (part.write true).toList part.flattened.conjuncts) :
    Alternates (",".intercalate (parts.map (write true))).toList (parts.map flattened) := by
  induction parts with
  | nil => exact absurd rfl inhabited
  | cons part rest ih =>
      have here := each part List.mem_cons_self
      have joined := (flat part List.mem_cons_self).allOf_conjuncts
      cases rest with
      | nil =>
          rw [List.map_singleton, String.intercalate_singleton, List.map_singleton, ← joined]
          exact here.alternates
      | cons next others =>
          have onward := ih (List.cons_ne_nil _ _)
            (fun other member => flat other (List.mem_cons_of_mem _ member))
            (fun other member => each other (List.mem_cons_of_mem _ member))
          rw [List.map_cons, List.map_cons, String.intercalate_cons_cons, ← List.map_cons,
            String.toList_append, String.toList_append, List.append_assoc,
            List.map_cons (f := flattened), ← joined]
          exact Alternates.comma here onward

/-- Below another node, an expression is written as the constraints it adds there. -/
theorem continues_write {expression : Expression}
    (writable : expression.Populated Comparison.Writable) :
    Continues (expression.write true).toList expression.flattened.conjuncts := by
  induction writable with
  | @comparison leaf holds =>
      obtain ⟨derivation, same, spells⟩ := spells_comparison holds
      refine ⟨derivation.tokens, spells, fun level outer => ?_⟩
      rw [← same]
      exact derivation.leads level outer
  | @node kind inner inhabited each ih =>
      have flat := fun part member => isFlat_flattened (each part member)
      cases kind with
      | all =>
          have parts : (Expression.all inner).flattened.conjuncts
              = inner.flatMap fun part => part.flattened.conjuncts :=
            parts_flattened_node .all flat
          have continued := continues_all inhabited ih
          rw [← writeParts_eq, ← parts] at continued
          exact continued
      | any =>
          have alternated := alternates_any inhabited flat ih
          rw [← writeParts_eq] at alternated
          simp only [Junction.node, write, Bool.true_and, decide_eq_true_eq]
          split
          · rename_i several
            have kept : ∃ others, (Expression.any inner).flattened = .any others :=
              flattened_node_of_several .any several flat
            have lone : (Expression.any inner).flattened.conjuncts
                = [(Expression.any inner).flattened] := by
              obtain ⟨others, kept⟩ := kept
              rw [kept]
              rfl
            rw [lone, ← anyOf_map_flattened]
            simpa using alternated.enclosed
          · rename_i lone
            match inner with
            | [] => exact absurd rfl inhabited
            | [only] =>
                have same := flattened_lone .any (flat only List.mem_cons_self)
                have here := ih only List.mem_cons_self
                rw [← same] at here
                rwa [writeParts_eq, List.map_singleton, String.intercalate_singleton]
            | first :: second :: rest =>
                simp only [List.length_cons] at lone
                omega

/-- The text of an expression is read as its normal form. -/
theorem parse_write {expression : Expression}
    (writable : expression.Populated Comparison.Writable) :
    parse expression.toText = .ok (some expression.flattened) := by
  have flat := isFlat_flattened writable
  have continued := continues_write writable
  by_cases like : ∃ inner, expression = .any inner
  · obtain ⟨inner, rfl⟩ := like
    have parts := Populated.of_node .any writable
    have alternated :=
      alternates_any parts.1 (fun part member => isFlat_flattened (parts.2 part member))
      (fun part member => continues_write (parts.2 part member))
    rw [← writeParts_eq] at alternated
    rw [← anyOf_map_flattened]
    exact alternated.parse
  · have outermost : expression.toText = expression.write true := by
      cases expression with
      | any inner => exact absurd ⟨inner, rfl⟩ like
      | _ => rfl
    have alternated := continued.alternates
    rw [flat.allOf_conjuncts, ← outermost] at alternated
    rw [alternated.parse, flat.anyOf_singleton]

end Expression

namespace Grammar

theorem accepted_of_operator {symbol : String} {arguments : Arguments}
    (formed : (Token.operator symbol).WellFormed)
    (takesList : ∀ first others, arguments = .list first others →
      (Operator.ofSymbol symbol).takesList = true) :
    match Operator.ofSymbol symbol with
    | .custom symbol =>
      (∃ letters, letters ≠ [] ∧ symbol.toList = '=' :: (letters ++ ['=']) ∧
        ∀ c ∈ letters, c.isAlpha = true) ∧
      symbol ∉ ["=in=", "=gt=", "=ge=", "=lt=", "=le="] ∧ arguments.values ≠ []
    | .oneOf => arguments.values ≠ []
    | _ => arguments.values.length = 1 := by
  have some : arguments.values ≠ [] := by
    cases arguments <;> exact List.cons_ne_nil _ _
  cases resolved : Operator.ofSymbol symbol with
  | custom other =>
      obtain rfl := eq_of_ofSymbol_eq_custom resolved
      rcases formed with sign | ⟨letters, spelled, alphabetic⟩
      · simp only [List.mem_cons, List.not_mem_nil, or_false] at sign
        rcases sign with rfl | rfl | rfl | rfl | rfl <;> cases resolved
      · refine ⟨⟨letters, ?_, spelled, alphabetic⟩, fun named => ?_, some⟩
        · rintro rfl
          obtain rfl : other = "==" := String.toList_inj.mp spelled
          cases resolved
        · simp only [List.mem_cons, List.not_mem_nil, or_false] at named
          rcases named with rfl | rfl | rfl | rfl | rfl <;> cases resolved
  | oneOf => exact some
  | _ =>
      cases arguments with
      | lone value => rfl
      | list first others =>
          rw [resolved] at takesList
          cases takesList first others rfl

theorem Leaf.writable {leaf : Leaf} (formed : ∀ token ∈ leaf.tokens, token.WellFormed) :
    leaf.comparison.Writable := by
  rw [leaf.comparison_eq]
  have field := formed (.word leaf.selector) List.mem_cons_self
  have operator := formed (.operator leaf.symbol) (List.mem_cons_of_mem _ List.mem_cons_self)
  refine ⟨field.1, fun c member => ?_, accepted_of_operator operator fun _ _ => leaf.takesList⟩
  have plain := Token.isWordChar_iff.mp (field.2 c member)
  exact ⟨plain.1, by simpa [Token.isReserved] using plain.2⟩

mutual

theorem Alternatives.populated : ∀ derivation : Alternatives,
    (∀ token ∈ derivation.tokens, token.WellFormed) →
    ∀ part ∈ derivation.parts, part.Populated Comparison.Writable
  | .last only, formed, part, member => by
      rw [List.mem_singleton.mp member]
      exact .node .all only.parts_ne_nil (only.populated formed)
  | .more first separator rest, formed, part, member => by
      rcases List.mem_cons.mp member with rfl | member
      · exact .node .all first.parts_ne_nil (first.populated fun token inside =>
          formed token (List.mem_append_left _ inside))
      · exact rest.populated (fun token inside =>
          formed token (List.mem_append_right _ (List.mem_cons_of_mem _ inside))) part member

theorem Alternative.populated : ∀ derivation : Alternative,
    (∀ token ∈ derivation.tokens, token.WellFormed) →
    ∀ part ∈ derivation.parts, part.Populated Comparison.Writable
  | .last only, formed, part, member => by
      rw [List.mem_singleton.mp member]
      exact only.populated formed
  | .more first separator rest, formed, part, member => by
      rcases List.mem_cons.mp member with rfl | member
      · exact first.populated fun token inside => formed token (List.mem_append_left _ inside)
      · exact rest.populated (fun token inside =>
          formed token (List.mem_append_right _ (List.mem_cons_of_mem _ inside))) part member

theorem Constraint.populated : ∀ derivation : Constraint,
    (∀ token ∈ derivation.tokens, token.WellFormed) →
    derivation.tree.Populated Comparison.Writable
  | .enclosed inner, formed =>
      .node .any inner.parts_ne_nil (inner.populated fun token inside =>
        formed token (List.mem_cons_of_mem _ (List.mem_append_left _ inside)))
  | .comparison leaf, formed => .comparison (leaf.writable formed)

end

end Grammar

namespace Expression

/-- Every expression that is read has a text and is in normal form. -/
theorem writable_of_parse {input : String} {expression : Expression}
    (parsed : parse input = .ok (some expression)) :
    expression.Populated Comparison.Writable ∧ expression.IsFlat := by
  obtain ⟨tokens, tokenized, reads⟩ := (parse_eq_some_iff input expression).mp parsed
  obtain ⟨located, scanned, rfl⟩ := (tokenize_eq_ok_iff input tokens).mp tokenized
  obtain ⟨derivation, yield, rfl⟩ := Grammar.exists_derivation reads
  have formed := Token.wellFormed_of_scan scanned
  rw [← yield] at formed
  have populated : derivation.tree.Populated Comparison.Writable :=
    .node .any derivation.parts_ne_nil (derivation.populated formed)
  exact ⟨populated.flattened, isFlat_flattened populated⟩

/-- Reading undoes writing: an expression is read from its text with nested nodes of the same kind
merged and lone parts in the place of their nodes, which leaves nothing that has been read to
change. -/
theorem parse_toText :
    (∀ expression : Expression, expression.Populated Comparison.Writable →
      expression.flattened.IsFlat ∧
      parse expression.toText = .ok (some expression.flattened)) ∧
    (∀ (input : String) (expression : Expression), parse input = .ok (some expression) →
      parse expression.toText = .ok (some expression)) := by
  refine ⟨fun expression writable => ⟨isFlat_flattened writable, parse_write writable⟩,
    fun input expression parsed => ?_⟩
  obtain ⟨writable, flat⟩ := writable_of_parse parsed
  have again := parse_write writable
  rwa [flattened_of_isFlat flat] at again

/-- A disjunction inside a conjunction of one part, fields and arguments that are keywords, and a
text whose parentheses are not needed. -/
theorem parse_toText_nested :
    (Expression.any [.all [.any [.comparison ⟨"or", .equal, ["a, \"b\""]⟩,
      .comparison ⟨"and", .custom "=near=", ["", "or"]⟩]],
      .comparison ⟨"x", .oneOf, ["1"]⟩]).Populated Comparison.Writable ∧
    parse (Expression.any [.all [.any [.comparison ⟨"or", .equal, ["a, \"b\""]⟩,
      .comparison ⟨"and", .custom "=near=", ["", "or"]⟩]],
      .comparison ⟨"x", .oneOf, ["1"]⟩]).toText = .ok (some (.any [
        .comparison ⟨"or", .equal, ["a, \"b\""]⟩,
        .comparison ⟨"and", .custom "=near=", ["", "or"]⟩,
        .comparison ⟨"x", .oneOf, ["1"]⟩])) ∧
    parse "a==1 AND (b==2;c=in=x)" = .ok (some (.all [.comparison ⟨"a", .equal, ["1"]⟩,
      .comparison ⟨"b", .equal, ["2"]⟩, .comparison ⟨"c", .oneOf, ["x"]⟩])) ∧
    parse (Expression.all [.comparison ⟨"a", .equal, ["1"]⟩,
      .comparison ⟨"b", .equal, ["2"]⟩, .comparison ⟨"c", .oneOf, ["x"]⟩]).toText
        = .ok (some (.all [
        .comparison ⟨"a", .equal, ["1"]⟩, .comparison ⟨"b", .equal, ["2"]⟩,
        .comparison ⟨"c", .oneOf, ["x"]⟩])) := by
  have quoted : Comparison.Writable ⟨"or", .equal, ["a, \"b\""]⟩ :=
    ⟨by decide, Text.forall_of_all (by decide), rfl⟩
  have custom : Comparison.Writable ⟨"and", .custom "=near=", ["", "or"]⟩ :=
    ⟨by decide, Text.forall_of_all (by decide), ⟨['n', 'e', 'a', 'r'], by decide, by decide,
      Text.forall_of_all (by decide)⟩, by decide, by decide⟩
  have listed : Comparison.Writable ⟨"x", .oneOf, ["1"]⟩ :=
    ⟨by decide, Text.forall_of_all (by decide), by decide⟩
  have inner : (Expression.all [.any [.comparison ⟨"or", .equal, ["a, \"b\""]⟩,
      .comparison ⟨"and", .custom "=near=", ["", "or"]⟩]]).Populated Comparison.Writable := by
    refine .node .all (by decide) fun part member => ?_
    rw [List.mem_singleton.mp member]
    refine .node .any (by decide) fun part member => ?_
    rcases List.mem_cons.mp member with rfl | member
    · exact .comparison quoted
    · rw [List.mem_singleton.mp member]
      exact .comparison custom
  have writable : (Expression.any [.all [.any [.comparison ⟨"or", .equal, ["a, \"b\""]⟩,
      .comparison ⟨"and", .custom "=near=", ["", "or"]⟩]],
      .comparison ⟨"x", .oneOf, ["1"]⟩]).Populated Comparison.Writable := by
    refine .node .any (by decide) fun part member => ?_
    rcases List.mem_cons.mp member with rfl | member
    · exact inner
    · rw [List.mem_singleton.mp member]
      exact .comparison listed
  have parsed : parse "a==1 AND (b==2;c=in=x)" = .ok (some (.all [
      .comparison ⟨"a", .equal, ["1"]⟩, .comparison ⟨"b", .equal, ["2"]⟩,
      .comparison ⟨"c", .oneOf, ["x"]⟩])) := by cbv
  exact ⟨writable, (parse_toText.1 _ writable).2, parsed, parse_toText.2 _ _ parsed⟩

end Expression

end FacetSearch
