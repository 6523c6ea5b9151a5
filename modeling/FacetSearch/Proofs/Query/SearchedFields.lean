import FacetSearch.Proofs.Query.Expansion

/-!
The fields that a compiled query lists are the ones that its text searches (`fields_compile`). A
comparison makes a clause for every field that its name stands for, or none where it says nothing.
The clauses that are made stand in the query one behind the other; what says nothing leaves neither
text nor field behind, and a query without clauses is no query.
-/

set_option autoImplicit false

namespace FacetSearch

namespace Text

/-- Texts stand in a text one behind the other. -/
def InOrder : List (List Char) → List Char → Prop
  | [], _ => True
  | part :: rest, text => ∃ before after, text = before ++ part ++ after ∧ InOrder rest after

theorem InOrder.before {parts : List (List Char)} {text : List Char} (inOrder : InOrder parts text)
    (front : List Char) : InOrder parts (front ++ text) := by
  cases parts with
  | nil => trivial
  | cons part rest =>
      obtain ⟨before, after, rfl, onward⟩ := inOrder
      exact ⟨front ++ before, after, by simp only [List.append_assoc], onward⟩

theorem InOrder.append {first second : List (List Char)} {front back : List Char}
    (one : InOrder first front) (other : InOrder second back) :
    InOrder (first ++ second) (front ++ back) := by
  induction first generalizing front with
  | nil => exact other.before front
  | cons part rest ih =>
      obtain ⟨before, after, rfl, onward⟩ := one
      exact ⟨before, after ++ back, by simp only [List.append_assoc], ih onward⟩

theorem InOrder.behind {parts : List (List Char)} {text : List Char} (inOrder : InOrder parts text)
    (back : List Char) : InOrder parts (text ++ back) := by
  simpa using inOrder.append (show InOrder [] back from trivial)

theorem inOrder_singleton (text : List Char) : InOrder [text] text :=
  ⟨[], [], by simp, trivial⟩

/-- What stands in parts stands in their join, whatever joins them. -/
theorem inOrder_intercalate {α : Type} (word : List Char) {parts : List α}
    {inside : α → List (List Char)} {text : α → List Char}
    (each : ∀ part ∈ parts, InOrder (inside part) (text part)) :
    InOrder (parts.flatMap inside) (word.intercalate (parts.map text)) := by
  induction parts with
  | nil => trivial
  | cons part rest ih =>
      have head := each part List.mem_cons_self
      have tail := ih fun other member => each other (List.mem_cons_of_mem _ member)
      cases rest with
      | nil => simpa using head
      | cons next others =>
          rw [List.flatMap_cons, List.map_cons, List.map_cons, List.intercalate_cons_cons,
            ← List.map_cons]
          exact (head.behind word).append tail

theorem InOrder.ne_nil {parts : List (List Char)} {text : List Char} (inOrder : InOrder parts text)
    (some : parts ≠ []) (visible : ∀ part ∈ parts, part ≠ []) : text ≠ [] := by
  cases parts with
  | nil => exact absurd rfl some
  | cons part rest =>
      obtain ⟨before, after, rfl, -⟩ := inOrder
      have shown := visible part List.mem_cons_self
      simp [shown]

end Text

theorem Clause.write_ne_empty (field : FieldDescriptor) (clause : Clause) :
    clause.write field ≠ "" := by
  intro empty
  have chars := congrArg String.toList empty
  cases clause <;> simp [write] at chars

namespace Query

mutual

/-- The clauses of a query with their fields, from left to right. -/
def clauses : Query → List (FieldDescriptor × Clause)
  | clause field body => [(field, body)]
  | all parts | any parts | group parts => clausesOfParts parts

/-- The clauses of all parts. -/
def clausesOfParts : List Query → List (FieldDescriptor × Clause)
  | [] => []
  | part :: rest => part.clauses ++ clausesOfParts rest

end

theorem clausesOfParts_eq (parts : List Query) : clausesOfParts parts = parts.flatMap clauses := by
  induction parts with
  | nil => rfl
  | cons part rest ih => rw [clausesOfParts, ih, List.flatMap_cons]

theorem clauses_query (kind : Junction) (parts : List Query) :
    (kind.query parts).clauses = clausesOfParts parts := by
  cases kind <;> rfl

/-- Induction over the parts of queries. -/
theorem inductionOnParts {motive : Query → Prop}
    (clause : ∀ field body, motive (.clause field body))
    (node : ∀ (kind : Junction) parts, (∀ part ∈ parts, motive part) →
      motive (kind.query parts)) (group : ∀ parts, (∀ part ∈ parts, motive part) →
        motive (.group parts)) (query : Query) :
    motive query := by
  refine Query.rec (motive_1 := motive) (motive_2 := fun parts => ∀ part ∈ parts, motive part)
    clause (node .all) (node .any) group ?_ ?_ query
  · exact nofun
  · intro first rest head tail part member
    rcases List.mem_cons.mp member with rfl | member
    · exact head
    · exact tail part member

/-- The fields of a query are the fields of its clauses. -/
theorem fieldNames_eq (query : Query) :
    query.fieldNames = query.clauses.map fun clause => clause.1.boostedName := by
  induction query using inductionOnParts with
  | clause field body => rfl
  | node kind parts ih =>
      have below : parts.flatMap fieldNames
          = (parts.flatMap clauses).map fun clause => clause.1.boostedName := by
        rw [List.map_flatMap]
        exact List.flatMap_congr ih
      rw [clauses_query, clausesOfParts_eq, ← below, ← fieldNamesOfParts_eq]
      cases kind <;> rfl
  | group parts ih =>
      rw [fieldNames, clauses, fieldNamesOfParts_eq, clausesOfParts_eq, List.map_flatMap]
      exact List.flatMap_congr ih

/-- The text of a clause on its field. -/
def clauseText (clause : FieldDescriptor × Clause) : List Char := (clause.2.write clause.1).toList

/-- The clauses of a query stand in its text one behind the other, wherever the query stands. -/
theorem inOrder_write (query : Query) (place : Place) :
    Text.InOrder (query.clauses.map clauseText) (query.write place).toList := by
  induction query using inductionOnParts generalizing place with
  | clause field body => exact Text.inOrder_singleton _
  | node kind parts ih =>
      have joined : Text.InOrder ((kind.query parts).clauses.map clauseText)
          (kind.word.intercalate (parts.map fun part => (part.write kind.place).toList)) := by
        rw [clauses_query, clausesOfParts_eq, List.map_flatMap]
        exact Text.inOrder_intercalate kind.word fun part member => ih part member kind.place
      rw [toList_write_query]
      split
      · exact (joined.behind [')']).before ['(']
      · exact joined
  | group parts ih =>
      have joined : Text.InOrder ((group parts).clauses.map clauseText)
          (" OR ".toList.intercalate (parts.map fun part => (part.write .inAny).toList)) := by
        rw [clauses, clausesOfParts_eq, List.map_flatMap]
        exact Text.inOrder_intercalate _ fun part member => ih part member .inAny
      rw [write, writeParts_eq, String.toList_append, String.toList_append,
        String.toList_intercalate, List.map_map]
      exact (joined.before "(".toList).behind ")".toList

/-- A query with a clause has a text, in which that clause stands. -/
theorem write_ne_empty_of_clauses {query : Query} (some : query.clauses ≠ []) (place : Place) :
    query.write place ≠ "" := by
  intro empty
  have visible : ∀ text ∈ query.clauses.map clauseText, text ≠ [] := by
    rintro text member rfl
    obtain ⟨clause, -, blank⟩ := List.mem_map.mp member
    exact clause.2.write_ne_empty clause.1 (String.toList_inj.mp blank)
  exact (query.inOrder_write place).ne_nil (by simpa using some) visible
    (congrArg String.toList empty)

/-- Queries hold exactly the given clauses, and none of them is without a clause. -/
structure Hold (queries : List Query) (held : List (FieldDescriptor × Clause)) : Prop where
  clauses : clausesOfParts queries = held
  inhabited : ∀ query ∈ queries, query.clauses ≠ []

theorem hold_nil : Hold [] [] := ⟨rfl, nofun⟩

theorem Hold.append {first second : List Query} {held others : List (FieldDescriptor × Clause)}
    (one : Hold first held) (other : Hold second others) :
    Hold (first ++ second) (held ++ others) where
  clauses := by
    rw [clausesOfParts_eq, List.flatMap_append, ← clausesOfParts_eq,
      ← clausesOfParts_eq, one.clauses, other.clauses]
  inhabited query member :=
    (List.mem_append.mp member).elim (one.inhabited query) (other.inhabited query)

/-- A node or a group around queries holds what they hold; around no queries there is none. -/
theorem Hold.enclose? {parts : List Query} {held : List (FieldDescriptor × Clause)}
    (hold : Hold parts held) {make : List Query → Query}
    (same : ∀ parts, (make parts).clauses = clausesOfParts parts) :
    Hold (Compiling.enclose? make parts).toList held := by
  cases parts with
  | nil => exact hold
  | cons first rest =>
      refine ⟨?_, ?_⟩
      · show clausesOfParts [make (first :: rest)] = held
        rw [clausesOfParts, clausesOfParts, List.append_nil, same, hold.clauses]
      · intro query member
        rw [show query = make (first :: rest) from List.mem_singleton.mp member, same,
          clausesOfParts]
        exact List.append_ne_nil_of_left_ne_nil (hold.inhabited first List.mem_cons_self) _

/-- Queries that are collected hold what the items hold, one after the other. -/
theorem hold_collect {α : Type} {compile : α → Compiling (Option Query)}
    {held : α → List (FieldDescriptor × Clause)} {items : List α} {queries : List Query}
    (each : ∀ item ∈ items, ∀ query, (compile item).Returns query →
      Hold query.toList (held item))
    (returns : (Compiling.collect compile items).Returns queries) :
    Hold queries (items.flatMap held) := by
  induction items generalizing queries with
  | nil =>
      rw [← (Compiling.returns_pure _ _).mp returns]
      exact hold_nil
  | cons item rest ih =>
      obtain ⟨query, others, first, onward, rfl⟩ := Compiling.returns_collect_cons returns
      have head := each item List.mem_cons_self query first
      exact head.append (ih (fun other member => each other (List.mem_cons_of_mem _ member)) onward)

end Query

namespace Comparison

variable {catalog : Catalog} {comparison : Comparison}

/-- The clause that the comparison makes for a field, with the field. -/
def clauseOn? (catalog : Catalog) (comparison : Comparison) (name : String) :
    Option (FieldDescriptor × Clause) :=
  match (comparison.clause? catalog name).run.result with
  | .ok (some body) => some (catalog.descriptor name, body)
  | _ => none

/-- The text of what the comparison says about a field, which is empty where it says nothing. -/
def clauseText (catalog : Catalog) (comparison : Comparison) (name : String) : String :=
  match (comparison.clause? catalog name).run.result with
  | .ok (some body) => body.write (catalog.descriptor name)
  | _ => ""

theorem clauseOn?_eq (catalog : Catalog) (comparison : Comparison) (name : String) :
    (comparison.clauseOn? catalog name = none ∧ comparison.clauseText catalog name = "") ∨
      ∃ body, comparison.clauseOn? catalog name = some (catalog.descriptor name, body) ∧
        comparison.clauseText catalog name = body.write (catalog.descriptor name) := by
  unfold clauseOn? clauseText
  split
  · exact .inr ⟨_, rfl, rfl⟩
  · exact .inl ⟨rfl, rfl⟩

theorem hold_field {name : String} {result : Option Query}
    (returns : (compileOn catalog comparison (.field name)).Returns result) :
    Query.Hold result.toList (comparison.clauseOn? catalog name).toList := by
  obtain ⟨-, said, found, rfl⟩ := compileOn_field returns
  unfold clauseOn?
  rw [show (comparison.clause? catalog name).run.result = .ok said from found]
  cases said with
  | none => exact Query.hold_nil
  | some body => exact ⟨rfl, by simp [Query.clauses]⟩

/-- What is said of several names has the clauses for the fields that a walk over them meets. -/
theorem hold_walk {opened names met : List String} (walk : catalog.groups.Walks opened names met)
    {queries : List Query}
    (returns : (Compiling.collect (compileInside catalog comparison opened) names).Returns
      queries) :
    Query.Hold queries (met.filterMap (comparison.clauseOn? catalog)) := by
  induction walk generalizing queries with
  | done =>
      rw [← (Compiling.returns_pure _ _).mp returns]
      exact Query.hold_nil
  | @meet opened rest met name plain _ ih =>
      obtain ⟨query, others, head, onward, rfl⟩ := Compiling.returns_collect_cons returns
      rw [compileInside, expand_of_plain plain] at head
      rw [← List.singleton_append, List.filterMap_append]
      have lone : [name].filterMap (comparison.clauseOn? catalog)
          = (comparison.clauseOn? catalog name).toList := by
        cases said : comparison.clauseOn? catalog name <;> simp [said]
      rw [lone]
      exact (hold_field head).append (ih onward)
  | @skip opened members rest met name known inside _ ih =>
      obtain ⟨query, others, head, onward, rfl⟩ := Compiling.returns_collect_cons returns
      rw [compileInside, expand_of_group known, if_pos (by simpa using inside)] at head
      rw [compileOn_silent (.inl ⟨name, rfl⟩) head]
      exact ih onward
  | @enter opened members rest within met name known outside below _ ihBelow ihOnward =>
      obtain ⟨query, others, head, onward, rfl⟩ := Compiling.returns_collect_cons returns
      rw [List.filterMap_append]
      refine Query.Hold.append ?_ (ihOnward onward)
      rw [compileInside, expand_of_group known, if_neg (by simpa using outside)] at head
      cases members with
      | nil =>
          cases below
          rw [compileOn_silent (.inr ⟨name, rfl⟩) head]
          exact Query.hold_nil
      | cons first others =>
          obtain ⟨parts, found, rfl⟩ := compileOn_group head
          rw [Compiling.collect_map] at found
          exact (ihBelow found).enclose? fun _ => rfl

end Comparison

namespace Expression

/-- The leaves of an expression from left to right: its comparisons, each with one of the names that
its own name stands for. -/
def leaves (walked : String → List String) (expression : Expression) :
    List (Comparison × String) :=
  expression.comparisons.flatMap fun comparison =>
    (walked comparison.field).map fun name => (comparison, name)

theorem leaves_node (walked : String → List String) (kind : Junction) (parts : List Expression) :
    (kind.node parts).leaves walked = parts.flatMap (leaves walked) := by
  rw [leaves, comparisons_node, List.flatMap_assoc]
  rfl

variable {catalog : Catalog} {walked : String → List String}

/-- The query of an expression has the clauses of its leaves. -/
theorem hold_toQuery? (walks : ∀ name, catalog.groups.Walks [] [name] (walked name))
    {expression : Expression} {result : Option Query}
    (returns : (expression.toQuery? catalog).Returns result) :
    Query.Hold result.toList
      ((expression.leaves walked).filterMap fun leaf => leaf.1.clauseOn? catalog leaf.2) := by
  induction expression using inductionOnNodes generalizing result with
  | node kind parts ih =>
      obtain ⟨queries, found, rfl⟩ := toQuery?_node returns
      rw [leaves_node, List.filterMap_flatMap]
      have below := Query.hold_collect (fun part member _ from_ => ih part member from_) found
      exact below.enclose? (Query.clauses_query kind)
  | comparison leaf =>
      have alone : (Compiling.collect (leaf.compileInside catalog []) [leaf.field]).Returns
          (result.toList ++ []) :=
        (Compiling.returns_bind _ _ _).mpr ⟨result, returns, rfl⟩
      have hold := Comparison.hold_walk (walks leaf.field) alone
      rw [List.append_nil] at hold
      rw [leaves, comparisons, List.flatMap_singleton, List.filterMap_map]
      exact hold

/-- What the clauses of some leaves show, those leaves show that say something. -/
theorem map_filterMap_clauseOn? {β : Type} (catalog : Catalog)
    (shown : FieldDescriptor × Clause → β) (leaf : Comparison × String → β)
    (same : ∀ comparison name body,
      Comparison.clauseText catalog comparison name = body.write (catalog.descriptor name) →
      shown (catalog.descriptor name, body) = leaf (comparison, name))
    (leaves : List (Comparison × String)) :
    (leaves.filterMap fun leaf => leaf.1.clauseOn? catalog leaf.2).map shown
      = (leaves.filter fun leaf => leaf.1.clauseText catalog leaf.2 ≠ "").map leaf := by
  induction leaves with
  | nil => rfl
  | cons first rest ih =>
      obtain ⟨comparison, name⟩ := first
      rcases comparison.clauseOn?_eq catalog name with ⟨silent, empty⟩ | ⟨body, said, text⟩
      · rw [List.filterMap_cons, List.filter_cons_of_neg (by simp [empty]), ← ih]
        simp only [silent]
      · have visible : comparison.clauseText catalog name ≠ "" := by
          rw [text]
          exact body.write_ne_empty _
        rw [List.filterMap_cons, List.filter_cons_of_pos (by simpa using visible),
          List.map_cons, ← ih]
        simp only [said, List.map_cons, same comparison name body text]

/-- The fields of a query are exactly those on which some comparison says something, each one where
it is first met from left to right through the expression and the groups. What is said of them
stands in this order in the text of the query, which is empty exactly if there is no such field. -/
theorem fields_compile (catalog : Catalog) (expression : Expression) {compiled : CompiledQuery}
    (returns : (expression.compile catalog).Returns compiled) :
    ∃ walked : String → List String,
      (∀ name met, catalog.groups.Walks [] [name] met ↔ met = walked name) ∧
      let said := (expression.leaves walked).filter fun leaf =>
        leaf.1.clauseText catalog leaf.2 ≠ ""
      compiled.fields = (said.map fun leaf => (catalog.descriptor leaf.2).boostedName).eraseDups ∧
      Text.InOrder (said.map fun leaf => (leaf.1.clauseText catalog leaf.2).toList)
        compiled.query.toList ∧
      (compiled.query = "" ↔ compiled.fields = []) := by
  choose walked walks using fun name => Groups.exists_walk catalog.groups [] [name]
  refine ⟨walked, fun name met =>
    ⟨(walks name).unique, fun same => same ▸ walks name⟩, ?_⟩
  intro said
  obtain ⟨query, found, made⟩ := (Compiling.returns_bind _ _ _).mp returns
  rw [← (Compiling.returns_pure _ _).mp made]
  obtain ⟨held, inhabited⟩ := hold_toQuery? walks found
  have names := map_filterMap_clauseOn? catalog (fun clause => clause.1.boostedName)
    (fun leaf => (catalog.descriptor leaf.2).boostedName) (fun _ _ _ _ => rfl)
    (expression.leaves walked)
  have texts := map_filterMap_clauseOn? catalog Query.clauseText
    (fun leaf => (leaf.1.clauseText catalog leaf.2).toList)
    (fun _ _ _ text => congrArg String.toList text.symm) (expression.leaves walked)
  rw [← held] at names texts
  rw [← names, ← texts]
  cases query with
  | none => exact ⟨rfl, trivial, iff_of_true rfl rfl⟩
  | some query =>
      have whole : Query.clausesOfParts (some query).toList = query.clauses := by
        rw [Query.clausesOfParts_eq]
        simp
      rw [whole]
      have some : query.clauses ≠ [] := inhabited query List.mem_cons_self
      have fields : (CompiledQuery.ofQuery? (.some query)).fields
          = (query.clauses.map fun clause => clause.1.boostedName).eraseDups := by
        rw [← Query.fieldNames_eq]
        rfl
      refine ⟨fields, query.inOrder_write .top,
        iff_of_false (Query.write_ne_empty_of_clauses some .top) ?_⟩
      obtain ⟨first, rest, clauses⟩ := List.exists_cons_of_ne_nil some
      rw [fields, clauses, List.map_cons, List.eraseDups_cons]
      exact List.cons_ne_nil _ _

/-- Nodes without parts, a phrase without terms, and a group that holds itself and an empty one. -/
theorem fields_compile_silent :
    let schema : Schema :=
      { fields := ⟨[("a", { boost := some (.finite false 2 0) }), ("b", {})], by decide⟩
        groups := ⟨[("e", []), ("g", ["a", "g", "b", "e"])], by decide⟩ }
    let expression : Expression := .all [.any [], .comparison ⟨"b", .equal, ["\"\""]⟩,
      .any [.comparison ⟨"g", .equal, ["x y"]⟩, .all []],
      .comparison ⟨"a", .atLeast, ["3"]⟩]
    let query := "((a:x AND a:y)^2.0 OR (b:x AND b:y)) AND a:[3 TO *]^2.0"
    let fields := ["a^2.0", "b"]
    (expression.compile schema.catalog).Returns ⟨query, fields⟩ ∧
      ∃ walked : String → List String,
        (∀ name met, schema.groups.Walks [] [name] met ↔ met = walked name) ∧
        let said := (expression.leaves walked).filter fun leaf =>
          leaf.1.clauseText schema.catalog leaf.2 ≠ ""
        fields = (said.map fun leaf => (schema.catalog.descriptor leaf.2).boostedName).eraseDups ∧
        Text.InOrder (said.map fun leaf => (leaf.1.clauseText schema.catalog leaf.2).toList)
          query.toList ∧
        (query = "" ↔ fields = []) := by
  intro schema expression query fields
  have returns : (expression.compile schema.catalog).Returns ⟨query, fields⟩ := by
    show (expression.compile schema.catalog).run.result = _
    decide +kernel
  exact ⟨returns, fields_compile schema.catalog expression returns⟩

end Expression

end FacetSearch
