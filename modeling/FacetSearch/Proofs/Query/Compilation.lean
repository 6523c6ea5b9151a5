import FacetSearch.Proofs.Query.QueryText
import FacetSearch.Query.Compiler

/-!
What compiling an expression yields. `Returns` says that a computation succeeds with a value, and
each step of the compiler has one lemma that says exactly when it does.
-/

set_option autoImplicit false

namespace FacetSearch

/-- A computation succeeds with a value, whatever it gives notice of. -/
def Compiling.Returns {α : Type} (computation : Compiling α) (value : α) : Prop :=
  computation.run.result = .ok value

namespace Compiling

variable {α β : Type}

@[simp] theorem returns_pure (given value : α) :
    Returns (pure given : Compiling α) value ↔ given = value := by
  constructor
  · intro returns
    exact Except.ok.inj returns
  · rintro rfl
    rfl

theorem returns_bind (computation : Compiling α) (next : α → Compiling β) (value : β) :
    (computation >>= next).Returns value ↔
      ∃ between, computation.Returns between ∧ (next between).Returns value := by
  have unfolded : (computation >>= next).run.result
      = match computation.run.result with
        | .ok between => (next between).run.result
        | .error error => .error error := by
    show (ExceptT.bindCont next computation.run.result).result = _
    cases computation.run.result <;> rfl
  unfold Returns
  rw [unfolded]
  cases result : computation.run.result with
  | ok between =>
      constructor
      · intro returns
        exact ⟨between, rfl, returns⟩
      · rintro ⟨other, same, returns⟩
        rw [Except.ok.inj same]
        exact returns
  | error error =>
      constructor
      · exact nofun
      · rintro ⟨_, same, _⟩
        cases same

theorem Returns.unique {computation : Compiling α} {first second : α}
    (one : computation.Returns first) (other : computation.Returns second) : first = second :=
  Except.ok.inj (one.symm.trans other)

theorem returns_throw (error : CompileError) (value : α) :
    ¬ Returns (throw error : Compiling α) value := nofun

theorem returns_lift (logged : Logged α) (value : α) :
    Returns (ExceptT.lift logged) value ↔ logged.result = value := by
  constructor
  · intro returns
    exact Except.ok.inj returns
  · rintro rfl
    rfl

end Compiling

/-- The names of fields and of their variants are letters, digits, hyphens and underscores. -/
structure Catalog.HasNames (catalog : Catalog) : Prop where
  field : ∀ name, catalog.isField name = true → IsName name
  phrase : ∀ name, catalog.isField name = true → IsName (catalog.phraseField name)
  word : ∀ name, catalog.isField name = true → IsName (catalog.wordField name)

/-- The names of fields and of their variants are letters, digits, hyphens and underscores. -/
structure Schema.HasNames (schema : Schema) : Prop where
  fields : ∀ name ∈ schema.fields.keys, IsName name
  exact : ∀ options ∈ schema.fields.values, ∀ variant ∈ options.exactVariant, IsName variant
  stemmed : ∀ options ∈ schema.fields.values, ∀ variant ∈ options.stemmedVariant,
    IsName variant

theorem Dict.mem_values_of_get? {α : Type} {dict : Dict α} {key : String} {value : α}
    (found : dict.get? key = some value) : value ∈ dict.values := by
  obtain ⟨before, after, entries, _⟩ := List.lookup_eq_some_iff.1 found
  simp [Dict.values, entries]

theorem Schema.HasNames.catalog {schema : Schema} (names : schema.HasNames) :
    schema.catalog.HasNames := by
  have known : ∀ name, schema.catalog.isField name = true →
      ∃ options, schema.fields.get? name = some options := by
    intro name valid
    exact Option.isSome_iff_exists.mp valid
  have variant : ∀ (choose : FieldOptions → Option String) (name : String),
      (∀ options ∈ schema.fields.values, ∀ variant ∈ choose options, IsName variant) →
      schema.catalog.isField name = true →
      IsName (((schema.fields.get? name).bind choose).getD name) := by
    intro choose name formed valid
    obtain ⟨options, found⟩ := known name valid
    have itself := names.fields name (Dict.mem_keys_of_get? found)
    rw [found, Option.bind_some]
    cases chosen : choose options with
    | none => exact itself
    | some variant => exact formed options (Dict.mem_values_of_get? found) variant chosen
  refine ⟨fun name valid => ?_, fun name valid => ?_, fun name valid => ?_⟩
  · obtain ⟨options, found⟩ := known name valid
    exact names.fields name (Dict.mem_keys_of_get? found)
  · exact variant (·.exactVariant) name names.exact valid
  · exact variant (·.stemmedVariant) name names.stemmed valid

namespace Outline

/-- Joins what is left of several parts. Nothing is left of no parts. -/
def join? (kind : Junction) (parts : List (Option Outline)) : Option Outline :=
  match parts.filterMap id with
  | [] => none
  | left => some (gather kind left)

end Outline

namespace Comparison

/-- The tree of a comparison with a value: the terms of a search phrase, if it has any, or a clause
with the value. -/
def valueOutline? (catalog : Catalog) (name : String) (negated : Bool) (value : String) :
    Option Outline :=
  let value := String.ofList (Text.trim value.toList)
  let field := catalog.descriptor name
  if Engine.isFreeText value then
    (Outline.join? .all ((FreeTerm.ofPhrase catalog name value).map fun term =>
      some (.leaf term.write.toList))).map (.mark negated field.suffix.toList)
  else some (.leaf ((Clause.value negated value).write field).toList)

/-- The tree of a comparison on one field. -/
def outline? (catalog : Catalog) (comparison : Comparison) (name : String) : Option Outline :=
  let leaf (clause : Clause) : Outline := .leaf (clause.write (catalog.descriptor name)).toList
  match comparison.operator, comparison.arguments with
  | .equal, [value] => valueOutline? catalog name false value
  | .unequal, [value] => valueOutline? catalog name true value
  | .oneOf, values => some (leaf (.oneOf values))
  | .atLeast, [limit] => some (leaf (.range .atLeast limit))
  | .above, [limit] => some (leaf (.range .above limit))
  | .atMost, [limit] => some (leaf (.range .atMost limit))
  | .below, [limit] => some (leaf (.range .below limit))
  | .custom symbol, values => some (leaf (.custom symbol values))
  | _, _ => none

/-- Arguments that stand in a query without quotes are names. -/
def HasNames (comparison : Comparison) : Prop :=
  comparison.operator ∉ [.equal, .unequal, .oneOf] →
    ∀ argument ∈ comparison.arguments, IsName argument

instance : DecidablePred HasNames := fun comparison =>
  inferInstanceAs (Decidable (comparison.operator ∉ [.equal, .unequal, .oneOf] →
    ∀ argument ∈ comparison.arguments, IsName argument))

/-- A comparison whose clauses can be read. The symbol of an operator of its own begins with an
equals sign and has no meaning for the reader. -/
structure Readable (comparison : Comparison) : Prop where
  names : comparison.HasNames
  symbol : ∀ symbol, comparison.operator = .custom symbol →
    ∃ letters, symbol.toList = '=' :: letters ∧ ∀ c ∈ letters, c ∉ Piece.structural

theorem legible_of_mem_ofPhrase {catalog : Catalog} {name : String}
    (phraseName : IsName (catalog.phraseField name)) (wordName : IsName (catalog.wordField name))
    {phrase : String} {term : FreeTerm} (member : term ∈ FreeTerm.ofPhrase catalog name phrase) :
    term.Legible := by
  obtain ⟨segment, held, inside⟩ := List.mem_flatMap.mp member
  have contained := Segment.contained_of_mem_ofPhrase segment held
  cases segment with
  | quoted run =>
      rw [FreeTerm.ofSegment, List.mem_singleton] at inside
      rw [inside]
      exact ⟨phraseName, Text.after_trim_ne_closed contained⟩
  | plain text =>
      obtain ⟨word, found, rfl⟩ := List.mem_map.mp inside
      exact ⟨wordName, Text.isBlank_of_mem_words found⟩

theorem onlyArgument_eq_ok {comparison : Comparison} {field value : String}
    (given : comparison.onlyArgument field = .ok value) : comparison.arguments = [value] := by
  unfold onlyArgument at given
  split at given
  · rename_i only
    rw [only, Except.ok.inj given]
  · cases given

theorem someArguments_eq_ok {comparison : Comparison} {field : String} {values : List String}
    (given : comparison.someArguments field = .ok values) : comparison.arguments = values := by
  unfold someArguments at given
  split at given
  · cases given
  · exact Except.ok.inj given

theorem returns_liftExcept {α : Type} (result : Except CompileError α) (value : α) :
    (clause?.liftExcept result).Returns value ↔ result = .ok value := Iff.rfl

/-- What a comparison with a value says has the tree that it should have, and can be read. -/
theorem outline_valueClause {catalog : Catalog} (names : catalog.HasNames) {name : String}
    (valid : catalog.isField name = true) (negated : Bool) (value : String) :
    (valueClause catalog name negated value).result.map (Clause.outline (catalog.descriptor name))
        = valueOutline? catalog name negated value ∧
      ∀ clause ∈ (valueClause catalog name negated value).result,
        clause.Legible (catalog.descriptor name) := by
  unfold valueClause valueOutline?
  by_cases free : Engine.isFreeText (String.ofList (Text.trim value.toList)) = true
  · simp only [free, if_true]
    unfold phraseClause
    cases terms : FreeTerm.ofPhrase catalog name (String.ofList (Text.trim value.toList)) with
    | nil => exact ⟨rfl, nofun⟩
    | cons first rest =>
        have present : ((first :: rest).map fun term =>
            some (Outline.leaf term.write.toList)).filterMap id
            = (first :: rest).map fun term => .leaf term.write.toList := by
          rw [List.filterMap_map]
          exact congrFun List.filterMap_eq_map _
        refine ⟨?_, ?_⟩
        · rw [Outline.join?, present]
          rfl
        · intro clause same
          rw [← Option.some.inj same]
          refine ⟨List.cons_ne_nil _ _, fun term member => ?_⟩
          rw [← terms] at member
          exact legible_of_mem_ofPhrase (names.phrase name valid) (names.word name valid) member
  · simp only [free]
    refine ⟨rfl, ?_⟩
    intro clause same
    rw [← Option.some.inj same]
    exact names.field name valid

theorem exists_onlyArgument {comparison : Comparison} {name : String} {β : Type}
    {next : String → Compiling β} {said : β}
    (returns : (clause?.liftExcept (comparison.onlyArgument name) >>= next).Returns said) :
    ∃ value, comparison.arguments = [value] ∧ (next value).Returns said := by
  obtain ⟨value, only, rest⟩ := (Compiling.returns_bind _ _ _).mp returns
  exact ⟨value, onlyArgument_eq_ok ((returns_liftExcept _ _).mp only), rest⟩

theorem returns_someArguments {comparison : Comparison} {name : String} {β : Type}
    {next : List String → Compiling β} {said : β}
    (returns : (clause?.liftExcept (comparison.someArguments name) >>= next).Returns said) :
    (next comparison.arguments).Returns said := by
  obtain ⟨values, some, rest⟩ := (Compiling.returns_bind _ _ _).mp returns
  rw [someArguments_eq_ok ((returns_liftExcept _ _).mp some)]
  exact rest

/-- What a range says is its only argument, and can be read. -/
theorem exists_limit {catalog : Catalog} {comparison : Comparison} {name : String}
    (named : IsName (catalog.descriptor name).name)
    (given : ∀ argument ∈ comparison.arguments, IsName argument) {bound : RangeBound}
    {said : Option Clause}
    (returns :
      (do return some (.range bound (← clause?.liftExcept (comparison.onlyArgument name))) :
      Compiling (Option Clause)).Returns said) :
    ∃ limit, comparison.arguments = [limit] ∧ said = some (.range bound limit) ∧
      (Clause.range bound limit).Legible (catalog.descriptor name) := by
  obtain ⟨limit, lone, same⟩ := exists_onlyArgument returns
  refine ⟨limit, lone, ((Compiling.returns_pure _ _).mp same).symm, named, given limit ?_⟩
  rw [lone]
  exact List.mem_singleton_self limit

/-- What is said about a field has the tree that it should have, and can be read. -/
theorem outline_clause? {catalog : Catalog} (names : catalog.HasNames) {name : String}
    (valid : catalog.isField name = true) {comparison : Comparison} (readable : comparison.Readable)
    {said : Option Clause}
    (returns : (comparison.clause? catalog name).Returns said) :
    said.map (Clause.outline (catalog.descriptor name)) = comparison.outline? catalog name ∧
      ∀ clause ∈ said, clause.Legible (catalog.descriptor name) := by
  obtain ⟨field, operator, arguments⟩ := comparison
  obtain ⟨given, spelled⟩ := readable
  have named : IsName (catalog.descriptor name).name := names.field name valid
  have single : ∀ value, (∀ clause ∈ some value,
      Clause.Legible (catalog.descriptor name) clause) ↔
      Clause.Legible (catalog.descriptor name) value := by
    intro value
    simp
  cases operator with
  | equal =>
      obtain ⟨value, rfl, same⟩ := exists_onlyArgument returns
      rw [← (Compiling.returns_lift _ _).mp same]
      exact outline_valueClause names valid false value
  | unequal =>
      obtain ⟨value, rfl, same⟩ := exists_onlyArgument returns
      rw [← (Compiling.returns_lift _ _).mp same]
      exact outline_valueClause names valid true value
  | oneOf =>
      have same := returns_someArguments returns
      rw [← (Compiling.returns_pure _ _).mp same, single]
      exact ⟨rfl, named⟩
  | atLeast =>
      obtain ⟨limit, rfl, rfl, legible⟩ := exists_limit named (given (by simp)) returns
      exact ⟨rfl, (single _).mpr legible⟩
  | above =>
      obtain ⟨limit, rfl, rfl, legible⟩ := exists_limit named (given (by simp)) returns
      exact ⟨rfl, (single _).mpr legible⟩
  | atMost =>
      obtain ⟨limit, rfl, rfl, legible⟩ := exists_limit named (given (by simp)) returns
      exact ⟨rfl, (single _).mpr legible⟩
  | below =>
      obtain ⟨limit, rfl, rfl, legible⟩ := exists_limit named (given (by simp)) returns
      exact ⟨rfl, (single _).mpr legible⟩
  | custom symbol =>
      have same := returns_someArguments returns
      rw [← (Compiling.returns_pure _ _).mp same, single]
      exact ⟨rfl, named, spelled symbol rfl, given (by simp)⟩

/-- Every clause that a comparison makes for a field satisfies a condition. -/
def Makes (good : FieldDescriptor → Clause → Prop) (catalog : Catalog)
    (comparison : Comparison) : Prop :=
  ∀ name, catalog.isField name = true → ∀ clause,
    (comparison.clause? catalog name).Returns (some clause) →
    good (catalog.descriptor name) clause

theorem makes_legible {catalog : Catalog} (names : catalog.HasNames) {comparison : Comparison}
    (readable : comparison.Readable) :
    comparison.Makes (fun field body => body.Legible field) catalog :=
  fun _ valid clause returns => (outline_clause? names valid readable returns).2 clause rfl

theorem endsInJoint_valueClause {catalog : Catalog} {name value : String} {negated : Bool}
    {clause : Clause} (made : (valueClause catalog name negated value).result = some clause) :
    clause.endsInJoint (catalog.descriptor name) = false := by
  unfold valueClause at made
  by_cases free : Engine.isFreeText (String.ofList (Text.trim value.toList)) = true
  · simp only [free, if_true] at made
    unfold phraseClause at made
    cases terms : FreeTerm.ofPhrase catalog name (String.ofList (Text.trim value.toList)) with
    | nil =>
        rw [terms] at made
        cases made
    | cons first rest =>
        rw [terms] at made
        rw [← Option.some.inj made]
        rfl
  · simp only [free] at made
    rw [← Option.some.inj made]
    rfl

/-- Values stand behind a colon and in quotes where they need them, so they are no joining words. -/
theorem makes_endsInJoint (catalog : Catalog) {comparison : Comparison}
    (quoted : comparison.operator ∈ [Operator.equal, .unequal, .oneOf]) :
    comparison.Makes (fun field body => body.endsInJoint field = false) catalog := by
  intro name _ clause returns
  obtain ⟨field, operator, arguments⟩ := comparison
  cases operator with
  | equal =>
      obtain ⟨value, _, same⟩ := exists_onlyArgument returns
      exact endsInJoint_valueClause ((Compiling.returns_lift _ _).mp same)
  | unequal =>
      obtain ⟨value, _, same⟩ := exists_onlyArgument returns
      exact endsInJoint_valueClause ((Compiling.returns_lift _ _).mp same)
  | oneOf =>
      have same := returns_someArguments returns
      rw [← Option.some.inj ((Compiling.returns_pure _ _).mp same)]
      rfl
  | atLeast | above | atMost | below | custom => simp at quoted

end Comparison

namespace Compiling

variable {α : Type}

/-- Compiles several items and leaves out those in which there is nothing to search. -/
def collect (compile : α → Compiling (Option Query)) : List α → Compiling (List Query)
  | [] => pure []
  | item :: rest => do
    let query ← compile item
    let queries ← collect compile rest
    return query.toList ++ queries

theorem returns_collect_cons {compile : α → Compiling (Option Query)} {item : α}
    {rest : List α} {queries : List Query}
    (returns : (collect compile (item :: rest)).Returns queries) :
    ∃ query others, (compile item).Returns query ∧ (collect compile rest).Returns others ∧
      queries = query.toList ++ others := by
  obtain ⟨query, first, returns⟩ := (returns_bind _ _ _).mp returns
  obtain ⟨others, onward, same⟩ := (returns_bind _ _ _).mp returns
  exact ⟨query, others, first, onward, ((returns_pure _ _).mp same).symm⟩

theorem collect_map {β : Type} (compile : β → Compiling (Option Query)) (f : α → β)
    (items : List α) :
    collect compile (items.map f) = collect (fun item => compile (f item)) items := by
  induction items with
  | nil => rfl
  | cons item rest ih => rw [List.map_cons, collect, collect, ih]

/-- Every query that is collected comes from an item. -/
theorem exists_of_mem_collect {compile : α → Compiling (Option Query)} {items : List α}
    {queries : List Query} (returns : (collect compile items).Returns queries) :
    ∀ query ∈ queries, ∃ item ∈ items, (compile item).Returns (some query) := by
  induction items generalizing queries with
  | nil =>
      rw [← (returns_pure _ _).mp returns]
      exact nofun
  | cons item rest ih =>
      obtain ⟨result, others, first, onward, rfl⟩ := returns_collect_cons returns
      intro query member
      rcases List.mem_append.mp member with member | member
      · rw [Option.mem_toList] at member
        rw [member] at first
        exact ⟨item, List.mem_cons_self, first⟩
      · obtain ⟨other, held, found⟩ := ih onward query member
        exact ⟨other, List.mem_cons_of_mem _ held, found⟩

/-- Every item compiles, and its query is collected. -/
theorem exists_of_mem_items {compile : α → Compiling (Option Query)} {items : List α}
    {queries : List Query} (returns : (collect compile items).Returns queries) :
    ∀ item ∈ items, ∃ result, (compile item).Returns result ∧
      ∀ query ∈ result, query ∈ queries := by
  induction items generalizing queries with
  | nil => exact nofun
  | cons item rest ih =>
      obtain ⟨result, others, first, onward, rfl⟩ := returns_collect_cons returns
      intro other member
      rcases List.mem_cons.mp member with rfl | member
      · exact ⟨result, first, fun query held =>
          List.mem_append_left _ (Option.mem_toList.mpr held)⟩
      · obtain ⟨found, compiles, held⟩ := ih onward other member
        exact ⟨found, compiles, fun query same => List.mem_append_right _ (held query same)⟩

/-- The queries that are collected have the trees that are left of the items. -/
theorem outlines_of_collect {compile : α → Compiling (Option Query)}
    {tree : α → Option Outline} {items : List α} {queries : List Query}
    (each : ∀ item ∈ items, ∀ query, (compile item).Returns query →
      query.map Query.outline = tree item)
    (returns : (collect compile items).Returns queries) :
    queries.map Query.outline = (items.map tree).filterMap id := by
  induction items generalizing queries with
  | nil =>
      rw [← (returns_pure _ _).mp returns]
      rfl
  | cons item rest ih =>
      obtain ⟨query, others, first, onward, rfl⟩ := returns_collect_cons returns
      have head := each item List.mem_cons_self query first
      have tail := ih (fun other member => each other (List.mem_cons_of_mem _ member)) onward
      rw [List.map_append, tail, List.map_cons, ← head]
      cases query <;> rfl

/-- A node or a group around the queries of its parts, unless there are none. -/
def enclose? (make : List Query → Query) : List Query → Option Query
  | [] => none
  | parts => some (make parts)

theorem enclose?_eq_some {make : List Query → Query} {parts : List Query} {query : Query}
    (made : enclose? make parts = some query) : parts ≠ [] ∧ query = make parts := by
  cases parts with
  | nil => cases made
  | cons first rest => exact ⟨List.cons_ne_nil _ _, (Option.some.inj made).symm⟩

/-- A node has the tree of what is left of its parts. -/
theorem outline_enclose? {kind : Junction} {make : List Query → Query}
    (gathers : ∀ parts, (make parts).outline = .gather kind (parts.map Query.outline))
    {parts : List Query} {trees : List (Option Outline)}
    (left : parts.map Query.outline = trees.filterMap id) :
    (enclose? make parts).map Query.outline = Outline.join? kind trees := by
  rw [Outline.join?, ← left]
  cases parts with
  | nil => rfl
  | cons first rest => exact congrArg some (gathers _)

theorem returns_enclose? (computation : Compiling (List Query)) (make : List Query → Query)
    (result : Option Query) :
    Returns (do
      match ← computation with
      | [] => return none
      | parts => return some (make parts)) result ↔
      ∃ parts, computation.Returns parts ∧ result = enclose? make parts := by
  rw [returns_bind]
  refine exists_congr fun parts => and_congr_right fun _ => ?_
  cases parts with
  | nil => exact (returns_pure _ _).trans eq_comm
  | cons first rest => exact (returns_pure _ _).trans eq_comm

end Compiling

/-- Induction over the members of groups. -/
theorem Selection.inductionOnMembers {motive : Selection → Prop}
    (field : ∀ name, motive (.field name))
    (group : ∀ name members, (∀ member ∈ members, motive member) →
      motive (.group name members))
    (recurring : ∀ name, motive (.recurring name))
    (memberless : ∀ name, motive (.memberless name)) (selection : Selection) :
    motive selection := by
  refine Selection.rec (motive_1 := motive)
    (motive_2 := fun members => ∀ member ∈ members, motive member) field group
      recurring memberless
    ?_ ?_ selection
  · exact nofun
  · intro first rest head tail member held
    rcases List.mem_cons.mp held with rfl | held
    · exact head
    · exact tail member held

/-- The tree of what is said of a name: of a field as it is, and of a group by what is said of its
members. Nothing is said of a group inside itself. -/
def Catalog.outline? (catalog : Catalog) (say : String → Option Outline) (opened : List String)
    (name : String) : Option Outline :=
  match _found : catalog.groups.get? name with
  | none => say name
  | some members =>
    if _closed : opened.contains name then none
    else Outline.join? .any (members.map fun member => catalog.outline? say (name :: opened) member)
termination_by (catalog.groups.unopened opened).length
decreasing_by exact Groups.length_unopened_lt _found _closed

theorem Catalog.outline?_of_field {catalog : Catalog} {name : String}
    (unknown : catalog.groups.get? name = none) (say : String → Option Outline)
    (opened : List String) : catalog.outline? say opened name = say name := by
  rw [Catalog.outline?]
  split
  · rfl
  · rename_i members known
    rw [unknown] at known
    cases known

theorem Catalog.outline?_of_group {catalog : Catalog} {name : String} {members : List String}
    (known : catalog.groups.get? name = some members) (say : String → Option Outline)
    (opened : List String) :
    catalog.outline? say opened name
      = if opened.contains name then none
        else Outline.join? .any (members.map (catalog.outline? say (name :: opened))) := by
  rw [Catalog.outline?]
  split
  · rename_i unknown
    rw [unknown] at known
    cases known
  · rename_i others same
    rw [known] at same
    rw [Option.some.inj same]
    split <;> rfl

namespace Comparison

theorem compileOnAll_eq (catalog : Catalog) (comparison : Comparison)
    (selections : List Selection) : compileOnAll catalog comparison selections
      = Compiling.collect (compileOn catalog comparison) selections := by
  induction selections with
  | nil => rfl
  | cons selection rest ih => rw [compileOnAll, Compiling.collect, ih]

theorem compileOn_field {catalog : Catalog} {comparison : Comparison} {name : String}
    {result : Option Query}
    (returns : (compileOn catalog comparison (.field name)).Returns result) :
    catalog.isField name = true ∧ ∃ said, (comparison.clause? catalog name).Returns said ∧
      result = said.map (.clause (catalog.descriptor name)) := by
  unfold compileOn at returns
  by_cases valid : catalog.isField name = true
  · rw [if_pos valid] at returns
    obtain ⟨said, found, same⟩ := (Compiling.returns_bind _ _ _).mp returns
    exact ⟨valid, said, found, ((Compiling.returns_pure _ _).mp same).symm⟩
  · rw [if_neg valid] at returns
    exact absurd returns (Compiling.returns_throw _ _)

theorem compileOn_group {catalog : Catalog} {comparison : Comparison} {name : String}
    {members : List Selection} {result : Option Query}
    (returns : (compileOn catalog comparison (.group name members)).Returns result) :
    ∃ parts, (Compiling.collect (compileOn catalog comparison) members).Returns parts ∧
      result = Compiling.enclose? .group parts := by
  unfold compileOn at returns
  rw [compileOnAll_eq] at returns
  exact (Compiling.returns_enclose? _ _ _).mp returns

theorem compileOn_silent {catalog : Catalog} {comparison : Comparison} {selection : Selection}
    (silent : (∃ name, selection = .recurring name) ∨ ∃ name, selection = .memberless name)
    {result : Option Query} (returns : (compileOn catalog comparison selection).Returns result) :
    result = none := by
  rcases silent with ⟨name, rfl⟩ | ⟨name, rfl⟩
  all_goals
    unfold compileOn at returns
    obtain ⟨_, _, same⟩ := (Compiling.returns_bind _ _ _).mp returns
    exact ((Compiling.returns_pure _ _).mp same).symm

variable {catalog : Catalog} {comparison : Comparison}

/-- What is said about a name has the tree that its fields and groups give. -/
theorem outline_compileOn (names : catalog.HasNames) (readable : comparison.Readable)
    (opened : List String) (name : String) {result : Option Query}
    (returns : (compileOn catalog comparison (.expand catalog opened name)).Returns result) :
    result.map Query.outline = catalog.outline? (comparison.outline? catalog) opened name := by
  fun_induction Selection.expand catalog opened name generalizing result with
  | case1 opened name unknown =>
      obtain ⟨valid, said, found, rfl⟩ := compileOn_field returns
      have tree := (outline_clause? names valid readable found).1
      rw [Catalog.outline?_of_field unknown, ← tree, Option.map_map]
      rfl
  | case2 opened name members known closed =>
      rw [compileOn_silent (.inl ⟨name, rfl⟩) returns, Catalog.outline?_of_group known,
        if_pos closed]
      rfl
  | case3 opened name members known closed empty =>
      rw [compileOn_silent (.inr ⟨name, rfl⟩) returns, Catalog.outline?_of_group known,
        if_neg closed, List.isEmpty_iff.mp empty]
      rfl
  | case4 opened name members known closed inhabited ih =>
      obtain ⟨parts, found, rfl⟩ := compileOn_group returns
      rw [Compiling.collect_map] at found
      have left := Compiling.outlines_of_collect (fun member _ _ from_ => ih member from_) found
      rw [Compiling.outline_enclose? Query.outline_group left, Catalog.outline?_of_group known,
        if_neg closed]

/-- What is said about a name is a clause or a group. -/
theorem alternates_compileOn {selection : Selection} {query : Query}
    (returns : (compileOn catalog comparison selection).Returns (some query)) :
    query.Alternates ∧ ∀ (kind : Junction) inner, query ≠ kind.query inner := by
  induction selection using Selection.inductionOnMembers generalizing query with
  | field name =>
      obtain ⟨_, said, _, same⟩ := compileOn_field returns
      obtain ⟨body, _, rfl⟩ := Option.map_eq_some_iff.mp same.symm
      exact ⟨.clause _ body, fun kind inner => by cases kind <;> exact nofun⟩
  | group name members ih =>
      obtain ⟨parts, found, same⟩ := compileOn_group returns
      obtain ⟨inhabited, rfl⟩ := Compiling.enclose?_eq_some same.symm
      have each : ∀ part ∈ parts, part.Alternates ∧
          ∀ (kind : Junction) inner, part ≠ kind.query inner := by
        intro part member
        obtain ⟨selection, held, from_⟩ := Compiling.exists_of_mem_collect found part member
        exact ih selection held from_
      refine ⟨.group inhabited (fun part member => (each part member).2 .any)
        (fun part member => (each part member).1), fun kind inner => ?_⟩
      cases kind <;> exact nofun
  | recurring name =>
      have nothing := compileOn_silent (.inl ⟨name, rfl⟩) returns
      cases nothing
  | memberless name =>
      have nothing := compileOn_silent (.inr ⟨name, rfl⟩) returns
      cases nothing

theorem every_compileOn {good : FieldDescriptor → Clause → Prop}
    (makes : comparison.Makes good catalog) {selection : Selection} {query : Query}
    (returns : (compileOn catalog comparison selection).Returns (some query)) :
    query.Every good := by
  induction selection using Selection.inductionOnMembers generalizing query with
  | field name =>
      obtain ⟨valid, said, found, same⟩ := compileOn_field returns
      obtain ⟨body, rfl, rfl⟩ := Option.map_eq_some_iff.mp same.symm
      exact .clause (makes name valid body found)
  | group name members ih =>
      obtain ⟨parts, found, same⟩ := compileOn_group returns
      obtain ⟨_, rfl⟩ := Compiling.enclose?_eq_some same.symm
      refine .group (fun part member => ?_) fun part member => ?_
      · obtain ⟨selection, _, from_⟩ := Compiling.exists_of_mem_collect found part member
        exact (alternates_compileOn from_).2
      · obtain ⟨selection, held, from_⟩ := Compiling.exists_of_mem_collect found part member
        exact ih selection held from_
  | recurring name =>
      have nothing := compileOn_silent (.inl ⟨name, rfl⟩) returns
      cases nothing
  | memberless name =>
      have nothing := compileOn_silent (.inr ⟨name, rfl⟩) returns
      cases nothing

end Comparison

namespace Expression

mutual

/-- The comparisons of an expression. -/
def comparisons : Expression → List Comparison
  | all parts => comparisonsOfParts parts
  | any parts => comparisonsOfParts parts
  | comparison leaf => [leaf]

/-- The comparisons of several expressions. -/
def comparisonsOfParts : List Expression → List Comparison
  | [] => []
  | part :: rest => part.comparisons ++ comparisonsOfParts rest

end

mutual

/-- The tree that a query for an expression should have: names stand for their fields, search
phrases for their terms, and what says nothing is left out with the nodes that have no parts
left. -/
def outline? (catalog : Catalog) : Expression → Option Outline
  | all parts => Outline.join? .all (outlines? catalog parts)
  | any parts => Outline.join? .any (outlines? catalog parts)
  | comparison leaf => catalog.outline? (leaf.outline? catalog) [] leaf.field

/-- The trees of the parts of an expression. -/
def outlines? (catalog : Catalog) : List Expression → List (Option Outline)
  | [] => []
  | part :: rest => part.outline? catalog :: outlines? catalog rest

end

theorem outlines?_eq (catalog : Catalog) (parts : List Expression) :
    outlines? catalog parts = parts.map (outline? catalog) := by
  induction parts with
  | nil => rfl
  | cons part rest ih => rw [outlines?, ih, List.map_cons]

theorem outline?_node (catalog : Catalog) (kind : Junction) (parts : List Expression) :
    (kind.node parts).outline? catalog = Outline.join? kind (parts.map (outline? catalog)) := by
  rw [← outlines?_eq]
  cases kind <;> rfl

theorem comparisonsOfParts_eq (parts : List Expression) :
    comparisonsOfParts parts = parts.flatMap comparisons := by
  induction parts with
  | nil => rfl
  | cons part rest ih => rw [comparisonsOfParts, ih, List.flatMap_cons]

theorem comparisons_node (kind : Junction) (parts : List Expression) :
    (kind.node parts).comparisons = parts.flatMap comparisons := by
  rw [← comparisonsOfParts_eq]
  cases kind <;> rfl

theorem mem_comparisons_node (kind : Junction) {parts : List Expression} {part : Expression}
    (member : part ∈ parts) {leaf : Comparison} (held : leaf ∈ part.comparisons) :
    leaf ∈ (kind.node parts).comparisons := by
  rw [comparisons_node]
  exact List.mem_flatMap.mpr ⟨part, member, held⟩

theorem toQueries_eq (catalog : Catalog) (parts : List Expression) :
    toQueries catalog parts = Compiling.collect (toQuery? catalog) parts := by
  induction parts with
  | nil => rfl
  | cons part rest ih => rw [toQueries, Compiling.collect, ih]

theorem toQuery?_node {catalog : Catalog} {kind : Junction} {parts : List Expression}
    {result : Option Query} (returns : ((kind.node parts).toQuery? catalog).Returns result) :
    ∃ queries, (Compiling.collect (toQuery? catalog) parts).Returns queries ∧
      result = Compiling.enclose? kind.query queries := by
  rw [← toQueries_eq]
  cases kind with
  | all => exact (Compiling.returns_enclose? _ _ _).mp returns
  | any => exact (Compiling.returns_enclose? _ _ _).mp returns

/-- An expression of comparisons whose clauses can be read. -/
def Readable (expression : Expression) : Prop := ∀ leaf ∈ expression.comparisons, leaf.Readable

theorem Readable.of_node {kind : Junction} {parts : List Expression}
    (readable : (kind.node parts).Readable) : ∀ part ∈ parts, part.Readable :=
  fun _ member leaf held => readable leaf (mem_comparisons_node kind member held)

theorem Readable.of_comparison {leaf : Comparison} (readable : (comparison leaf).Readable) :
    leaf.Readable := readable leaf (by simp [comparisons])

variable {catalog : Catalog}

/-- An expression compiles to a query with the tree that it should have, or to nothing where there
is no tree. -/
theorem outline_toQuery? (names : catalog.HasNames) {expression : Expression}
    (readable : expression.Readable) {result : Option Query}
    (returns : (expression.toQuery? catalog).Returns result) :
    result.map Query.outline = expression.outline? catalog := by
  induction expression using inductionOnNodes generalizing result with
  | node kind parts ih =>
      obtain ⟨queries, found, rfl⟩ := toQuery?_node returns
      have left := Compiling.outlines_of_collect
        (fun part member _ from_ => ih part member (readable.of_node part member) from_) found
      rw [Compiling.outline_enclose? (Query.outline_query kind) left, outline?_node]
  | comparison leaf =>
      exact Comparison.outline_compileOn names readable.of_comparison [] leaf.field returns

/-- The clauses of a query are those that its comparisons make. -/
theorem every_toQuery? {good : FieldDescriptor → Clause → Prop} {expression : Expression}
    (makes : ∀ leaf ∈ expression.comparisons, leaf.Makes good catalog) {query : Query}
    (returns : (expression.toQuery? catalog).Returns (some query)) : query.Every good := by
  induction expression using inductionOnNodes generalizing query with
  | node kind parts ih =>
      obtain ⟨queries, found, same⟩ := toQuery?_node returns
      obtain ⟨_, rfl⟩ := Compiling.enclose?_eq_some same.symm
      refine .node kind fun part member => ?_
      obtain ⟨source, held, from_⟩ := Compiling.exists_of_mem_collect found part member
      exact ih source held (fun leaf among =>
        makes leaf (mem_comparisons_node kind held among)) from_
  | comparison leaf =>
      exact Comparison.every_compileOn (makes leaf (by simp [comparisons])) returns

theorem legible_toQuery? (names : catalog.HasNames) {expression : Expression}
    (readable : expression.Readable) {query : Query}
    (returns : (expression.toQuery? catalog).Returns (some query)) :
    query.Every fun field body => body.Legible field :=
  every_toQuery? (fun leaf member => Comparison.makes_legible names (readable leaf member)) returns

/-- A normal form compiles to a query whose kinds of nodes alternate. -/
theorem alternates_toQuery? {expression : Expression} (flat : expression.IsFlat) {query : Query}
    (returns : (expression.toQuery? catalog).Returns (some query)) :
    query.Alternates ∧ ∀ kind : Junction, (∀ inner, expression ≠ kind.node inner) →
      ∀ inner, query ≠ kind.query inner := by
  induction expression using inductionOnNodes generalizing query with
  | node kind parts ih =>
      obtain ⟨queries, found, same⟩ := toQuery?_node returns
      obtain ⟨inhabited, rfl⟩ := Compiling.enclose?_eq_some same.symm
      have each : ∀ part ∈ queries, part.Alternates ∧
          ∀ inner, part ≠ kind.query inner := by
        intro part member
        obtain ⟨source, held, from_⟩ := Compiling.exists_of_mem_collect found part member
        obtain ⟨below, unlike⟩ := flat.of_node.2 source held
        have inner := ih source held below from_
        exact ⟨inner.1, inner.2 kind unlike⟩
      refine ⟨.node kind inhabited (fun part member => (each part member).2)
        (fun part member => (each part member).1), ?_⟩
      intro above different inner same
      obtain ⟨rfl, _⟩ := Junction.query_inj same
      exact different parts rfl
  | comparison leaf =>
      have whole := Comparison.alternates_compileOn returns
      exact ⟨whole.1, fun kind _ => whole.2 kind⟩

end Expression

end FacetSearch
