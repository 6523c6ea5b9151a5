import FacetSearch.Proofs.Query.Compilation
import FacetSearch.Proofs.Schema.Walk

/-!
A comparison with a group searches the fields that the group reaches (`compile_group`). Compiling it
follows the walk over the members: each name that the walk meets gets its clause, and the first one
that is no field ends it.
-/

set_option autoImplicit false

namespace FacetSearch

/-- A computation fails with an error, whatever it gives notice of. -/
def Compiling.Fails {α : Type} (computation : Compiling α) (error : CompileError) : Prop :=
  computation.run.result = .error error

namespace Query

theorem fieldNamesOfParts_eq (parts : List Query) :
    fieldNamesOfParts parts = parts.flatMap fieldNames := by
  induction parts with
  | nil => rfl
  | cons part rest ih => rw [fieldNamesOfParts, ih, List.flatMap_cons]

/-- The fields of a query, or none where there is nothing to search. -/
def fieldNames? (query : Option Query) : List String := fieldNamesOfParts query.toList

end Query

namespace Compiling

variable {α β : Type}

theorem fails_bind (computation : Compiling α) (next : α → Compiling β)
    (error : CompileError) : (computation >>= next).Fails error ↔
      computation.Fails error ∨ ∃ between, computation.Returns between ∧
        (next between).Fails error := by
  have unfolded : (computation >>= next).run.result
      = match computation.run.result with
        | .ok between => (next between).run.result
        | .error error => .error error := by
    show (ExceptT.bindCont next computation.run.result).result = _
    cases computation.run.result <;> rfl
  unfold Fails Returns
  rw [unfolded]
  cases computation.run.result <;> simp

/-- A computation searches names one after the other: the first one that is no field makes it fail,
and where all are fields its value searches them. -/
def Searches (catalog : Catalog) (fields : α → List String) (met : List String)
    (computation : Compiling α) : Prop :=
  match met.find? fun name => !catalog.isField name with
  | some name => computation.Fails (.invalidField name)
  | none => ∃ value, computation.Returns value ∧
      fields value = met.map fun name => (catalog.descriptor name).boostedName

variable {catalog : Catalog}

theorem searches_pure {fields : α → List String} {value : α} (none : fields value = []) :
    Searches catalog fields [] (pure value) := ⟨value, rfl, none⟩

theorem Searches.map {fields : α → List String} {shown : β → List String} {met : List String}
    {computation : Compiling α} (searches : Searches catalog fields met computation)
    {make : α → β} (same : ∀ value, shown (make value) = fields value) :
    Searches catalog shown met (computation >>= fun value => pure (make value)) := by
  unfold Searches at searches ⊢
  split at searches
  · exact (fails_bind _ _ _).mpr (.inl searches)
  · obtain ⟨value, returns, named⟩ := searches
    exact ⟨make value, (returns_bind _ _ _).mpr ⟨value, returns, rfl⟩,
      (same value).trans named⟩

/-- Items that are compiled one after the other are searched one after the other. -/
theorem searches_collect_cons {compile : α → Compiling (Option Query)} {item : α}
    {rest : List α} {within met : List String}
    (head : Searches catalog Query.fieldNames? within (compile item))
    (tail : Searches catalog Query.fieldNamesOfParts met (collect compile rest)) :
    Searches catalog Query.fieldNamesOfParts (within ++ met) (collect compile (item :: rest)) := by
  unfold Searches at head tail ⊢
  rw [List.find?_append]
  rw [collect]
  cases first : within.find? fun name => !catalog.isField name with
  | some name =>
      rw [first] at head
      exact (fails_bind _ _ _).mpr (.inl head)
  | none =>
      rw [first] at head
      obtain ⟨query, compiled, named⟩ := head
      cases later : met.find? fun name => !catalog.isField name with
      | some name =>
          rw [later] at tail
          exact (fails_bind _ _ _).mpr
            (.inr ⟨query, compiled, (fails_bind _ _ _).mpr (.inl tail)⟩)
      | none =>
          rw [later] at tail
          obtain ⟨queries, collected, others⟩ := tail
          refine ⟨query.toList ++ queries, (returns_bind _ _ _).mpr ⟨query, compiled,
            (returns_bind _ _ _).mpr ⟨queries, collected, rfl⟩⟩, ?_⟩
          rw [Query.fieldNames?, Query.fieldNamesOfParts_eq] at named
          rw [Query.fieldNamesOfParts_eq] at others
          rw [Query.fieldNamesOfParts_eq, List.flatMap_append, named, others, List.map_append]

/-- A lone item is searched like a list of it. -/
theorem searches_of_collect_singleton {compile : α → Compiling (Option Query)} {item : α}
    {met : List String}
    (searches : Searches catalog Query.fieldNamesOfParts met (collect compile [item])) :
    Searches catalog Query.fieldNames? met (compile item) := by
  unfold Searches at searches ⊢
  split at searches
  · rcases (fails_bind _ _ _).mp searches with failed | ⟨query, _, failed⟩
    · exact failed
    · cases failed
  · obtain ⟨queries, collected, named⟩ := searches
    obtain ⟨query, others, compiled, rest, rfl⟩ := returns_collect_cons collected
    rw [← (returns_pure _ _).mp rest, List.append_nil] at named
    exact ⟨query, compiled, named⟩

end Compiling

namespace Comparison

/-- The operator gets as many arguments as it takes. -/
def HasArguments (comparison : Comparison) : Prop :=
  match comparison.operator with
  | .oneOf | .custom _ => comparison.arguments ≠ []
  | _ => comparison.arguments.length = 1

/-- A value that reads like a search phrase has something in it to search. -/
def HasTerms (comparison : Comparison) : Prop :=
  comparison.operator ∈ [Operator.equal, .unequal] → ∀ value ∈ comparison.arguments,
    Engine.isFreeText (String.ofList (Text.trim value.toList)) = true →
      Segment.ofPhrase (Text.trim value.toList) ≠ []

/-- Text outside quotes that a phrase keeps has words. -/
theorem words_ne_nil_of_mem_ofPhrase {phrase text : List Char}
    (member : Segment.plain text ∈ Segment.ofPhrase phrase) : Text.words text ≠ [] := by
  fun_induction Segment.ofPhrase phrase with
  | case1 => cases member
  | case2 rest parts ih =>
      rcases List.mem_append.mp member with member | member
      · unfold Segment.ofRun? at member
        split at member <;> simp at member
      · exact ih member
  | case3 c rest unquoted ih =>
      rcases List.mem_append.mp member with member | member
      · unfold Segment.ofText? at member
        split at member
        · cases member
        · rename_i visible
          rw [Option.toList_some, List.mem_singleton] at member
          rw [Segment.plain.inj member, Text.words_trim, ne_eq, Text.words_eq_nil_iff]
          exact visible
      · exact ih member

theorem ofPhrase_ne_nil {catalog : Catalog} {name value : String}
    (terms : Segment.ofPhrase value.toList ≠ []) :
    FreeTerm.ofPhrase catalog name value ≠ [] := by
  obtain ⟨segment, member⟩ := List.exists_mem_of_ne_nil _ terms
  intro none
  have silent := List.flatMap_eq_nil_iff.mp none segment member
  cases segment with
  | quoted run => cases silent
  | plain text => exact words_ne_nil_of_mem_ofPhrase member (List.map_eq_nil_iff.mp silent)

/-- What a value with terms says is the same kind of clause on every field. -/
theorem exists_valueClause {catalog : Catalog} {name value : String} {negated : Bool}
    (terms : Engine.isFreeText (String.ofList (Text.trim value.toList)) = true →
      Segment.ofPhrase (Text.trim value.toList) ≠ []) :
    ∃ clause, (valueClause catalog name negated value).result = some clause := by
  unfold valueClause
  by_cases free : Engine.isFreeText (String.ofList (Text.trim value.toList)) = true
  · have searched : FreeTerm.ofPhrase catalog name (String.ofList (Text.trim value.toList))
        ≠ [] := by
      apply ofPhrase_ne_nil
      rw [String.toList_ofList]
      exact terms free
    simp only [free, if_true]
    unfold phraseClause
    cases found : FreeTerm.ofPhrase catalog name (String.ofList (Text.trim value.toList)) with
    | nil => exact absurd found searched
    | cons first rest => exact ⟨_, rfl⟩
  · simp only [free]
    exact ⟨_, rfl⟩

theorem returns_of_argument {α β : Type} {argument : Except CompileError α} {value : α}
    (given : argument = .ok value) {next : α → Compiling β} {result : β}
    (returns : (next value).Returns result) :
    (clause?.liftExcept argument >>= next).Returns result :=
  (Compiling.returns_bind _ _ _).mpr ⟨value, given, returns⟩

theorem someArguments_of_ne_nil {comparison : Comparison} (some : comparison.arguments ≠ [])
    (name : String) : comparison.someArguments name = .ok comparison.arguments := by
  unfold someArguments
  split
  · contradiction
  · rfl

/-- A comparison with the right number of arguments and something to search says something about
every field. -/
theorem exists_clause? {comparison : Comparison} (given : comparison.HasArguments)
    (terms : comparison.HasTerms) (catalog : Catalog) (name : String) :
    ∃ clause, (comparison.clause? catalog name).Returns (some clause) := by
  obtain ⟨field, operator, arguments⟩ := comparison
  cases operator with
  | equal | unequal =>
      obtain ⟨value, rfl⟩ := List.length_eq_one_iff.mp given
      obtain ⟨clause, made⟩ :=
        exists_valueClause (terms (by simp) value (List.mem_singleton_self _))
      exact ⟨clause, returns_of_argument rfl ((Compiling.returns_lift _ _).mpr made)⟩
  | above | atLeast | below | atMost =>
      obtain ⟨value, rfl⟩ := List.length_eq_one_iff.mp given
      exact ⟨_, returns_of_argument rfl rfl⟩
  | oneOf | custom symbol =>
      exact ⟨_, returns_of_argument (someArguments_of_ne_nil given _) rfl⟩

variable {catalog : Catalog} {comparison : Comparison}

open Compiling (Searches)

theorem searches_field
    (stated : ∀ name, ∃ clause, (comparison.clause? catalog name).Returns (some clause))
    (name : String) :
    Searches catalog Query.fieldNames? [name] (compileOn catalog comparison (.field name)) := by
  unfold Searches compileOn
  by_cases valid : catalog.isField name = true
  · obtain ⟨clause, returns⟩ := stated name
    simp only [List.find?_cons, valid, Bool.not_true, List.find?_nil, if_true]
    exact ⟨_, (Compiling.returns_bind _ _ _).mpr ⟨_, returns, rfl⟩, rfl⟩
  · simp only [List.find?_cons, valid, Bool.not_false]
    rfl

theorem searches_silent {selection : Selection}
    (silent : (∃ name, selection = .recurring name) ∨ ∃ name, selection = .memberless name) :
    Searches catalog Query.fieldNames? [] (compileOn catalog comparison selection) := by
  rcases silent with ⟨name, rfl⟩ | ⟨name, rfl⟩
  all_goals
    unfold compileOn
    exact ⟨none, (Compiling.returns_bind _ _ _).mpr ⟨(), rfl, rfl⟩, rfl⟩

theorem searches_group {name : String} {members : List Selection} {within : List String}
    (below : Searches catalog Query.fieldNamesOfParts within
      (Compiling.collect (compileOn catalog comparison) members)) :
    Searches catalog Query.fieldNames? within
      (compileOn catalog comparison (.group name members)) := by
  have enclosed : compileOn catalog comparison (.group name members)
      = Compiling.collect (compileOn catalog comparison) members >>= fun parts =>
          pure (Compiling.enclose? .group parts) := by
    unfold compileOn
    rw [compileOnAll_eq]
    refine congrArg _ (funext fun parts => ?_)
    cases parts <;> rfl
  rw [enclosed]
  refine below.map fun parts => ?_
  cases parts with
  | nil => rfl
  | cons first rest =>
      simp [Query.fieldNames?, Compiling.enclose?, Query.fieldNamesOfParts, Query.fieldNames]

theorem expand_of_plain {name : String} (plain : catalog.groups.get? name = none)
    (opened : List String) : Selection.expand catalog opened name = .field name := by
  rw [Selection.expand]
  split
  · rfl
  · rename_i known
    rw [plain] at known
    cases known

theorem expand_of_group {name : String} {members : List String}
    (known : catalog.groups.get? name = some members) (opened : List String) :
    Selection.expand catalog opened name
      = if opened.contains name then .recurring name
        else if members.isEmpty then .memberless name
        else .group name (members.map (Selection.expand catalog (name :: opened))) := by
  rw [Selection.expand]
  split
  · rename_i plain
    rw [plain] at known
    cases known
  · rename_i others same
    rw [known] at same
    rw [Option.some.inj same]
    split <;> rfl

/-- What is said about a name inside the open groups. -/
def compileInside (catalog : Catalog) (comparison : Comparison) (opened : List String)
    (name : String) : Compiling (Option Query) :=
  compileOn catalog comparison (.expand catalog opened name)

/-- What is said about several names searches the names that a walk over them meets. -/
theorem searches_walk
    (stated : ∀ name, ∃ clause, (comparison.clause? catalog name).Returns (some clause))
    {opened names met : List String} (walk : catalog.groups.Walks opened names met) :
    Searches catalog Query.fieldNamesOfParts met
      (Compiling.collect (compileInside catalog comparison opened) names) := by
  induction walk with
  | done => exact Compiling.searches_pure rfl
  | @meet opened rest met name plain _ ih =>
      have head : Searches catalog Query.fieldNames? [name]
          (compileInside catalog comparison opened name) := by
        rw [compileInside, expand_of_plain plain]
        exact searches_field stated name
      exact Compiling.searches_collect_cons head ih
  | @skip opened members rest met name known inside _ ih =>
      have head : Searches catalog Query.fieldNames? []
          (compileInside catalog comparison opened name) := by
        rw [compileInside, expand_of_group known, if_pos (by simpa using inside)]
        exact searches_silent (.inl ⟨name, rfl⟩)
      exact Compiling.searches_collect_cons head ih
  | @enter opened members rest within met name known outside below _ ihBelow ihOnward =>
      have head : Searches catalog Query.fieldNames? within
          (compileInside catalog comparison opened name) := by
        rw [compileInside, expand_of_group known, if_neg (by simpa using outside)]
        cases members with
        | nil =>
            cases below
            exact searches_silent (.inr ⟨name, rfl⟩)
        | cons first others =>
            apply searches_group
            rw [Compiling.collect_map]
            exact ihBelow
      exact Compiling.searches_collect_cons head ihOnward

end Comparison

theorem nodup_eraseDups {α : Type} [BEq α] [LawfulBEq α] (list : List α) :
    list.eraseDups.Nodup := by
  induction count : list.length using Nat.strongRecOn generalizing list with
  | ind count ih =>
      cases list with
      | nil => simp
      | cons first rest =>
          have shorter := List.length_filter_le (fun other => !other == first) rest
          rw [List.eraseDups_cons, List.nodup_cons]
          refine ⟨by simp, ih _ ?_ _ rfl⟩
          rw [List.length_cons] at count
          omega

theorem CompiledQuery.fields_ofQuery? (query : Option Query) :
    (CompiledQuery.ofQuery? query).fields = (Query.fieldNames? query).eraseDups := by
  cases query with
  | none => rfl
  | some query => simp [CompiledQuery.ofQuery?, Query.fieldNames?, Query.fieldNamesOfParts]

namespace Expression

/-- The query of a comparison searches the names that a walk from its own name meets. -/
theorem searches_compile (catalog : Catalog) {comparison : Comparison}
    (given : comparison.HasArguments) (terms : comparison.HasTerms) {met : List String}
    (walk : catalog.groups.Walks [] [comparison.field] met) :
    Compiling.Searches catalog Query.fieldNames? met
      ((Expression.comparison comparison).toQuery? catalog) :=
  Compiling.searches_of_collect_singleton
    (Comparison.searches_walk (comparison.exists_clause? given terms catalog) walk)

theorem returns_compile {catalog : Catalog} {expression : Expression} {query : Option Query}
    (returns : (expression.toQuery? catalog).Returns query) :
    (expression.compile catalog).Returns (.ofQuery? query) :=
  (Compiling.returns_bind _ _ _).mpr ⟨query, returns, rfl⟩

theorem fails_compile {catalog : Catalog} {expression : Expression} {error : CompileError}
    (fails : (expression.toQuery? catalog).Fails error) :
    (expression.compile catalog).Fails error :=
  (Compiling.fails_bind _ _ _).mpr (.inl fails)

/-- A comparison searches the fields that its name reaches through groups, each one once, in the
order in which a depth-first walk over the members first meets them. The walk ends, and the first
name on it that is neither a group nor a field makes the comparison fail. -/
theorem compile_comparison (schema : Schema) {comparison : Comparison}
    (given : comparison.HasArguments) (terms : comparison.HasTerms) :
    let compiling := compile schema.catalog (.comparison comparison)
    let boostedName (name : String) := (schema.catalog.descriptor name).boostedName
    ∃ met, (∀ walked, schema.groups.Walks [] [comparison.field] walked ↔ walked = met) ∧
      (∀ name, name ∈ met ↔
        schema.groups.Reaches comparison.field name ∧ schema.groups.contains name = false) ∧
      ((∀ name, schema.groups.Reaches comparison.field name →
          schema.groups.contains name = true ∨ schema.fields.contains name = true) →
        ∃ compiled, compiling.Returns compiled ∧
          compiled.fields = (met.map boostedName).eraseDups ∧ compiled.fields.Nodup ∧
          ∀ boosted, boosted ∈ compiled.fields ↔
            ∃ name, schema.groups.Reaches comparison.field name ∧
              schema.groups.contains name = false ∧ boostedName name = boosted) ∧
      ((∃ name, schema.groups.Reaches comparison.field name ∧
          schema.groups.contains name = false ∧ schema.fields.contains name = false) →
        ∃ name, met.find? (fun name => !schema.fields.contains name) = some name ∧
          compiling.Fails (.invalidField name)) := by
  intro compiling boostedName
  obtain ⟨met, walk⟩ := Groups.exists_walk schema.groups [] [comparison.field]
  have reached : ∀ name, name ∈ met ↔
      schema.groups.Reaches comparison.field name ∧ schema.groups.contains name = false := by
    intro name
    rw [walk.mem_iff, Groups.reachesAround_nil]
    simp only [List.mem_singleton, exists_eq_left, Dict.contains, Option.isSome_eq_false_iff,
      Option.isNone_iff_eq_none]
    exact and_comm
  have searches := searches_compile schema.catalog given terms walk
  refine ⟨met, fun walked => ⟨walk.unique, fun same => same ▸ walk⟩, reached, ?_, ?_⟩
  · intro known
    have none : met.find? (fun name => !schema.catalog.isField name) = none := by
      refine List.find?_eq_none.mpr fun name member => ?_
      obtain ⟨through, plain⟩ := (reached name).mp member
      have valid := (known name through).resolve_left (by simp [plain])
      simpa [Schema.catalog] using valid
    unfold Compiling.Searches at searches
    rw [none] at searches
    obtain ⟨query, returns, named⟩ := searches
    have fields : (CompiledQuery.ofQuery? query).fields = (met.map boostedName).eraseDups := by
      rw [CompiledQuery.fields_ofQuery?, named]
    refine ⟨_, returns_compile returns, fields, ?_, fun boosted => ?_⟩
    · rw [fields]
      exact nodup_eraseDups _
    · rw [fields, List.mem_eraseDups, List.mem_map]
      simp only [reached, and_assoc]
  · rintro ⟨unknown, through, plain, invalid⟩
    unfold Compiling.Searches at searches
    cases first : met.find? fun name => !schema.catalog.isField name with
    | none =>
        have valid :=
          List.find?_eq_none.mp first unknown ((reached unknown).mpr ⟨through, plain⟩)
        simp [Schema.catalog, invalid] at valid
    | some name =>
        rw [first] at searches
        exact ⟨name, first, fails_compile searches⟩

/-- Groups that contain each other and themselves, one of them twice in the other. -/
theorem compile_comparison_cyclic :
    let schema : Schema :=
      { fields := ⟨[("a", { boost := some (.ofInt .single 2) }), ("b", {})], by decide⟩
        groups := ⟨[("g", ["h", "a", "h", "g"]), ("h", ["b", "g", "a"])], by decide⟩ }
    let comparison : Comparison := ⟨"g", .equal, ["x y"]⟩
    (comparison.HasArguments ∧ comparison.HasTerms) ∧
      schema.groups.Walks [] ["g"] ["b", "a", "a", "b", "a"] ∧
      ∃ compiled, (compile schema.catalog (.comparison comparison)).Returns compiled ∧
        compiled.fields = ["b", "a^2.0"] := by
  intro schema comparison
  have given : comparison.HasArguments := rfl
  have terms : comparison.HasTerms := by
    intro _ value member _
    rw [List.mem_singleton.mp member]
    decide +kernel
  have below : schema.groups.Walks ["g"] ["h", "a", "h", "g"] ["b", "a", "a", "b", "a"] := by
    have inner : schema.groups.Walks ["h", "g"] ["b", "g", "a"] ["b", "a"] :=
      .meet rfl (.skip rfl (by decide) (.meet rfl (.done _)))
    exact .enter rfl (by decide) inner
      (.meet rfl (.enter rfl (by decide) inner (.skip rfl (by decide) (.done _))))
  have walk : schema.groups.Walks [] ["g"] ["b", "a", "a", "b", "a"] :=
    .enter rfl (by decide) below (.done _)
  have closed : ∀ name, schema.groups.Reaches "g" name → name ∈ ["g", "h", "a", "b"] := by
    intro name reached
    induction reached with
    | refl => decide
    | tail _ step ih =>
        obtain ⟨members, known, member⟩ := step
        simp only [List.mem_cons, List.not_mem_nil, or_false] at ih
        rcases ih with rfl | rfl | rfl | rfl <;> cases known
        all_goals
          simp only [List.mem_cons, List.not_mem_nil, or_false] at member ⊢
          tauto
  obtain ⟨met, walks, _, succeeds, _⟩ := compile_comparison schema given terms
  obtain ⟨compiled, returns, fields, _⟩ := succeeds fun name reached => by
    have among := closed name reached
    simp only [List.mem_cons, List.not_mem_nil, or_false] at among
    rcases among with rfl | rfl | rfl | rfl <;> decide
  refine ⟨⟨given, terms⟩, walk, compiled, returns, ?_⟩
  rw [fields, ← (walks _).mp walk]
  decide +kernel

end Expression

end FacetSearch
