import FacetSearch.Proofs.Expression.RoundTrip
import FacetSearch.Proofs.Query.Compilation

/-!
The text of a query keeps the structure of the expression that it was compiled from
(`read?_compileText`). The one thing in the way is an operator of its own with "AND" or "OR" as its
only argument, where another part follows: operators and arguments of this kind are passed through
as they are, and a joint behind the word makes it a joint, too (`read?_compileText_joiningWord`).
-/

set_option autoImplicit false

namespace FacetSearch

namespace Comparison

/-- The symbol of an operator that has been read has no meaning in a query. -/
theorem Writable.symbol {leaf : Comparison} (writable : leaf.Writable) {symbol : String}
    (custom : leaf.operator = .custom symbol) :
    ∃ letters, symbol.toList = '=' :: letters ∧ ∀ c ∈ letters, c ∉ Piece.structural := by
  have accepted := writable.accepted
  rw [custom] at accepted
  obtain ⟨⟨letters, _, spelled, alphabetic⟩, _⟩ := accepted
  refine ⟨letters ++ ['='], spelled, fun c member structural => ?_⟩
  have others : ∀ d ∈ Piece.structural, d.isAlpha = false ∧ d ≠ '=' :=
    Text.forall_of_all (by decide)
  obtain ⟨unlettered, unequal⟩ := others c structural
  rcases List.mem_append.mp member with member | member
  · rw [alphabetic c member] at unlettered
    cases unlettered
  · exact unequal (List.mem_singleton.mp member)

end Comparison

namespace Expression

theorem Populated.of_mem_comparisons {good : Comparison → Prop} {expression : Expression}
    (populated : expression.Populated good) : ∀ leaf ∈ expression.comparisons, good leaf := by
  induction populated with
  | @node kind parts inhabited each ih =>
      intro leaf member
      rw [comparisons_node, List.mem_flatMap] at member
      obtain ⟨part, held, inside⟩ := member
      exact ih part held leaf inside
  | @comparison leaf holds =>
      intro other member
      rw [List.mem_singleton.mp member]
      exact holds

theorem compileText_returns {catalog : Catalog} {input : String} {expression : Expression}
    (parsed : parse input = .ok (some expression)) {compiled : CompiledQuery}
    (done : (compileText catalog input).Returns (some compiled)) :
    ∃ query, (expression.toQuery? catalog).Returns query ∧ compiled = .ofQuery? query := by
  unfold compileText at done
  rw [parsed] at done
  obtain ⟨given, found, same⟩ := (Compiling.returns_bind _ _ _).mp done
  obtain ⟨query, returns, made⟩ := (Compiling.returns_bind _ _ _).mp found
  rw [Compiling.returns_pure] at same made
  rw [← Option.some.inj same, ← made]
  exact ⟨query, returns, rfl⟩

/-- Whether in the query for an expression no part whose text ends in a word that joins clauses
stands before another part. -/
def isApart (catalog : Catalog) (expression : Expression) : Bool :=
  match (expression.toQuery? catalog).run.result with
  | .ok (some query) => query.isApart
  | _ => true

theorem isApart_of_returns {catalog : Catalog} {expression : Expression} {query : Query}
    (apart : expression.isApart catalog = true)
    (returns : (expression.toQuery? catalog).Returns (some query)) : query.isApart = true := by
  unfold isApart at apart
  rw [show (expression.toQuery? catalog).run.result = .ok (some query) from returns] at apart
  exact apart

/-- The query that an expression is compiled to is read as the tree of the expression: names stand
for their fields, search phrases for their terms, and what says nothing is left out. -/
theorem read?_compileText {schema : Schema} (names : schema.HasNames) {input : String}
    {expression : Expression} (parsed : parse input = .ok (some expression))
    (arguments : ∀ leaf ∈ expression.comparisons, leaf.HasNames)
    (apart : expression.isApart schema.catalog = true) {compiled : CompiledQuery}
    (done : (compileText schema.catalog input).Returns (some compiled)) :
    Outline.read? compiled.query = expression.outline? schema.catalog ∧
      (compiled.query = "" ↔ expression.outline? schema.catalog = none) := by
  obtain ⟨populated, flat⟩ := writable_of_parse parsed
  have readable : expression.Readable := by
    intro leaf member
    have writable := populated.of_mem_comparisons leaf member
    exact ⟨arguments leaf member, fun _ custom => writable.symbol custom⟩
  obtain ⟨result, returns, rfl⟩ := compileText_returns parsed done
  rw [← outline_toQuery? names.catalog readable returns]
  cases result with
  | none =>
      refine ⟨?_, ?_⟩
      · simp [CompiledQuery.ofQuery?, Outline.read?]
      · simp [CompiledQuery.ofQuery?]
  | some query =>
      have legible := legible_toQuery? names.catalog readable returns
      have alternates := (alternates_toQuery? flat returns).1
      have separate := isApart_of_returns apart returns
      have written := Query.write_ne_empty alternates legible separate
      refine ⟨Query.read?_write alternates legible separate, fun empty =>
        absurd empty written, ?_⟩
      exact fun silent => absurd silent (Option.some_ne_none _)

/-- A group inside itself, a phrase with a joint in it, and an operator of its own with the argument
"OR", once before a boost and once at the end of its parentheses. -/
theorem read?_compileText_recurringGroup :
    let schema : Schema :=
      { fields := ⟨[("a", { boost := some (.finite false 2 0), exactVariant := some "a-exact" }),
          ("b", {})], by decide⟩
        groups := ⟨[("g", ["a", "g", "b"])], by decide⟩ }
    let input := "a=='x \"y OR z\"';g=near=OR,b!=3"
    let expression : Expression := .any [.all [.comparison ⟨"a", .equal, ["x \"y OR z\""]⟩,
      .comparison ⟨"g", .custom "=near=", ["OR"]⟩], .comparison ⟨"b", .unequal, ["3"]⟩]
    let query := "((a:x AND a-exact:\"y OR z\")^2.0 AND (a =near= OR^2.0 OR b =near= OR))" ++
      " OR -b:3"
    (schema.HasNames ∧ parse input = .ok (some expression) ∧
      (∀ leaf ∈ expression.comparisons, leaf.HasNames) ∧
      expression.isApart schema.catalog = true ∧
      (compileText schema.catalog input).Returns (some ⟨query, ["a^2.0", "b"]⟩)) ∧
    Outline.read? query = expression.outline? schema.catalog ∧
      (query = "" ↔ expression.outline? schema.catalog = none) := by
  intro schema input expression query
  have names : schema.HasNames := ⟨by decide, by decide, by decide⟩
  have parsed : parse input = .ok (some expression) := by decide +kernel
  have leaves : expression.comparisons = [⟨"a", .equal, ["x \"y OR z\""]⟩,
      ⟨"g", .custom "=near=", ["OR"]⟩, ⟨"b", .unequal, ["3"]⟩] := rfl
  have arguments : ∀ leaf ∈ expression.comparisons, leaf.HasNames := by
    rw [leaves]
    decide
  have apart : expression.isApart schema.catalog = true := by decide +kernel
  have done : (compileText schema.catalog input).Returns (some ⟨query, ["a^2.0", "b"]⟩) := by
    show (compileText schema.catalog input).run.result = _
    decide +kernel
  exact ⟨⟨names, parsed, arguments, apart, done⟩,
    read?_compileText names parsed arguments apart done⟩

/-- A joint behind an argument that is the word "OR" makes the argument a joint, and what was a
conjunction is read as a disjunction. -/
theorem read?_compileText_joiningWord :
    let schema : Schema := { fields := ⟨[("a", {}), ("b", {})], by decide⟩ }
    let input := "a=near=OR;b==1"
    let expression : Expression := .all [.comparison ⟨"a", .custom "=near=", ["OR"]⟩,
      .comparison ⟨"b", .equal, ["1"]⟩]
    let query := "a =near= OR AND b:1"
    (schema.HasNames ∧ parse input = .ok (some expression) ∧
      (∀ leaf ∈ expression.comparisons, leaf.HasNames) ∧
      (compileText schema.catalog input).Returns (some ⟨query, ["a", "b"]⟩)) ∧
    expression.outline? schema.catalog
      = some (.node .all [.leaf "a =near= OR".toList, .leaf "b:1".toList]) ∧
    Outline.read? query
      = some (.node .any [.leaf "a =near=".toList, .leaf "AND b:1".toList]) := by
  intro schema input expression query
  have names : schema.HasNames := ⟨by decide, by decide, by decide⟩
  have parsed : parse input = .ok (some expression) := by decide +kernel
  have arguments : ∀ leaf ∈ expression.comparisons, leaf.HasNames := by
    have leaves : expression.comparisons
        = [⟨"a", .custom "=near=", ["OR"]⟩, ⟨"b", .equal, ["1"]⟩] := rfl
    rw [leaves]
    decide
  have done : (compileText schema.catalog input).Returns (some ⟨query, ["a", "b"]⟩) := by
    show (compileText schema.catalog input).run.result = _
    decide +kernel
  exact ⟨⟨names, parsed, arguments, done⟩, by decide +kernel, by decide +kernel⟩

end Expression

end FacetSearch
