import FacetSearch.Proofs.Query.Grouping

/-!
Grouping by parentheses, for expressions of every shape: also for nodes below nodes of the same
kind, around a lone part, or without parts, which are never read from a text.

`keepsGrouping_iff` says for which expressions the compiled text keeps the grouping. It is lost
below a node whose part of the other kind has one part left, if this is a node of the same kind
again and comes to several parts: parentheses are written for what a node counts as its own parts,
and that is one (`keepsGrouping_fails`).
-/

set_option autoImplicit false

namespace FacetSearch

namespace Expression

/-- The expressions inside an expression. -/
inductive Contains : Expression → Expression → Prop
  | itself (expression : Expression) : Contains expression expression
  | node (kind : Junction) {parts : List Expression} {part inner : Expression}
      (member : part ∈ parts) (within : Contains part inner) : Contains (kind.node parts) inner

/-- The parts in which there is something to search. -/
def left (catalog : Catalog) (parts : List Expression) : List Expression :=
  parts.filter fun part => (part.outline? catalog).isSome

/-- Nodes that come to several parts: several are left, or the lone part that is left is a node of
the same kind that comes to several. -/
inductive Spreads (catalog : Catalog) (kind : Junction) : Expression → Prop
  | several {parts : List Expression} (several : 1 < (left catalog parts).length) :
      Spreads catalog kind (kind.node parts)
  | lone {parts : List Expression} {only : Expression} (alone : left catalog parts = [only])
      (spreads : Spreads catalog kind only) : Spreads catalog kind (kind.node parts)

/-- No node below one of the other kind is left with a lone part that is a node of its own kind and
comes to several parts. -/
def Tight (catalog : Catalog) (expression : Expression) : Prop :=
  ∀ (kind : Junction) parts inner only, expression.Contains (kind.node parts) →
    kind.other.node inner ∈ parts → left catalog inner = [only] →
    ¬ only.Spreads catalog kind.other

/-- What is written for a node below one of the other kind is one part, or has parentheses
around. -/
def Enclosed (catalog : Catalog) (expression : Expression) : Prop :=
  ∀ (kind : Junction) parts inner query, expression.Contains (kind.node parts) →
    kind.other.node inner ∈ parts →
    ((kind.other.node inner).toQuery? catalog).Returns (some query) →
    Query.StandsAlone (query.write kind.place)

variable {catalog : Catalog}

theorem left_cons (part : Expression) (rest : List Expression) :
    left catalog (part :: rest)
      = if (part.outline? catalog).isSome then part :: left catalog rest else left catalog rest :=
  List.filter_cons

/-- The parts that are left are those that have queries, in order. -/
theorem forall₂_left (names : catalog.HasNames) {parts : List Expression}
    (readable : ∀ part ∈ parts, part.Readable) {queries : List Query}
    (returns : (Compiling.collect (toQuery? catalog) parts).Returns queries) :
    List.Forall₂ (fun part query => (part.toQuery? catalog).Returns (some query))
      (left catalog parts) queries := by
  induction parts generalizing queries with
  | nil =>
      rw [← (Compiling.returns_pure _ _).mp returns]
      exact .nil
  | cons part rest ih =>
      obtain ⟨result, others, first, onward, rfl⟩ := Compiling.returns_collect_cons returns
      have tree := outline_toQuery? names (readable part List.mem_cons_self) first
      have tail := ih (fun other member => readable other (List.mem_cons_of_mem _ member)) onward
      cases result with
      | none =>
          have silent : ¬ (part.outline? catalog).isSome = true := by simp [← tree]
          rw [left_cons, if_neg silent]
          exact tail
      | some query =>
          have heard : (part.outline? catalog).isSome = true := by simp [← tree]
          rw [left_cons, if_pos heard]
          exact .cons first tail

/-- Only nodes compile to nodes. -/
theorem exists_node_of_returns {expression : Expression} {kind : Junction} {queries : List Query}
    (returns : (expression.toQuery? catalog).Returns (some (kind.query queries))) :
    ∃ parts, expression = kind.node parts ∧
      (Compiling.collect (toQuery? catalog) parts).Returns queries := by
  induction expression using inductionOnNodes with
  | node own parts _ =>
      obtain ⟨found, collected, same⟩ := toQuery?_node returns
      obtain ⟨_, equal⟩ := Compiling.enclose?_eq_some same.symm
      obtain ⟨rfl, rfl⟩ := Junction.query_inj equal
      exact ⟨parts, rfl, collected⟩
  | comparison leaf =>
      exact absurd rfl ((Comparison.alternates_compileOn returns).2 kind queries)

theorem spreads_iff (names : catalog.HasNames) {expression : Expression}
    (readable : expression.Readable) {query : Query}
    (returns : (expression.toQuery? catalog).Returns (some query)) (kind : Junction) :
    expression.Spreads catalog kind ↔ query.Spreads kind := by
  constructor
  · intro spreads
    induction spreads generalizing query with
    | @several parts several =>
        obtain ⟨queries, found, same⟩ := toQuery?_node returns
        obtain ⟨_, rfl⟩ := Compiling.enclose?_eq_some same.symm
        have counted := (forall₂_left names readable.of_node found).length_eq
        exact .several (by omega)
    | @lone parts only alone spreads ih =>
        obtain ⟨queries, found, same⟩ := toQuery?_node returns
        obtain ⟨_, rfl⟩ := Compiling.enclose?_eq_some same.symm
        have paired := forall₂_left names readable.of_node found
        rw [alone] at paired
        cases paired with
        | cons first rest =>
            cases rest
            have held : only ∈ left catalog parts := by simp [alone]
            exact .lone (ih (readable.of_node only (List.mem_of_mem_filter held)) first)
  · intro spreads
    induction spreads generalizing expression with
    | @several queries several =>
        obtain ⟨parts, rfl, found⟩ := exists_node_of_returns returns
        have counted := (forall₂_left names readable.of_node found).length_eq
        exact .several (by omega)
    | @lone only spreads ih =>
        obtain ⟨parts, rfl, found⟩ := exists_node_of_returns returns
        have paired := forall₂_left names readable.of_node found
        generalize alone : left catalog parts = kept at paired
        cases paired with
        | @cons part _ _ _ first rest =>
            cases rest
            have held : part ∈ left catalog parts := by simp [alone]
            exact .lone alone (ih (readable.of_node part (List.mem_of_mem_filter held)) first)

theorem Readable.of_contains {expression inner : Expression} (readable : expression.Readable)
    (within : expression.Contains inner) : inner.Readable := by
  induction within with
  | itself => exact readable
  | node kind member _ ih => exact ih (readable.of_node _ member)

theorem Contains.trans {first second third : Expression} (one : first.Contains second)
    (other : second.Contains third) : first.Contains third := by
  induction one with
  | itself => exact other
  | node kind member _ ih => exact .node kind member (ih other)

/-- What is inside an expression compiles with it, to a tree inside its tree. -/
theorem returns_of_contains {expression inner : Expression} (within : expression.Contains inner)
    {result : Option Query} (returns : (expression.toQuery? catalog).Returns result) :
    ∃ found, (inner.toQuery? catalog).Returns found ∧
      ∀ part ∈ found, ∃ query ∈ result, query.Contains part := by
  induction within generalizing result with
  | itself => exact ⟨result, returns, fun part member => ⟨part, member, .itself part⟩⟩
  | @node kind parts part inner member _ ih =>
      obtain ⟨queries, collected, rfl⟩ := toQuery?_node returns
      obtain ⟨middle, compiles, held⟩ := Compiling.exists_of_mem_items collected part member
      obtain ⟨found, deeper, contained⟩ := ih compiles
      refine ⟨found, deeper, fun tree same => ?_⟩
      obtain ⟨query, among, below⟩ := contained tree same
      have present := held query among
      have inhabited := List.ne_nil_of_mem present
      refine ⟨kind.query queries, ?_, .node kind present below⟩
      cases queries with
      | nil => exact absurd rfl inhabited
      | cons first rest => rfl

/-- Every node inside the tree of an expression comes from a node inside the expression. -/
theorem contains_of_returns {expression : Expression} {query inner : Query}
    (within : query.Contains inner) (returns : (expression.toQuery? catalog).Returns (some query)) :
    ∃ source, expression.Contains source ∧ (source.toQuery? catalog).Returns (some inner) := by
  induction within generalizing expression with
  | itself => exact ⟨expression, .itself _, returns⟩
  | node kind member _ ih =>
      obtain ⟨parts, rfl, found⟩ := exists_node_of_returns returns
      obtain ⟨part, held, compiles⟩ := Compiling.exists_of_mem_collect found _ member
      obtain ⟨source, deeper, same⟩ := ih compiles
      exact ⟨source, .node kind held deeper, same⟩

/-- A node below a node in the tree of an expression is one in the expression. -/
theorem exists_edge {expression : Expression} {query : Query}
    (returns : (expression.toQuery? catalog).Returns (some query)) {kind : Junction}
    {queries inner : List Query} (within : query.Contains (kind.query queries))
    (member : kind.other.query inner ∈ queries) :
    ∃ parts sources, expression.Contains (kind.node parts) ∧
      kind.other.node sources ∈ parts ∧
      ((kind.other.node sources).toQuery? catalog).Returns (some (kind.other.query inner)) ∧
      (Compiling.collect (toQuery? catalog) sources).Returns inner := by
  obtain ⟨source, contained, compiles⟩ := contains_of_returns within returns
  obtain ⟨parts, rfl, found⟩ := exists_node_of_returns compiles
  obtain ⟨part, held, same⟩ := Compiling.exists_of_mem_collect found _ member
  obtain ⟨sources, rfl, collected⟩ := exists_node_of_returns same
  exact ⟨parts, sources, contained, held, same, collected⟩

/-- A node below a node of an expression, where there is something to search, is one in its tree. -/
theorem edge_of_returns {expression : Expression} {kind : Junction}
    {parts sources : List Expression} (within : expression.Contains (kind.node parts))
    (member : kind.other.node sources ∈ parts) {part : Query}
    (compiles : ((kind.other.node sources).toQuery? catalog).Returns (some part))
    {result : Option Query} (returns : (expression.toQuery? catalog).Returns result) :
    ∃ query ∈ result, ∃ queries, query.Contains (kind.query queries) ∧
      part ∈ queries := by
  obtain ⟨found, above, contained⟩ := returns_of_contains within returns
  obtain ⟨queries, collected, rfl⟩ := toQuery?_node above
  obtain ⟨middle, again, held⟩ := Compiling.exists_of_mem_items collected _ member
  rw [again.unique compiles] at held
  have present := held part rfl
  cases queries with
  | nil => cases present
  | cons first rest =>
      obtain ⟨query, among, below⟩ := contained (kind.query (first :: rest)) rfl
      exact ⟨query, among, first :: rest, below, present⟩

/-- An expression is tight exactly if its tree is. -/
theorem tight_iff (names : catalog.HasNames) {expression : Expression}
    (readable : expression.Readable) {result : Option Query}
    (returns : (expression.toQuery? catalog).Returns result) :
    expression.Tight catalog ↔ ∀ query ∈ result, query.Tight := by
  constructor
  · rintro tight query rfl kind queries only within member spreads
    obtain ⟨parts, sources, contained, held, compiles, collected⟩ :=
      exists_edge returns within member
    have inner := (readable.of_contains contained).of_node _ held
    have paired := forall₂_left names inner.of_node collected
    generalize alone : left catalog sources = kept at paired
    cases paired with
    | @cons source _ _ _ first rest =>
        cases rest
        have among : source ∈ left catalog sources := by simp [alone]
        have below := inner.of_node source (List.mem_of_mem_filter among)
        exact tight kind parts sources source contained held alone
          ((spreads_iff names below first kind.other).mpr spreads)
  · intro tight kind parts sources only within member alone spreads
    have inner := (readable.of_contains within).of_node _ member
    obtain ⟨found, compiles, _⟩ :=
      returns_of_contains (within.trans (.node kind member (.itself _))) returns
    obtain ⟨queries, collected, rfl⟩ := toQuery?_node compiles
    have paired := forall₂_left names inner.of_node collected
    rw [alone] at paired
    cases paired with
    | @cons _ query _ _ first rest =>
        cases rest
        obtain ⟨tree, among, others, below, present⟩ :=
          edge_of_returns within member compiles returns
        have among' : only ∈ left catalog sources := by simp [alone]
        have readable' := inner.of_node only (List.mem_of_mem_filter among')
        exact tight tree among kind others query below present
          ((spreads_iff names readable' first kind.other).mp spreads)

/-- The text of an expression encloses its nodes exactly if that of its tree does. -/
theorem enclosed_iff {expression : Expression} {result : Option Query}
    (returns : (expression.toQuery? catalog).Returns result) :
    expression.Enclosed catalog ↔ ∀ query ∈ result, query.Enclosed := by
  constructor
  · rintro enclosed query rfl kind queries inner within member
    obtain ⟨parts, sources, contained, held, compiles, _⟩ :=
      exists_edge returns within member
    exact enclosed kind parts sources _ contained held compiles
  · intro enclosed kind parts sources part within member compiles
    obtain ⟨query, among, queries, below, present⟩ :=
      edge_of_returns within member compiles returns
    obtain ⟨inner, _, same⟩ := toQuery?_node compiles
    obtain ⟨_, rfl⟩ := Compiling.enclose?_eq_some same.symm
    exact enclosed query among kind queries inner below present

/-- Normal forms are tight, and so is everything that is read from a text. -/
theorem tight_of_isFlat {expression : Expression} (flat : expression.IsFlat) :
    expression.Tight catalog := by
  have of_contains : ∀ {inner : Expression}, expression.Contains inner → inner.IsFlat := by
    intro inner within
    induction within with
    | itself => exact flat
    | node kind member _ ih => exact ih (flat.of_node.2 _ member).1
  intro kind parts inner only within member alone spreads
  have node := ((of_contains within).of_node.2 _ member).1
  have held : only ∈ inner := by
    have kept : only ∈ left catalog inner := by simp [alone]
    exact List.mem_of_mem_filter kept
  have unlike := (node.of_node.2 only held).2
  cases spreads with
  | several => exact unlike _ rfl
  | lone => exact unlike _ rfl

/-- No level of parentheses of a text has joints of both kinds. -/
def LevelsAgree (text : String) : Prop :=
  ∃ pieces, Piece.ofText? text.toList = some pieces ∧ Piece.Uniform pieces

theorem readable_of_operators {expression : Expression}
    (operators : ∀ leaf ∈ expression.comparisons,
      leaf.operator ∈ [Operator.equal, .unequal, .oneOf]) : expression.Readable := by
  intro leaf member
  have quoted := operators leaf member
  have notCustom : ∀ symbol, leaf.operator ≠ .custom symbol := by
    intro symbol custom
    rw [custom] at quoted
    simp at quoted
  exact ⟨fun other => absurd quoted other, fun symbol custom =>
    absurd custom (notCustom symbol)⟩

theorem isApart_of_operators {expression : Expression}
    (operators : ∀ leaf ∈ expression.comparisons,
      leaf.operator ∈ [Operator.equal, .unequal, .oneOf]) {query : Query}
    (returns : (expression.toQuery? catalog).Returns (some query)) : query.isApart = true := by
  have quoted : query.Every fun field body => body.endsInJoint field = false :=
    every_toQuery? (fun leaf member =>
      Comparison.makes_endsInJoint catalog (operators leaf member)) returns
  exact quoted.isApart_eq

theorem compile_returns {catalog : Catalog} {expression : Expression} {compiled : CompiledQuery}
    (done : (expression.compile catalog).Returns compiled) :
    ∃ result, (expression.toQuery? catalog).Returns result ∧ compiled = .ofQuery? result := by
  obtain ⟨result, returns, same⟩ := (Compiling.returns_bind _ _ _).mp done
  exact ⟨result, returns, ((Compiling.returns_pure _ _).mp same).symm⟩

/-- The compiled text keeps the grouping of an expression exactly if the expression is tight. -/
theorem keepsGrouping_iff {schema : Schema} (names : schema.HasNames) {expression : Expression}
    (operators : ∀ leaf ∈ expression.comparisons,
      leaf.operator ∈ [Operator.equal, .unequal, .oneOf])
    {compiled : CompiledQuery} (done : (expression.compile schema.catalog).Returns compiled) :
    (LevelsAgree compiled.query ∧ expression.Enclosed schema.catalog) ↔
      expression.Tight schema.catalog := by
  have readable := readable_of_operators operators
  obtain ⟨result, returns, rfl⟩ := compile_returns done
  rw [tight_iff names.catalog readable returns, enclosed_iff returns]
  cases result with
  | none =>
      have nothing : Piece.ofText? "".toList = some [] := by simp [Piece.ofText?, Piece.read?]
      have agree : LevelsAgree "" := ⟨[], nothing, Piece.flat_nil.uniform⟩
      simpa [CompiledQuery.ofQuery?] using agree
  | some query =>
      have legible := legible_toQuery? names.catalog readable returns
      have apart := isApart_of_operators operators returns
      have read := Query.ofText?_write legible apart .top
      have agree : LevelsAgree (query.write .top) ↔ Piece.Uniform (query.pieces .top) := by
        constructor
        · rintro ⟨pieces, found, uniform⟩
          rw [Option.some.inj (read.symm.trans found)]
          exact uniform
        · exact fun uniform => ⟨_, read, uniform⟩
      have grouped := Query.grouped_iff_tight legible apart
      simpa [CompiledQuery.ofQuery?, agree] using grouped

/-- Conjunctions below a conjunction, and a node whose parts are left out. -/
theorem keepsGrouping_iff_nested :
    let schema : Schema :=
      { fields := ⟨[("a", {}), ("b", {}), ("c", {})], by decide⟩,
        groups := ⟨[("none", [])], by decide⟩ }
    let expression : Expression := .all [.comparison ⟨"a", .equal, ["x y"]⟩,
      .all [.comparison ⟨"b", .unequal, ["2"]⟩,
        .any [.comparison ⟨"c", .oneOf, ["3", "(4)"]⟩,
          .any [.comparison ⟨"none", .equal, ["5"]⟩, .comparison ⟨"a", .equal, ["6"]⟩]]]]
    let compiled : CompiledQuery :=
      ⟨"(a:x AND a:y) AND -b:2 AND (c:(3 OR \"(4)\") OR a:6)", ["a", "b", "c"]⟩
    (schema.HasNames ∧ (∀ leaf ∈ expression.comparisons,
        leaf.operator ∈ [Operator.equal, .unequal, .oneOf]) ∧
      (expression.compile schema.catalog).Returns compiled) ∧
    ((LevelsAgree compiled.query ∧ expression.Enclosed schema.catalog) ↔
      expression.Tight schema.catalog) := by
  intro schema expression compiled
  have names : schema.HasNames := ⟨by decide, by decide, by decide⟩
  have operators : ∀ leaf ∈ expression.comparisons,
      leaf.operator ∈ [Operator.equal, .unequal, .oneOf] := by
    decide
  have done : (expression.compile schema.catalog).Returns compiled := by
    show (expression.compile schema.catalog).run.result = _
    decide +kernel
  exact ⟨⟨names, operators, done⟩, keepsGrouping_iff names operators done⟩

/-- A disjunction whose only part is a disjunction: the conjunction above it takes in the first of
its parts. -/
theorem keepsGrouping_fails :
    let schema : Schema := { fields := ⟨[("a", {}), ("b", {}), ("c", {})], by decide⟩ }
    let disjunction : Expression :=
      .any [.comparison ⟨"a", .equal, ["1"]⟩, .comparison ⟨"b", .equal, ["1"]⟩]
    let expression : Expression := .all [.comparison ⟨"c", .equal, ["1"]⟩, .any [disjunction]]
    schema.HasNames ∧
    (∀ leaf ∈ expression.comparisons, leaf.operator ∈ [Operator.equal, .unequal, .oneOf]) ∧
    (expression.compile schema.catalog).Returns ⟨"c:1 AND a:1 OR b:1", ["c", "a", "b"]⟩ ∧
    ¬ LevelsAgree "c:1 AND a:1 OR b:1" ∧ ¬ expression.Enclosed schema.catalog := by
  intro schema disjunction expression
  have names : schema.HasNames := ⟨by decide, by decide, by decide⟩
  have done : (expression.compile schema.catalog).Returns
      ⟨"c:1 AND a:1 OR b:1", ["c", "a", "b"]⟩ := by
    show (expression.compile schema.catalog).run.result = _
    decide +kernel
  have whole : Piece.ofText? "c:1 AND a:1 OR b:1".toList = some (Piece.single "c:1".toList ++
      .joint .all :: (Piece.single "a:1".toList ++ .joint .any :: Piece.single "b:1".toList)) := by
    simp [Piece.ofText?, Piece.read?, Piece.closing?, Piece.single]
  have inner : Piece.ofText? "a:1 OR b:1".toList = some (Piece.single "a:1".toList ++
      .joint .any :: Piece.single "b:1".toList) := by
    simp [Piece.ofText?, Piece.read?, Piece.closing?, Piece.single]
  have below : (Expression.any [disjunction]).toQuery? schema.catalog |>.Returns (some (.any [.any
      [.clause ⟨"a", none⟩ (.value false "1"),
        .clause ⟨"b", none⟩ (.value false "1")]])) := by
    have first : Selection.ofName schema.catalog "a" = .field "a" := by cbv
    have second : Selection.ofName schema.catalog "b" = .field "b" := by cbv
    simp only [disjunction, toQuery?, toQueries, first, second]
    rfl
  refine ⟨names, by decide, done, ?_, fun enclosed => ?_⟩
  · rintro ⟨pieces, read, uniform⟩
    apply uniform pieces (.outer pieces)
    rw [whole] at read
    rw [← Option.some.inj read]
    simp
  · obtain ⟨pieces, read, lone⟩ := enclosed .all [.comparison ⟨"c", .equal, ["1"]⟩,
      .any [disjunction]] [disjunction] _ (.itself _) (by
      simp [Junction.other, Junction.node]) below
    have text : Query.write .inAll (.any [.any [.clause ⟨"a", none⟩ (.value false "1"),
        .clause ⟨"b", none⟩ (.value false "1")]]) = "a:1 OR b:1" := by decide +kernel
    change Piece.ofText? (Query.write .inAll _).toList = _ at read
    rw [text, inner] at read
    apply lone .any
    rw [← Option.some.inj read]
    simp

end Expression

end FacetSearch
