import FacetSearch.Proofs.Query.Expansion

/-!
Open-ended ranges as the engine reads them. The limit of a range stands in the query as it was
given, so what is compiled is one range exactly if the limit is a value that closes no bracket
(`isOpenRange_iff`). A limit that brings a closing bracket of its own ends the range early, and what
follows in it is read as more of the query (`isOpenRange_fails`).
-/

set_option autoImplicit false

namespace FacetSearch

/-- Where a reader of a query stands: outside quotes or in a quoted run, and perhaps behind a
backslash, which takes the next character with it. -/
inductive Stand where
  | outside
  | escaped
  | quoted
  | quotedEscape
  deriving DecidableEq, Repr

namespace Stand

/-- Reads one more character. -/
def step : Stand → Char → Stand
  | outside, c => if c = '"' then quoted else if c = '\\' then escaped else outside
  | escaped, _ => outside
  | quoted, c => if c = '"' then outside else if c = '\\' then quotedEscape else quoted
  | quotedEscape, _ => quoted

/-- Where a text leads. -/
def after (stand : Stand) (text : List Char) : Stand := text.foldl step stand

/-- Whether the next character belongs to a quoted run. -/
def inQuotes : Stand → Bool
  | quoted | quotedEscape => true
  | outside | escaped => false

/-- Whether a text has no blank outside quotes. -/
def unspaced (stand : Stand) : List Char → Bool
  | [] => true
  | c :: rest => (stand.inQuotes || !Text.isBlank c) && unspaced (stand.step c) rest

/-- Whether a character closes a range here: neither quotes nor a backslash take its meaning from
it. -/
def closes (stand : Stand) (c : Char) : Bool := stand == outside && (c == ']' || c == '\x7d')

/-- Whether no character of a text closes a range. -/
def holdsOpen (stand : Stand) : List Char → Bool
  | [] => true
  | c :: rest => !stand.closes c && holdsOpen (stand.step c) rest

/-- Reads up to the character that closes a range: what stands before it, and the rest from there
on. -/
def throughRange (stand : Stand) : List Char → Option (List Char × List Char)
  | [] => none
  | c :: rest =>
    if stand.closes c then some ([], c :: rest)
    else (throughRange (stand.step c) rest).map fun (inside, after) => (c :: inside, after)

theorem after_append (stand : Stand) (front back : List Char) :
    stand.after (front ++ back) = (stand.after front).after back := List.foldl_append

theorem unspaced_append (stand : Stand) (front back : List Char) :
    stand.unspaced (front ++ back)
      = (stand.unspaced front && (stand.after front).unspaced back) := by
  induction front generalizing stand with
  | nil => rfl
  | cons c rest ih =>
      rw [List.cons_append, unspaced, unspaced, ih, Bool.and_assoc]
      rfl

theorem holdsOpen_append (stand : Stand) (front back : List Char) :
    stand.holdsOpen (front ++ back)
      = (stand.holdsOpen front && (stand.after front).holdsOpen back) := by
  induction front generalizing stand with
  | nil => rfl
  | cons c rest ih =>
      rw [List.cons_append, holdsOpen, holdsOpen, ih, Bool.and_assoc]
      rfl

/-- A range goes up to the first character that closes it. -/
theorem throughRange_eq_some_iff {stand : Stand} {text inside : List Char} {c : Char}
    {rest : List Char} : stand.throughRange text = some (inside, c :: rest) ↔
      text = inside ++ c :: rest ∧ stand.holdsOpen inside = true ∧
      (stand.after inside).closes c = true := by
  induction text generalizing stand inside with
  | nil => simp [throughRange]
  | cons d text ih =>
      by_cases closed : stand.closes d = true
      · rw [throughRange, if_pos closed]
        cases inside with
        | nil =>
            simp only [Option.some.injEq, Prod.mk.injEq, true_and, List.nil_append]
            constructor
            · intro same
              obtain ⟨rfl, rfl⟩ := List.cons.inj same
              exact ⟨rfl, rfl, closed⟩
            · exact And.left
        | cons e inside =>
            simp only [Option.some.injEq, Prod.mk.injEq, List.nil_eq, reduceCtorEq,
              false_and, false_iff, List.cons_append, List.cons.injEq, not_and]
            rintro ⟨rfl, -⟩ open_
            rw [holdsOpen, closed] at open_
            cases open_
      · rw [throughRange, if_neg closed]
        cases inside with
        | nil =>
            simp only [Option.map_eq_some_iff, Prod.mk.injEq, reduceCtorEq, false_and, and_false,
              exists_const, List.nil_append, List.cons.injEq, false_iff]
            rintro ⟨⟨rfl, rfl⟩, -, ends⟩
            exact closed ends
        | cons e inside =>
            simp only [Option.map_eq_some_iff, Prod.exists, Prod.mk.injEq, List.cons.injEq,
              List.cons_append]
            constructor
            · rintro ⟨before, _, read, ⟨rfl, rfl⟩, rfl⟩
              obtain ⟨rfl, open_, ends⟩ := ih.mp read
              refine ⟨⟨rfl, rfl⟩, ?_, ends⟩
              rw [holdsOpen, open_]
              simpa using closed
            · rintro ⟨⟨rfl, rfl⟩, open_, ends⟩
              rw [holdsOpen, Bool.and_eq_true] at open_
              exact ⟨inside, _, ih.mpr ⟨rfl, open_.2, ends⟩, ⟨rfl, rfl⟩, rfl⟩

end Stand

open Stand

/-- A value as a side of a range: it is not empty, it has no blank outside quotes, its quotes are
closed, and no backslash takes what follows it. -/
structure IsLimit (limit : List Char) : Prop where
  inhabited : limit ≠ []
  unspaced : outside.unspaced limit = true
  complete : outside.after limit = outside

/-- The side of a range that is open above, behind the limit. -/
def openEnd : List Char := [' ', 'T', 'O', ' ', '*']

/-- The side of a range that is open below, before the limit. -/
def openStart : List Char := ['*', ' ', 'T', 'O', ' ']

/-- A text is one open-ended range on a field: the bracket behind the colon is closed by the last
character before the boost, which is of the same kind, and by none before that. Inside, a value
stands on one side of " TO " and a star on the other. -/
def IsOpenRange (field : FieldDescriptor) (text : String) : Prop :=
  ∃ opening closing body inside limit,
    text.toList = field.name.toList ++ ':' :: opening :: body ∧
    Piece.closing? opening = some closing ∧
    outside.throughRange body = some (inside, closing :: field.suffix.toList) ∧
    (inside = limit ++ openEnd ∨ inside = openStart ++ limit) ∧ IsLimit limit

namespace IsLimit

/-- A blank inside a value is quoted, so a value with a star behind a blank leaves its quotes
open. -/
theorem eq_star_of_append_star {limit front : List Char} (formed : IsLimit limit)
    (same : front ++ openEnd = openStart ++ limit) : limit = ['*'] ∧ front = ['*'] := by
  induction limit using List.reverseRecOn with
  | nil => exact absurd rfl formed.inhabited
  | append_singleton before last _ =>
      have split : front ++ [' ', 'T', 'O', ' '] ++ ['*'] = openStart ++ before ++ [last] := by
        simpa [openEnd] using same
      obtain ⟨onward, star⟩ := List.append_inj' split rfl
      obtain rfl : '*' = last := (List.cons.inj star).1
      induction before using List.reverseRecOn with
      | nil =>
          refine ⟨rfl, ?_⟩
          have lone : front ++ [' ', 'T', 'O', ' '] = ['*'] ++ [' ', 'T', 'O', ' '] := onward
          exact List.append_cancel_right lone
      | append_singleton more blank _ =>
          have split : front ++ [' ', 'T', 'O'] ++ [' '] = openStart ++ more ++ [blank] := by
            simpa using onward
          obtain rfl : ' ' = blank := (List.cons.inj (List.append_inj' split rfl).2).1
          have spaced := formed.unspaced
          have complete := formed.complete
          rw [List.append_assoc, unspaced_append, Bool.and_eq_true] at spaced
          rw [List.append_assoc, after_append] at complete
          cases stand : outside.after more
          all_goals rw [stand] at spaced complete
          · exact absurd spaced.2 (by decide)
          · exact absurd spaced.2 (by decide)
          · exact absurd complete (by decide)
          · exact absurd complete (by decide)

theorem eq_star_of_star_append {limit back : List Char} (formed : IsLimit limit)
    (same : openStart ++ back = limit ++ openEnd) : limit = ['*'] ∧ back = ['*'] := by
  match limit with
  | [] => exact absurd rfl formed.inhabited
  | [star] =>
      obtain ⟨rfl, rest⟩ := List.cons.inj same
      refine ⟨rfl, ?_⟩
      have lone : [' ', 'T', 'O', ' '] ++ back = [' ', 'T', 'O', ' '] ++ ['*'] := rest
      exact List.append_cancel_left lone
  | star :: blank :: more =>
      obtain ⟨rfl, rest⟩ := List.cons.inj same
      obtain ⟨rfl, -⟩ := List.cons.inj rest
      have spaced := formed.unspaced
      simp [Stand.unspaced, Stand.step, Stand.inQuotes, Text.isBlank] at spaced

end IsLimit

namespace Clause

/-- The inside of a range. -/
def rangeInside (limit : String) : RangeBound → List Char
  | .atLeast | .above => limit.toList ++ openEnd
  | .atMost | .below => openStart ++ limit.toList

/-- The brackets of a range. -/
def rangeBrackets : RangeBound → Char × Char
  | .atLeast | .atMost => ('[', ']')
  | .above | .below => ('\x7b', '\x7d')

theorem toList_write_range (field : FieldDescriptor) (bound : RangeBound) (limit : String) :
    ((range bound limit).write field).toList = field.name.toList ++ ':' ::
      (rangeBrackets bound).1 ::
      (rangeInside limit bound ++ (rangeBrackets bound).2 :: field.suffix.toList) := by
  cases bound <;> simp [write, writeRange, rangeInside, rangeBrackets, openEnd, openStart]

theorem brackets_spec (bound : RangeBound) :
    Piece.closing? (rangeBrackets bound).1 = some (rangeBrackets bound).2 ∧
      ∀ stand : Stand, stand.closes (rangeBrackets bound).2 = true ↔ stand = outside := by
  cases bound <;> exact ⟨rfl, fun stand => by cases stand <;> decide⟩

/-- The text of a range is one range exactly if its own inside goes up to its closing bracket and is
a value with a star. -/
theorem isOpenRange_write_iff {field : FieldDescriptor} {bound : RangeBound} {limit : String} :
    IsOpenRange field ((range bound limit).write field) ↔
      outside.holdsOpen (rangeInside limit bound) = true ∧
      outside.after (rangeInside limit bound) = outside ∧
      ∃ value, (rangeInside limit bound = value ++ openEnd ∨
        rangeInside limit bound = openStart ++ value) ∧ IsLimit value := by
  obtain ⟨pair, closed⟩ := brackets_spec bound
  constructor
  · rintro ⟨opening, closing, body, inside, value, whole, match_, read, sides, formed⟩
    rw [toList_write_range, List.append_cancel_left_eq, List.cons.injEq, List.cons.injEq] at whole
    obtain ⟨-, rfl, rfl⟩ := whole
    obtain rfl : (rangeBrackets bound).2 = closing := Option.some.inj (pair.symm.trans match_)
    obtain ⟨split, open_, ends⟩ := throughRange_eq_some_iff.mp read
    obtain rfl : rangeInside limit bound = inside := List.append_cancel_right split
    exact ⟨open_, (closed _).mp ends, value, sides, formed⟩
  · rintro ⟨open_, complete, value, sides, formed⟩
    refine ⟨_, _, _, _, value, toList_write_range field bound limit, pair, ?_, sides, formed⟩
    exact throughRange_eq_some_iff.mpr ⟨rfl, open_, (closed _).mpr complete⟩

/-- The star's side of a range takes nothing from the limit, and the limit nothing from it. -/
theorem rangeInside_spec (limit : String) (bound : RangeBound)
    (complete : outside.after limit.toList = outside) :
    outside.after (rangeInside limit bound) = outside ∧
      outside.holdsOpen (rangeInside limit bound) = outside.holdsOpen limit.toList := by
  have star : outside.after openEnd = outside ∧ outside.holdsOpen openEnd = true ∧
      outside.after openStart = outside ∧ outside.holdsOpen openStart = true := by decide
  obtain ⟨tailAfter, tailOpen, headAfter, headOpen⟩ := star
  cases bound
  all_goals
    simp only [rangeInside, after_append, holdsOpen_append, complete, tailAfter,
      tailOpen, headAfter, headOpen, Bool.and_true, Bool.true_and, and_self]

/-- The text of a range is one open-ended range exactly if its limit is a value that holds the range
open. -/
theorem isOpenRange_write_iff_isLimit {field : FieldDescriptor} {bound : RangeBound}
    {limit : String} : IsOpenRange field ((range bound limit).write field) ↔
      IsLimit limit.toList ∧ outside.holdsOpen limit.toList = true := by
  rw [isOpenRange_write_iff]
  constructor
  · rintro ⟨open_, -, value, sides, formed⟩
    have itself : limit.toList = value := by
      cases bound with
      | atLeast | above =>
          rcases sides with same | same
          · exact List.append_cancel_right same
          · obtain ⟨star, alone⟩ := formed.eq_star_of_append_star same
            exact alone.trans star.symm
      | atMost | below =>
          rcases sides with same | same
          · obtain ⟨star, alone⟩ := formed.eq_star_of_star_append same
            exact alone.trans star.symm
          · exact List.append_cancel_left same
    subst itself
    rw [(rangeInside_spec limit bound formed.complete).2] at open_
    exact ⟨formed, open_⟩
  · rintro ⟨formed, open_⟩
    obtain ⟨complete, holds⟩ := rangeInside_spec limit bound formed.complete
    refine ⟨holds.trans open_, complete, limit.toList, ?_, formed⟩
    cases bound with
    | atLeast | above => exact .inl rfl
    | atMost | below => exact .inr rfl

end Clause

namespace Expression

/-- The comparisons that ask for a range. -/
def rangeOperators : List Operator := [.atLeast, .above, .atMost, .below]

/-- A range on a field is compiled to the clause of the field. -/
theorem returns_compile_range {catalog : Catalog} {name : String}
    (valid : catalog.isField name = true) (plain : catalog.groups.get? name = none)
    {operator : Operator} (ranged : operator ∈ rangeOperators) (limit : String) :
    ∃ bound, (compile catalog (.comparison ⟨name, operator, [limit]⟩)).Returns
      (.ofQuery? (some (.clause (catalog.descriptor name) (.range bound limit)))) := by
  let comparison : Comparison := ⟨name, operator, [limit]⟩
  have said : ∃ bound, (comparison.clause? catalog name).Returns (some (.range bound limit)) := by
    simp only [rangeOperators, List.mem_cons, List.not_mem_nil, or_false] at ranged
    rcases ranged with rfl | rfl | rfl | rfl
    all_goals exact ⟨_, Comparison.returns_of_argument rfl rfl⟩
  obtain ⟨bound, returns⟩ := said
  have query : ((Expression.comparison comparison).toQuery? catalog).Returns
      (some (.clause (catalog.descriptor name) (.range bound limit))) := by
    unfold toQuery? Selection.ofName
    rw [Comparison.expand_of_plain plain]
    unfold Comparison.compileOn
    rw [if_pos valid]
    exact (Compiling.returns_bind _ _ _).mpr ⟨_, returns, rfl⟩
  exact ⟨bound, returns_compile query⟩

/-- A comparison that asks for a range of a field is compiled to one open-ended range exactly if its
argument is a value without blanks outside quotes that closes no bracket, leaves no quotes open, and
takes no meaning from what follows. -/
theorem isOpenRange_iff {catalog : Catalog} {name : String}
    (valid : catalog.isField name = true) (plain : catalog.groups.get? name = none)
    {operator : Operator} (ranged : operator ∈ rangeOperators) (limit : String) :
    ∃ compiled, (compile catalog (.comparison ⟨name, operator, [limit]⟩)).Returns compiled ∧
      (IsOpenRange (catalog.descriptor name) compiled.query ↔
        IsLimit limit.toList ∧ outside.holdsOpen limit.toList = true) := by
  obtain ⟨bound, returns⟩ := returns_compile_range valid plain ranged limit
  exact ⟨_, returns, Clause.isOpenRange_write_iff_isLimit⟩

/-- A limit that brings its own quotes may hold a bracket. -/
theorem isOpenRange_iff_quoted :
    let schema : Schema :=
      { fields := ⟨[("a", { boost := some (.finite false 2 0) })], by decide⟩ }
    let limit := "\"x ] y\""
    (schema.catalog.isField "a" = true ∧ schema.catalog.groups.get? "a" = none ∧
      Operator.below ∈ rangeOperators) ∧
    ∃ compiled,
      (compile schema.catalog (.comparison ⟨"a", .below, [limit]⟩)).Returns compiled ∧
      IsOpenRange (schema.catalog.descriptor "a") compiled.query := by
  intro schema limit
  have valid : schema.catalog.isField "a" = true := by decide
  have plain : schema.catalog.groups.get? "a" = none := rfl
  have ranged : Operator.below ∈ rangeOperators := by decide
  have formed : IsLimit limit.toList ∧ outside.holdsOpen limit.toList = true :=
    ⟨⟨by decide, by decide, by decide⟩, by decide⟩
  obtain ⟨compiled, returns, spec⟩ := isOpenRange_iff valid plain ranged limit
  exact ⟨⟨valid, plain, ranged⟩, compiled, returns, spec.mpr formed⟩

/-- A limit with a closing bracket ends its range, and the rest of it is read as a condition on a
field that the comparison does not name. -/
theorem isOpenRange_fails :
    let schema : Schema := { fields := ⟨[("a", {}), ("b", {})], by decide⟩ }
    let input := "a=ge=\"1 TO 2] OR b:[3\""
    let query := "a:[1 TO 2] OR b:[3 TO *]"
    schema.HasNames ∧
    parse input = .ok (some (.comparison ⟨"a", .atLeast, ["1 TO 2] OR b:[3"]⟩)) ∧
    (compileText schema.catalog input).Returns (some ⟨query, ["a"]⟩) ∧
    ¬ IsOpenRange (schema.catalog.descriptor "a") query ∧
    Outline.read? query
      = some (.node .any [.leaf "a:[1 TO 2]".toList, .leaf "b:[3 TO *]".toList]) := by
  intro schema input query
  have names : schema.HasNames := ⟨by decide, by decide, by decide⟩
  have parsed : parse input = .ok
      (some (.comparison ⟨"a", .atLeast, ["1 TO 2] OR b:[3"]⟩)) := by
    decide +kernel
  have done : (compileText schema.catalog input).Returns (some ⟨query, ["a"]⟩) := by
    show (compileText schema.catalog input).run.result = _
    decide +kernel
  refine ⟨names, parsed, done, fun ranged => ?_, by decide +kernel⟩
  have written : query
      = (Clause.range .atLeast "1 TO 2] OR b:[3").write (schema.catalog.descriptor "a") := by decide
  rw [written, Clause.isOpenRange_write_iff_isLimit] at ranged
  exact absurd ranged.2 (by decide)

end Expression

end FacetSearch
