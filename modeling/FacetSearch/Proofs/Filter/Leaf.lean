import FacetSearch.Filter.Clause
import FacetSearch.Proofs.Filter.Condition
import FacetSearch.Proofs.Text.Reading

/-!
What is read from the leaves of filter clauses: tests on fields, tests with a sign, and everything
but the documents that have some fields.
-/

set_option autoImplicit false

namespace FacetSearch

open Text.Reader

/-- A name of letters, digits, hyphens and underscores that does not look like a signed one. -/
structure IsFieldName (name : String) : Prop where
  chars : IsName name
  inhabited : name.toList ≠ []
  unsigned : name.toList.head? ≠ some '-'

instance : DecidablePred IsFieldName := fun name =>
  decidable_of_iff (IsName name ∧ name.toList ≠ [] ∧ name.toList.head? ≠ some '-')
    ⟨fun parts => ⟨parts.1, parts.2.1, parts.2.2⟩, fun named =>
      ⟨named.chars, named.inhabited, named.unsigned⟩⟩

namespace IsFieldName

variable {name : String}

theorem not_isNameChar_colon : ¬ IsNameChar ':' := by decide

/-- A name is read up to the colon behind it. -/
theorem whileTrue1_colon (named : IsFieldName name) (rest : List Char) :
    whileTrue1 (decide <| IsNameChar ·) (name.toList ++ ':' :: rest)
      = some (name.toList, ':' :: rest) := by
  refine whileTrue1_append named.inhabited (fun c member =>
    decide_eq_true (named.chars c member)) ?_
  intro c member
  obtain rfl : ':' = c := by simpa using member
  exact decide_eq_false not_isNameChar_colon

/-- A name does not begin with a character that no name has. -/
theorem toList_append_eq_cons (named : IsFieldName name) {c : Char} {rest more : List Char}
    (same : name.toList ++ rest = c :: more) : IsNameChar c ∧ c ≠ '-' := by
  obtain ⟨first, others, spelled⟩ := List.exists_cons_of_ne_nil named.inhabited
  rw [spelled, List.cons_append, List.cons.injEq] at same
  obtain ⟨rfl, _⟩ := same
  refine ⟨named.chars first (by rw [spelled]; simp), ?_⟩
  rintro rfl
  exact named.unsigned (by rw [spelled]; rfl)

end IsFieldName

namespace Condition

theorem takes_readQuoted (value : String) : Takes readQuoted (Engine.quote value).toList value := by
  intro rest
  rw [Engine.quote, String.toList_ofList, Text.Quoted.enclose, List.cons_append, readQuoted,
    List.append_assoc, List.singleton_append, Text.Quoted.read_escape '"' (by decide)]
  simp only [Option.map_some, String.ofList_toList]

theorem readInteger_toString (n : Int) {rest : List Char}
    (ends : ∀ c ∈ rest.head?, c.isDigit = false) :
    readInteger ((toString n).toList ++ rest) = some (n, rest) := by
  have digits : whileTrue1 Char.isDigit (Nat.toDigits 10 n.natAbs ++ rest)
      = some (Nat.toDigits 10 n.natAbs, rest) :=
    whileTrue1_append Nat.toDigits_ne_nil Text.isDigit_of_mem_toDigits ends
  rcases Text.toList_toString_int n with ⟨written, nonneg⟩ | ⟨written, negative⟩
  · obtain ⟨c, more, spelled, digit⟩ := Text.exists_cons_toDigits n.natAbs
    rw [written, readInteger]
    · simp only [digits, Option.map_some, Text.ofDigits_toDigits, Int.natAbs_of_nonneg nonneg]
    · intro others same
      rw [spelled, List.cons_append, List.cons.injEq] at same
      rw [same.1] at digit
      cases digit
  · rw [written, List.cons_append, readInteger]
    simp only [digits, Option.map_some, Text.ofDigits_toDigits,
      Int.ofNat_natAbs_of_nonpos (le_of_lt negative), Int.neg_neg]

/-- The text of an end of a range. -/
def endText : Option Int → List Char
  | none => ['*']
  | some limit => (toString limit).toList

theorem readEnd_endText (limit : Option Int) {rest : List Char}
    (ends : ∀ c ∈ rest.head?, c.isDigit = false) :
    readEnd (endText limit ++ rest) = some (limit, rest) := by
  cases limit with
  | none => rfl
  | some n =>
      obtain ⟨c, more, spelled, first⟩ := Text.exists_cons_toString_int n
      rw [endText, readEnd]
      · simp only [readInteger_toString n ends, Option.map_some]
      · intro others same
        rw [spelled, List.cons_append, List.cons.injEq] at same
        rw [same.1] at first
        rcases first with digit | sign
        · cases digit
        · cases sign

theorem takes_readTest_present (field : String) : Takes (readTest field) ['*'] (present field) := by
  intro rest
  rw [List.singleton_append, readTest]

theorem takes_readTest_equals (field value : String) :
    Takes (readTest field) (Engine.quote value).toList (equals field value) := by
  intro rest
  have taken := takes_readQuoted value rest
  rw [Engine.quote, String.toList_ofList, Text.Quoted.enclose, List.cons_append] at taken ⊢
  rw [readTest]
  · simp only [taken, Option.map_some]
  all_goals exact fun more same => absurd (List.cons.inj same).1 (by decide)

/-- The text of a range in its brackets. -/
def rangeText (low high : Option Int) : List Char :=
  '[' :: (endText low ++ (" TO ".toList ++ (endText high ++ [']'])))

theorem takes_readTest_between (field : String) (low high : Option Int) :
    Takes (readTest field) (rangeText low high) (between field low high) := by
  intro rest
  have closes : char ']' (']' :: rest) = some ((), rest) := takes_char ']' rest
  have second : readEnd (endText high ++ ']' :: rest) = some (high, ']' :: rest) :=
    readEnd_endText high (by simp)
  have word : exactly " TO ".toList (" TO ".toList ++ (endText high ++ ']' :: rest))
      = some ((), endText high ++ ']' :: rest) := takes_exactly _ _
  have first : readEnd (endText low ++ (" TO ".toList ++ (endText high ++ ']' :: rest)))
      = some (low, " TO ".toList ++ (endText high ++ ']' :: rest)) := readEnd_endText low (by simp)
  simp only [rangeText, List.cons_append, List.append_assoc, List.nil_append, readTest, bind_apply,
    pure_apply, first, Option.bind_some, word, second, closes]

/-- The text of several values in parentheses. -/
def valuesText (values : List String) : List Char :=
  '(' :: (Junction.any.word.intercalate (values.map fun value =>
    (Engine.quote value).toList) ++ [')'])

theorem takes_readTest_oneOf (field : String) {values : List String} (inhabited : values ≠ []) :
    Takes (readTest field) (valuesText values) (oneOf field values) := by
  intro rest
  obtain ⟨first, others, rfl⟩ := List.exists_cons_of_ne_nil inhabited
  have item : ∀ value ∈ others, Takes (do exactly " OR ".toList; readQuoted)
      (Junction.any.word ++ (Engine.quote value).toList) value :=
    fun value _ => (takes_exactly _).bind (takes_readQuoted value)
  have refused : (do exactly " OR ".toList; readQuoted : Text.Reader String) (')' :: rest) = none :=
    rfl
  have tail := rounds_flatMap others item (fun value _ => List.cons_ne_nil _ _) refused
  have closes : char ')' (')' :: rest) = some ((), rest) := takes_char ')' rest
  simp only [valuesText, Text.intercalate_cons_eq_flatMap, List.cons_append, List.append_assoc,
    List.nil_append, readTest, separatedBy, many, bind_apply, pure_apply, takes_readQuoted first _,
    Option.bind_some]
  simp only [tail, Option.bind_some, closes, List.map_id']

theorem takes_readTerm_everything : Takes readTerm "*:*".toList everything := by
  intro rest
  change readTerm ('*' :: ':' :: '*' :: rest) = _
  rw [readTerm]

theorem takes_readTerm_test {field : String} (named : IsFieldName field) {body : List Char}
    {condition : Condition} (taken : Takes (readTest field) body condition) :
    Takes readTerm (field.toList ++ ':' :: body) condition := by
  intro rest
  have colon : char ':' (':' :: (body ++ rest)) = some ((), body ++ rest) := takes_char ':' _
  rw [List.append_assoc, List.cons_append, readTerm]
  · simp only [bind_apply, named.whileTrue1_colon, Option.bind_some, colon,
      String.ofList_toList, taken rest]
  · intro more same
    have star := (named.toList_append_eq_cons same).1
    exact absurd star (by decide)

theorem run?_readLeaf_signed {text : List Char} {condition : Condition}
    (taken : Takes readTerm text condition) :
    run? readLeaf ('-' :: text) = some (not condition) := by
  have whole := taken []
  rw [List.append_nil] at whole
  rw [run?, readLeaf, whole]
  rfl

/-- A test that does not look signed, and tests behind it that are excluded. -/
theorem run?_readLeaf_without {α : Type} {text : List Char} {condition : Condition}
    (taken : Takes readTerm text condition)
    (unsigned : ∀ more, text ≠ '-' :: more) (inhabited : text ≠ []) {excluded : List α}
    {excludedText : α → List Char} {excludedCondition : α → Condition}
    (others : ∀ item ∈ excluded, Takes readTerm (excludedText item) (excludedCondition item)) :
    run? readLeaf (text ++ excluded.flatMap fun item => " NOT ".toList ++ excludedText item)
      = some (without condition (excluded.map excludedCondition)) := by
  have item : ∀ entry ∈ excluded, Takes (do exactly " NOT ".toList; readTerm)
      (" NOT ".toList ++ excludedText entry) (excludedCondition entry) :=
    fun entry member => (takes_exactly _).bind (others entry member)
  have refused : (do exactly " NOT ".toList; readTerm : Text.Reader Condition) [] = none := rfl
  have tail := rounds_flatMap excluded item (fun entry _ => List.cons_ne_nil _ _) refused
  rw [List.append_nil] at tail
  have leaf : readLeaf (text ++ excluded.flatMap fun entry => " NOT ".toList ++ excludedText entry)
      = some (without condition (excluded.map excludedCondition), []) := by
    rw [readLeaf]
    · simp only [bind_apply, pure_apply, taken _, Option.bind_some, many, tail]
    · intro more same
      obtain ⟨c, rest, rfl⟩ := List.exists_cons_of_ne_nil inhabited
      rw [List.cons_append, List.cons.injEq] at same
      exact unsigned rest (by rw [same.1])
  rw [run?, leaf]

end Condition

end FacetSearch
