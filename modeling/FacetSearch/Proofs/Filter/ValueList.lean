import FacetSearch.Proofs.Filter.Building
import FacetSearch.Proofs.Query.Expansion

/-!
Lists of values in parentheses, and how they are read back. Where a value in quotes ends does not
depend on what follows it, and a value without quotes ends where its digits do; so a list can be
read off the front of any text, whatever its values contain (`valueLists_readBack`).
-/

set_option autoImplicit false

namespace FacetSearch

open Text.Reader

/-- An item of a list: a value in quotes, or a word that stands for itself. -/
inductive ValueItem where
  | quoted (value : String)
  | bare (word : String)
  deriving DecidableEq, Repr

namespace ValueItem

/-- The value that an item stands for. -/
def value : ValueItem → String
  | quoted value | bare value => value

/-- The text of an item. -/
def write : ValueItem → String
  | quoted value => Engine.quote value
  | bare word => word

/-- The item for an argument of a comparison. -/
def ofArgument (argument : String) : ValueItem :=
  if Engine.isBare argument then bare argument else quoted argument

@[simp] theorem value_ofArgument (argument : String) : (ofArgument argument).value = argument := by
  unfold ofArgument
  split <;> rfl

@[simp] theorem write_ofArgument (argument : String) :
    (ofArgument argument).write = Engine.quoteValue argument := by
  unfold ofArgument Engine.quoteValue
  split <;> rfl

theorem map_value_ofArgument (arguments : List String) :
    (arguments.map ofArgument).map value = arguments := by
  simp [Function.comp_def]

/-- A word that needs no quotes: decimal digits, or a star. -/
def IsBareWord (word : String) : Prop :=
  word = "*" ∨ word ≠ "" ∧ ∀ c ∈ word.toList, c.isDigit = true

theorem isBare_iff {word : String} : Engine.isBare word = true ↔ IsBareWord word := by
  simp [Engine.isBare, IsBareWord, List.all_eq_true, or_comm]

/-- An item that is only without quotes if it needs none. -/
def IsPlain : ValueItem → Prop
  | quoted _ => True
  | bare word => IsBareWord word

theorem isPlain_ofArgument (argument : String) : (ofArgument argument).IsPlain := by
  unfold ofArgument
  split
  · rename_i bare
    exact isBare_iff.mp bare
  · trivial

/-- Reads a value in quotes. -/
def readQuotedItem : Text.Reader ValueItem := do
  let value ← Condition.readQuoted
  return quoted value

/-- Reads a star or digits. -/
def readBareItem : Text.Reader ValueItem
  | '*' :: rest => some (bare "*", rest)
  | text => (do
    let digits ← whileTrue1 Char.isDigit
    return bare (String.ofList digits)) text

/-- Reads an item. -/
def readItem : Text.Reader ValueItem := readQuotedItem <|> readBareItem

/-- Reads items in parentheses with the word OR between them. -/
def readItems : Text.Reader (List ValueItem) := do
  char '('
  let items ← separatedBy (exactly " OR ".toList) readItem
  char ')'
  return items

/-- A continuation in which the digits of a number do not go on. -/
def EndsNumber (after : List Char) : Prop := ∀ c ∈ after.head?, c.isDigit = false

theorem takes_readQuotedItem (value : String) :
    Takes readQuotedItem (Engine.quote value).toList (quoted value) := by
  intro rest
  rw [readQuotedItem, bind_of_taken (Condition.takes_readQuoted value rest)]
  rfl

/-- A word without quotes is read up to where it ends, and does not look like a value in quotes. -/
theorem readBareItem_write {word : String} (plain : IsBareWord word) {after : List Char}
    (ends : EndsNumber after) : readBareItem (word.toList ++ after) = some (bare word, after) ∧
      readQuotedItem (word.toList ++ after) = none := by
  rcases plain with rfl | ⟨inhabited, digits⟩
  · exact ⟨rfl, rfl⟩
  · have some : word.toList ≠ [] := by simpa using inhabited
    have taken := whileTrue1_append some digits ends
    obtain ⟨c, rest, spelled⟩ := List.exists_cons_of_ne_nil some
    have digit : c.isDigit = true := digits c (by rw [spelled]; exact List.mem_cons_self)
    have different : ∀ other : Char, other.isDigit = false →
        ∀ more, word.toList ++ after ≠ other :: more := by
      intro other fails more same
      rw [spelled, List.cons_append, List.cons.injEq] at same
      rw [same.1, fails] at digit
      cases digit
    constructor
    · rw [readBareItem, bind_of_taken taken, String.ofList_toList]
      · rfl
      · exact different '*' rfl
    · have refused : Condition.readQuoted (word.toList ++ after) = none := by
        rw [Condition.readQuoted]
        exact different '"' rfl
      rw [readQuotedItem, bind_of_refused refused]

theorem readItem_write {item : ValueItem} (plain : item.IsPlain) {after : List Char}
    (ends : EndsNumber after) : readItem (item.write.toList ++ after) = some (item, after) := by
  cases item with
  | quoted value => exact orElse_of_taken (takes_readQuotedItem value after)
  | bare word =>
      obtain ⟨taken, refused⟩ := readBareItem_write plain ends
      exact (orElse_of_refused refused).trans taken

/-- The text of a list of items. -/
def listText (items : List ValueItem) : String := "(" ++ " OR ".intercalate (items.map write) ++ ")"

theorem toList_listText (items : List ValueItem) : (listText items).toList
    = '(' :: (" OR ".toList.intercalate (items.map fun item => item.write.toList) ++ [')']) := by
  rw [listText, String.toList_append, String.toList_append, String.toList_intercalate, List.map_map]
  rfl

/-- Items are read back from their list, whatever follows it. -/
theorem takes_readItems {items : List ValueItem} (inhabited : items ≠ [])
    (plain : ∀ item ∈ items, item.IsPlain) : Takes readItems (listText items).toList items := by
  intro rest
  obtain ⟨first, others, rfl⟩ := List.exists_cons_of_ne_nil inhabited
  rw [List.forall_mem_cons] at plain
  have joint : ∀ more, EndsNumber (" OR ".toList ++ more) := by
    intro more c first
    obtain rfl : ' ' = c := Option.some.inj first
    rfl
  have closing : EndsNumber (')' :: rest) := by
    intro c first
    obtain rfl : ')' = c := Option.some.inj first
    rfl
  have each : ∀ item ∈ others, ∀ after, EndsNumber after →
      (do exactly " OR ".toList; readItem) ((" OR ".toList ++ item.write.toList) ++ after)
        = some (item, after) := by
    intro item member after ends
    rw [List.append_assoc, bind_of_taken (takes_exactly _ _)]
    exact readItem_write (plain.2 item member) ends
  have refused : (do exactly " OR ".toList; readItem : Text.Reader ValueItem) (')' :: rest)
      = none := rfl
  have tail := rounds_flatMap_before EndsNumber others each (fun item _ => List.cons_ne_nil _ _)
    (fun item _ after => by rw [List.append_assoc]; exact joint _) closing refused
  rw [List.map_id'] at tail
  have follows : EndsNumber (others.flatMap (fun item => " OR ".toList ++ item.write.toList) ++
      ')' :: rest) := by
    cases others with
    | nil => exact closing
    | cons second others =>
        rw [List.flatMap_cons, List.append_assoc, List.append_assoc]
        exact joint _
  have listed := separatedBy_of_rounds (readItem_write plain.1 follows) tail
  rw [toList_listText, Text.intercalate_cons_eq_flatMap, List.cons_append, List.append_assoc,
    List.append_assoc, readItems, bind_of_taken (char_cons '(' _), List.singleton_append,
    bind_of_taken listed,
    bind_of_taken (char_cons ')' rest)]
  rfl

end ValueItem

/-- A text that lists items. They are read off its front whatever follows, no other items are
written like this, and an item without quotes is a star or decimal digits. -/
structure ListsItems (text : String) (items : List ValueItem) : Prop where
  written : text = ValueItem.listText items
  bare : ∀ word, .bare word ∈ items → ValueItem.IsBareWord word
  reads : ∀ rest : String, ValueItem.readItems (text ++ rest).toList = some (items, rest.toList)
  unique : ∀ others, others ≠ [] → (∀ item ∈ others, item.IsPlain) → ∀ rest more,
    ValueItem.listText others ++ more = text ++ rest → others = items ∧ more = rest

theorem listsItems {items : List ValueItem} (inhabited : items ≠ [])
    (plain : ∀ item ∈ items, item.IsPlain) : ListsItems (ValueItem.listText items) items where
  written := rfl
  bare word member := plain (.bare word) member
  reads rest := by rw [String.toList_append, ValueItem.takes_readItems inhabited plain]
  unique others some each rest more same := by
    have first := ValueItem.takes_readItems inhabited plain rest.toList
    have second := ValueItem.takes_readItems some each more.toList
    rw [← String.toList_append] at first second
    rw [same, first] at second
    obtain ⟨items, rests⟩ := Prod.mk.inj (Option.some.inj second)
    exact ⟨items.symm, (String.toList_inj.mp rests).symm⟩

/-- The value that an item of a filter names: a text that is not blank. -/
def valueText? : Json → Option String
  | .string text => if Text.allBlank text.toList then none else some text
  | _ => none

/-- The values that the list of a filter names, in their order. -/
def valueTexts (items : List Json) : List String := items.filterMap valueText?

theorem valuesOf_eq {settings : FilterSettings} {items : List Json}
    (unmarked : Json.string settings.missingMarker ∉ items) (field : String) :
    Filter.valuesOf settings field items = valueTexts items := by
  induction items with
  | nil => rfl
  | cons item rest ih =>
      rw [List.mem_cons, not_or] at unmarked
      have later := ih unmarked.2
      cases item with
      | string text =>
          have kept : (text != settings.missingMarker) = true := by
            simpa using fun same => unmarked.1 (by rw [same])
          rw [Filter.valuesOf, valueTexts] at later
          have first : (Filter.textItems field (.string text :: rest)).result
              = text :: (Filter.textItems field rest).result := rfl
          rw [Filter.valuesOf, first, List.filter_cons, kept, Bool.true_and, valueTexts,
            List.filterMap_cons, valueText?]
          by_cases blank : Text.allBlank text.toList = true
          · simpa [blank] using later
          · simpa [blank] using later
      | _ => exact later

theorem append_listText (field : String) (items : List ValueItem) :
    field ++ ":" ++ ValueItem.listText items
      = field ++ ":(" ++ " OR ".intercalate (items.map ValueItem.write) ++ ")" := by
  have opening : (":(" : String) = ":" ++ "(" := by decide +kernel
  rw [ValueItem.listText, opening]
  simp only [String.append_assoc]

/-- The clause for several values writes their list. -/
theorem Clause.write_oneOf (field : FieldDescriptor) (values : List String) :
    (Clause.oneOf values).write field
      = field.name ++ ":" ++ ValueItem.listText (values.map .ofArgument) ++ field.suffix := by
  have items : (values.map ValueItem.ofArgument).map ValueItem.write
      = values.map Engine.quoteValue := by
    simp
  rw [append_listText, items, Clause.write]

theorem FieldTest.write_oneOf (field : String) (values : List String) :
    (FieldTest.oneOf values).write field
      = field ++ ":" ++ ValueItem.listText (values.map .quoted) := by
  have items : (values.map ValueItem.quoted).map ValueItem.write = values.map Engine.quote := by
    rw [List.map_map]
    rfl
  rw [append_listText, items, FieldTest.write]

/-- A list without the marker gives a clause for its values, unless it has none. -/
theorem ofList_result {settings : FilterSettings} {items : List Json}
    (unmarked : Json.string settings.missingMarker ∉ items) (field : String) :
    (Filter.ofList settings field items).result
      = if valueTexts items = [] then none
        else some (.present field (.oneOf (valueTexts items))) := by
  have absent : (Filter.textItems field items).result.contains settings.missingMarker = false := by
    rw [Bool.eq_false_iff]
    exact fun marked => unmarked (Filter.mem_textItems.mp (List.contains_iff_mem.mp marked))
  have made := Filter.ofFacet_array_result settings field items
  rw [absent, Filter.combine_result, valuesOf_eq unmarked] at made
  refine made.trans ?_
  cases valueTexts items <;> rfl

/-- Quoted values, and the lists of values in clauses, are read back whatever follows them: the list
of an operator for one of several values, and the list of a filter that does not ask for missing
values. -/
theorem valueLists_readBack :
    (∀ value rest : String, Condition.readQuoted (Engine.quote value ++ rest).toList
      = some (value, rest.toList)) ∧
    (∀ (catalog : Catalog) (field : String) (comparison : Comparison),
      comparison.operator = .oneOf → comparison.arguments ≠ [] → ∃ clause text items,
        (comparison.clause? catalog field).Returns (some clause) ∧
        clause.write (catalog.descriptor field) = field ++ ":" ++ text ++
          (catalog.descriptor field).suffix ∧
        items.map ValueItem.value = comparison.arguments ∧ ListsItems text items) ∧
    ∀ (settings : FilterSettings) (field : String) (items : List Json),
      Json.string settings.missingMarker ∉ items →
        valueTexts items = [] ∧ (Filter.ofList settings field items).result = none ∨
        ∃ clause text, (Filter.ofList settings field items).result = some clause ∧
          clause.write = field ++ ":" ++ text ∧
          ListsItems text ((valueTexts items).map .quoted) := by
  refine ⟨?_, ?_, ?_⟩
  · intro value rest
    rw [String.toList_append]
    exact Condition.takes_readQuoted value rest.toList
  · intro catalog field comparison operator given
    obtain ⟨name, _, arguments⟩ := comparison
    obtain rfl := operator
    have made : Compiling.Returns (Comparison.clause? catalog field ⟨name, .oneOf, arguments⟩)
        (some (.oneOf arguments)) :=
      Comparison.returns_of_argument (Comparison.someArguments_of_ne_nil given field) rfl
    have lists : ListsItems (ValueItem.listText (arguments.map .ofArgument))
        (arguments.map .ofArgument) := by
      refine listsItems (by simpa using given) fun item member => ?_
      obtain ⟨argument, _, rfl⟩ := List.mem_map.mp member
      exact ValueItem.isPlain_ofArgument argument
    exact ⟨_, _, _, made, Clause.write_oneOf (catalog.descriptor field) arguments,
      ValueItem.map_value_ofArgument arguments, lists⟩
  · intro settings field items unmarked
    rw [ofList_result unmarked]
    by_cases none : valueTexts items = []
    · exact .inl ⟨none, if_pos none⟩
    · have lists : ListsItems (ValueItem.listText ((valueTexts items).map .quoted))
          ((valueTexts items).map .quoted) := by
        refine listsItems (by simpa using none) fun item member => ?_
        obtain ⟨value, _, rfl⟩ := List.mem_map.mp member
        trivial
      exact .inr ⟨_, _, if_neg none, FieldTest.write_oneOf field _, lists⟩

/-- A value that ends in a backslash behind what looks like the next item, and a list with digits, a
star and a value that looks like several. -/
theorem valueLists_readBack_mixed :
    Condition.readQuoted (Engine.quote "a\" OR \\" ++ ")").toList = some ("a\" OR \\", [')']) ∧
      (∃ clause text items,
        (Comparison.clause? (Schema.catalog {}) "year" ⟨"year", .oneOf,
          ["1900", "*", "b\") OR (\"c"]⟩).Returns
          (some clause) ∧
        clause.write ((Schema.catalog {}).descriptor "year")
          = "year" ++ ":" ++ text ++ ((Schema.catalog {}).descriptor "year").suffix ∧
        items.map ValueItem.value = ["1900", "*", "b\") OR (\"c"] ∧ ListsItems text items) ∧
      valueTexts [.string "1900", .integer 5, .string " ", .string "x"] ≠ [] ∧
      ∃ clause text,
        (Filter.ofList {} "year" [.string "1900", .integer 5, .string " ", .string "x"]).result
          = some clause ∧ clause.write = "year" ++ ":" ++ text ∧
        ListsItems text ((valueTexts [.string "1900", .integer 5, .string " ", .string "x"]).map
          .quoted) := by
  have unmarked : Json.string ({} : FilterSettings).missingMarker
      ∉ [.string "1900", .integer 5, .string " ", .string "x"] := by simp
  have named : valueTexts [.string "1900", .integer 5, .string " ", .string "x"] ≠ [] := by
    decide +kernel
  refine ⟨valueLists_readBack.1 "a\" OR \\" ")",
    valueLists_readBack.2.1 _ _ _ rfl (List.cons_ne_nil _ _), named, ?_⟩
  exact (valueLists_readBack.2.2 {} "year" _ unmarked).resolve_left fun nothing => named nothing.1

end FacetSearch
