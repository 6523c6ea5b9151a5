import FacetSearch.Proofs.Filter.Leaf

/-!
The conditions that the texts of filter clauses state. A text is put together from parts: tests on
fields, everything but the documents that have some fields, and parts in parentheses. What a part
says holds wherever it stands (`StatesPart`), so joining parts joins what they say.

`read?_write` gives the condition of every clause.
-/

set_option autoImplicit false

namespace FacetSearch

open Piece Text.Reader

namespace Condition

/-- A text behind the colon of a field that asks for a condition. -/
structure IsTest (field : String) (body : List Char) (condition : Condition) : Prop where
  taken : Takes (readTest field) body condition
  legible : ∃ made, Forms body made ∧ Outline.Jointless made

theorem jointless_one {piece : Piece} (connects : ∀ kind, piece ≠ .joint kind) :
    Outline.Jointless [piece] :=
  fun kind member => connects kind (List.mem_singleton.mp member).symm

theorem isTest_present (field : String) : IsTest field ['*'] (present field) where
  taken := takes_readTest_present field
  legible := ⟨_, forms_plain (Text.forall_of_all (by decide)), Outline.jointless_single _⟩

theorem isTest_equals (field value : String) :
    IsTest field (Engine.quote value).toList (equals field value) where
  taken := takes_readTest_equals field value
  legible := ⟨_, Engine.forms_quote value, jointless_one nofun⟩

theorem isTest_oneOf (field : String) {values : List String} (inhabited : values ≠ []) :
    IsTest field (valuesText values) (oneOf field values) where
  taken := takes_readTest_oneOf field inhabited
  legible := ⟨_, forms_enclosed_intercalate .any values fun value _ => Engine.forms_quote value,
    jointless_one nofun⟩

/-- An end of a range has nothing in it that is taken for structure, and behind a blank it does not
begin a joint. -/
theorem endText_spec (limit : Option Int) : (∀ c ∈ endText limit, c ∉ structural) ∧
    ∃ c rest, endText limit = c :: rest ∧ c ≠ 'A' ∧ c ≠ 'O' := by
  cases limit with
  | none => exact ⟨Text.forall_of_all (by decide), '*', [], rfl, by decide, by decide⟩
  | some n =>
      obtain ⟨c, rest, spelled, first⟩ := Text.exists_cons_toString_int n
      refine ⟨fun d member => ?_, c, rest, spelled, ?_, ?_⟩
      · rcases Text.toList_toString_int n with ⟨written, _⟩ | ⟨written, _⟩
        · rw [endText, written] at member
          exact not_structural_of_isDigit (Text.isDigit_of_mem_toDigits d member)
        · rw [endText, written, List.mem_cons] at member
          rcases member with rfl | digit
          · decide
          · exact not_structural_of_isDigit (Text.isDigit_of_mem_toDigits d digit)
      · rintro rfl
        rcases first with digit | sign
        · cases digit
        · cases sign
      · rintro rfl
        rcases first with digit | sign
        · cases digit
        · cases sign

theorem forms_rangeText (low high : Option Int) :
    ∃ inside, Forms (rangeText low high) [.bracketed '[' inside] := by
  obtain ⟨lowPlain, _⟩ := endText_spec low
  obtain ⟨highPlain, c, rest, spelled, noAll, noAny⟩ := endText_spec high
  have limit : Forms (' ' :: endText high) (single (' ' :: endText high)) := by
    have word := forms_plain highPlain
    rw [spelled] at word ⊢
    exact word.space noAll noAny
  have letters : Forms ['T', 'O'] (single ['T', 'O']) :=
    forms_plain (Text.forall_of_all (by decide))
  have inside :=
    (forms_plain lowPlain).append ((letters.space (by decide) (by decide)).append limit)
  have pair : closing? '[' = some ']' := rfl
  have whole := inside.bracketed pair
  exact ⟨_, by simpa [rangeText] using whole⟩

theorem isTest_between (field : String) (low high : Option Int) :
    IsTest field (rangeText low high) (between field low high) where
  taken := takes_readTest_between field low high
  legible := by
    obtain ⟨inside, forms⟩ := forms_rangeText low high
    exact ⟨_, forms, jointless_one nofun⟩

/-- A text that is one part of its level and states a condition. -/
def StatesPart (text : List Char) (condition : Condition) : Prop :=
  ∃ made outline, Forms text made ∧ Outline.IsPart made outline ∧
    ofOutline? outline = some condition

/-- A text that is a whole level and states a condition. -/
def StatesLevel (text : List Char) (condition : Condition) : Prop :=
  ∃ made outline, Fits false text made ∧ Outline.ofPieces? made = some outline ∧
    ofOutline? outline = some condition

theorem StatesPart.level {text : List Char} {condition : Condition}
    (part : StatesPart text condition) : StatesLevel text condition := by
  obtain ⟨made, outline, forms, single, states⟩ := part
  exact ⟨made, outline, forms.fits, single.ofPieces?_eq, states⟩

/-- Nothing states nothing. -/
theorem StatesLevel.ne_nil {text : List Char} {condition : Condition}
    (level : StatesLevel text condition) : text ≠ [] := by
  rintro rfl
  obtain ⟨made, outline, fits, tree, states⟩ := level
  have read := fits.ofText?_eq
  obtain rfl : [] = made := by simpa [ofText?, Piece.read?] using read
  cases tree
  cases states

theorem StatesLevel.read?_eq {text : String} {condition : Condition}
    (level : StatesLevel text.toList condition) : read? text = some condition := by
  have given : text.isEmpty = false := by simpa using level.ne_nil
  obtain ⟨made, outline, fits, tree, states⟩ := level
  rw [read?, Outline.read?, given, fits.ofText?_eq]
  simp only [Bool.false_eq_true, if_false, Option.bind_some, tree, states]

/-- Parentheses around a level make a part of it. -/
theorem StatesLevel.enclosed {text : List Char} {condition : Condition}
    (level : StatesLevel text condition) : StatesPart ('(' :: (text ++ [')'])) condition := by
  obtain ⟨made, outline, fits, tree, states⟩ := level
  have unboosted : Outline.IsBoost [] := .inl rfl
  exact ⟨_, outline, fits.enclosed, Outline.isPart_enclosed tree false unboosted, states⟩

/-- A leaf states what is read from it. -/
theorem statesPart_leaf (name : List Char) {body : List Char} {c : Char} {rest : List Piece}
    {condition : Condition} (unsigned : c ≠ '-') (lone : Outline.Jointless rest)
    (forms : Forms (name ++ c :: body) (single name ++ .text [c] :: rest))
    (reads : run? readLeaf (name ++ c :: body) = some condition) :
    StatesPart (name ++ c :: body) condition := by
  have part := Outline.isPart_leaf name unsigned lone
  have fits : Fits false (name ++ c :: body) (single name ++ .text [c] :: rest) := forms.fits
  rw [fits.charsOf_eq] at part
  exact ⟨_, _, forms, part, by rw [ofOutline?, reads]⟩

section Tests

variable {field : String} (named : IsFieldName field) {body : List Char} {condition : Condition}

include named

theorem statesPart_test (test : IsTest field body condition) :
    StatesPart (field.toList ++ ':' :: body) condition := by
  obtain ⟨taken, made, forms, lone⟩ := test
  refine statesPart_leaf _ (by decide) lone
    ((forms_name named.chars).append (forms_colon.append forms)) ?_
  have alone : ∀ item ∈ ([] : List Unit),
      Takes readTerm ((fun _ => []) item) ((fun _ => everything) item) := nofun
  have whole := run?_readLeaf_without (takes_readTerm_test named taken)
    (fun more same => (named.toList_append_eq_cons same).2 rfl) (by simp) alone
  simpa [without] using whole

theorem statesPart_signed (test : IsTest field body condition) :
    StatesPart ('-' :: (field.toList ++ ':' :: body)) (not condition) := by
  obtain ⟨taken, made, forms, lone⟩ := test
  have sign : Forms ['-'] (single ['-']) := forms_plain (Text.forall_of_all (by decide))
  have whole := (sign.append (forms_name named.chars)).append (forms_colon.append forms)
  rw [← single_append] at whole
  exact statesPart_leaf ('-' :: field.toList) (by decide) lone whole
    (run?_readLeaf_signed (takes_readTerm_test named taken))

/-- Behind a blank, a name in front of a colon does not begin a joint, also where it begins like
one. -/
theorem forms_blankName {made : List Piece} (forms : Forms (field.toList ++ ':' :: body) made) :
    Forms (' ' :: (field.toList ++ ':' :: body)) (.text [' '] :: made) := by
  intro level outer rest
  have noJoint : ∀ word more, (∀ c ∈ word, IsNameChar c) →
      field.toList ++ ':' :: (body ++ rest) ≠ word ++ ' ' :: more := by
    intro word more letters same
    have stops := congrArg (List.dropWhile (decide <| IsNameChar ·)) same
    rw [List.dropWhile_append_of_pos (fun c member => decide_eq_true (named.chars c member)),
      List.dropWhile_append_of_pos (fun c member => decide_eq_true (letters c member)),
      List.dropWhile_cons_of_neg (by decide), List.dropWhile_cons_of_neg (by decide)] at stops
    exact absurd (List.cons.inj stops).1 (by decide)
  have noAll : ∀ more, field.toList ++ ':' :: (body ++ rest)
      ≠ 'A' :: 'N' :: 'D' :: ' ' :: more :=
    fun more => noJoint ['A', 'N', 'D'] more (Text.forall_of_all (by decide))
  have noAny : ∀ more, field.toList ++ ':' :: (body ++ rest) ≠ 'O' :: 'R' :: ' ' :: more :=
    fun more => noJoint ['O', 'R'] more (Text.forall_of_all (by decide))
  have onward := forms (level ++ [.text [' ']]) outer rest
  rw [List.append_assoc, List.cons_append] at onward
  rw [List.cons_append, List.append_assoc, List.cons_append, read?_space noAll noAny, onward,
    List.append_assoc]
  rfl

end Tests

/-- The text that takes the documents with a field out. -/
def excludedText (field : String) : List Char := field.toList ++ [':', '*']

theorem forms_excluded {field : String} (named : IsFieldName field) :
    Forms (" NOT ".toList ++ excludedText field)
      (single (" NOT ".toList ++ excludedText field)) := by
  have letters : Forms ['N', 'O', 'T'] (single ['N', 'O', 'T']) :=
    forms_plain (Text.forall_of_all (by decide))
  have star : Forms ['*'] (single ['*']) := forms_plain (Text.forall_of_all (by decide))
  have test := forms_blankName named ((forms_name named.chars).append (forms_colon.append star))
  have whole := (letters.space (by decide) (by decide)).append test
  simpa [excludedText, single] using whole

theorem forms_flatMap {α : Type} {text : α → List Char} {items : List α}
    (each : ∀ item ∈ items, Forms (text item) (single (text item))) :
    Forms (items.flatMap text) (single (items.flatMap text)) := by
  induction items with
  | nil => exact forms_nil
  | cons item items ih =>
      rw [List.flatMap_cons, single_append]
      exact (each item List.mem_cons_self).append (ih fun other member =>
        each other (List.mem_cons_of_mem _ member))

/-- The text that takes the documents with some fields out of all documents. -/
def lackingText (fields : List String) : List Char :=
  "*:*".toList ++ fields.flatMap fun field => " NOT ".toList ++ excludedText field

theorem statesPart_lacking {fields : List String}
    (named : ∀ field ∈ fields, IsFieldName field) :
    StatesPart (lackingText fields) (without everything (fields.map present)) := by
  have star : Forms "*:*".toList (single "*:*".toList) :=
    forms_plain (Text.forall_of_all (by decide))
  have others := forms_flatMap fun field member => forms_excluded (named field member)
  have reads : run? readLeaf (lackingText fields)
      = some (without everything (fields.map present)) :=
    run?_readLeaf_without takes_readTerm_everything (by simp) (by simp)
      fun field member => takes_readTerm_test (named field member) (takes_readTest_present field)
  have whole := star.append others
  rw [← single_append] at whole
  exact statesPart_leaf [] (by decide) (Outline.jointless_single _) whole reads

/-- What joined conditions say. -/
def combined : Junction → List Condition → Condition
  | .all => all
  | .any => any

theorem ofOutlines?_map {α : Type} {outline : α → Outline} {condition : α → Condition}
    {items : List α}
    (each : ∀ item ∈ items, ofOutline? (outline item) = some (condition item)) :
    ofOutlines? (items.map outline) = some (items.map condition) := by
  induction items with
  | nil => rfl
  | cons item items ih =>
      rw [List.map_cons, ofOutlines?, each item List.mem_cons_self,
        ih fun other member => each other (List.mem_cons_of_mem _ member)]
      rfl

theorem ofOutline?_node (kind : Junction) {parts : List Outline} {conditions : List Condition}
    (states : ofOutlines? parts = some conditions) :
    ofOutline? (.node kind parts) = some (combined kind conditions) := by
  cases kind <;> rw [ofOutline?, states] <;> rfl

/-- Parts with joints of one kind between them state what the parts state together. -/
theorem statesLevel_joined (kind : Junction) (parts : List (List Char × Condition))
    (several : 1 < parts.length) (each : ∀ part ∈ parts, StatesPart part.1 part.2) :
    StatesLevel (kind.word.intercalate (parts.map Prod.fst))
      (combined kind (parts.map Prod.snd)) := by
  have someOutline : Nonempty Outline := ⟨.leaf []⟩
  choose! made outline forms lone states using each
  have fits : Fits false (kind.word.intercalate (parts.map Prod.fst))
      (joined kind (parts.map made)) :=
    fits_intercalate kind parts (fun part member =>
      (forms part (List.mem_of_mem_dropLast member)).fits)
      fun part member => (forms part (List.mem_of_getLast? member)).fits
  have inhabited : parts ≠ [] := by
    rintro rfl
    cases several
  have tree := Outline.ofPieces?_joined kind inhabited lone
  have node : Outline.gather kind (parts.map outline) = .node kind (parts.map outline) := by
    match parts, several with
    | _ :: _ :: _, _ => rfl
  rw [node] at tree
  exact ⟨_, _, fits, tree, ofOutline?_node kind (ofOutlines?_map states)⟩

theorem StatesPart.join {first second : List Char} {one other : Condition} (kind : Junction)
    (head : StatesPart first one) (tail : StatesPart second other) :
    StatesLevel (first ++ (kind.word ++ second)) (combined kind [one, other]) := by
  have level :=
    statesLevel_joined kind [(first, one), (second, other)] (by simp) (by simp [head, tail])
  simpa using level

theorem StatesPart.joinThree {first second third : List Char} {one other last : Condition}
    (kind : Junction) (head : StatesPart first one) (middle : StatesPart second other)
    (tail : StatesPart third last) :
    StatesLevel (first ++ (kind.word ++ (second ++ (kind.word ++ third))))
      (combined kind [one, other, last]) := by
  have level := statesLevel_joined kind [(first, one), (second, other), (third, last)] (by simp)
    (by simp [head, middle, tail])
  simpa using level

/-- The condition that holds of the documents without some fields. -/
def lacking (fields : List String) : Condition := without everything (fields.map present)

end Condition

open Condition

/-- The condition of a test. -/
def FieldTest.condition (field : String) : FieldTest → Condition
  | equals value => .equals field value
  | oneOf values => .oneOf field values
  | between start stop => .between field (some start) (some stop)

/-- The condition of a date range. -/
def DateRange.condition (range : DateRange) (first last : String) : Condition :=
  let since := Condition.between first (some range.start) none
  let upTo := Condition.between last none (some range.stop)
  if range.exact then
    if range.missing then .any [.all [since, upTo], lacking [first, last]] else .all [since, upTo]
  else
    let lenient := [Condition.any [since, lacking [first]], .any [upTo, lacking [last]]]
    if range.missing then .all lenient else .all (lenient ++ [.any [.present first, .present last]])

namespace FilterClause

/-- The condition of a clause. -/
def condition : FilterClause → Condition
  | present field test => test.condition field
  | presentOrMissing field test => .any [lacking [field], test.condition field]
  | missing field => .not (.between field none none)
  | dates first last range => range.condition first last

/-- A clause on fields with names that can be read, which does not ask for one of no values. -/
def Legible : FilterClause → Prop
  | present field test | presentOrMissing field test => IsFieldName field ∧ test ≠ .oneOf []
  | missing field => IsFieldName field
  | dates first last _ => IsFieldName first ∧ IsFieldName last

end FilterClause

theorem FieldTest.statesPart_write {field : String} (named : IsFieldName field) {test : FieldTest}
    (inhabited : test ≠ .oneOf []) :
    StatesPart (test.write field).toList (test.condition field) := by
  cases test with
  | equals value =>
      have part := statesPart_test named (isTest_equals field value)
      simpa [write, condition] using part
  | oneOf values =>
      have given : values ≠ [] := fun absent => inhabited (congrArg oneOf absent)
      have part := statesPart_test named (isTest_oneOf field given)
      simpa [write, condition, valuesText, Junction.word, String.toList_intercalate,
        Function.comp_def] using part
  | between start stop =>
      have part := statesPart_test named (isTest_between field (some start) (some stop))
      simpa [write, condition, rangeText, endText] using part

theorem DateRange.statesLevel_write {first last : String} (firstNamed : IsFieldName first)
    (lastNamed : IsFieldName last) (range : DateRange) :
    StatesLevel (range.write first last).toList (range.condition first last) := by
  have since := statesPart_test firstNamed (isTest_between first (some range.start) none)
  have upTo := statesPart_test lastNamed (isTest_between last none (some range.stop))
  have within := since.join .all upTo
  have neither : StatesPart (lackingText [first, last]) (lacking [first, last]) :=
    statesPart_lacking (by simp [firstNamed, lastNamed])
  have noFirst : StatesPart (lackingText [first]) (lacking [first]) :=
    statesPart_lacking (by simp [firstNamed])
  have noLast : StatesPart (lackingText [last]) (lacking [last]) :=
    statesPart_lacking (by simp [lastNamed])
  have sinceOrNot := (since.join .any noFirst.level.enclosed).enclosed
  have upToOrNot := (upTo.join .any noLast.level.enclosed).enclosed
  have either := ((statesPart_test firstNamed (isTest_present first)).join .any
    (statesPart_test lastNamed (isTest_present last))).enclosed
  unfold write condition
  cases range.exact <;> cases range.missing
  · have level := sinceOrNot.joinThree .all upToOrNot either
    simpa [combined, Junction.word, rangeText, endText, lackingText, excludedText] using level
  · have level := sinceOrNot.join .all upToOrNot
    simpa [combined, Junction.word, rangeText, endText, lackingText, excludedText] using level
  · simpa [combined, Junction.word, rangeText, endText, lackingText, excludedText] using within
  · have level := within.enclosed.join .any neither.level.enclosed
    simpa [combined, Junction.word, rangeText, endText, lackingText, excludedText] using level

namespace FilterClause

theorem statesLevel_write {clause : FilterClause} (legible : clause.Legible) :
    StatesLevel clause.write.toList clause.condition := by
  cases clause with
  | present field test => exact (FieldTest.statesPart_write legible.1 legible.2).level
  | presentOrMissing field test =>
      obtain ⟨named, inhabited⟩ := legible
      have missing : StatesPart (lackingText [field]) (lacking [field]) :=
        statesPart_lacking (by simp [named])
      have given := FieldTest.statesPart_write named inhabited
      have level := missing.level.enclosed.join .any given.level.enclosed
      simpa [write, condition, combined, Junction.word, lackingText, excludedText] using level
  | missing field =>
      have level := (statesPart_signed legible (isTest_between field none none)).level
      simpa [write, condition, rangeText, endText] using level
  | dates first last range => exact range.statesLevel_write legible.1 legible.2

/-- The text of a clause states its condition. -/
theorem read?_write {clause : FilterClause} (legible : clause.Legible) :
    Condition.read? clause.write = some clause.condition :=
  (statesLevel_write legible).read?_eq

end FilterClause

end FacetSearch
