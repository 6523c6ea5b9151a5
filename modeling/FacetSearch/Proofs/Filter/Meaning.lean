import FacetSearch.Filter.Builder
import FacetSearch.Proofs.Filter.ClauseText

/-!
What a filter specification asks of documents (`Filter.Means`), said without its clauses, and that
the clauses built from it ask exactly this (`Filter.build_spec`). An entry without a meaning is
passed over.
-/

set_option autoImplicit false

namespace FacetSearch

namespace Document

def Lacks (document : Document) (field : String) : Prop := document field = []

def HasValue (document : Document) (field value : String) : Prop :=
  ∃ found ∈ document field, found.text = value

def HasFrom (document : Document) (field : String) (least : Int) : Prop :=
  ∃ found ∈ document field, ∃ n, found.number? = some n ∧ least ≤ n

def HasUpTo (document : Document) (field : String) (most : Int) : Prop :=
  ∃ found ∈ document field, ∃ n, found.number? = some n ∧ n ≤ most

def HasBetween (document : Document) (field : String) (least most : Int) : Prop :=
  ∃ found ∈ document field, ∃ n, found.number? = some n ∧ least ≤ n ∧ n ≤ most

end Document

namespace Text

/-- A text writes an integer by decimal digits with an optional sign. -/
inductive WritesInteger : List Char → Int → Prop
  | digits {digits : List Char} : digits ≠ [] → (∀ c ∈ digits, c.isDigit = true) →
    WritesInteger digits (Nat.ofDigitChars 10 digits 0)
  | plus {digits : List Char} : digits ≠ [] → (∀ c ∈ digits, c.isDigit = true) →
    WritesInteger ('+' :: digits) (Nat.ofDigitChars 10 digits 0)
  | minus {digits : List Char} : digits ≠ [] → (∀ c ∈ digits, c.isDigit = true) →
    WritesInteger ('-' :: digits) (-(Nat.ofDigitChars 10 digits 0 : Int))

end Text

namespace Json

/-- The integers of 64 bits. -/
def IsInt64 (n : Int) : Prop := -2 ^ 63 ≤ n ∧ n < 2 ^ 63

/-- A value that gives an integer: the number, or a text that writes it, with blanks around it. -/
inductive GivesInteger : Json → Int → Prop
  | number {n : Int} : IsInt64 n → GivesInteger (.integer n) n
  | text {text : String} {n : Int} : Text.WritesInteger (Text.trim text.toList) n → IsInt64 n →
    GivesInteger (.string text) n

/-- A member that gives an integer. -/
def HasInteger (members : List (String × Json)) (key : String) (n : Int) : Prop :=
  ∃ value, member? members key = some value ∧ GivesInteger value n

/-- A member that is "true". -/
def HasFlag (members : List (String × Json)) (key : String) : Prop :=
  member? members key = some (.boolean true)

end Json

namespace Filter

open Json Text

/-- A text that names a value: no blank one, and not the marker. -/
def IsValue (settings : FilterSettings) (text : String) : Prop :=
  text ≠ settings.missingMarker ∧ allBlank text.toList = false

/-- The meanings of the values of a facet. -/
inductive FacetMeans (settings : FilterSettings) (field : String) :
    Json → (Document → Prop) → Prop
  | missing : FacetMeans settings field (.string settings.missingMarker) (·.Lacks field)
  | text {value : String} : IsValue settings value →
    FacetMeans settings field (.string value) (·.HasValue field value)
  | list {items : List Json} :
    (∃ text, .string text ∈ items ∧
      (IsValue settings text ∨ text = settings.missingMarker)) →
    FacetMeans settings field (.array items) fun document =>
      (∃ value, .string value ∈ items ∧ IsValue settings value ∧
        document.HasValue field value) ∨
        .string settings.missingMarker ∈ items ∧ document.Lacks field
  | range {members : List (String × Json)} {start stop : Int} :
    HasInteger members "from" start → HasInteger members "to" stop →
    FacetMeans settings field (.object members) fun document =>
      document.HasBetween field start stop ∨ HasFlag members "missing" ∧ document.Lacks field
  | missingRange {members : List (String × Json)} :
    (¬ ∃ start stop, HasInteger members "from" start ∧ HasInteger members "to" stop) →
    HasFlag members "missing" → FacetMeans settings field (.object members) (·.Lacks field)

/-- The meaning of a range of dates: exact or not, and with or without documents that have no
date. -/
def datesMeaning (settings : FilterSettings) (members : List (String × Json)) (start stop : Int)
    (document : Document) : Prop :=
  let noFirst := document.Lacks settings.dateFromField
  let noLast := document.Lacks settings.dateToField
  let since := document.HasFrom settings.dateFromField start
  let upTo := document.HasUpTo settings.dateToField stop
  (HasFlag members "exact" → since ∧ upTo ∨
    HasFlag members "missing" ∧ noFirst ∧ noLast) ∧
    (¬ HasFlag members "exact" → (since ∨ noFirst) ∧ (upTo ∨ noLast) ∧
      (HasFlag members "missing" ∨ ¬ noFirst ∨ ¬ noLast))

/-- The meanings of entries. The key for dates is no facet, also if the catalog has one of this
name. -/
inductive Means (catalog : Catalog) (settings : FilterSettings) :
    String × Json → (Document → Prop) → Prop
  | facet {key : String} {value : Json} {meaning : Document → Prop} : key ≠ "" →
      key ≠ settings.dateKey →
    catalog.isFacet key = true → FacetMeans settings key value meaning →
    Means catalog settings (key, value) meaning
  | dates {members : List (String × Json)} {start stop : Int} : settings.dateKey ≠ "" →
    HasInteger members "from" start → HasInteger members "to" stop →
    Means catalog settings (settings.dateKey, .object members)
      (datesMeaning settings members start stop)

/-- An entry with a meaning for the field of types. -/
def ConstrainsType (catalog : Catalog) (settings : FilterSettings)
    (members : List (String × Json)) : Prop :=
  ∃ value meaning, (settings.typeField, value) ∈ members ∧
    Means catalog settings (settings.typeField, value) meaning

/-- What a specification asks of a document. -/
structure Accepts (catalog : Catalog) (settings : FilterSettings) (members : List (String × Json))
    (document : Document) : Prop where
  entries : ∀ entry ∈ members, ∀ meaning, Means catalog settings entry meaning →
    meaning document
  types : ¬ ConstrainsType catalog settings members → settings.defaultTypes ≠ [] →
    ∃ type ∈ settings.defaultTypes, document.HasValue settings.typeField type

end Filter

namespace Text

theorem ofDecimalDigits?_eq_some_iff {digits : List Char} {n : Nat} :
    ofDecimalDigits? digits = some n ↔
      (digits ≠ [] ∧ ∀ c ∈ digits, c.isDigit = true) ∧
        Nat.ofDigitChars 10 digits 0 = n := by
  rw [ofDecimalDigits?]
  by_cases decimal : digits ≠ [] ∧ ∀ c ∈ digits, c.isDigit = true
  · have passes : (digits.isEmpty || !digits.all Char.isDigit) = false := by
      simpa using decimal
    rw [passes, if_neg Bool.false_ne_true, Option.some_inj, ofDigits_ten decimal.2]
    exact (and_iff_right decimal).symm
  · have fails : (digits.isEmpty || !digits.all Char.isDigit) = true := by
      by_contra passes
      exact decimal (by simpa using passes)
    rw [if_pos fails]
    exact iff_of_false nofun fun given => decimal given.1

theorem not_isDigit_of_sign {digits : List Char} {sign : Char} (signed : sign.isDigit = false) :
    ¬ ∀ c ∈ sign :: digits, c.isDigit = true := by
  intro decimal
  rw [decimal sign List.mem_cons_self] at signed
  cases signed

theorem writesInteger_minus_iff {digits : List Char} {n : Int} : WritesInteger ('-' :: digits) n ↔
    (digits ≠ [] ∧ ∀ c ∈ digits, c.isDigit = true) ∧
      -(Nat.ofDigitChars 10 digits 0 : Int) = n := by
  constructor
  · intro writes
    cases writes with
    | digits _ decimal => exact absurd decimal (not_isDigit_of_sign rfl)
    | minus inhabited decimal => exact ⟨⟨inhabited, decimal⟩, rfl⟩
  · rintro ⟨⟨inhabited, decimal⟩, rfl⟩
    exact .minus inhabited decimal

theorem writesInteger_plus_iff {digits : List Char} {n : Int} : WritesInteger ('+' :: digits) n ↔
    (digits ≠ [] ∧ ∀ c ∈ digits, c.isDigit = true) ∧
      (Nat.ofDigitChars 10 digits 0 : Int) = n := by
  constructor
  · intro writes
    cases writes with
    | digits _ decimal => exact absurd decimal (not_isDigit_of_sign rfl)
    | plus inhabited decimal => exact ⟨⟨inhabited, decimal⟩, rfl⟩
  · rintro ⟨⟨inhabited, decimal⟩, rfl⟩
    exact .plus inhabited decimal

theorem writesInteger_iff {text : List Char} {n : Int}
    (noMinus : ∀ digits, text ≠ '-' :: digits) (noPlus : ∀ digits, text ≠ '+' :: digits) :
    WritesInteger text n ↔
      (text ≠ [] ∧ ∀ c ∈ text, c.isDigit = true) ∧
        (Nat.ofDigitChars 10 text 0 : Int) = n := by
  constructor
  · intro writes
    cases writes with
    | digits inhabited decimal => exact ⟨⟨inhabited, decimal⟩, rfl⟩
    | plus => exact absurd rfl (noPlus _)
    | minus => exact absurd rfl (noMinus _)
  · rintro ⟨⟨inhabited, decimal⟩, rfl⟩
    exact .digits inhabited decimal

theorem map_ofDecimalDigits?_eq_some_iff {digits : List Char} {n : Int} (signed : Nat → Int) :
    (ofDecimalDigits? digits).map signed = some n ↔
      (digits ≠ [] ∧ ∀ c ∈ digits, c.isDigit = true) ∧
        signed (Nat.ofDigitChars 10 digits 0) = n := by
  rw [Option.map_eq_some_iff]
  constructor
  · rintro ⟨value, read, rfl⟩
    obtain ⟨decimal, rfl⟩ := ofDecimalDigits?_eq_some_iff.mp read
    exact ⟨decimal, rfl⟩
  · rintro ⟨decimal, rfl⟩
    exact ⟨_, ofDecimalDigits?_eq_some_iff.mpr ⟨decimal, rfl⟩, rfl⟩

/-- Reading an integer undoes writing it. -/
theorem toInt64?_eq_some_iff {text : List Char} {n : Int} :
    toInt64? text = some n ↔ WritesInteger text n ∧ Json.IsInt64 n := by
  have limited : ∀ read : Option Int, (∀ m, read = some m ↔ WritesInteger text m) →
      ((read.bind fun m => if -Int.pow 2 63 ≤ m ∧
        m < Int.pow 2 63 then some m else none) = some n ↔
        WritesInteger text n ∧ Json.IsInt64 n) := by
    intro read writes
    rw [← writes, Option.bind_eq_some_iff]
    constructor
    · rintro ⟨m, rfl, inside⟩
      split at inside
      · cases inside
        exact ⟨rfl, ‹_›⟩
      · cases inside
    · rintro ⟨rfl, inside⟩
      exact ⟨n, rfl, if_pos inside⟩
  unfold toInt64?
  split
  · rename_i digits
    have same : (do let value ← ofDecimalDigits? digits; pure (value : Int))
        = (ofDecimalDigits? digits).map Int.ofNat := by
      cases ofDecimalDigits? digits <;> rfl
    refine limited _ fun m => ?_
    rw [same, Option.map_map]
    exact (map_ofDecimalDigits?_eq_some_iff _).trans writesInteger_minus_iff.symm
  · exact limited _ fun m => (map_ofDecimalDigits?_eq_some_iff _).trans writesInteger_plus_iff.symm
  · rename_i noMinus noPlus
    exact limited _ fun m => (map_ofDecimalDigits?_eq_some_iff _).trans
      (writesInteger_iff (fun digits same => noMinus digits same) fun digits same =>
        noPlus digits same).symm

end Text

namespace Json

/-- The integer of a member is the one that its value gives. -/
theorem integerMember?_eq_some_iff {members : List (String × Json)} {key : String} {n : Int} :
    integerMember? members key = some n ↔ HasInteger members key n := by
  unfold integerMember? HasInteger
  split
  · rename_i m found
    rw [found]
    constructor
    · intro inside
      split at inside
      · cases inside
        exact ⟨_, rfl, .number ‹_›⟩
      · cases inside
    · rintro ⟨value, same, gives⟩
      cases same
      cases gives with
      | number inside => exact if_pos inside
  · rename_i text found
    rw [found, Text.toInt64?_eq_some_iff]
    constructor
    · rintro ⟨writes, inside⟩
      exact ⟨_, rfl, .text writes inside⟩
    · rintro ⟨value, same, gives⟩
      cases same
      cases gives with
      | text writes inside => exact ⟨writes, inside⟩
  · rename_i noNumber noText
    refine iff_of_false nofun ?_
    rintro ⟨value, found, gives⟩
    cases gives with
    | number => exact noNumber _ found
    | text => exact noText _ found

theorem flagMember_eq_true_iff {members : List (String × Json)} {key : String} :
    flagMember members key = true ↔ HasFlag members key := by
  unfold flagMember HasFlag
  split
  · rename_i found
    rw [found]
    simp
  · rename_i other
    exact iff_of_false Bool.false_ne_true (other true)

end Json

namespace Condition

variable (document : Document)

theorem holds_present (field : String) : holds document (present field) = true ↔
    ¬ document.Lacks field := by
  simp [holds, Document.Lacks]

theorem holds_equals (field value : String) :
    holds document (equals field value) = true ↔ document.HasValue field value := by
  simp [holds, Document.HasValue]

theorem holds_oneOf (field : String) (values : List String) :
    holds document (oneOf field values) = true ↔
    ∃ value ∈ values, document.HasValue field value := by
  simp only [holds, Document.HasValue, List.any_eq_true, List.contains_iff_mem]
  constructor
  · rintro ⟨found, inside, member⟩
    exact ⟨found.text, member, found, inside, rfl⟩
  · rintro ⟨value, member, found, inside, rfl⟩
    exact ⟨found, inside, member⟩

theorem holds_between (field : String) (least most : Int) :
    holds document (between field (some least) (some most)) = true ↔
      document.HasBetween field least most := by
  simp only [holds, Document.HasBetween, List.any_eq_true, FieldValue.isWithin]
  refine exists_congr fun found => and_congr_right fun _ => ?_
  cases found.number? <;> simp

theorem holds_from (field : String) (least : Int) :
    holds document (between field (some least) none) = true ↔ document.HasFrom field least := by
  simp only [holds, Document.HasFrom, List.any_eq_true, FieldValue.isWithin]
  refine exists_congr fun found => and_congr_right fun _ => ?_
  cases found.number? <;> simp

theorem holds_upTo (field : String) (most : Int) :
    holds document (between field none (some most)) = true ↔ document.HasUpTo field most := by
  simp only [holds, Document.HasUpTo, List.any_eq_true, FieldValue.isWithin]
  refine exists_congr fun found => and_congr_right fun _ => ?_
  cases found.number? <;> simp

theorem holds_missing (field : String) :
    holds document (not (between field none none)) = true ↔ document.Lacks field := by
  simp [holds, Document.Lacks, FieldValue.isWithin, List.eq_nil_iff_forall_not_mem]

theorem holds_all (parts : List Condition) :
    holds document (all parts) = true ↔ ∀ part ∈ parts, holds document part = true := by
  rw [holds]
  induction parts with
  | nil => simp [holdAll]
  | cons part rest ih => simp [holdAll, ih]

theorem holds_any (parts : List Condition) :
    holds document (any parts) = true ↔ ∃ part ∈ parts, holds document part = true := by
  rw [holds]
  induction parts with
  | nil => simp [holdsAny]
  | cons part rest ih => simp [holdsAny, ih]

theorem holds_lacking (fields : List String) :
    holds document (lacking fields) = true ↔ ∀ field ∈ fields, document.Lacks field := by
  have every : holds document everything = true := by rw [holds]
  have excluded : ∀ field, holds document (not (present field)) = true ↔
      document.Lacks field := by
    simp [holds, Document.Lacks]
  cases fields with
  | nil => simp [lacking, without, every]
  | cons field others =>
      have whole : lacking (field :: others)
          = all (everything :: ((field :: others).map present).map not) := rfl
      rw [whole, holds_all]
      simp [every, excluded]

end Condition

namespace FieldTest

def Asks (field : String) (document : Document) : FieldTest → Prop
  | equals value => document.HasValue field value
  | oneOf values => ∃ value ∈ values, document.HasValue field value
  | between start stop => document.HasBetween field start stop

theorem holds_condition (field : String) (document : Document) (test : FieldTest) :
    (test.condition field).holds document = true ↔ test.Asks field document := by
  cases test with
  | equals value => exact Condition.holds_equals document field value
  | oneOf values => exact Condition.holds_oneOf document field values
  | between start stop => exact Condition.holds_between document field start stop

end FieldTest

end FacetSearch
