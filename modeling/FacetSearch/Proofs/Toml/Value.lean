import Mathlib
import FacetSearch.Proofs.Decimal.Numeral
import FacetSearch.Proofs.Toml.Text
import FacetSearch.Toml.Reader

/-!
Written keys and values are read back. What follows them is written, too, and ends them: a point, a
bracket or a blank behind a key, and a comma, a bracket or a line end behind a value.

Floating-point numbers are read with more digits than they are written with, so what comes back is
in general another number (`reread`).
-/

set_option autoImplicit false

namespace FacetSearch.Toml

open Text (Reader)
open Text.Reader

variable {text rest : List Char}

theorem spaces_of_ne (solid : ∀ c ∈ rest.head?, isSpace c = false) :
    spaces rest = some ((), rest) := by
  have untaken : whileTrue isSpace rest = some ([], rest) := by
    cases rest with
    | nil => rfl
    | cons c more => simp [whileTrue, solid c rfl]
  exact bind_of_taken untaken

theorem spaces_space (solid : ∀ c ∈ rest.head?, isSpace c = false) :
    spaces (' ' :: rest) = some ((), rest) := by
  have taken : whileTrue isSpace (' ' :: rest) = some ([' '], rest) := by
    cases rest with
    | nil => rfl
    | cons c more =>
        have space : isSpace ' ' = true := rfl
        simp [whileTrue, space, solid c rfl]
  exact bind_of_taken taken

/-- A text that no gap leads into. -/
def IsSolid (text : List Char) : Prop := ∀ c ∈ text.head?, c ∉ [' ', '\t', '\n', '\r', '#']

theorem gapPart_of_isSolid (solid : IsSolid rest) : gapPart rest = none := by
  cases rest with
  | nil => rfl
  | cons c more =>
      have different := solid c rfl
      simp only [List.mem_cons, List.not_mem_nil, or_false, not_or] at different
      obtain ⟨noSpace, noTab, noNewline, noReturn, noComment⟩ := different
      have noBlank : isSpace c = false := by simp [isSpace, noSpace, noTab]
      exact (orElse_of_refused (bind_of_refused (satisfying_cons_of_neg _ noBlank more))).trans
        ((orElse_of_refused (bind_of_refused (newline_of_ne noNewline noReturn more))).trans
        (bind_of_refused (char_of_ne noComment more)))

/-- A gap takes line ends and spaces up to something solid. -/
theorem gap_append {blanks : List Char} (blank : ∀ c ∈ blanks, c = '\n' ∨ c = ' ')
    (solid : IsSolid rest) : gap (blanks ++ rest) = some ((), rest) := by
  have each : ∀ c ∈ blanks, Takes gapPart [c] () := by
    intro c member after
    rcases blank c member with rfl | rfl
    · exact (orElse_of_refused (bind_of_refused (satisfying_cons_of_neg _ rfl after))).trans
        (orElse_of_taken (bind_of_taken (newline_cons after)))
    · exact orElse_of_taken (bind_of_taken (satisfying_cons rfl after))
  have taken : many gapPart (blanks ++ rest) = some (blanks.map fun _ => (), rest) := by
    have rounds :=
      rounds_flatMap blanks each (fun _ _ => List.cons_ne_nil _ _) (gapPart_of_isSolid solid)
    rw [List.flatMap_singleton'] at rounds
    exact congrArg some rounds
  exact bind_of_taken taken

theorem gap_of_isSolid (solid : IsSolid rest) : gap rest = some ((), rest) := by
  have taken : gap ([] ++ rest) = some ((), rest) := gap_append nofun solid
  exact taken

theorem ne_quote_of_isBareChar {c : Char} (bare : isBareChar c = true) :
    c ≠ '"' ∧ c ≠ '\'' := by
  constructor <;> rintro rfl <;> cases bare

/-- A written key is read back before anything that no bare key goes on with. -/
theorem simpleKey_writeKey (key : String) (ends : ∀ c ∈ rest.head?, isBareChar c = false) :
    simpleKey ((writeKey key).toList ++ rest) = some (key, rest) := by
  have read {written : List Char}
      (taken : (textLine <|> whileTrue1 isBareChar) (written ++ rest) = some (key.toList, rest)) :
      simpleKey (written ++ rest) = some (key, rest) := by
    rw [simpleKey, bind_of_taken taken, String.ofList_toList]
    rfl
  unfold writeKey
  simp only []
  split
  next bare =>
    simp only [Bool.and_eq_true, Bool.not_eq_true', List.isEmpty_eq_false_iff,
      List.all_eq_true] at bare
    obtain ⟨inhabited, passes⟩ := bare
    obtain ⟨c, more, spelled⟩ := List.exists_cons_of_ne_nil inhabited
    have different := ne_quote_of_isBareChar (passes c (spelled ▸ List.mem_cons_self))
    refine read ((orElse_of_refused ?_).trans (whileTrue1_append inhabited passes ends))
    rw [spelled]
    exact textLine_of_ne different.1 different.2 _
  next =>
    split
    next =>
      rw [String.toList_ofList]
      exact read (orElse_of_taken (orElse_of_taken (basicLine_writeBasic _ rest)))
    next =>
      split
      next shape =>
        simp only [Bool.and_eq_true, Bool.not_eq_true', decide_eq_true_eq] at shape
        have visible := not_isControl_of_shape shape.1.1 shape.1.2
        have unquoted : '\'' ∉ key.toList := not_mem_of_longestRun _ 0 shape.2
        have opening : basicLine ('\'' :: key.toList ++ '\'' :: rest) = none :=
          basicLine_of_ne (by decide) _
        rw [String.toList_ofList]
        refine read ?_
        rw [List.append_assoc]
        exact orElse_of_taken ((orElse_of_refused opening).trans
          (literalLine_append visible unquoted rest))
      next =>
        rw [String.toList_ofList]
        exact read (orElse_of_taken (orElse_of_taken (basicLine_writeBasic _ rest)))

/-- The first character of a written key. -/
def StartsKey (c : Char) : Prop := isBareChar c = true ∨ c = '"' ∨ c = '\''

theorem exists_cons_writeKey (key : String) :
    ∃ c more, (writeKey key).toList = c :: more ∧ StartsKey c := by
  unfold writeKey
  simp only []
  split
  next bare =>
    simp only [Bool.and_eq_true, Bool.not_eq_true', List.isEmpty_eq_false_iff,
      List.all_eq_true] at bare
    obtain ⟨c, more, spelled⟩ := List.exists_cons_of_ne_nil bare.1
    exact ⟨c, more, spelled, .inl (bare.2 c (spelled ▸ List.mem_cons_self))⟩
  next =>
    split
    next => exact ⟨'"', _, String.toList_ofList, .inr (.inl rfl)⟩
    next =>
      split
      next => exact ⟨'\'', _, String.toList_ofList, .inr (.inr rfl)⟩
      next => exact ⟨'"', _, String.toList_ofList, .inr (.inl rfl)⟩

theorem StartsKey.ne {c d : Char} (starts : StartsKey c)
    (other : isBareChar d = false ∧ d ≠ '"' ∧ d ≠ '\'') : c ≠ d := by
  rintro rfl
  rcases starts with bare | quote | quote
  · rw [other.1] at bare
    cases bare
  · exact other.2.1 quote
  · exact other.2.2 quote

theorem StartsKey.not_isSpace {c : Char} (starts : StartsKey c) : isSpace c = false := by
  have noSpace : c ≠ ' ' := starts.ne (by decide)
  have noTab : c ≠ '\t' := starts.ne (by decide)
  simp [isSpace, noSpace, noTab]

/-- What stands behind a key of a header. -/
def EndsKey (text : List Char) : Prop := ∀ c ∈ text.head?, c = '.' ∨ c = ']'

theorem keyPart_writeKey (key : String) {after : List Char}
    (ends : ∀ c ∈ rest.head?, isBareChar c = false) (skipped : spaces rest = some ((), after)) :
    keyPart ((writeKey key).toList ++ rest) = some (key, after) := by
  obtain ⟨c, more, spelled, starts⟩ := exists_cons_writeKey key
  have solid : ∀ d ∈ ((writeKey key).toList ++ rest).head?, isSpace d = false := by
    rw [spelled]
    rintro d ⟨⟩
    exact starts.not_isSpace
  rw [keyPart, bind_of_taken (spaces_of_ne solid), bind_of_taken (simpleKey_writeKey key ends),
    bind_of_taken skipped]
  rfl

theorem keyPart_of_endsKey (key : String) (ends : EndsKey rest) :
    keyPart ((writeKey key).toList ++ rest) = some (key, rest) := by
  refine keyPart_writeKey key (fun c first => ?_) (spaces_of_ne fun c first => ?_)
  · rcases ends c first with rfl | rfl <;> rfl
  · rcases ends c first with rfl | rfl <;> rfl

/-- The keys of a header are read up to the bracket behind them. -/
theorem keyPath_header (way : List String) (key : String) (rest : List Char) :
    keyPath (['.'].intercalate ((way ++ [key]).map fun key => (writeKey key).toList) ++ ']' :: rest)
      = some (⟨way, key⟩, ']' :: rest) := by
  have ending : EndsKey (']' :: rest) := by
    rintro c ⟨⟩
    exact .inr rfl
  have read (first : String) (others : List String) :
      separatedBy (char '.') keyPart
        (['.'].intercalate ((first :: others).map fun key => (writeKey key).toList) ++ ']' :: rest)
        = some (first :: others, ']' :: rest) := by
    have chained : ∀ key ∈ others, ∀ after,
        EndsKey (['.'] ++ (writeKey key).toList ++ after) := by
      rintro key - after c ⟨⟩
      exact .inl rfl
    have each : ∀ key ∈ others, ∀ after, EndsKey after →
        (do char '.'; keyPart : Reader String) (['.'] ++ (writeKey key).toList ++ after)
          = some (key, after) :=
      fun key _ after ends => (bind_of_taken (char_cons '.' _)).trans (keyPart_of_endsKey key ends)
    have tail := rounds_flatMap_before EndsKey others each (fun _ _ => List.cons_ne_nil _ _) chained
      ending (bind_of_refused (char_of_ne (by decide) rest))
    rw [List.map_id'] at tail
    rw [Text.intercalate_cons_eq_flatMap, List.append_assoc]
    refine separatedBy_of_rounds (keyPart_of_endsKey first ?_) tail
    cases others with
    | nil => exact ending
    | cons next more =>
        rw [List.flatMap_cons, List.append_assoc]
        exact chained next List.mem_cons_self _
  have whole : separatedBy (char '.') keyPart
      (['.'].intercalate ((way ++ [key]).map fun key => (writeKey key).toList) ++ ']' :: rest)
      = some (way ++ [key], ']' :: rest) := by
    cases way with
    | nil => exact read key []
    | cons first others => exact read first (others ++ [key])
  refine (bind_of_taken whole).trans ?_
  rw [List.getLast?_concat, List.dropLast_concat]
  rfl

/-- The key of a pair is read together with the blank behind it. -/
theorem keyPath_pair (key : String) (rest : List Char) :
    keyPath ((writeKey key).toList ++ ' ' :: '=' :: rest) = some (⟨[], key⟩, '=' :: rest) := by
  have taken : keyPart ((writeKey key).toList ++ ' ' :: '=' :: rest) = some (key, '=' :: rest) :=
    keyPart_writeKey key (by rintro c ⟨⟩; rfl) (spaces_space (by rintro c ⟨⟩; rfl))
  have lone : separatedBy (char '.') keyPart ((writeKey key).toList ++ ' ' :: '=' :: rest)
      = some ([key], '=' :: rest) :=
    separatedBy_of_rounds taken (rounds_of_refused (bind_of_refused (char_of_ne (by decide) rest)))
  exact bind_of_taken lone

/-- What stands behind a value. -/
def EndsValue (text : List Char) : Prop := ∀ c ∈ text.head?, c = ',' ∨ c = ']' ∨ c = '\n'

/-- What a written floating-point number is read as. -/
def rereadFloat (number : Binary) : Option Toml := scalar? (number.withPlaces .single).toList

theorem ne_quote_of_isScalarChar {c : Char} (passes : isScalarChar c = true) :
    c ≠ '"' ∧ c ≠ '\'' := by
  constructor <;> rintro rfl <;> cases passes

/-- A run of characters without quotes and brackets is read as a scalar. -/
theorem simpleValue_scalar {written : List Char} {value : Toml} (inhabited : written ≠ [])
    (passes : ∀ c ∈ written, isScalarChar c = true) (writes : scalar? written = some value)
    (ends : EndsValue rest) : simpleValue (written ++ rest) = some (value, rest) := by
  have stops : ∀ c ∈ rest.head?, isScalarChar c = false := by
    intro c first
    rcases ends c first with rfl | rfl | rfl <;> rfl
  have taken := whileTrue1_append inhabited passes stops
  have noTime : char ' ' rest = none := by
    cases rest with
    | nil => rfl
    | cons c more =>
        refine char_of_ne ?_ more
        rcases ends c rfl with rfl | rfl | rfl <;> decide
  have noText : Toml.text (written ++ rest) = none := by
    obtain ⟨c, more, rfl⟩ := List.exists_cons_of_ne_nil inhabited
    have different := ne_quote_of_isScalarChar (passes c List.mem_cons_self)
    exact text_of_ne different.1 different.2 _
  refine (orElse_of_refused (bind_of_refused noText)).trans ?_
  rw [scalar, bind_of_taken taken]
  refine (orElse_of_refused ?_).trans (by rw [writes]; rfl)
  cases dated : isDate written with
  | true => exact (bind_of_taken rfl).trans (bind_of_refused noTime)
  | false => exact bind_of_refused rfl

theorem simpleValue_string (contents : String) (ends : EndsValue rest) :
    simpleValue (writeText contents.toList ++ rest) = some (.string contents, rest) := by
  have unquoted : ∀ c ∈ rest.head?, c ≠ '"' ∧ c ≠ '\'' := by
    intro c first
    rcases ends c first with rfl | rfl | rfl <;> decide
  refine orElse_of_taken ((bind_of_taken (text_writeText contents.toList unquoted)).trans ?_)
  rw [String.ofList_toList]
  rfl

theorem isScalarChar_of_isNumeral {c : Char} (numeral : IsNumeral c) : isScalarChar c = true := by
  rcases numeral with digit | listed
  · have letter : c.isAlphanum = true := by simp [Char.isAlphanum, digit]
    simp [isScalarChar, isBareChar, letter]
  · simp only [List.mem_cons, List.not_mem_nil, or_false] at listed
    rcases listed with rfl | rfl | rfl | rfl | rfl | rfl | rfl <;> rfl

theorem ungroup_of_isDigit {digits : List Char} (inhabited : digits ≠ [])
    (decimal : ∀ c ∈ digits, c.isDigit = true) : ungroup Char.isDigit digits = some digits := by
  induction digits with
  | nil => exact absurd rfl inhabited
  | cons c rest ih =>
      have digit : (!c.isDigit) = false := by simp [decimal c List.mem_cons_self]
      cases rest with
      | nil => simp [ungroup, digit]
      | cons next after =>
          have later := ih (List.cons_ne_nil _ _) fun d member =>
              decimal d (List.mem_cons_of_mem _ member)
          rw [ungroup.eq_def]
          simp only [digit, Bool.false_eq_true, if_false]
          split
          next same => cases same
          next same =>
            obtain rfl := (List.cons.inj same).1
            exact absurd (decimal '_' (by simp)) (by decide)
          next same =>
            obtain ⟨rfl, rfl⟩ := List.cons.inj same
            rw [later]
            rfl

/-- A number other than zero is written without a zero in front. -/
theorem head?_toDigits {n : Nat} (positive : 0 < n) : (Nat.toDigits 10 n).head? ≠ some '0' := by
  induction n using Nat.strongRecOn with
  | ind n ih =>
      by_cases small : n < 10
      · rw [Nat.toDigits_of_lt_base small]
        interval_cases n <;> decide
      · have higher := ih (n / 10) (by omega) (by omega)
        have inhabited := Nat.toDigits_ne_nil (n := n / 10) (b := 10)
        rw [Nat.toDigits_of_base_le (by decide) (by omega), List.head?_append_of_ne_nil _ inhabited]
        exact higher

theorem wholeDigits?_toDigits (n : Nat) :
    wholeDigits? (Nat.toDigits 10 n) = some (Nat.toDigits 10 n) := by
  have ungrouped := ungroup_of_isDigit Nat.toDigits_ne_nil (Text.isDigit_of_mem_toDigits (n := n))
  rw [wholeDigits?, ungrouped]
  change (if _ then none else some (Nat.toDigits 10 n)) = _
  rcases Nat.eq_zero_or_pos n with rfl | positive
  · rfl
  · rw [if_neg]
    simp [head?_toDigits positive]

theorem unbounded?_toDigits (n : Nat) : unbounded? (Nat.toDigits 10 n) = some (n : Int) := by
  rcases Nat.eq_zero_or_pos n with rfl | positive
  · rfl
  · obtain ⟨c, rest, spelled, digit⟩ := Text.exists_cons_toDigits n
    have noZero : c ≠ '0' := by
      rintro rfl
      exact head?_toDigits positive (by rw [spelled]; rfl)
    have noSign : c ≠ '-' ∧ c ≠ '+' := by
      constructor <;> rintro rfl <;> exact absurd digit (by decide)
    have whole := wholeDigits?_toDigits n
    have number := Text.ofDigits_toDigits n
    rw [spelled] at whole number ⊢
    have unsigned : splitSign (c :: rest) = (false, c :: rest) := by
      simp [splitSign, noSign.1, noSign.2]
    simp [unbounded?, noZero, unsigned, whole, number]

theorem scalar?_toDigits {n : Nat} (small : n < 2 ^ 128) :
    scalar? (Nat.toDigits 10 n) = some (.integer n) := by
  have decimal := Text.isDigit_of_mem_toDigits (n := n)
  have noKeyword : ∀ c rest, c.isDigit = false → Nat.toDigits 10 n ≠ c :: rest := by
    intro c rest letter same
    rw [decimal c (by rw [same]; exact List.mem_cons_self)] at letter
    cases letter
  have bounds : -Int.pow 2 127 ≤ (n : Int) ∧ (n : Int) < Int.pow 2 128 := by
    have least : Int.pow 2 127 = 2 ^ 127 := rfl
    have greatest : Int.pow 2 128 = 2 ^ 128 := rfl
    rw [least, greatest]
    omega
  have integral : integer? (Nat.toDigits 10 n) = some (.integer n) := by
    rw [integer?, unbounded?_toDigits, Option.bind_eq_bind, Option.bind_some, if_pos bounds]
  rw [scalar?, if_neg (noKeyword _ _ rfl), if_neg (noKeyword _ _ rfl), integral]
  rfl

mutual

/-- What a written value is read as. Only floating-point numbers change. -/
def reread : Toml → Toml
  | float number => (rereadFloat number).getD (float number)
  | table entries => table (rereadEntries entries)
  | other => other

/-- What the written entries of a table are read as. -/
def rereadEntries : List (String × Toml) → List (String × Toml)
  | [] => []
  | (key, value) :: rest => (key, value.reread) :: rereadEntries rest

end

/-- Values whose written form is read as a value of the same kind: numbers in bounds, arrays of
texts, and tables with distinct keys that have their tables behind everything else. -/
inductive IsLegible : Toml → Prop
  | boolean (value : Bool) : IsLegible (boolean value)
  | integer {n : Nat} (small : n < 2 ^ 128) : IsLegible (integer n)
  | float {number : Binary} {value : Toml} (read : rereadFloat number = some value)
      (single : value.isTable = false) : IsLegible (float number)
  | string (contents : String) : IsLegible (string contents)
  | texts (texts : List String) : IsLegible (array (texts.map string))
  | table {own tables : List (String × Toml)} (plain : ∀ entry ∈ own, entry.2.isTable = false)
      (below : ∀ entry ∈ tables, entry.2.isTable = true)
      (distinct : ((own ++ tables).map Prod.fst).Nodup)
      (each : ∀ entry ∈ own ++ tables, IsLegible entry.2) : IsLegible (table (own ++ tables))

theorem rereadEntries_eq (entries : List (String × Toml)) :
    rereadEntries entries = entries.map fun entry => (entry.1, entry.2.reread) := by
  induction entries with
  | nil => rfl
  | cons entry rest ih => rw [rereadEntries, ih, List.map_cons]

theorem value_of_simpleValue {value : Toml} (levels : Nat)
    (taken : simpleValue text = some (value, rest)) :
    Toml.value levels text = some (value, rest) := by
  cases levels with
  | zero => exact taken
  | succ levels => exact orElse_of_taken taken

theorem simpleValue_of_ne {c : Char} (noQuote : c ≠ '"') (noApostrophe : c ≠ '\'')
    (fails : isScalarChar c = false) (rest : List Char) : simpleValue (c :: rest) = none :=
  (orElse_of_refused (bind_of_refused (text_of_ne noQuote noApostrophe rest))).trans
    (bind_of_refused (bind_of_refused (satisfying_cons_of_neg _ fails rest)))

/-- No value begins with a closing bracket. -/
theorem value_closing (levels : Nat) (rest : List Char) : value levels (']' :: rest) = none := by
  have simple : simpleValue (']' :: rest) = none :=
    simpleValue_of_ne (by decide) (by decide) rfl rest
  cases levels with
  | zero => exact simple
  | succ levels =>
      exact (orElse_of_refused simple).trans
        ((orElse_of_refused (bind_of_refused (bind_of_refused (char_of_ne (by decide) rest)))).trans
        (bind_of_refused (bind_of_refused (char_of_ne (by decide) rest))))

theorem scalar?_true : scalar? ['t', 'r', 'u', 'e'] = some (boolean true) := if_pos rfl

theorem scalar?_false : scalar? ['f', 'a', 'l', 's', 'e'] = some (boolean false) :=
  (if_neg (by decide)).trans (if_pos rfl)

/-- Every written text begins with a quote. -/
theorem exists_cons_writeText (contents : List Char) :
    ∃ c more, writeText contents = c :: more ∧ (c = '"' ∨ c = '\'') := by
  unfold writeText
  simp only []
  repeat' split
  · exact ⟨_, _, rfl, .inl rfl⟩
  · exact ⟨_, _, rfl, .inr rfl⟩
  · exact ⟨_, _, rfl, .inl rfl⟩
  · exact ⟨_, _, rfl, .inr rfl⟩
  · exact ⟨_, _, rfl, .inl rfl⟩
  · exact ⟨_, _, rfl, .inl rfl⟩

theorem isSolid_writeText (contents rest : List Char) : IsSolid (writeText contents ++ rest) := by
  obtain ⟨c, more, spelled, rfl | rfl⟩ := exists_cons_writeText contents <;>
    rw [spelled] <;> rintro d ⟨⟩ <;> decide

theorem writeItems_texts (texts : List String) :
    writeItems (texts.map string) = texts.map fun text =>
      String.ofList (writeText text.toList) := by
  induction texts with
  | nil => rfl
  | cons first others ih => rw [List.map_cons, writeItems, ih, List.map_cons, write]

/-- A text of an array behind another one. -/
def nextItem (text : String) : List Char := [',', '\n', ' ', ' ', ' ', ' '] ++ writeText text.toList

/-- The lines of an array, from its first text on. -/
theorem flatMap_lines (first : String) (others : List String) :
    (first :: others).flatMap (fun text => "    ".toList ++ (writeText text.toList ++ ",\n".toList))
      = "    ".toList ++ (writeText first.toList ++ (others.flatMap nextItem ++ ",\n".toList)) := by
  induction others generalizing first with
  | nil => simp
  | cons second others ih =>
      rw [List.flatMap_cons, ih second, List.flatMap_cons]
      simp [nextItem]

/-- An array of texts has blanks before its first text, and a comma with blanks behind it between
any two of them and perhaps behind the last one. -/
theorem exists_write_texts (first : String) (others : List String) : ∃ blanks last,
    (∀ c ∈ blanks, c = '\n' ∨ c = ' ') ∧ (last = [] ∨ last = [',', '\n']) ∧
    (write (array ((first :: others).map string))).toList
      = '[' :: (blanks ++ (writeText first.toList
      ++ (others.flatMap nextItem ++ (last ++ [']'])))) := by
  rw [write, writeItems_texts]
  cases others with
  | nil => exact ⟨[], [], nofun, .inl rfl, by simp⟩
  | cons second others =>
      refine ⟨"\n    ".toList, [',', '\n'], by simp, .inr rfl, ?_⟩
      have joined : (String.join (((first :: second :: others).map fun text =>
          String.ofList (writeText text.toList)).map fun item => "    " ++ item ++ ",\n")).toList
          = (first :: second :: others).flatMap fun text =>
            "    ".toList ++ (writeText text.toList ++ ",\n".toList) := by
        simp only [String.toList_join, List.map_map, List.flatMap_map, Function.comp_def,
          String.toList_append, String.toList_ofList, List.append_assoc]
      rw [flatMap_lines] at joined
      change ("[\n" ++ String.join (((first :: second :: others).map fun text =>
        String.ofList (writeText text.toList)).map fun item => "    " ++ item ++ ",\n") ++
          "]").toList = _
      rw [String.toList_append, String.toList_append, joined]
      simp

/-- What stands behind a text of an array. -/
def EndsItem (text : List Char) : Prop := ∃ c more, text = c :: more ∧ (c = ',' ∨ c = ']')

theorem EndsItem.endsValue (ends : EndsItem rest) : EndsValue rest := by
  obtain ⟨c, more, rfl, closes⟩ := ends
  rintro d ⟨⟩
  exact closes.imp_right .inl

theorem EndsItem.isSolid (ends : EndsItem rest) : IsSolid rest := by
  obtain ⟨c, more, rfl, rfl | rfl⟩ := ends <;> rintro d ⟨⟩ <;> decide

theorem endsItem_nextItem (text : String) (after : List Char) : EndsItem (nextItem text ++ after) :=
  ⟨',', _, rfl, .inl rfl⟩

theorem EndsItem.flatMap (ends : EndsItem rest) (others : List String) :
    EndsItem (others.flatMap nextItem ++ rest) := by
  cases others with
  | nil => exact ends
  | cons next more =>
      rw [List.flatMap_cons, List.append_assoc]
      exact endsItem_nextItem next _

theorem withGap_writeText (levels : Nat) (contents : String) (ends : EndsItem rest) :
    withGap (value levels) (writeText contents.toList ++ rest) = some (.string contents, rest) := by
  have taken := value_of_simpleValue levels (simpleValue_string contents ends.endsValue)
  rw [withGap, bind_of_taken taken, bind_of_taken (gap_of_isSolid ends.isSolid)]
  rfl

theorem withGap_closing (levels : Nat) (rest : List Char) :
    withGap (value levels) (']' :: rest) = none :=
  bind_of_refused (value_closing levels rest)

theorem comma_append {blanks : List Char} (blank : ∀ c ∈ blanks, c = '\n' ∨ c = ' ')
    (solid : IsSolid rest) : comma (',' :: (blanks ++ rest)) = some ((), rest) := by
  rw [comma, bind_of_taken (char_cons _ _), gap_append blank solid]

theorem isSolid_closing (rest : List Char) : IsSolid (']' :: rest) := by
  rintro c ⟨⟩
  decide

theorem comma_closing (rest : List Char) :
    comma (',' :: '\n' :: ']' :: rest) = some ((), ']' :: rest) := by
  have blank : ∀ c ∈ ['\n'], c = '\n' ∨ c = ' ' := by simp
  exact comma_append blank (isSolid_closing rest)

/-- The texts of an array behind the first one are read up to the end of the array. -/
theorem separatedBy_texts (levels : Nat) (first : String) (others : List String) {last : List Char}
    (trailing : last = [] ∨ last = [',', '\n']) (rest : List Char) :
    separatedBy comma (withGap (value levels))
      (writeText first.toList ++ (others.flatMap nextItem ++ (last ++ ']' :: rest)))
      = some ((first :: others).map string, last ++ ']' :: rest) := by
  have ending : EndsItem (last ++ ']' :: rest) := by
    rcases trailing with rfl | rfl
    · exact ⟨']', rest, rfl, .inr rfl⟩
    · exact ⟨',', _, rfl, .inl rfl⟩
  have each : ∀ text ∈ others, ∀ after, EndsItem after →
      (do comma; withGap (value levels) : Reader Toml) (nextItem text ++ after)
        = some (.string text, after) := by
    intro text _ after ends
    have blank : ∀ c ∈ "\n    ".toList, c = '\n' ∨ c = ' ' := by simp
    have skipped : comma (nextItem text ++ after) = some ((), writeText text.toList ++ after) := by
      rw [nextItem, List.append_assoc]
      exact comma_append blank (isSolid_writeText text.toList after)
    exact (bind_of_taken skipped).trans (withGap_writeText levels text ends)
  have refused : (do comma; withGap (value levels) : Reader Toml) (last ++ ']' :: rest) = none := by
    rcases trailing with rfl | rfl
    · exact bind_of_refused (bind_of_refused (char_of_ne (by decide) rest))
    · exact (bind_of_taken (comma_closing rest)).trans (withGap_closing levels rest)
  have tail := rounds_flatMap_before EndsItem others each (fun _ _ => List.cons_ne_nil _ _)
    (fun text _ after => endsItem_nextItem text after) ending refused
  exact separatedBy_of_rounds (withGap_writeText levels first (ending.flatMap others)) tail

theorem trailingComma_append {last : List Char} (trailing : last = [] ∨ last = [',', '\n'])
    (rest : List Char) : trailingComma true (last ++ ']' :: rest) = some ((), ']' :: rest) := by
  rcases trailing with rfl | rfl
  · exact bind_of_taken (optional_of_refused (bind_of_refused (char_of_ne (by decide) rest)))
  · exact bind_of_taken (optional_of_taken (comma_closing rest))

theorem value_write_texts (levels : Nat) (texts : List String) (rest : List Char) :
    value (levels + 1) ((write (array (texts.map string))).toList ++ rest)
      = some (array (texts.map string), rest) := by
  have read {written : List Char} (taken : bracketed '[' ']' (value levels) ('[' :: written)
      = some (texts.map string, rest)) :
      value (levels + 1) ('[' :: written) = some (array (texts.map string), rest) :=
    (orElse_of_refused (simpleValue_of_ne (by decide) (by decide) rfl written)).trans
      (orElse_of_taken (bind_of_taken taken))
  cases texts with
  | nil =>
      have untaken : optional (separatedBy comma (withGap (value levels))) (']' :: rest)
          = some (none, ']' :: rest) :=
        optional_of_refused (bind_of_refused (withGap_closing levels rest))
      have noComma : trailingComma (none : Option (List Toml)).isSome (']' :: rest)
          = some ((), ']' :: rest) := rfl
      have spelled : (write (array ([].map string))).toList = ['[', ']'] := by
        simp [write, writeItems]
      rw [spelled]
      refine read ((bind_of_taken (char_cons '[' (']' :: rest))).trans ?_)
      rw [bind_of_taken (gap_of_isSolid (isSolid_closing rest)), bind_of_taken untaken,
        bind_of_taken noComma, bind_of_taken (char_cons _ _)]
      rfl
  | cons first others =>
      obtain ⟨blanks, last, blank, trailing, spelled⟩ := exists_write_texts first others
      have items := separatedBy_texts levels first others trailing rest
      have trailed : trailingComma (some ((first :: others).map string)).isSome
          (last ++ ']' :: rest)
          = some ((), ']' :: rest) := trailingComma_append trailing rest
      have whole : (write (array ((first :: others).map string))).toList ++ rest
          = '[' :: (blanks ++ (writeText first.toList
            ++ (others.flatMap nextItem ++ (last ++ ']' :: rest)))) := by
        rw [spelled]
        simp
      rw [whole]
      refine read ((bind_of_taken (char_cons '[' _)).trans ?_)
      rw [bind_of_taken (gap_append blank (isSolid_writeText _ _)),
        bind_of_taken (optional_of_taken items), bind_of_taken trailed,
        bind_of_taken (char_cons _ _)]
      rfl

theorem withPlaces_ne_nil {number : Binary} {value : Toml}
    (read : rereadFloat number = some value) : (number.withPlaces .single).toList ≠ [] := by
  intro none
  rw [rereadFloat, none] at read
  cases read

/-- A written value other than a table is read back before anything that ends it. -/
theorem value_write {levels : Nat} {written : Toml} (legible : IsLegible written)
    (single : written.isTable = false) (ends : EndsValue rest) :
    value (levels + 1) ((write written).toList ++ rest) = some (written.reread, rest) := by
  cases legible with
  | boolean value =>
      refine value_of_simpleValue _ ?_
      cases value with
      | true =>
          have spelled : (write (boolean true)).toList = ['t', 'r', 'u', 'e'] := by simp [write]
          rw [spelled]
          exact simpleValue_scalar (List.cons_ne_nil _ _) (List.all_eq_true.mp rfl)
            scalar?_true ends
      | false =>
          have spelled : (write (boolean false)).toList = ['f', 'a', 'l', 's', 'e'] := by
            simp [write]
          rw [spelled]
          exact simpleValue_scalar (List.cons_ne_nil _ _) (List.all_eq_true.mp rfl)
            scalar?_false ends
  | @integer n small =>
      have spelled : (write (integer n)).toList = Nat.toDigits 10 n := Nat.toList_repr
      have numeral : ∀ c ∈ Nat.toDigits 10 n, isScalarChar c = true :=
        fun c member => isScalarChar_of_isNumeral (isNumeral_of_mem_toDigits c member)
      rw [spelled]
      exact value_of_simpleValue _
        (simpleValue_scalar Nat.toDigits_ne_nil numeral (scalar?_toDigits small) ends)
  | @float number value read _ =>
      have spelled : (write (float number)).toList = (number.withPlaces .single).toList := by
        rw [write]
      have numeral : ∀ c ∈ (number.withPlaces .single).toList, isScalarChar c = true :=
        fun c member => isScalarChar_of_isNumeral (Binary.allNumerals_withPlaces _ _ c member)
      rw [spelled, reread, read]
      exact value_of_simpleValue _ (simpleValue_scalar (withPlaces_ne_nil read) numeral read ends)
  | string contents =>
      rw [write, String.toList_ofList]
      exact value_of_simpleValue _ (simpleValue_string contents ends)
  | texts texts => exact value_write_texts levels texts rest
  | table => cases single

/-- No written value begins with a blank. -/
theorem exists_cons_write {written : Toml} (legible : IsLegible written)
    (single : written.isTable = false) :
    ∃ c more, (write written).toList = c :: more ∧ isSpace c = false := by
  have scalar {text : List Char} (inhabited : text ≠ []) (numeral : ∀ c ∈ text, IsNumeral c) :
      ∃ c more, text = c :: more ∧ isSpace c = false := by
    obtain ⟨c, more, rfl⟩ := List.exists_cons_of_ne_nil inhabited
    have passes := isScalarChar_of_isNumeral (numeral c List.mem_cons_self)
    refine ⟨c, more, rfl, Bool.eq_false_iff.mpr fun blank => ?_⟩
    rcases Bool.or_eq_true_iff.mp blank with same | same <;> rw [beq_iff_eq.mp same] at passes <;>
      cases passes
  cases legible with
  | boolean value =>
      cases value with
      | true => exact ⟨'t', ['r', 'u', 'e'], by simp [write], rfl⟩
      | false => exact ⟨'f', ['a', 'l', 's', 'e'], by simp [write], rfl⟩
  | @integer n _ =>
      have spelled : (write (integer n)).toList = Nat.toDigits 10 n := Nat.toList_repr
      rw [spelled]
      exact scalar Nat.toDigits_ne_nil isNumeral_of_mem_toDigits
  | @float number value read _ =>
      have spelled : (write (float number)).toList = (number.withPlaces .single).toList := by
        rw [write]
      rw [spelled]
      exact scalar (withPlaces_ne_nil read) (Binary.allNumerals_withPlaces _ number)
  | string contents =>
      obtain ⟨c, more, spelled, quote⟩ := exists_cons_writeText contents.toList
      refine ⟨c, more, by rw [write, String.toList_ofList, spelled], ?_⟩
      rcases quote with rfl | rfl <;> rfl
  | texts texts =>
      cases texts with
      | nil => exact ⟨'[', [']'], by simp [write, writeItems], rfl⟩
      | cons first others =>
          obtain ⟨blanks, last, -, -, spelled⟩ := exists_write_texts first others
          exact ⟨'[', _, spelled, rfl⟩
  | table => cases single

end FacetSearch.Toml
