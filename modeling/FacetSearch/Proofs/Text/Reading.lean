import Mathlib
import FacetSearch.Text.Integer

/-!
What readers make of written texts. A reader takes a text if it reads it off the front of every
continuation (`Reader.Takes`); items that are taken are also taken one after another
(`Reader.takes_separatedBy`). Decimal digits are read as the number that they write.
-/

set_option autoImplicit false

namespace FacetSearch.Text

namespace Reader

variable {α β : Type}

/-- A reader takes a text for a value, whatever follows. -/
def Takes (reader : Reader α) (text : List Char) (value : α) : Prop :=
  ∀ rest, reader (text ++ rest) = some (value, rest)

theorem bind_apply (reader : Reader α) (next : α → Reader β) (text : List Char) :
    (reader >>= next) text = (reader text).bind fun taken => next taken.1 taken.2 := rfl

theorem bind_of_taken {reader : Reader α} {next : α → Reader β}
    {text rest : List Char} {value : α} (taken : reader text = some (value, rest)) :
    (reader >>= next) text = next value rest := by
  rw [bind_apply, taken]
  rfl

theorem bind_of_refused {reader : Reader α} {next : α → Reader β} {text : List Char}
    (refused : reader text = none) : (reader >>= next) text = none := by
  rw [bind_apply, refused]
  rfl

theorem orElse_of_taken {first second : Reader α} {text rest : List Char} {value : α}
    (taken : first text = some (value, rest)) : (first <|> second) text = some (value, rest) := by
  change (first text).orElse _ = _
  rw [taken]
  rfl

theorem orElse_of_refused {first second : Reader α} {text : List Char}
    (refused : first text = none) : (first <|> second) text = second text := by
  change (first text).orElse _ = _
  rw [refused]
  rfl

theorem pure_apply (value : α) (text : List Char) :
    (pure value : Reader α) text = some (value, text) := rfl

theorem Takes.bind {reader : Reader α} {next : α → Reader β} {front back : List Char}
    {first : α} {second : β} (head : Takes reader front first)
    (tail : Takes (next first) back second) : Takes (reader >>= next) (front ++ back) second := by
  intro rest
  rw [bind_apply, List.append_assoc, head, Option.bind_some, tail]

theorem takes_exactly (text : List Char) : Takes (exactly text) text () := by
  intro rest
  rw [exactly, if_pos (List.isPrefixOf_iff_prefix.mpr (List.prefix_append _ _)), List.drop_left]

theorem takes_char (c : Char) : Takes (char c) [c] () := by
  intro rest
  simp [char, satisfying, bind_apply, pure_apply]

theorem satisfying_cons {test : Char → Bool} {c : Char} (passes : test c = true)
    (rest : List Char) : satisfying test (c :: rest) = some (c, rest) := if_pos passes

theorem satisfying_cons_of_neg (test : Char → Bool) {c : Char} (fails : test c = false)
    (rest : List Char) : satisfying test (c :: rest) = none := if_neg (Bool.eq_false_iff.mp fails)

theorem char_cons (c : Char) (rest : List Char) : char c (c :: rest) = some ((), rest) :=
  takes_char c rest

theorem char_of_ne {c expected : Char} (different : c ≠ expected) (rest : List Char) :
    char expected (c :: rest) = none :=
  bind_of_refused (satisfying_cons_of_neg (· == expected) (beq_false_of_ne different) rest)

theorem exactly_of_ne {c expected : Char} (different : c ≠ expected) (more rest : List Char) :
    exactly (expected :: more) (c :: rest) = none := by
  simp [exactly, List.isPrefixOf, Ne.symm different]

theorem optional_of_taken {reader : Reader α} {text rest : List Char} {value : α}
    (taken : reader text = some (value, rest)) :
    optional reader text = some (some value, rest) := by
  change ((reader text).bind fun taken => some (some taken.1, taken.2)).orElse _ = _
  rw [taken]
  rfl

theorem optional_of_refused {reader : Reader α} {text : List Char} (refused : reader text = none) :
    optional reader text = some (none, text) := by
  change ((reader text).bind fun taken => some (some taken.1, taken.2)).orElse _ = _
  rw [refused]
  rfl

/-- A word is taken up to the character that ends it. -/
theorem whileTrue1_append {test : Char → Bool} {word rest : List Char} (inhabited : word ≠ [])
    (passes : ∀ c ∈ word, test c = true) (ends : ∀ c ∈ rest.head?, test c = false) :
    whileTrue1 test (word ++ rest) = some (word, rest) := by
  obtain ⟨c, others, rfl⟩ := List.exists_cons_of_ne_nil inhabited
  have taken : ∀ d ∈ others, test d = true :=
    fun d member => passes d (List.mem_cons_of_mem _ member)
  have stops : rest.takeWhile test = [] ∧ rest.dropWhile test = rest := by
    cases rest with
    | nil => exact ⟨rfl, rfl⟩
    | cons d more =>
        have ended := ends d rfl
        exact ⟨List.takeWhile_cons_of_neg (by simp [ended]),
          List.dropWhile_cons_of_neg (by simp [ended])⟩
  simp only [whileTrue1, bind_apply, pure_apply, List.cons_append, satisfying,
    passes c (by simp), if_true, whileTrue, Option.bind_some, List.takeWhile_append_of_pos taken,
    List.dropWhile_append_of_pos taken,
    stops.1, stops.2, List.append_nil]

theorem rounds_of_refused {item : Reader α} {text : List Char} (refused : item text = none) :
    rounds item text = ([], text) := by
  rw [rounds, refused]

theorem rounds_of_taken {item : Reader α} {text rest : List Char} {value : α}
    (taken : item text = some (value, rest)) (shorter : rest.length < text.length) :
    rounds item text = (value :: (rounds item rest).1, (rounds item rest).2) := by
  rw [rounds, taken]
  exact if_pos shorter

/-- Items that a reader takes before certain continuations are taken one after another, up to a text
that it refuses. -/
theorem rounds_flatMap_before (follows : List Char → Prop) {item : Reader β}
    {text : α → List Char} {value : α → β} {rest : List Char} (items : List α)
    (each : ∀ entry ∈ items, ∀ after, follows after →
      item (text entry ++ after) = some (value entry, after))
    (inhabited : ∀ entry ∈ items, text entry ≠ [])
    (chained : ∀ entry ∈ items, ∀ after, follows (text entry ++ after)) (ends : follows rest)
    (refused : item rest = none) :
    rounds item (items.flatMap text ++ rest) = (items.map value, rest) := by
  induction items with
  | nil => exact rounds_of_refused refused
  | cons entry items ih =>
      have later := ih (fun next member => each next (List.mem_cons_of_mem _ member))
        (fun next member => inhabited next (List.mem_cons_of_mem _ member))
        (fun next member => chained next (List.mem_cons_of_mem _ member))
      have follow : follows (items.flatMap text ++ rest) := by
        cases items with
        | nil => exact ends
        | cons next others =>
            rw [List.flatMap_cons, List.append_assoc]
            exact chained next (by simp) _
      have size := List.length_pos_iff.mpr (inhabited entry List.mem_cons_self)
      rw [List.flatMap_cons, List.append_assoc,
        rounds_of_taken (each entry List.mem_cons_self _ follow)
          (by simp only [List.length_append]; omega),
        later, List.map_cons]

/-- Items that a reader takes are taken one after another, up to a text that it refuses. -/
theorem rounds_flatMap {item : Reader β} {text : α → List Char} {value : α → β}
    {rest : List Char} (items : List α)
    (each : ∀ entry ∈ items, Takes item (text entry) (value entry))
    (inhabited : ∀ entry ∈ items, text entry ≠ []) (refused : item rest = none) :
    rounds item (items.flatMap text ++ rest) = (items.map value, rest) :=
  rounds_flatMap_before (fun _ => True) items (fun entry member after _ => each entry member after)
    inhabited (fun _ _ _ => trivial) trivial refused

theorem separatedBy_of_rounds {separator : Reader Unit} {item : Reader α}
    {text middle rest : List Char} {first : α} {others : List α}
    (head : item text = some (first, middle))
    (tail : rounds (do separator; item) middle = (others, rest)) :
    separatedBy separator item text = some (first :: others, rest) := by
  have onward : many (do separator; item) middle = some (others, rest) := congrArg some tail
  rw [separatedBy, bind_of_taken head, bind_of_taken onward]
  rfl

end Reader

/-- Parts with a word between them are the first part, and then the word before every other one. -/
theorem intercalate_cons_eq_flatMap {α : Type} (word : List Char)
    (text : α → List Char) (first : α) (others : List α) :
    word.intercalate ((first :: others).map text)
      = text first ++ others.flatMap fun item => word ++ text item := by
  induction others generalizing first with
  | nil => simp
  | cons second others ih =>
      have later := ih second
      rw [List.map_cons] at later
      rw [List.map_cons, List.map_cons, List.intercalate_cons_cons, later, List.flatMap_cons,
        List.append_assoc, List.append_assoc]

theorem hexDigit?_of_isDigit {c : Char} (digit : c.isDigit = true) :
    hexDigit? c = some (c.toNat - 48) := by
  rw [hexDigit?, if_pos digit]

/-- The number of decimal digits is the one that the library gives them. -/
theorem ofDigits_ten {digits : List Char} (decimal : ∀ c ∈ digits, c.isDigit = true) :
    ofDigits 10 digits = Nat.ofDigitChars 10 digits 0 := by
  have same : ∀ start, digits.foldl (fun value c => value * 10 + (hexDigit? c).getD 0) start
      = Nat.ofDigitChars 10 digits start := by
    induction digits with
    | nil => exact fun _ => rfl
    | cons c rest ih =>
        intro start
        rw [List.foldl_cons, ih (fun d member => decimal d (List.mem_cons_of_mem _ member)),
          hexDigit?_of_isDigit (decimal c List.mem_cons_self), Nat.mul_comm]
        rfl
  exact same 0

theorem isDigit_of_mem_toDigits {n : Nat} : ∀ c ∈ Nat.toDigits 10 n, c.isDigit = true :=
  fun _ member => Nat.isDigit_of_mem_toDigits (by decide) (by decide) member

theorem ofDigits_toDigits (n : Nat) : ofDigits 10 (Nat.toDigits 10 n) = n := by
  rw [ofDigits_ten isDigit_of_mem_toDigits, Nat.ofDigitChars_ten_toDigits]

/-- An integer is written by its digits, behind a minus sign if it is negative. -/
theorem toList_toString_int (n : Int) :
    (toString n).toList = Nat.toDigits 10 n.natAbs ∧ 0 ≤ n ∨
    (toString n).toList = '-' :: Nat.toDigits 10 n.natAbs ∧ n < 0 := by
  cases n with
  | ofNat m => exact .inl ⟨Nat.toList_repr, Int.natCast_nonneg m⟩
  | negSucc m =>
      refine .inr ⟨?_, Int.negSucc_lt_zero m⟩
      change ("-" ++ (m + 1).repr).toList = _
      rw [String.toList_append, Nat.toList_repr]
      rfl

theorem exists_cons_toDigits (n : Nat) :
    ∃ c rest, Nat.toDigits 10 n = c :: rest ∧ c.isDigit = true := by
  obtain ⟨c, rest, spelled⟩ :=
    List.exists_cons_of_ne_nil (Nat.toDigits_ne_nil (n := n) (b := 10))
  exact ⟨c, rest, spelled, isDigit_of_mem_toDigits c
    (by rw [spelled]; exact List.mem_cons_self)⟩

/-- A written integer begins with a digit or a minus sign. -/
theorem exists_cons_toString_int (n : Int) :
    ∃ c rest, (toString n).toList = c :: rest ∧ (c.isDigit = true ∨ c = '-') := by
  obtain ⟨c, rest, spelled, digit⟩ := exists_cons_toDigits n.natAbs
  rcases toList_toString_int n with ⟨written, _⟩ | ⟨written, _⟩
  · exact ⟨c, rest, written.trans spelled, .inl digit⟩
  · exact ⟨'-', _, written, .inr rfl⟩

end FacetSearch.Text
