import FacetSearch.Proofs.Phrase.QuotedRun
import FacetSearch.Proofs.Text.Offsets

/-!
Phrases cut at byte offsets. A scan over the bytes of a phrase takes one byte along with a
backslash, which may be the first of several bytes of a character. It still ends where the scan over
characters ends (`Segment.runEnd_bytes`): the other bytes of such a character are neither quotes nor
backslashes. So every offset at which it cuts the phrase lies between two characters
(`Segment.ofBytes?_eq`).
-/

set_option autoImplicit false

namespace FacetSearch

namespace Text

/-- The bytes of a text in UTF-8. -/
def bytes (text : List Char) : List UInt8 := text.flatMap String.utf8EncodeChar

@[simp] theorem bytes_cons (c : Char) (rest : List Char) :
    bytes (c :: rest) = String.utf8EncodeChar c ++ bytes rest := List.flatMap_cons

@[simp] theorem bytes_append (front back : List Char) :
    bytes (front ++ back) = bytes front ++ bytes back :=
  List.flatMap_append

@[simp] theorem length_bytes (text : List Char) : (bytes text).length = byteLength text := by
  induction text with
  | nil => rfl
  | cons c rest ih =>
      rw [bytes_cons, List.length_append, ih, String.length_utf8EncodeChar, byteLength_cons]

theorem drop_bytes (front back : List Char) :
    (bytes (front ++ back)).drop (byteLength front) = bytes back := by
  rw [bytes_append, List.drop_left' (length_bytes front)]

/-- The byte of an ASCII character stands in no other character. -/
theorem eq_of_mem_utf8EncodeChar {c d : Char} (ascii : d.toNat < 128)
    (member : UInt8.ofNat d.toNat ∈ String.utf8EncodeChar c) : c = d := by
  have apart : ∀ n, 128 ≤ n → n < 256 → UInt8.ofNat d.toNat ≠ UInt8.ofNat n := by
    intro n lower upper same
    have values := congrArg UInt8.toNat same
    simp only [UInt8.toNat_ofNat'] at values
    omega
  unfold String.utf8EncodeChar at member
  dsimp only at member
  split at member
  · rename_i small
    have values := congrArg UInt8.toNat (List.mem_singleton.mp member)
    simp only [UInt8.toNat_ofNat'] at values
    apply Char.ext
    apply UInt32.toNat_inj.mp
    change c.val.toNat = d.toNat
    omega
  · exfalso
    split at member
    · simp only [List.mem_cons, List.not_mem_nil, or_false] at member
      rcases member with first | second
      · exact apart _ (by omega) (by omega) first
      · exact apart _ (by omega) (by omega) second
    · split at member
      · simp only [List.mem_cons, List.not_mem_nil, or_false] at member
        rcases member with first | second | third
        · exact apart _ (by omega) (by omega) first
        · exact apart _ (by omega) (by omega) second
        · exact apart _ (by omega) (by omega) third
      · simp only [List.mem_cons, List.not_mem_nil, or_false] at member
        rcases member with first | second | third | fourth
        · exact apart _ (by omega) (by omega) first
        · exact apart _ (by omega) (by omega) second
        · exact apart _ (by omega) (by omega) third
        · exact apart _ (by omega) (by omega) fourth

/-- The byte of a double quote. -/
def quoteByte : UInt8 := 0x22

/-- The byte of a backslash. -/
def backslashByte : UInt8 := 0x5C

/-- A byte at which a scan for quotes does nothing. -/
def IsQuiet (byte : UInt8) : Prop := byte ≠ quoteByte ∧ byte ≠ backslashByte

theorem isQuiet_of_mem {c : Char} (unquoted : c ≠ '"') (plain : c ≠ '\\') :
    ∀ byte ∈ String.utf8EncodeChar c, IsQuiet byte := by
  intro byte member
  constructor
  · rintro rfl
    exact unquoted (eq_of_mem_utf8EncodeChar (d := '"') (by decide) member)
  · rintro rfl
    exact plain (eq_of_mem_utf8EncodeChar (d := '\\') (by decide) member)

/-- Behind the first byte of a character there are no quotes and no backslashes. -/
theorem exists_tail_utf8EncodeChar (c : Char) :
    ∃ byte tail, String.utf8EncodeChar c = byte :: tail ∧ ∀ byte ∈ tail, IsQuiet byte := by
  have size := String.length_utf8EncodeChar c
  have positive := c.utf8Size_pos
  obtain ⟨byte, tail, spelled⟩ : ∃ byte tail, String.utf8EncodeChar c = byte :: tail := by
    apply List.exists_cons_of_ne_nil
    intro empty
    rw [empty, List.length_nil] at size
    omega
  refine ⟨byte, tail, spelled, ?_⟩
  by_cases quote : c = '"'
  · subst quote
    cases spelled
    exact nofun
  · by_cases backslash : c = '\\'
    · subst backslash
      cases spelled
      exact nofun
    · intro other member
      exact isQuiet_of_mem quote backslash other
        (by rw [spelled]; exact List.mem_cons_of_mem _ member)

/-- The bytes before the first quote are those of the characters before it. -/
theorem takeWhile_bytes (text : List Char) :
    (bytes text).takeWhile (· != quoteByte) = bytes (text.takeWhile (· != '"')) := by
  induction text with
  | nil => rfl
  | cons c rest ih =>
      by_cases quote : c = '"'
      · subst quote
        rfl
      · have quiet : ∀ byte ∈ String.utf8EncodeChar c, (byte != quoteByte) = true := by
          intro byte member
          have different : byte ≠ quoteByte := by
            rintro rfl
            exact quote (eq_of_mem_utf8EncodeChar (d := '"') (by decide) member)
          simpa using different
        rw [bytes_cons, List.takeWhile_append_of_pos quiet, ih,
          List.takeWhile_cons_of_pos (by simpa using quote), bytes_cons]

theorem slice?_append (front middle back : List Char) :
    slice? (front ++ middle ++ back) (byteLength front) (byteLength (front ++ middle))
      = some middle := by
  have start : isBoundary (front ++ middle ++ back) (byteLength front) = true :=
    isBoundary_iff.mpr ⟨front, middle ++ back, by simp, rfl⟩
  have stop : isBoundary (front ++ middle ++ back) (byteLength (front ++ middle)) = true :=
    isBoundary_iff.mpr ⟨front ++ middle, back, rfl, rfl⟩
  have ordered : byteLength front ≤ byteLength (front ++ middle) := by
    rw [byteLength_append]
    omega
  simp only [slice?, start, stop, ordered, decide_true, Bool.and_self, if_true, slice_append]

end Text

namespace Segment

open Text (bytes byteLength quoteByte backslashByte IsQuiet slice?)

/-- The offset behind a quoted run, found in the bytes that follow its opening quote. A backslash
takes the next byte with it. -/
def runEnd (offset : Nat) : List UInt8 → Nat
  | [] => offset
  | byte :: rest =>
    if byte = backslashByte then
      match rest with
      | [] => offset + 1
      | _ :: rest => runEnd (offset + 2) rest
    else if byte = quoteByte then offset + 1
    else runEnd (offset + 1) rest

theorem le_runEnd (offset : Nat) (rest : List UInt8) : offset ≤ runEnd offset rest := by
  fun_induction runEnd offset rest with
  | case1 => exact Nat.le_refl _
  | case2 => omega
  | case3 offset rest next ih => omega
  | case4 => omega
  | case5 offset byte rest _ _ ih => omega

theorem runEnd_quote (offset : Nat) (rest : List UInt8) :
    runEnd offset (quoteByte :: rest) = offset + 1 := by
  cases rest <;> rfl

theorem runEnd_quiet {byte : UInt8} (quiet : IsQuiet byte) (offset : Nat) (rest : List UInt8) :
    runEnd offset (byte :: rest) = runEnd (offset + 1) rest := by
  cases rest <;> simp [runEnd, quiet.1, quiet.2]

theorem runEnd_append {front : List UInt8} (quiet : ∀ byte ∈ front, IsQuiet byte) (offset : Nat)
    (rest : List UInt8) : runEnd offset (front ++ rest) = runEnd (offset + front.length) rest := by
  induction front generalizing offset with
  | nil => rfl
  | cons byte front ih =>
      have later :=
        ih (fun other member => quiet other (List.mem_cons_of_mem byte member)) (offset + 1)
      rw [List.cons_append, runEnd_quiet (quiet byte List.mem_cons_self), later, List.length_cons]
      congr 1
      omega

/-- The scan over bytes ends where the scan over characters ends. -/
theorem runEnd_bytes (offset : Nat) (text : List Char) :
    runEnd offset (bytes text) = offset + byteLength (throughQuote text).1 := by
  fun_induction throughQuote text generalizing offset with
  | case1 => rfl
  | case2 c rest parts ih =>
      obtain ⟨byte, tail, spelled, quiet⟩ := Text.exists_tail_utf8EncodeChar c
      have size := String.length_utf8EncodeChar c
      have backslash : runEnd offset (bytes ('\\' :: c :: rest))
          = runEnd (offset + 2) (tail ++ bytes rest) := by
        rw [Text.bytes_cons, Text.bytes_cons, spelled]
        rfl
      have width : ('\\' : Char).utf8Size = 1 := by decide
      rw [spelled, List.length_cons] at size
      rw [backslash, runEnd_append quiet, ih, Text.byteLength_cons, Text.byteLength_cons, width]
      dsimp only [parts]
      omega
  | case3 rest _ => exact runEnd_quote offset (bytes rest)
  | case4 c rest single unquoted parts ih =>
      by_cases backslash : c = '\\'
      · subst backslash
        cases rest with
        | nil => rfl
        | cons d others => exact absurd rfl (single d others rfl)
      · rw [Text.bytes_cons, runEnd_append (Text.isQuiet_of_mem unquoted backslash), ih,
          String.length_utf8EncodeChar, Text.byteLength_cons]
        dsimp only [parts]
        omega

/-- A quoted run without its quotes, cut by offsets. -/
def withoutQuotes? (run : List Char) : Option (List Char) :=
  let body := if run.head? = some '"' then run.tail else run
  if endsInQuote body then slice? body 0 (byteLength body - 1) else some body

theorem withoutQuotes?_eq (run : List Char) : withoutQuotes? run = some (withoutQuotes run) := by
  unfold withoutQuotes? withoutQuotes
  generalize (if run.head? = some '"' then run.tail else run) = body
  dsimp only
  split
  · rename_i ends
    have last : body.getLast? = some '"' := by
      simp only [endsInQuote, Bool.and_eq_true, beq_iff_eq] at ends
      exact ends.1
    obtain ⟨front, rfl⟩ := List.getLast?_eq_some_iff.mp last
    have sliced := Text.slice?_append [] front ['"']
    have width : ('"' : Char).utf8Size = 1 := by decide
    rw [List.dropLast_concat, Text.byteLength_append, Text.byteLength_cons,
      Text.byteLength_nil, width]
    exact sliced
  · rfl

/-- The segments of a phrase from an offset on, found and cut by offsets of bytes. There is no
result if one of them lies inside a character. -/
def ofBytes? (phrase : List Char) (offset : Nat) : Option (List Segment) :=
  match _left : (bytes phrase).drop offset with
  | [] => some []
  | byte :: rest =>
    if byte = quoteByte then do
      let stop := runEnd (offset + 1) rest
      let run ← slice? phrase offset stop
      let contents ← withoutQuotes? run
      let later ← ofBytes? phrase stop
      return if Text.allBlank contents then later else quoted run :: later
    else do
      let stop := offset + 1 + (rest.takeWhile (· != quoteByte)).length
      let text ← slice? phrase offset stop
      let later ← ofBytes? phrase stop
      return if Text.allBlank text then later else plain (Text.trim text) :: later
termination_by (bytes phrase).length - offset
decreasing_by
  · have inside := congrArg List.length _left
    have further := le_runEnd (offset + 1) rest
    simp only [List.length_drop, List.length_cons] at inside
    omega
  · have inside := congrArg List.length _left
    simp only [List.length_drop, List.length_cons] at inside
    omega

variable {phrase : List Char} {offset stop : Nat} {rest : List UInt8} {later : List Segment}

theorem ofBytes?_nil (left : (bytes phrase).drop offset = []) :
    ofBytes? phrase offset = some [] := by
  rw [ofBytes?]
  split
  · rfl
  · rename_i found
    rw [left] at found
    cases found

/-- At a quote a run is cut off. -/
theorem ofBytes?_run {run : List Char} (left : (bytes phrase).drop offset = quoteByte :: rest)
    (ends : runEnd (offset + 1) rest = stop) (cut : slice? phrase offset stop = some run)
    (onward : ofBytes? phrase stop = some later) :
    ofBytes? phrase offset = some ((ofRun? run).toList ++ later) := by
  rw [ofBytes?]
  split
  · rename_i found
    rw [left] at found
    cases found
  · rename_i byte others found
    obtain ⟨rfl, rfl⟩ := List.cons.inj (left.symm.trans found)
    simp only [if_true, ends, cut, onward, withoutQuotes?_eq, Option.bind_eq_bind, Option.bind_some,
      Option.pure_def, ofRun?]
    split <;> rfl

/-- Elsewhere the text up to the next quote is cut off. -/
theorem ofBytes?_text {byte : UInt8} {text : List Char}
    (left : (bytes phrase).drop offset = byte :: rest) (unquoted : byte ≠ quoteByte)
    (ends : offset + 1 + (rest.takeWhile (· != quoteByte)).length = stop)
    (cut : slice? phrase offset stop = some text) (onward : ofBytes? phrase stop = some later) :
    ofBytes? phrase offset = some ((ofText? text).toList ++ later) := by
  rw [ofBytes?]
  split
  · rename_i found
    rw [left] at found
    cases found
  · rename_i other others found
    obtain ⟨rfl, rfl⟩ := List.cons.inj (left.symm.trans found)
    simp only [unquoted, if_false, ends, cut, onward, Option.bind_eq_bind, Option.bind_some,
      Option.pure_def, ofText?]
    split <;> rfl

/-- No cut fails, and the segments are those of the characters. -/
theorem ofBytes?_eq (front text : List Char) :
    ofBytes? (front ++ text) (byteLength front) = some (ofPhrase text) := by
  fun_induction ofPhrase text generalizing front with
  | case1 => exact ofBytes?_nil (Text.drop_bytes front [])
  | case2 rest parts ih =>
      have whole : front ++ '"' :: rest = front ++ '"' :: parts.1 ++ parts.2 := by
        have split : parts.1 ++ parts.2 = rest := throughQuote_append rest
        rw [← split, List.append_assoc, List.cons_append]
      have ends : runEnd (byteLength front + 1) (bytes rest)
          = byteLength (front ++ '"' :: parts.1) := by
        have width : ('"' : Char).utf8Size = 1 := by decide
        rw [runEnd_bytes, Text.byteLength_append, Text.byteLength_cons, width]
        dsimp only [parts]
        omega
      have cut := Text.slice?_append front ('"' :: parts.1) parts.2
      have onward := ih (front ++ '"' :: parts.1)
      rw [← whole] at cut onward
      exact ofBytes?_run (Text.drop_bytes front _) ends cut onward
  | case3 c rest unquoted ih =>
      obtain ⟨byte, tail, spelled, _⟩ := Text.exists_tail_utf8EncodeChar c
      have different : byte ≠ quoteByte := by
        rintro rfl
        exact unquoted (Text.eq_of_mem_utf8EncodeChar (d := '"') (by decide)
          (by rw [spelled]; simp [quoteByte]))
      have whole : front ++ c :: rest
          = front ++ c :: rest.takeWhile (· != '"') ++ rest.dropWhile (· != '"') := by
        rw [List.append_assoc, List.cons_append, List.takeWhile_append_dropWhile]
      have opened : bytes (c :: rest) = byte :: (tail ++ bytes rest) := by
        rw [Text.bytes_cons, spelled, List.cons_append]
      have ends : byteLength front + 1 + ((tail ++ bytes rest).takeWhile (· != quoteByte)).length
          = byteLength (front ++ c :: rest.takeWhile (· != '"')) := by
        have taken := congrArg List.length (Text.takeWhile_bytes (c :: rest))
        rw [opened, List.takeWhile_cons_of_pos (by simpa using different),
          List.takeWhile_cons_of_pos (by simpa using unquoted), List.length_cons,
          Text.length_bytes] at taken
        rw [Text.byteLength_append]
        omega
      have cut :=
        Text.slice?_append front (c :: rest.takeWhile (· != '"')) (rest.dropWhile (· != '"'))
      have onward := ih (front ++ c :: rest.takeWhile (· != '"'))
      rw [← whole] at cut onward
      exact ofBytes?_text ((Text.drop_bytes front _).trans opened) different ends cut onward

end Segment

end FacetSearch
