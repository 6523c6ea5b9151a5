import FacetSearch.Proofs.Phrase.Partition

/-!
Two ways to tell whether a quoted run is closed. A scan over bytes goes forward from the opening
quote and takes the byte behind a backslash along with it; a check at the end of the run only counts
the backslashes before the last quote. They agree on every run of a phrase (`Segment.scansAgree`):
what stands between the quotes never closes them, so an even number of backslashes at its end is
taken in pairs by the scan.
-/

set_option autoImplicit false

namespace FacetSearch

namespace Segment

open Text (bytes byteLength quoteByte backslashByte IsQuiet slice?)
open QuoteState

/-- How many backslashes bytes end in. -/
def trailingBackslashBytes (text : List UInt8) : Nat :=
  (text.reverse.takeWhile (· == backslashByte)).length

/-- Whether bytes end in a quote that no backslash takes its meaning from. -/
def endsInQuoteByte (text : List UInt8) : Bool :=
  text.getLast? == some quoteByte && trailingBackslashBytes text.dropLast % 2 == 0

theorem trailingBackslashBytes_bytes (text : List Char) :
    trailingBackslashBytes (bytes text) = trailingBackslashes text := by
  induction text using List.reverseRecOn with
  | nil => rfl
  | append_singleton front c ih =>
      have spelled : (bytes (front ++ [c])).reverse
          = (String.utf8EncodeChar c).reverse ++ (bytes front).reverse := by
        simp [bytes]
      rw [trailingBackslashes_append_singleton, trailingBackslashBytes, spelled]
      by_cases escape : c = '\\'
      · subst escape
        rw [if_pos rfl, ← ih]
        rfl
      · obtain ⟨byte, rest, reversed⟩ : ∃ byte rest, (String.utf8EncodeChar c).reverse
          = byte :: rest := by
          obtain ⟨byte, tail, spelled, _⟩ := Text.exists_tail_utf8EncodeChar c
          exact List.exists_cons_of_ne_nil (by simp [spelled])
        have other : byte ≠ backslashByte := by
          rintro rfl
          have member : backslashByte ∈ String.utf8EncodeChar c := by
            rw [← List.mem_reverse, reversed]
            exact List.mem_cons_self
          exact escape (Text.eq_of_mem_utf8EncodeChar (d := '\\') (by decide) member)
        rw [if_neg escape, reversed, List.cons_append,
          List.takeWhile_cons_of_neg (by simpa using other)]
        rfl

/-- The bytes of a text end in the one of a quote exactly if the text ends in a quote. -/
theorem getLast?_bytes_eq_quote_iff (text : List Char) :
    (bytes text).getLast? = some quoteByte ↔ text.getLast? = some '"' := by
  induction text using List.reverseRecOn with
  | nil => simp [bytes]
  | append_singleton front c _ =>
      obtain ⟨byte, tail, spelled, _⟩ := Text.exists_tail_utf8EncodeChar c
      have inhabited : bytes [c] ≠ [] := by simp [bytes, spelled]
      have alone : bytes [c] = String.utf8EncodeChar c := by simp [bytes]
      rw [Text.bytes_append, List.getLast?_append_of_ne_nil _ inhabited, alone,
        List.getLast?_concat]
      constructor
      · intro ends
        rw [Text.eq_of_mem_utf8EncodeChar (d := '"') (by decide) (List.mem_of_getLast? ends)]
      · intro same
        rw [Option.some.inj same]
        rfl

/-- The check over bytes is the one over characters. -/
theorem endsInQuoteByte_bytes (text : List Char) :
    endsInQuoteByte (bytes text) = endsInQuote text := by
  by_cases last : text.getLast? = some '"'
  · obtain ⟨front, rfl⟩ := List.getLast?_eq_some_iff.mp last
    have spelled : bytes (front ++ ['"']) = bytes front ++ [quoteByte] := Text.bytes_append _ _
    rw [endsInQuoteByte, endsInQuote, spelled]
    simp only [List.getLast?_concat, List.dropLast_concat, trailingBackslashBytes_bytes,
      beq_self_eq_true]
  · have other := mt (getLast?_bytes_eq_quote_iff text).mp last
    rw [endsInQuoteByte, endsInQuote, beq_false_of_ne last, beq_false_of_ne other]
    rfl

/-- The offset of the quote at which a scan over bytes stops, unless it runs to the end of the
bytes. A backslash takes the next byte with it. -/
def closingQuote? (offset : Nat) : List UInt8 → Option Nat
  | [] => none
  | byte :: rest =>
    if byte = backslashByte then
      match rest with
      | [] => none
      | _ :: rest => closingQuote? (offset + 2) rest
    else if byte = quoteByte then some offset
    else closingQuote? (offset + 1) rest

/-- A run ends behind the quote at which the scan stops, or at the end of the bytes. -/
theorem runEnd_eq (offset : Nat) (rest : List UInt8) :
    runEnd offset rest = ((closingQuote? offset rest).map (· + 1)).getD
      (offset + rest.length) := by
  fun_induction closingQuote? offset rest with
  | case1 => rfl
  | case2 => rfl
  | case3 offset rest next ih =>
      rw [runEnd, if_pos rfl, ih]
      simp only [List.length_cons]
      congr 1
      omega
  | case4 offset rest _ => exact runEnd_quote offset rest
  | case5 offset byte rest plain unquoted ih =>
      rw [runEnd_quiet ⟨unquoted, plain⟩, ih, List.length_cons]
      congr 1
      omega

theorem closingQuote?_quote (offset : Nat) (rest : List UInt8) :
    closingQuote? offset (quoteByte :: rest) = some offset := by
  cases rest <;> rfl

theorem closingQuote?_quiet {byte : UInt8} (quiet : IsQuiet byte) (offset : Nat)
    (rest : List UInt8) :
    closingQuote? offset (byte :: rest) = closingQuote? (offset + 1) rest := by
  cases rest <;> simp [closingQuote?, quiet.1, quiet.2]

theorem closingQuote?_append {front : List UInt8} (quiet : ∀ byte ∈ front, IsQuiet byte)
    (offset : Nat) (rest : List UInt8) :
    closingQuote? offset (front ++ rest) = closingQuote? (offset + front.length) rest := by
  induction front generalizing offset with
  | nil => rfl
  | cons byte front ih =>
      have later :=
        ih (fun other member => quiet other (List.mem_cons_of_mem byte member)) (offset + 1)
      rw [List.cons_append, closingQuote?_quiet (quiet byte List.mem_cons_self), later,
        List.length_cons]
      congr 1
      omega

/-- The scan over bytes runs to the end exactly if no character closes the quotes. -/
theorem closingQuote?_eq_none_iff (offset : Nat) (text : List Char) :
    closingQuote? offset (bytes text) = none ↔ after text ≠ closed := by
  fun_induction throughQuote text generalizing offset with
  | case1 => simp [bytes, closingQuote?, after]
  | case2 c rest parts ih =>
      obtain ⟨byte, tail, spelled, quiet⟩ := Text.exists_tail_utf8EncodeChar c
      have backslash : closingQuote? offset (bytes ('\\' :: c :: rest))
          = closingQuote? (offset + 2) (tail ++ bytes rest) := by
        rw [Text.bytes_cons, Text.bytes_cons, spelled]
        rfl
      rw [backslash, closingQuote?_append quiet, ih, after_escape_cons]
  | case3 rest _ =>
      have shut : after ('"' :: rest) = closed := foldl_closed rest
      have stops : closingQuote? offset (bytes ('"' :: rest)) = some offset :=
        closingQuote?_quote _ (bytes rest)
      rw [shut, stops]
      simp
  | case4 c rest single unquoted parts ih =>
      by_cases backslash : c = '\\'
      · subst backslash
        cases rest with
        | nil => exact ⟨fun _ => by decide, fun _ => rfl⟩
        | cons d others => exact absurd rfl (single d others rfl)
      · rw [Text.bytes_cons, closingQuote?_append (Text.isQuiet_of_mem unquoted backslash), ih,
          after_plain_cons unquoted backslash]

variable {within : List Char}

/-- The scan stops at the quote behind what stays inside the quotes. -/
theorem closingQuote?_bytes (inside : after within = inside) (offset : Nat) (rest : List Char) :
    closingQuote? offset (bytes (within ++ '"' :: rest)) = some (offset + byteLength within) := by
  have shut : after (within ++ '"' :: rest) = closed := by
    rw [after, List.foldl_append]
    change rest.foldl step ((after within).step '"') = closed
    rw [inside]
    exact foldl_closed rest
  have width : ('"' : Char).utf8Size = 1 := by decide
  have stops := runEnd_bytes offset (within ++ '"' :: rest)
  rw [throughQuote_append_quote inside, runEnd_eq, Text.byteLength_append,
    Text.byteLength_cons, width, Text.byteLength_nil] at stops
  cases found : closingQuote? offset (bytes (within ++ '"' :: rest)) with
  | none => exact absurd shut ((closingQuote?_eq_none_iff offset _).mp found)
  | some place =>
      rw [found, Option.map_some, Option.getD_some] at stops
      congr 1
      omega

/-- A quote inside the quotes has an odd number of backslashes before it. -/
theorem odd_of_within (inside : after within ≠ closed) {front back : List Char}
    (split : within = front ++ '"' :: back) : trailingBackslashes front % 2 = 1 := by
  subst split
  have before := after_ne_closed_of_append ('"' :: back) inside
  rw [List.append_cons] at inside
  have behind := after_ne_closed_of_append back inside
  rw [after_append_singleton] at behind
  apply (after_eq_escaped_iff before).mp
  cases state : after front with
  | escaped => rfl
  | closed => exact absurd state before
  | inside =>
      rw [state] at behind
      exact absurd rfl behind

/-- Where the run ends whose opening quote stands at an offset of a phrase. -/
def endAt (phrase : List Char) (start : Nat) : Nat :=
  runEnd (start + 1) ((bytes phrase).drop (start + 1))

/-- The offset of its closing quote, unless it goes on to the end of the phrase. -/
def closingAt? (phrase : List Char) (start : Nat) : Option Nat :=
  closingQuote? (start + 1) ((bytes phrase).drop (start + 1))

/-- A quoted run at an offset of a phrase, as the scan from its opening quote finds it and as the
check from its end reads it. -/
structure ScansAgree (phrase : List Char) (start : Nat) (run : List Char) : Prop where
  cut : slice? phrase start (endAt phrase start) = some run
  agree : endsInQuoteByte (bytes run.tail) = (closingAt? phrase start).isSome
  closed : ∀ place, closingAt? phrase start = some place →
    slice? phrase place (place + 1) = some ['"'] ∧ endAt phrase start = place + 1 ∧
      run = '"' :: ((quoted run).inner ++ ['"'])
  unclosed : closingAt? phrase start = none →
    endAt phrase start = byteLength phrase ∧ run = '"' :: (quoted run).inner
  contents : ∀ front back, (quoted run).inner = front ++ '"' :: back →
    trailingBackslashes front % 2 = 1

theorem drop_bytes_quote (front text : List Char) :
    (bytes (front ++ '"' :: text)).drop (byteLength front + 1) = bytes text := by
  have width : byteLength (front ++ ['"']) = byteLength front + 1 :=
    Text.byteLength_append front ['"']
  have behind := Text.drop_bytes (front ++ ['"']) text
  rwa [width, ← List.append_cons] at behind

theorem endAt_quote (front text : List Char) :
    endAt (front ++ '"' :: text) (byteLength front)
      = byteLength (front ++ '"' :: (throughQuote text).1) := by
  have width : ('"' : Char).utf8Size = 1 := by decide
  rw [endAt, drop_bytes_quote, runEnd_bytes, Text.byteLength_append, Text.byteLength_cons, width]
  omega

theorem slice?_endAt (front text : List Char) :
    slice? (front ++ '"' :: text) (byteLength front)
      (endAt (front ++ '"' :: text) (byteLength front))
      = some ('"' :: (throughQuote text).1) := by
  have whole : front ++ '"' :: text = front ++ '"' :: (throughQuote text).1 ++
      (throughQuote text).2 := by
    rw [List.append_assoc, List.cons_append, throughQuote_append]
  rw [endAt_quote, whole]
  exact Text.slice?_append front _ _

/-- What follows an opening quote closes the run at the first quote that no backslash takes. -/
theorem scansAgree_closed (inside : after within = inside) (front back : List Char) :
    ScansAgree (front ++ '"' :: (within ++ '"' :: back)) (byteLength front)
      ('"' :: (within ++ ['"'])) := by
  have through := throughQuote_append_quote inside back
  have stays : after within ≠ QuoteState.closed := by simp [inside]
  have contents : (quoted ('"' :: (within ++ ['"']))).inner = within := withoutQuotes_closed inside
  have reach : byteLength front + 1 + byteLength within = byteLength (front ++ '"' :: within) := by
    have width : ('"' : Char).utf8Size = 1 := by decide
    rw [Text.byteLength_append, Text.byteLength_cons, width]
    omega
  have behind : byteLength (front ++ '"' :: within ++ ['"'])
      = byteLength (front ++ '"' :: within) + 1 :=
    Text.byteLength_append _ ['"']
  have place : closingAt? (front ++ '"' :: (within ++ '"' :: back)) (byteLength front)
      = some (byteLength (front ++ '"' :: within)) := by
    rw [closingAt?, drop_bytes_quote, closingQuote?_bytes inside, reach]
  have cut := slice?_endAt front (within ++ '"' :: back)
  rw [through] at cut
  refine ⟨cut, ?_, ?_, ?_, ?_⟩
  · rw [place, endsInQuoteByte_bytes]
    exact (endsInQuote_append_iff stays).mpr inside
  · intro other found
    obtain rfl := Option.some.inj (place.symm.trans found)
    refine ⟨?_, ?_, by rw [contents]⟩
    · have sliced := Text.slice?_append (front ++ '"' :: within) ['"'] back
      rwa [behind, List.append_assoc, List.append_assoc, List.cons_append] at sliced
    · rw [endAt_quote, through, ← List.cons_append, ← List.append_assoc, behind]
  · intro missing
    rw [place] at missing
    cases missing
  · intro left right split
    rw [contents] at split
    exact odd_of_within stays split

/-- A run that nothing closes goes on to the end of the phrase. -/
theorem scansAgree_unclosed (stays : after within ≠ QuoteState.closed) (front : List Char) :
    ScansAgree (front ++ '"' :: within) (byteLength front) ('"' :: within) := by
  have through := throughQuote_of_within stays
  have contents : (quoted ('"' :: within)).inner = within := withoutQuotes_unclosed stays
  have place : closingAt? (front ++ '"' :: within) (byteLength front) = none := by
    rw [closingAt?, drop_bytes_quote, closingQuote?_eq_none_iff]
    exact stays
  have cut := slice?_endAt front within
  rw [through] at cut
  refine ⟨cut, ?_, ?_, ?_, ?_⟩
  · rw [place, endsInQuoteByte_bytes]
    exact not_endsInQuote stays
  · intro other found
    rw [place] at found
    cases found
  · intro _
    rw [endAt_quote, through, contents]
    exact ⟨rfl, rfl⟩
  · intro left right split
    rw [contents] at split
    exact odd_of_within stays split

/-- A partition falls apart at each of its runs. -/
theorem Partition.split {gap run next : List Char} {earlier later : List (Segment × List Char)}
    (partition : Partition gap (earlier ++ (Segment.quoted run, next) :: later)) :
    Partition gap earlier ∧ Partition next later ∧
      (IsClosed run ∨ IsUnclosed run ∧ next = [] ∧ later = []) := by
  induction earlier generalizing gap with
  | nil =>
      cases partition with
      | quoted blank ends _ onward => exact ⟨.last (.inl blank), onward, ends⟩
  | cons part earlier ih =>
      cases partition with
      | plain blank loose apart onward =>
          obtain ⟨before, behind, ends⟩ := ih onward
          refine ⟨.plain blank loose ?_ before, behind, ends⟩
          rintro other gap rest rfl
          exact apart other gap _ rfl
      | quoted blank ends visible onward =>
          obtain ⟨before, behind, last⟩ := ih onward
          have closed := ends.resolve_right fun unclosed =>
              List.append_ne_nil_of_right_ne_nil _ (by simp) unclosed.2.2
          exact ⟨.quoted blank (.inl closed) visible before, behind, last⟩

/-- Wherever a quoted run stands among the segments of a phrase, it is cut out of the phrase by the
scan from its opening quote on. The check from its end finds a closing quote exactly if that scan
stopped at one; so the run is a quote, its contents, and a quote exactly in that case. No quote of
the contents closes them. -/
theorem scansAgree {phrase run : List Char} {before later : List Segment}
    (cut : ofPhrase phrase = before ++ quoted run :: later) :
    ∃ front back, phrase = front ++ (run ++ back) ∧ ofPhrase front = before ∧
      ofPhrase back = later ∧ ScansAgree phrase (byteLength front) run := by
  obtain ⟨gap, parts, partition, segments, rfl⟩ := exists_partition phrase
  rw [cut] at segments
  obtain ⟨earlier, others, rfl, rfl, behind⟩ := List.map_eq_append_iff.mp segments
  obtain ⟨⟨segment, next⟩, following, rfl, same, rfl⟩ := List.map_eq_cons_iff.mp behind
  obtain rfl : segment = quoted run := same
  obtain ⟨first, second, ends⟩ := partition.split
  have whole : gap ++ written (earlier ++ (quoted run, next) :: following)
      = gap ++ written earlier ++ (run ++ (next ++ written following)) := by
    rw [written, List.flatMap_append]
    change gap ++ (written earlier ++ written ((quoted run, next) :: following)) = _
    rw [written_cons, List.append_assoc]
    rfl
  refine ⟨gap ++ written earlier, next ++ written following, whole, first.ofPhrase_eq,
    second.ofPhrase_eq, ?_⟩
  rw [whole]
  rcases ends with ⟨within, rfl, inside⟩ | ⟨⟨within, rfl, stays⟩, rfl, rfl⟩
  · have agree := scansAgree_closed inside (gap ++ written earlier) (next ++ written following)
    rwa [List.append_cons within, ← List.cons_append] at agree
  · have agree := scansAgree_unclosed stays (gap ++ written earlier)
    rwa [written_nil, List.append_nil, List.append_nil]

/-- A backslash takes the first byte of a character of two bytes, and a run of two of them stands
before the closing quote. -/
theorem scansAgree_escapes :
    ofPhrase ['a', '"', '\\', 'é', '\\', '\\', '"', '"', 'b', '\\']
        = [plain ['a']] ++ quoted ['"', '\\', 'é', '\\', '\\', '"'] ::
          [quoted ['"', 'b', '\\']] ∧
      ∃ front back,
        ['a', '"', '\\', 'é', '\\', '\\', '"', '"', 'b', '\\']
            = front ++ (['"', '\\', 'é', '\\', '\\', '"'] ++ back) ∧
          ofPhrase front = [plain ['a']] ∧ ofPhrase back = [quoted ['"', 'b', '\\']] ∧
          ScansAgree ['a', '"', '\\', 'é', '\\', '\\', '"', '"', 'b', '\\'] (byteLength front)
            ['"', '\\', 'é', '\\', '\\', '"'] := by
  have cut : ofPhrase ['a', '"', '\\', 'é', '\\', '\\', '"', '"', 'b', '\\']
      = [plain ['a']] ++ quoted ['"', '\\', 'é', '\\', '\\', '"'] ::
        [quoted ['"', 'b', '\\']] := by
    decide +kernel
  exact ⟨cut, scansAgree cut⟩

end Segment

end FacetSearch
