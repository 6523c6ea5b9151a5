import FacetSearch.Proofs.Phrase.Rejoining

/-!
What a spelling correction does to a phrase (`merge_result`): it replaces the words outside quotes
in their order, as far as it goes, and leaves the quoted runs and the places of the words between
them as they are. Putting the same correction in again changes nothing.
-/

set_option autoImplicit false

namespace FacetSearch

open Text (isBlank allBlank IsWord IsTrimmed)

namespace Spelling

variable {corrections : List (List Char)}

theorem replace_nil (corrections : List (List Char)) :
    replace corrections [] = ([], corrections) := by
  rw [replace]

theorem replace_cons_blank {c : Char} (blank : isBlank c = true) (rest : List Char) :
    replace corrections (c :: rest)
      = (c :: (replace corrections rest).1, (replace corrections rest).2) := by
  rw [replace, if_pos blank]

theorem replace_cons_word {c : Char} (visible : isBlank c = false) (rest : List Char) :
    replace corrections (c :: rest)
      = (corrections.headD (c :: rest.takeWhile (!isBlank ·))
            ++ (replace corrections.tail (rest.dropWhile (!isBlank ·))).1,
          (replace corrections.tail (rest.dropWhile (!isBlank ·))).2) := by
  rw [replace, if_neg (by simp [visible])]

/-- Words of a correction: each one is a word, and none of them holds a quote. -/
def AreWords (corrections : List (List Char)) : Prop :=
  ∀ word ∈ corrections, IsWord word ∧ '"' ∉ word

theorem AreWords.tail (words : AreWords corrections) : AreWords corrections.tail :=
  fun word member => words word (List.mem_of_mem_tail member)

theorem AreWords.headD (words : AreWords corrections) {word : List Char} (is : IsWord word) :
    IsWord (corrections.headD word) := by
  cases corrections with
  | nil => exact is
  | cons first rest => exact (words first List.mem_cons_self).1

/-- The words as the corrections have them, and behind their end as they were. -/
def corrected (corrections words : List (List Char)) : List (List Char) :=
  corrections.take words.length ++ words.drop corrections.length

theorem corrected_cons (corrections : List (List Char)) (word : List Char)
    (rest : List (List Char)) : corrected corrections (word :: rest)
      = corrections.headD word :: corrected corrections.tail rest := by
  cases corrections <;> simp [corrected]

theorem corrected_append (corrections front back : List (List Char)) :
    corrected corrections (front ++ back)
      = corrected corrections front ++ corrected (corrections.drop front.length) back := by
  induction front generalizing corrections with
  | nil => simp [corrected]
  | cons word rest ih =>
      rw [List.cons_append, corrected_cons, ih, corrected_cons, List.cons_append]
      simp

theorem length_corrected (corrections words : List (List Char)) :
    (corrected corrections words).length = words.length := by
  simp only [corrected, List.length_append, List.length_take, List.length_drop]
  omega

theorem head?_replace (corrections : List (List Char)) {text : List Char}
    (ends : ∀ c ∈ text.head?, isBlank c = true) :
    ∀ c ∈ (replace corrections text).1.head?, isBlank c = true := by
  cases text with
  | nil => simp [replace_nil]
  | cons c rest =>
      rw [replace_cons_blank (ends c rfl)]
      exact ends

theorem head?_dropWhile_word (rest : List Char) :
    ∀ c ∈ (rest.dropWhile (!isBlank ·)).head?, isBlank c = true := by
  intro c first
  have stops := List.head?_dropWhile_not (!isBlank ·) rest
  rw [first] at stops
  simpa using stops

/-- Replacing the words of a text corrects them in their order. -/
theorem words_replace (words : AreWords corrections) (text : List Char) :
    Text.words (replace corrections text).1 = corrected corrections (Text.words text) ∧
      (replace corrections text).2 = corrections.drop (Text.words text).length := by
  induction text using Text.inductionOnRuns (!isBlank ·) generalizing corrections with
  | nil => simp [replace_nil, Text.words, corrected]
  | run c rest kept ih =>
      have visible : isBlank c = false := by simpa using kept
      obtain ⟨onward, left⟩ := ih words.tail
      have ends := head?_replace corrections.tail (head?_dropWhile_word rest)
      have is := words.headD (Text.isWord_takeWhile visible rest)
      rw [replace_cons_word visible, Text.words_cons_word visible, Text.words_word_append is ends,
        onward, left, corrected_cons]
      simp
  | skip c rest skipped ih =>
      have blank : isBlank c = true := by simpa using skipped
      rw [replace_cons_blank blank, Text.words_cons_blank blank, Text.words_cons_blank blank]
      exact ih words

theorem mem_replace {text : List Char} :
    ∀ c ∈ (replace corrections text).1, c ∈ text ∨
      ∃ word ∈ corrections, c ∈ word := by
  induction text using Text.inductionOnRuns (!isBlank ·) generalizing corrections with
  | nil => simp [replace_nil]
  | run c rest kept ih =>
      intro d member
      rw [replace_cons_word (by simpa using kept)] at member
      rcases List.mem_append.mp member with member | member
      · cases corrections with
        | nil =>
            refine .inl ?_
            rcases List.mem_cons.mp member with rfl | member
            · exact List.mem_cons_self
            · exact List.mem_cons_of_mem _ (List.takeWhile_subset _ member)
        | cons first others => exact .inr ⟨first, List.mem_cons_self, member⟩
      · rcases ih d member with member | ⟨word, held, member⟩
        · exact .inl (List.mem_cons_of_mem _ ((List.dropWhile_sublist _).subset member))
        · exact .inr ⟨word, List.mem_of_mem_tail held, member⟩
  | skip c rest skipped ih =>
      intro d member
      rw [replace_cons_blank (by simpa using skipped)] at member
      rcases List.mem_cons.mp member with rfl | member
      · exact .inl List.mem_cons_self
      · exact (ih d member).imp_left (List.mem_cons_of_mem c)

theorem replace_ne_nil (words : AreWords corrections) {text : List Char} (inhabited : text ≠ []) :
    (replace corrections text).1 ≠ [] := by
  obtain ⟨c, rest, rfl⟩ := List.exists_cons_of_ne_nil inhabited
  by_cases blank : isBlank c = true
  · rw [replace_cons_blank blank]
    exact List.cons_ne_nil _ _
  · have visible := Bool.eq_false_iff.mpr blank
    rw [replace_cons_word visible]
    exact List.append_ne_nil_of_left_ne_nil
      (words.headD (Text.isWord_takeWhile visible rest)).inhabited _

/-- A text that does not end in a blank still does not when its words are replaced. -/
theorem getLast?_replace (words : AreWords corrections) {text : List Char}
    (last : ∀ c ∈ text.getLast?, isBlank c = false) :
    ∀ c ∈ (replace corrections text).1.getLast?, isBlank c = false := by
  induction text using Text.inductionOnRuns (!isBlank ·) generalizing corrections with
  | nil => simp [replace_nil]
  | run c rest kept ih =>
      have visible : isBlank c = false := by simpa using kept
      have is := words.headD (Text.isWord_takeWhile visible rest)
      have whole : c :: rest = (c :: rest.takeWhile (!isBlank ·)) ++
          rest.dropWhile (!isBlank ·) := by
        rw [List.cons_append, List.takeWhile_append_dropWhile]
      have onward := ih words.tail fun d found => last d (by
        rw [whole, List.getLast?_append, Option.mem_def.mp found, Option.some_or, Option.mem_def])
      intro d found
      rw [replace_cons_word visible, List.getLast?_append] at found
      cases behind : (replace corrections.tail (rest.dropWhile (!isBlank ·))).1.getLast? with
      | none =>
          rw [behind, Option.none_or] at found
          exact is.visible d (List.mem_of_getLast? found)
      | some e =>
          rw [behind, Option.some_or] at found
          exact onward d (behind.trans found)
  | skip c rest skipped ih =>
      have blank : isBlank c = true := by simpa using skipped
      have inhabited : rest ≠ [] := by
        rintro rfl
        rw [last c rfl] at blank
        cases blank
      have left := replace_ne_nil words inhabited
      rw [List.getLast?_cons_of_ne_nil inhabited] at last
      rw [replace_cons_blank blank, List.getLast?_cons_of_ne_nil left]
      exact ih words last

theorem isLoose_replace (words : AreWords corrections) {text : List Char} (loose : IsLoose text) :
    IsLoose (replace corrections text).1 := by
  obtain ⟨c, rest, rfl⟩ := List.exists_cons_of_ne_nil loose.inhabited
  have visible := loose.trimmed.first c rfl
  have is := words.headD (Text.isWord_takeWhile visible rest)
  obtain ⟨d, others, begins⟩ := List.exists_cons_of_ne_nil is.inhabited
  have last := getLast?_replace words loose.trimmed.last
  have unquoted : '"' ∉ (replace corrections (c :: rest)).1 := by
    intro member
    rcases mem_replace _ member with member | ⟨word, held, member⟩
    · exact loose.unquoted member
    · exact (words word held).2 member
  rw [replace_cons_word visible, begins] at last unquoted ⊢
  refine ⟨List.cons_ne_nil _ _, unquoted, ⟨fun e first => ?_, last⟩⟩
  rw [← Option.some.inj first]
  exact is.visible d (begins ▸ List.mem_cons_self)

/-- Words that are as the correction has them are left as they are. -/
theorem replace_eq_self {text : List Char}
    (same : corrected corrections (Text.words text) = Text.words text) :
    (replace corrections text).1 = text := by
  induction text using Text.inductionOnRuns (!isBlank ·) generalizing corrections with
  | nil => rw [replace_nil]
  | run c rest kept ih =>
      have visible : isBlank c = false := by simpa using kept
      rw [Text.words_cons_word visible, corrected_cons] at same
      obtain ⟨first, others⟩ := List.cons.inj same
      rw [replace_cons_word visible, first, ih others, List.cons_append,
        List.takeWhile_append_dropWhile]
  | skip c rest skipped ih =>
      have blank : isBlank c = true := by simpa using skipped
      rw [Text.words_cons_blank blank] at same
      rw [replace_cons_blank blank, ih same]

/-- Segments with the words outside quotes corrected in their order. -/
def correctedSegments (corrections : List (List Char)) : List Segment → List Segment
  | [] => []
  | .quoted run :: rest => .quoted run :: correctedSegments corrections rest
  | .plain text :: rest =>
    .plain (replace corrections text).1 :: correctedSegments (replace corrections text).2 rest

theorem replaceAll_eq (corrections : List (List Char)) (segments : List Segment) :
    (replaceAll corrections segments).1
      = (correctedSegments corrections segments).map Segment.text := by
  induction segments generalizing corrections with
  | nil => rfl
  | cons segment rest ih =>
      cases segment with
      | quoted run =>
          rw [replaceAll, correctedSegments, List.map_cons, ih]
          rfl
      | plain text =>
          rw [replaceAll, correctedSegments, List.map_cons, ih]
          rfl

theorem filter_isQuoted_corrected (corrections : List (List Char)) (segments : List Segment) :
    (correctedSegments corrections segments).filter (·.isQuoted)
      = segments.filter (·.isQuoted) := by
  induction segments generalizing corrections with
  | nil => rfl
  | cons segment rest ih =>
      cases segment with
      | quoted run =>
          rw [correctedSegments, List.filter_cons_of_pos rfl, ih, List.filter_cons_of_pos rfl]
      | plain text => exact ih _

theorem looseWords_plain (text : List Char) (rest : List Segment) :
    looseWords (.plain text :: rest) = Text.words text ++ looseWords rest := rfl

theorem AreWords.drop (words : AreWords corrections) (count : Nat) :
    AreWords (corrections.drop count) :=
  fun word member => words word (List.mem_of_mem_drop member)

theorem looseWords_corrected (words : AreWords corrections) (segments : List Segment) :
    looseWords (correctedSegments corrections segments)
      = corrected corrections (looseWords segments) := by
  induction segments generalizing corrections with
  | nil => simp [correctedSegments, looseWords, corrected]
  | cons segment rest ih =>
      cases segment with
      | quoted run => exact ih words
      | plain text =>
          obtain ⟨here, left⟩ := words_replace words text
          rw [correctedSegments, looseWords_plain, looseWords_plain, corrected_append, here, left,
            ih (words.drop _)]

theorem length_stretches_corrected (words : AreWords corrections) (segments : List Segment) :
    (Segment.stretches (correctedSegments corrections segments)).map List.length
      = (Segment.stretches segments).map List.length := by
  induction segments generalizing corrections with
  | nil => rfl
  | cons segment rest ih =>
      cases segment with
      | quoted run =>
          rw [correctedSegments, Segment.stretches_quoted, Segment.stretches_quoted, List.map_cons,
            ih words, List.map_cons]
      | plain text =>
          obtain ⟨here, left⟩ := words_replace words text
          have onward := ih (words.drop (Text.words text).length)
          obtain ⟨first, others, split⟩ :=
            List.exists_cons_of_ne_nil (Segment.stretches_ne_nil rest)
          obtain ⟨second, more, again⟩ := List.exists_cons_of_ne_nil (Segment.stretches_ne_nil
            (correctedSegments (corrections.drop (Text.words text).length) rest))
          rw [split, again, List.map_cons, List.map_cons] at onward
          obtain ⟨same, tail⟩ := List.cons.inj onward
          rw [correctedSegments, Segment.stretches_plain, Segment.stretches_plain,
            left, here, split, again]
          simp only [List.modifyHead_cons, List.map_cons, List.length_append,
            length_corrected, same, tail]

theorem areCut_corrected (words : AreWords corrections) {segments : List Segment}
    (cut : Segment.AreCut segments) : Segment.AreCut (correctedSegments corrections segments) := by
  induction segments generalizing corrections with
  | nil => trivial
  | cons segment rest ih =>
      cases segment with
      | quoted run =>
          obtain ⟨ends, visible, cut⟩ := cut
          refine ⟨ends.imp_right fun ⟨unclosed, final⟩ => ⟨unclosed, ?_⟩, visible,
            ih words cut⟩
          rw [final]
          rfl
      | plain text =>
          refine ⟨isLoose_replace words cut.1, ?_⟩
          rw [(words_replace words text).2]
          exact ih (words.drop _) cut.2

/-- Segments whose words are as the correction has them are left as they are. -/
theorem correctedSegments_eq_self (words : AreWords corrections) {segments : List Segment}
    (same : corrected corrections (looseWords segments) = looseWords segments) :
    correctedSegments corrections segments = segments := by
  induction segments generalizing corrections with
  | nil => rfl
  | cons segment rest ih =>
      cases segment with
      | quoted run => rw [correctedSegments, ih words same]
      | plain text =>
          rw [looseWords_plain, corrected_append] at same
          obtain ⟨here, onward⟩ := List.append_inj same (length_corrected _ _)
          rw [correctedSegments, replace_eq_self here, (words_replace words text).2,
            ih (words.drop _) onward]

theorem corrected_corrected (corrections words : List (List Char)) :
    corrected corrections (corrected corrections words) = corrected corrections words := by
  induction words generalizing corrections with
  | nil => simp [corrected]
  | cons word rest ih =>
      rw [corrected_cons, corrected_cons, ih]
      cases corrections <;> rfl

theorem areWords_words {correction : List Char} (unquoted : '"' ∉ correction) :
    AreWords (Text.words correction) := fun _ member =>
  ⟨Text.isWord_of_mem_words member, fun quote =>
    unquoted (Text.mem_of_mem_words member _ quote)⟩

/-- A phrase and a correction with something in them give the corrected segments, joined. -/
theorem merge_result {phrase correction : String} (written : allBlank phrase.toList = false)
    (given : allBlank correction.toList = false) :
    (merge phrase correction).result
      = String.ofList (Segment.joined
          (correctedSegments (Text.words correction.toList) (Segment.ofPhrase phrase.toList))) := by
  unfold merge
  rw [Segment.joined, ← replaceAll_eq]
  simp only [written, given, Bool.or_self, Bool.false_eq_true, if_false]
  split <;> rfl

theorem looseWords_fuse (segments : List Segment) :
    looseWords (Segment.fuse [] segments) = looseWords segments := by
  rw [Segment.looseWords_eq_flatten, Segment.stretches_fuse_nil, ← Segment.looseWords_eq_flatten]

/-- A correction replaces the words outside quotes in their order, as far as it goes, and nothing
else: the phrase has the same quoted runs as before with as many words between them, and the same
correction finds nothing more to replace. -/
theorem ofPhrase_merge {phrase correction : String} (written : allBlank phrase.toList = false)
    (given : allBlank correction.toList = false) (unquoted : '"' ∉ correction.toList) :
    let merged := (merge phrase correction).result
    let before := Segment.ofPhrase phrase.toList
    let after := Segment.ofPhrase merged.toList
    let corrections := Text.words correction.toList
    after.filter (·.isQuoted) = before.filter (·.isQuoted) ∧
      looseWords after = corrections.take (looseWords before).length
        ++ (looseWords before).drop corrections.length ∧
      (Segment.stretches after).map List.length = (Segment.stretches before).map List.length ∧
      (merge merged correction).result = merged := by
  intro merged before after corrections
  have words : AreWords corrections := areWords_words unquoted
  have cut := areCut_corrected words (Segment.areCut_ofPhrase phrase.toList)
  have result : merged = String.ofList (Segment.joined (correctedSegments corrections before)) :=
    merge_result written given
  have fused : after = Segment.fuse [] (correctedSegments corrections before) := by
    show Segment.ofPhrase merged.toList = _
    rw [result, String.toList_ofList]
    exact Segment.ofPhrase_joined cut
  have loose : looseWords after = corrected corrections (looseWords before) := by
    rw [fused, looseWords_fuse, looseWords_corrected words]
  refine ⟨?_, loose, ?_, ?_⟩
  · rw [fused, Segment.filter_isQuoted_fuse, filter_isQuoted_corrected]
  · rw [fused, Segment.stretches_fuse_nil, length_stretches_corrected words]
  · by_cases blank : allBlank merged.toList = true
    · unfold merge
      simp only [blank, Bool.true_or, if_true]
      rfl
    · have settled : corrected corrections (looseWords after) = looseWords after := by
        rw [loose, corrected_corrected]
      rw [merge_result (Bool.eq_false_iff.mpr blank) given]
      change String.ofList (Segment.joined (correctedSegments corrections after)) = merged
      rw [correctedSegments_eq_self words settled, fused, Segment.joined_fuse cut, result]

/-- A quote glued to a word, a run with an escaped quote, one without contents, and one that is
never closed. -/
theorem ofPhrase_merge_glued :
    let phrase := "wun\"a \\\" b\"  twoo \"\" thre \"lost"
    let correction := "one  two"
    let merged := "one \"a \\\" b\" two thre \"lost"
    (allBlank phrase.toList = false ∧ allBlank correction.toList = false ∧
      '"' ∉ correction.toList ∧ (merge phrase correction).result = merged) ∧
    looseWords (Segment.ofPhrase merged.toList)
      = ["one".toList, "two".toList, "thre".toList] ∧
    (merge merged correction).result = merged := by
  intro phrase correction merged
  have written : allBlank phrase.toList = false := by decide +kernel
  have given : allBlank correction.toList = false := by decide +kernel
  have unquoted : '"' ∉ correction.toList := by decide +kernel
  have result : (merge phrase correction).result = merged := by decide +kernel
  obtain ⟨_, loose, _, again⟩ := ofPhrase_merge written given unquoted
  rw [result] at loose again
  refine ⟨⟨written, given, unquoted, result⟩, ?_, again⟩
  rw [loose]
  decide +kernel

end Spelling

end FacetSearch
