import Mathlib
import FacetSearch.Text.Blank

/-!
Words and the blanks around them. A text is cut into runs from its front, and a character that
belongs to no run divides it into two texts with runs of their own (`runs_append_skip`).
-/

set_option autoImplicit false

namespace FacetSearch.Text

variable {keep : Char → Bool}

/-- Induction over a text run by run. -/
theorem inductionOnRuns (keep : Char → Bool) {motive : List Char → Prop} (nil : motive [])
    (run : ∀ c rest, keep c = true → motive (rest.dropWhile keep) → motive (c :: rest))
    (skip : ∀ c rest, keep c = false → motive rest → motive (c :: rest)) (text : List Char) :
    motive text :=
  runsAt.induct keep (fun _ text => motive text) (fun _ => nil)
    (fun _ c rest kept ih => run c rest kept ih)
    (fun _ c rest skipped ih => skip c rest (by simpa using skipped) ih) 0 text

theorem map_snd_runsAt (offset : Nat) (text : List Char) :
    (runsAt keep offset text).map Prod.snd = runs keep text := by
  have same : ∀ first second, (runsAt keep first text).map Prod.snd
      = (runsAt keep second text).map Prod.snd := by
    induction text using inductionOnRuns keep with
    | nil => simp [runsAt]
    | run c rest kept ih =>
        intro first second
        rw [runsAt, runsAt, if_pos kept, if_pos kept, List.map_cons, List.map_cons]
        exact congrArg _ (ih _ _)
    | skip c rest skipped ih =>
        intro first second
        rw [runsAt, runsAt, if_neg (by simp [skipped]), if_neg (by simp [skipped])]
        exact ih _ _
  exact same offset 0

@[simp] theorem runs_nil : runs keep [] = [] := by
  rw [runs, runsAt, List.map_nil]

theorem runs_cons_keep {c : Char} (kept : keep c = true) (rest : List Char) :
    runs keep (c :: rest) = (c :: rest.takeWhile keep) :: runs keep (rest.dropWhile keep) := by
  rw [runs, runsAt, if_pos kept, List.map_cons, map_snd_runsAt]

theorem runs_cons_skip {c : Char} (skipped : keep c = false) (rest : List Char) :
    runs keep (c :: rest) = runs keep rest := by
  rw [runs, runsAt, if_neg (by simp [skipped]), map_snd_runsAt]

/-- A character outside the runs divides a text. -/
theorem runs_append_skip {c : Char} (skipped : keep c = false) (front back : List Char) :
    runs keep (front ++ c :: back) = runs keep front ++ runs keep back := by
  induction front using inductionOnRuns keep with
  | nil => rw [List.nil_append, runs_cons_skip skipped, runs_nil, List.nil_append]
  | run d rest kept ih =>
      have halves : (rest ++ c :: back).takeWhile keep = rest.takeWhile keep ∧
          (rest ++ c :: back).dropWhile keep = rest.dropWhile keep ++ c :: back := by
        clear ih
        induction rest with
        | nil => simp [skipped]
        | cons e rest inner =>
            by_cases more : keep e = true
            · simp [more, inner.1, inner.2]
            · simp [more]
      rw [List.cons_append, runs_cons_keep kept, runs_cons_keep kept, halves.1, halves.2, ih,
        List.cons_append]
  | skip d rest outside ih =>
      rw [List.cons_append, runs_cons_skip outside, runs_cons_skip outside, ih]

theorem runs_eq_nil_iff {text : List Char} :
    runs keep text = [] ↔ ∀ c ∈ text, keep c = false := by
  induction text using inductionOnRuns keep with
  | nil => simp
  | run c rest kept _ => simp [runs_cons_keep kept, kept]
  | skip c rest skipped ih => simp [runs_cons_skip skipped, skipped, ih]

@[simp] theorem allBlank_cons (c : Char) (rest : List Char) :
    allBlank (c :: rest) = (isBlank c && allBlank rest) := rfl

@[simp] theorem allBlank_append (front back : List Char) :
    allBlank (front ++ back) = (allBlank front && allBlank back) := List.all_append

theorem words_eq_nil_iff {text : List Char} : words text = [] ↔ allBlank text = true := by
  simp [words, runs_eq_nil_iff, allBlank]

theorem words_append_blank {c : Char} (blank : isBlank c = true) (front back : List Char) :
    words (front ++ c :: back) = words front ++ words back :=
  runs_append_skip (by simp [blank]) front back

theorem words_cons_blank {c : Char} (blank : isBlank c = true) (rest : List Char) :
    words (c :: rest) = words rest :=
  runs_cons_skip (by simp [blank]) rest

theorem words_cons_word {c : Char} (visible : isBlank c = false) (rest : List Char) :
    words (c :: rest)
      = (c :: rest.takeWhile (!isBlank ·)) :: words (rest.dropWhile (!isBlank ·)) :=
  runs_cons_keep (by simp [visible]) rest

theorem words_trimStart (text : List Char) : words (trimStart text) = words text := by
  induction text with
  | nil => rfl
  | cons c rest ih =>
      by_cases blank : isBlank c = true
      · rw [words_cons_blank blank, ← ih, trimStart, List.dropWhile_cons_of_pos blank, trimStart]
      · rw [trimStart, List.dropWhile_cons_of_neg blank]

theorem words_append_blanks (text : List Char) {blanks : List Char} (all : allBlank blanks = true) :
    words (text ++ blanks) = words text := by
  cases blanks with
  | nil => rw [List.append_nil]
  | cons c rest =>
      simp only [allBlank_cons, Bool.and_eq_true] at all
      rw [words_append_blank all.1, words_eq_nil_iff.mpr all.2, List.append_nil]

theorem trimEnd_append_blanks (text : List Char) :
    ∃ blanks, trimEnd text ++ blanks = text ∧ allBlank blanks = true := by
  refine ⟨(text.reverse.takeWhile isBlank).reverse, ?_, ?_⟩
  · rw [trimEnd, ← List.reverse_append, List.takeWhile_append_dropWhile, List.reverse_reverse]
  · simp only [allBlank, List.all_reverse, List.all_eq_true]
    exact fun c member => List.mem_takeWhile_imp member

/-- Blanks around a text hold no words. -/
theorem words_trim (text : List Char) : words (trim text) = words text := by
  obtain ⟨blanks, whole, all⟩ := trimEnd_append_blanks (trimStart text)
  rw [← words_trimStart text, trim, ← words_append_blanks _ all, whole]

/-- A word: characters that are no blanks, at least one of them. -/
structure IsWord (word : List Char) : Prop where
  inhabited : word ≠ []
  visible : ∀ c ∈ word, isBlank c = false

theorem isWord_takeWhile {c : Char} (visible : isBlank c = false) (rest : List Char) :
    IsWord (c :: rest.takeWhile (!isBlank ·)) where
  inhabited := List.cons_ne_nil _ _
  visible := by
    intro d member
    rcases List.mem_cons.mp member with rfl | member
    · exact visible
    · simpa using List.mem_takeWhile_imp member

theorem isWord_of_mem_words {text word : List Char} (member : word ∈ words text) :
    IsWord word := by
  induction text using inductionOnRuns (!isBlank ·) with
  | nil => simp [words] at member
  | run c rest kept ih =>
      have visible : isBlank c = false := by simpa using kept
      rw [words_cons_word visible] at member
      rcases List.mem_cons.mp member with rfl | member
      · exact isWord_takeWhile visible rest
      · exact ih member
  | skip c rest skipped ih =>
      rw [words_cons_blank (by simpa using skipped)] at member
      exact ih member

theorem mem_of_mem_words {text word : List Char} (member : word ∈ words text) :
    ∀ c ∈ word, c ∈ text := by
  intro c inside
  induction text using inductionOnRuns (!isBlank ·) with
  | nil => simp [words] at member
  | run d rest kept ih =>
      rw [words_cons_word (by simpa using kept)] at member
      rcases List.mem_cons.mp member with rfl | member
      · rcases List.mem_cons.mp inside with rfl | inside
        · exact List.mem_cons_self
        · exact List.mem_cons_of_mem _ (List.takeWhile_subset _ inside)
      · exact List.mem_cons_of_mem _ ((List.dropWhile_sublist _).subset (ih member))
  | skip d rest skipped ih =>
      rw [words_cons_blank (by simpa using skipped)] at member
      exact List.mem_cons_of_mem _ (ih member)

/-- A word goes up to the first blank behind it. -/
theorem words_word_append {word rest : List Char} (is : IsWord word)
    (ends : ∀ c ∈ rest.head?, isBlank c = true) :
    words (word ++ rest) = word :: words rest := by
  obtain ⟨c, others, rfl⟩ := List.exists_cons_of_ne_nil is.inhabited
  have visible := fun d member => is.visible d (List.mem_cons_of_mem c member)
  have halves : (others ++ rest).takeWhile (!isBlank ·) = others ∧
      (others ++ rest).dropWhile (!isBlank ·) = rest := by
    rw [List.takeWhile_append_of_pos (by simpa using visible),
      List.dropWhile_append_of_pos (by simpa using visible)]
    cases rest with
    | nil => simp
    | cons d more =>
        have blank : isBlank d = true := ends d rfl
        simp [blank]
  rw [List.cons_append, words_cons_word (is.visible c List.mem_cons_self), halves.1, halves.2]

/-- A text without blanks around it. -/
structure IsTrimmed (text : List Char) : Prop where
  first : ∀ c ∈ text.head?, isBlank c = false
  last : ∀ c ∈ text.getLast?, isBlank c = false

theorem head?_dropWhile_isBlank (text : List Char) :
    ∀ c ∈ (text.dropWhile isBlank).head?, isBlank c = false := by
  intro c first
  have stops := List.head?_dropWhile_not isBlank text
  rw [first] at stops
  simpa using stops

theorem isTrimmed_trim (text : List Char) : IsTrimmed (trim text) where
  first := by
    obtain ⟨blanks, whole, _⟩ := trimEnd_append_blanks (trimStart text)
    intro c first
    apply head?_dropWhile_isBlank text c
    change c ∈ (trimStart text).head?
    rw [← whole, List.head?_append]
    exact Option.mem_def.mpr
      (by rw [show (trimEnd (trimStart text)).head? = some c from first]; rfl)
  last := by
    intro c last
    rw [trim, trimEnd, List.getLast?_reverse] at last
    exact head?_dropWhile_isBlank _ c last

theorem dropWhile_eq_self {text : List Char} (first : ∀ c ∈ text.head?, isBlank c = false) :
    text.dropWhile isBlank = text := by
  cases text with
  | nil => rfl
  | cons c rest => rw [List.dropWhile_cons_of_neg (by simp [first c rfl])]

theorem IsTrimmed.trim_eq {text : List Char} (trimmed : IsTrimmed text) : trim text = text := by
  rw [trim, trimStart, dropWhile_eq_self trimmed.first, trimEnd, dropWhile_eq_self,
    List.reverse_reverse]
  rw [List.head?_reverse]
  exact trimmed.last

theorem trim_cons_blank {c : Char} (blank : isBlank c = true) (text : List Char) :
    trim (c :: text) = trim text := by
  rw [trim, trimStart, List.dropWhile_cons_of_pos blank, trim, trimStart]

/-- A text with something to see in it, followed by a blank. -/
theorem trim_append_blank {c : Char} (blank : isBlank c = true) {text : List Char}
    (visible : allBlank text = false) : trim (text ++ [c]) = trim text := by
  have inhabited : text.dropWhile isBlank ≠ [] := by
    intro empty
    rw [List.dropWhile_eq_nil_iff] at empty
    simp only [allBlank, Bool.eq_false_iff, ne_eq, List.all_eq_true] at visible
    exact visible empty
  have front : trimStart (text ++ [c]) = trimStart text ++ [c] := by
    rw [trimStart, trimStart, List.dropWhile_append]
    simp [inhabited]
  rw [trim, front, trim, trimEnd, trimEnd, List.reverse_append, List.reverse_singleton,
    List.singleton_append, List.dropWhile_cons_of_pos blank]

end FacetSearch.Text
