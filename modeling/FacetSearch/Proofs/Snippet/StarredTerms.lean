import FacetSearch.Proofs.Snippet.Occurrences
import FacetSearch.Proofs.Text.LowerCase

/-!
Terms of one beginning of a word and a star. Such a term occurs at the words whose lower case begins
with its own (`occursAt_starred_iff`). The beginning is put in lower case on its own, so it can
become something else than it is in the word: a word is found by a beginning of it exactly if the
cut between the beginning and the rest does not make a capital sigma final
(`covers_iff_not_cutsSigma`).
-/

set_option autoImplicit false

namespace FacetSearch

open Text

variable {text front back : List Char} {span : Span} {offset : Nat}

/-- The term of a beginning of a word: it and a star. -/
def Term.starred (front : List Char) : String := String.ofList (front ++ ['*'])

namespace Term

theorem fits_singleton_iff {starred : Prop} {wanted : List Char} {found : List (List Char)} :
    Fits starred [wanted] found ↔ ∃ word, found = [word] ∧
      (word = wanted ∨ starred ∧ wanted <+: word) := by
  constructor
  · rintro (⟨same⟩ | ⟨more⟩)
    · exact ⟨_, rfl, same⟩
    · exact absurd rfl more.ne_nil.1
  · rintro ⟨word, rfl, same⟩
    exact .last same

/-- A beginning of a word and a star are read as that beginning, and as starred. -/
theorem ofText?_starred (inhabited : front ≠ [])
    (kept : ∀ c ∈ front, isAlphanumeric c = true) :
    ofText? (starred front) = some ⟨[lowerCase front], true⟩ := by
  have star : ∀ c ∈ ['*'], isAlphanumeric c = false := List.forall_mem_singleton.mpr rfl
  refine ofText?_eq_some_iff.mpr ⟨[front], List.cons_ne_nil _ _, ?_, rfl, iff_of_true rfl ?_⟩
  · rw [readsAs_iff, starred, String.toList_ofList,
      runs_append (apart_of_head? fun c first => star c (List.mem_of_head? first)),
      runs_of_kept inhabited kept, runs_eq_nil_iff.mpr star, List.append_nil]
  · exact ⟨front, [], [], String.toList_ofList, by simp, by simp⟩

/-- A starred beginning of a word occurs at the words that begin with it in lower case. -/
theorem occursAt_starred_iff (inhabited : front ≠ [])
    (kept : ∀ c ∈ front, isAlphanumeric c = true) :
    OccursAt text (starred front) span ↔ ∃ word, IsRun isAlphanumeric text span.start word ∧
      span.start + byteLength word = span.stop ∧ lowerCase front <+: lowerCase word := by
  rw [occursAt_iff, ofText?_starred inhabited kept]
  simp only [Option.some.injEq, exists_eq_left', mem_occurrences_iff, fits_singleton_iff, true_and]
  constructor
  · rintro ⟨before, middle, behind, whole, frames, lower, same, begins⟩
    rw [List.map_map, List.map_eq_singleton_iff] at same
    obtain ⟨⟨start, word⟩, rfl, rfl⟩ := same
    obtain ⟨_, head⟩ := frames.head
    obtain ⟨_, _, last, stop⟩ := frames.last
    obtain ⟨rfl, rfl⟩ : start = span.start ∧ _ := by simpa using head
    obtain ⟨rfl, rfl⟩ : span.start = _ ∧ word = _ := by simpa using last
    have run : (span.start, word) ∈ runsAt isAlphanumeric 0 text := by
      rw [whole]
      simp
    refine ⟨word, mem_runsAt_iff.mp run, stop, ?_⟩
    rw [Function.comp_apply] at begins
    rcases begins with same | begins
    · rw [same]
    · exact begins
  · rintro ⟨word, run, stop, begins⟩
    obtain ⟨before, behind, whole⟩ := List.append_of_mem (mem_runsAt_iff.mpr run)
    exact ⟨before, [(span.start, word)], behind, by simpa using whole,
      ⟨⟨word, rfl⟩, _, word, rfl, stop⟩, _, rfl, .inr begins⟩

end Term

namespace Span

/-- A term that is a beginning of a word of a text and a star finds the word exactly if cutting the
word behind the beginning does not make a capital sigma final. -/
theorem covers_iff_not_cutsSigma (run : IsRun isAlphanumeric text offset (front ++ back))
    (inhabited : front ≠ []) :
    (∃ span ∈ ofTerms text [Term.starred front],
        span.start ≤ offset ∧ offset + byteLength (front ++ back) ≤ span.stop) ↔
      ¬ CutsSigma [] front back := by
  have kept : ∀ c ∈ front, isAlphanumeric c = true := fun c member =>
    run.kept c (List.mem_append_left back member)
  have bytes := byteLength_pos run.inhabited
  have occurs : ∀ span, (∃ term ∈ [Term.starred front], Term.OccursAt text term span) ↔
      ∃ word, IsRun isAlphanumeric text span.start word ∧
        span.start + byteLength word = span.stop ∧
        lowerCase front <+: lowerCase word := by
    intro span
    simp only [List.mem_singleton, exists_eq_left, Term.occursAt_starred_iff inhabited kept]
  have selection := isSelection_ofTerms text [Term.starred front]
  rw [← lowerAfter_prefix_iff]
  constructor
  · rintro ⟨span, chosen, opens, closes⟩
    obtain ⟨word, other, stop, begins⟩ := (occurs span).mp (selection.sound span chosen)
    obtain ⟨-, rfl⟩ := run.eq_of_overlap other (by omega) (by omega)
    exact begins
  · intro begins
    -- The word is an occurrence. What is chosen in its place overlaps it and is a run as well: the
    -- word itself.
    obtain ⟨span, chosen, first, overlaps⟩ := selection.complete
      ⟨offset, offset + byteLength (front ++ back), Nat.le_add_right _ _⟩
      ((occurs _).mpr ⟨front ++ back, run, rfl, begins⟩)
    obtain ⟨word, other, stop, -⟩ := (occurs span).mp (selection.sound span chosen)
    have earlier : span.start ≤ offset := by
      rw [precedes_iff] at first
      simp only at first
      omega
    obtain ⟨same, rfl⟩ := run.eq_of_overlap other (by rwa [stop]) (by omega)
    exact ⟨span, chosen, earlier, by omega⟩

/-- A word in capitals is found by a beginning of it in which sigmas stand, but none at the cut. -/
theorem covers_iff_not_cutsSigma_inside :
    let text := "ὁ ΟΔΥΣΣΕΥΣ"
    let front := "ΟΔΥΣΣΕ".toList
    let back := "ΥΣ".toList
    (IsRun isAlphanumeric text.toList 4 (front ++ back) ∧ front ≠ []) ∧
      ¬ CutsSigma [] front back ∧ ∃ span ∈ ofTerms text.toList [Term.starred front],
        span.start ≤ 4 ∧ 4 + byteLength (front ++ back) ≤ span.stop := by
  intro text front back
  have run : IsRun isAlphanumeric text.toList 4 (front ++ back) :=
    mem_runsAt_iff.mp (by decide +kernel)
  have inhabited : front ≠ [] := by decide
  have apart : ¬ CutsSigma [] front back := (lowerAfter_prefix_iff _ _ _).mp (by decide +kernel)
  exact ⟨⟨run, inhabited⟩, apart, (covers_iff_not_cutsSigma run inhabited).mpr apart⟩

/-- A word in capitals is not found by a beginning of it that ends between two of its sigmas. -/
theorem covers_beginning_fails :
    let text := "ΟΔΥΣΣΕΥΣ"
    let front := "ΟΔΥΣ".toList
    let back := "ΣΕΥΣ".toList
    IsRun isAlphanumeric text.toList 0 (front ++ back) ∧ front ≠ [] ∧
      ¬ ∃ span ∈ ofTerms text.toList [Term.starred front],
        span.start ≤ 0 ∧ byteLength (front ++ back) ≤ span.stop := by
  intro text front back
  have words : PlacedWord.ofText text.toList
      = [⟨⟨0, 16, by decide⟩, "οδυσσευς".toList⟩] := by
    decide +kernel
  have read : Term.ofText? (Term.starred front) = some ⟨["οδυς".toList], true⟩ := by
    decide +kernel
  have none : ofTerms text.toList [Term.starred front] = [] := by
    rw [ofTerms, words, List.filterMap_cons_some read]
    decide +kernel
  refine ⟨mem_runsAt_iff.mp (by decide +kernel), by decide, ?_⟩
  rw [none]
  simp

end Span

end FacetSearch
