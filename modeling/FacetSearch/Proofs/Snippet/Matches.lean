import FacetSearch.Proofs.Text.Runs
import FacetSearch.Proofs.Snippet.Window
import FacetSearch.Snippet.Match

/-!
The matches of search terms. They begin with a word of the text and end with one
(`isOnWords_of_mem_ofTerms`), and none of them begins before the one in front of it ends
(`pairwise_ofTerms`).
-/

set_option autoImplicit false

namespace FacetSearch

open Text

namespace PlacedWord

/-- A word stands on words, and behind it the other words follow. -/
theorem isOnWords_of_mem_ofText {text : List Char} {word : PlacedWord}
    (member : word ∈ ofText text) : word.span.IsOnWords text := by
  obtain ⟨run, found, rfl⟩ := List.mem_map.mp member
  obtain ⟨front, back, whole, size, inhabited, kept, -⟩ := exists_parts_of_mem_runsAt found
  rw [Nat.zero_add] at size
  refine ⟨⟨run.2.head inhabited, ⟨front, run.2.tail ++ back, ?_, size.symm⟩,
    kept _ (List.head_mem inhabited)⟩, byteLength (front ++ run.2.dropLast),
      run.2.getLast inhabited,
    ⟨front ++ run.2.dropLast, back, ?_, rfl⟩, kept _ (List.getLast_mem inhabited), ?_⟩
  · rw [← List.cons_append, List.cons_head_tail, ← List.append_assoc, whole]
  · rw [List.append_cons, List.append_assoc front, List.dropLast_concat_getLast, whole]
  · have last := congrArg byteLength (List.dropLast_concat_getLast inhabited)
    rw [byteLength_append, byteLength_cons, byteLength_nil, Nat.add_zero] at last
    rw [byteLength_append, Nat.add_assoc, last, ← size]

theorem pairwise_ofText (text : List Char) :
    (ofText text).Pairwise (fun word next => word.span.stop ≤ next.span.start) := by
  rw [ofText, List.pairwise_map]
  exact pairwise_runsAt 0 text

end PlacedWord

namespace Term

variable {term : Term} {text : List Char}

/-- A match ends with one of the words that it covers. -/
theorem exists_last_of_stop? {openEnded : Bool} {wanted : List (List Char)}
    {words : List PlacedWord} {stop : Nat} (found : stop? openEnded wanted words = some stop) :
    ∃ last ∈ words, last.span.stop = stop := by
  fun_induction stop? openEnded wanted words with
  | case1 | case2 | case4 | case6 => cases found
  | case3 wanted word rest _ => exact ⟨word, by simp, by simpa using found⟩
  | case5 others word rest _ ih =>
      obtain ⟨last, member, same⟩ := ih found
      exact ⟨last, List.mem_cons_of_mem _ member, same⟩

theorem isOnWords_of_mem_occurrences {words : List PlacedWord} {span : Span}
    (stand : ∀ word ∈ words, word.span.IsOnWords text)
    (apart : words.Pairwise (fun word next => word.span.stop ≤ next.span.start))
    (member : span ∈ term.occurrences words) : span.IsOnWords text := by
  induction words with
  | nil => cases member
  | cons word rest ih =>
      rw [occurrences, List.mem_append] at member
      rcases member with here | later
      · simp only [Option.mem_toList, Option.map_eq_some_iff] at here
        obtain ⟨stop, found, rfl⟩ := here
        obtain ⟨last, member, rfl⟩ := exists_last_of_stop? found
        have ordered : word.span.start ≤ last.span.stop := by
          have first := word.span.ordered
          have final := last.span.ordered
          rcases List.mem_cons.mp member with rfl | behind
          · exact first
          · have follows := List.rel_of_pairwise_cons apart behind
            omega
        obtain ⟨opens, _⟩ := stand word (by simp)
        obtain ⟨_, closes⟩ := stand last member
        have start : (Span.between word.span.start last.span.stop).start = word.span.start :=
          Nat.min_eq_left ordered
        have stop : (Span.between word.span.start last.span.stop).stop = last.span.stop :=
          Nat.max_eq_right ordered
        exact ⟨by rwa [start], by rwa [stop]⟩
      · exact ih (fun word inside => stand word (by simp [inside])) apart.of_cons later

end Term

namespace Span

variable {text : List Char} {terms : List String} {span : Span}

theorem separate_sublist (free : Nat) (spans : List Span) :
    (separate free spans).Sublist spans := by
  fun_induction separate free spans with
  | case1 => exact .slnil
  | case2 free span rest _ ih => exact ih.cons_cons span
  | case3 free span rest _ ih => exact ih.cons span

theorem le_start_of_mem_separate {free : Nat} {spans : List Span}
    (member : span ∈ separate free spans) : free ≤ span.start := by
  fun_induction separate free spans with
  | case1 => cases member
  | case2 free first rest fits ih =>
      rcases List.mem_cons.mp member with rfl | later
      · exact fits
      · have ordered := first.ordered
        have behind := ih later
        omega
  | case3 free first rest _ ih => exact ih member

theorem pairwise_separate (free : Nat) (spans : List Span) :
    (separate free spans).Pairwise (fun span next => span.stop ≤ next.start) := by
  fun_induction separate free spans with
  | case1 => exact .nil
  | case2 free span rest _ ih => exact .cons (fun next later => le_start_of_mem_separate later) ih
  | case3 free span rest _ ih => exact ih

theorem isOnWords_of_mem_ofTerms (member : span ∈ ofTerms text terms) : span.IsOnWords text := by
  have found := (separate_sublist _ _).subset member
  rw [List.mem_mergeSort, List.mem_flatMap] at found
  obtain ⟨term, _, occurs⟩ := found
  exact Term.isOnWords_of_mem_occurrences (fun _ => PlacedWord.isOnWords_of_mem_ofText)
    (PlacedWord.pairwise_ofText text) occurs

theorem pairwise_ofTerms (text : List Char) (terms : List String) :
    (ofTerms text terms).Pairwise (fun span next => span.stop ≤ next.start) :=
  pairwise_separate _ _

end Span

end FacetSearch
