import FacetSearch.Proofs.Snippet.Matches

/-!
Choosing among spans that overlap. The spans that are chosen lie apart, and each one that is left
out overlaps a chosen one that comes before it (`IsSelection`). There is only one such choice
(`IsSelection.unique`), so it depends on the candidates alone, and neither on their order nor on how
often each of them was found.
-/

set_option autoImplicit false

namespace FacetSearch.Span

variable {span other : Span} {spans chosen again : List Span} {candidate : Span →
    Prop} {free : Nat}

/-- Whether two spans have a place in common. -/
def Overlaps (span other : Span) : Prop := span.start < other.stop ∧ other.start < span.stop

theorem precedes_iff : span.precedes other = true ↔
    span.start < other.start ∨ span.start = other.start ∧ span.stop ≤ other.stop := by
  simp [precedes]

theorem precedes_trans (span other third : Span) (first : span.precedes other = true)
    (second : other.precedes third = true) : span.precedes third = true := by
  rw [precedes_iff] at *
  omega

theorem precedes_total (span other : Span) :
    (span.precedes other || other.precedes span) = true := by
  rw [Bool.or_eq_true, precedes_iff, precedes_iff]
  omega

theorem eq_of_edges (start : span.start = other.start) (stop : span.stop = other.stop) :
    span = other := by
  cases span
  cases other
  cases start
  cases stop
  rfl

/-- A choice of candidates that gives way to earlier ones only. -/
structure IsSelection (candidate : Span → Prop) (chosen : List Span) : Prop where
  sound : ∀ span ∈ chosen, candidate span
  apart : chosen.Pairwise (fun span next => span.stop ≤ next.start)
  complete : ∀ span, candidate span → ∃ kept ∈ chosen, kept.precedes span = true ∧
    span.start < kept.stop

/-- What is left out of sorted spans begins inside a span that stays and comes before it. -/
theorem exists_of_mem_separate
    (sorted : spans.Pairwise (fun span next => span.precedes next = true))
    (inhabited : ∀ span ∈ spans, span.start < span.stop) (member : span ∈ spans)
    (late : free ≤ span.start) :
    ∃ kept ∈ separate free spans, kept.precedes span = true ∧ span.start < kept.stop := by
  fun_induction separate free spans with
  | case1 => cases member
  | case2 free first rest _ ih =>
      rcases List.mem_cons.mp member with rfl | behind
      · exact ⟨span, List.mem_cons_self, precedes_iff.mpr (by omega),
          inhabited span List.mem_cons_self⟩
      · by_cases inside : span.start < first.stop
        · exact ⟨first, List.mem_cons_self, List.rel_of_pairwise_cons sorted behind, inside⟩
        · obtain ⟨kept, stays, earlier, overlaps⟩ := ih sorted.of_cons
            (fun next later => inhabited next (List.mem_cons_of_mem first later)) behind (by omega)
          exact ⟨kept, List.mem_cons_of_mem first stays, earlier, overlaps⟩
  | case3 free first rest early ih =>
      have behind : span ∈ rest := by
        rcases List.mem_cons.mp member with rfl | behind
        · exact absurd late early
        · exact behind
      exact ih sorted.of_cons (fun next later =>
        inhabited next (List.mem_cons_of_mem first later)) behind late

/-- Sorting spans and dropping those that begin too early selects among them. -/
theorem isSelection_separate (inhabited : ∀ span ∈ spans, span.start < span.stop) :
    IsSelection (· ∈ spans) (separate 0 (spans.mergeSort precedes)) where
  sound span member := List.mem_mergeSort.mp ((separate_sublist _ _).subset member)
  apart := pairwise_separate _ _
  complete span member := by
    have sorted : (spans.mergeSort precedes).Pairwise (fun span next =>
        span.precedes next = true) :=
      List.pairwise_mergeSort precedes_trans precedes_total spans
    exact exists_of_mem_separate sorted (fun next found =>
      inhabited next (List.mem_mergeSort.mp found))
      (List.mem_mergeSort.mpr member) (Nat.zero_le _)

/-- What one selection chooses every other one chooses: the span that it would give way to would be
chosen here as well. -/
theorem IsSelection.mem_of_mem (inhabited : ∀ span, candidate span → span.start < span.stop)
    (here : IsSelection candidate chosen) (there : IsSelection candidate again)
    (member : span ∈ chosen) : span ∈ again := by
  induction edges : toLex (span.start, span.stop) using WellFoundedLT.induction
    generalizing span chosen again with
  | ind place ih =>
      have size := inhabited span (here.sound span member)
      obtain ⟨kept, stays, first, overlaps⟩ := there.complete span (here.sound span member)
      have earlier := precedes_iff.mp first
      by_cases same : kept.start = span.start ∧ kept.stop = span.stop
      · rwa [← eq_of_edges same.1 same.2]
      · have before : toLex (kept.start, kept.stop) < place := by
          rw [← edges, Prod.Lex.toLex_lt_toLex]
          omega
        have also : kept ∈ chosen := ih _ before there here stays rfl
        obtain rfl := Text.eq_of_overlap here.apart member also overlaps (by omega)
        exact stays

theorem IsSelection.unique (inhabited : ∀ span, candidate span → span.start < span.stop)
    (here : IsSelection candidate chosen) (there : IsSelection candidate again) :
    chosen = again := by
  have strict : ∀ {spans : List Span}, IsSelection candidate spans →
      spans.Pairwise (fun span next => span.start < next.start) := fun selection =>
    selection.apart.imp_of_mem fun first _ follows =>
      (inhabited _ (selection.sound _ first)).trans_le follows
  have : Std.Irrefl (fun span next : Span => span.start < next.start) :=
    ⟨fun _ => Nat.lt_irrefl _⟩
  have : Std.Antisymm (fun span next : Span => span.start < next.start) :=
    ⟨fun _ _ first second => absurd first (Nat.lt_asymm second)⟩
  exact (strict here).eq_of_mem_iff (strict there) fun span =>
    ⟨here.mem_of_mem inhabited there, there.mem_of_mem inhabited here⟩

end FacetSearch.Span
