import FacetSearch.Proofs.Snippet.Matches
import FacetSearch.Snippet.Fragment

/-!
Fragments. A window is joined to the last fragment only, and it can reach back in front of the start
of that fragment; that it does not reach the fragments before it comes from the windows' order
(`Separable`). A fragment is made of its windows (`Fragment.IsMade`), so what holds of the windows'
edges holds of its own.
-/

set_option autoImplicit false

namespace FacetSearch

open Text

variable {around : Span → Span}

/-- Matches one after another, inside their windows; a window that ends before the window of a match
begins ends before the windows of all later matches begin. -/
structure Separable (around : Span → Span) (hits : List Span) : Prop where
  apart : hits.Pairwise (fun hit next => hit.stop ≤ next.start)
  start_le : ∀ hit ∈ hits, (around hit).start ≤ hit.start
  le_stop : ∀ hit ∈ hits, hit.stop ≤ (around hit).stop
  stays : ∀ first ∈ hits, ∀ hit ∈ hits, ∀ next ∈ hits, hit.stop ≤ next.start →
    (around first).stop < (around hit).start → (around first).stop < (around next).start

namespace Fragment

/-- A fragment goes from the start of a window of its matches to the end of one, and covers all. -/
structure IsMade (around : Span → Span) (fragment : Fragment) : Prop where
  start_mem : ∃ hit ∈ fragment.hits, (around hit).start = fragment.window.start
  stop_mem : ∃ hit ∈ fragment.hits, (around hit).stop = fragment.window.stop
  start_le : ∀ hit ∈ fragment.hits, fragment.window.start ≤ (around hit).start
  le_stop : ∀ hit ∈ fragment.hits, (around hit).stop ≤ fragment.window.stop

theorem isMade_single (around : Span → Span) (hit : Span) :
    IsMade around ⟨around hit, [hit]⟩ :=
  ⟨⟨hit, by simp, rfl⟩, ⟨hit, by simp, rfl⟩, by simp, by simp⟩

/-- A fragment that a window extends is made of its windows and that one. -/
theorem IsMade.extend {fragment : Fragment} (made : IsMade around fragment) (hit : Span) :
    IsMade around ⟨fragment.window.union (around hit), fragment.hits ++ [hit]⟩ := by
  obtain ⟨⟨first, firstIn, start⟩, ⟨last, lastIn, stop⟩, low, high⟩ := made
  refine ⟨?_, ?_, ?_, ?_⟩
  · rcases Nat.le_total fragment.window.start (around hit).start with own | further
    · exact ⟨first, by simp [firstIn], by simp [Span.union, start, own]⟩
    · exact ⟨hit, by simp, by simp [Span.union, further]⟩
  · rcases Nat.le_total fragment.window.stop (around hit).stop with further | own
    · exact ⟨hit, by simp, by simp [Span.union, further]⟩
    · exact ⟨last, by simp [lastIn], by simp [Span.union, stop, own]⟩
  · intro span member
    simp only [List.mem_append, List.mem_singleton] at member
    rcases member with old | rfl
    · exact (Nat.min_le_left _ _).trans (low span old)
    · exact Nat.min_le_right _ _
  · intro span member
    simp only [List.mem_append, List.mem_singleton] at member
    rcases member with old | rfl
    · exact (high span old).trans (Nat.le_max_left _ _)
    · exact Nat.le_max_right _ _

theorem flatMap_gather (current : Fragment) (rest : List Span) :
    (gather around current rest).flatMap (·.hits) = current.hits ++ rest := by
  induction rest generalizing current with
  | nil => simp [gather]
  | cons hit rest ih =>
      simp only [gather]
      split
      · rw [ih, List.append_assoc, List.singleton_append]
      · rw [List.flatMap_cons, ih, List.singleton_append]

/-- What holds of a fragment of one match, and stays when a window that touches it extends it, holds
of all fragments that are gathered. -/
theorem gather_induction {motive : Fragment → Prop}
    (single : ∀ hit, motive ⟨around hit, [hit]⟩)
    (extend : ∀ fragment hit, motive fragment → fragment.window.touches (around hit) = true →
      motive ⟨fragment.window.union (around hit), fragment.hits ++ [hit]⟩)
    {current : Fragment} (holds : motive current) (rest : List Span) :
    ∀ fragment ∈ gather around current rest, motive fragment := by
  induction rest generalizing current with
  | nil => simpa [gather] using holds
  | cons hit rest ih =>
      simp only [gather]
      split
      · rename_i touching
        exact ih (extend current hit holds touching)
      · rw [List.forall_mem_cons]
        exact ⟨holds, ih (single hit)⟩

/-- Where a fragment does not touch the window of the next match, it ends before that window. -/
theorem stop_lt_of_not_touches {current : Fragment} {hit : Span} (made : IsMade around current)
    (start_le : ∀ first ∈ current.hits, (around first).start ≤ first.start)
    (before : ∀ first ∈ current.hits, first.stop ≤ hit.start)
    (le_stop : hit.stop ≤ (around hit).stop)
    (apart : ¬ current.window.touches (around hit) = true) :
    current.window.stop < (around hit).start := by
  obtain ⟨first, member, start⟩ := made.start_mem
  have opens := start_le first member
  have follows := before first member
  have inside := first.ordered
  have ordered := hit.ordered
  simp only [Span.touches, Bool.and_eq_true, decide_eq_true_eq] at apart
  omega

/-- The fragments that are gathered begin behind all windows of earlier matches that end before the
fragment at hand begins, and one behind the other. -/
theorem gather_apart (earlier : List Span) {current : Fragment} (made : IsMade around current)
    (rest : List Span) (separable : Separable around (earlier ++ current.hits ++ rest))
    (behind : ∀ first ∈ earlier, (around first).stop < current.window.start) :
    (∀ fragment ∈ gather around current rest, ∀ first ∈ earlier,
        (around first).stop < fragment.window.start) ∧
      (gather around current rest).Pairwise
        (fun fragment next => fragment.window.stop < next.window.start) := by
  induction rest generalizing earlier current with
  | nil => exact ⟨by simpa [gather] using behind, by simp [gather]⟩
  | cons hit rest ih =>
      have before : ∀ first ∈ current.hits, first.stop ≤ hit.start := by
        intro first member
        exact List.pairwise_append.mp separable.apart |>.2.2 first (by simp [member]) hit (by simp)
      simp only [gather]
      by_cases touching : current.window.touches (around hit) = true
      · rw [if_pos touching]
        refine ih earlier (made.extend hit) (by simpa using separable) ?_
        intro first member
        obtain ⟨opening, inside, start⟩ := made.start_mem
        have own := behind first member
        -- The fragment's start is a window's start, so the new window stays behind the earlier
        -- ones.
        have reaches :=
          separable.stays first (by simp [member]) opening (by simp [inside]) hit (by simp)
          (before opening inside) (by rwa [start])
        exact Nat.lt_min.mpr ⟨own, reaches⟩
      · rw [if_neg touching]
        have gap := stop_lt_of_not_touches made
          (fun first member => separable.start_le first (by simp [member])) before
          (separable.le_stop hit (by simp)) touching
        have within := current.window.ordered
        have reaches : ∀ first ∈ earlier ++ current.hits,
            (around first).stop < (around hit).start := by
          intro first member
          rcases List.mem_append.mp member with old | own
          · have := behind first old
            omega
          · have := made.le_stop first own
            omega
        obtain ⟨far, pairs⟩ := ih (earlier ++ current.hits) (isMade_single around hit)
          (by simpa using separable) reaches
        obtain ⟨last, member, stop⟩ := made.stop_mem
        refine ⟨?_, .cons (fun fragment later => ?_) pairs⟩
        · rw [List.forall_mem_cons]
          exact ⟨behind, fun fragment later first old =>
            far fragment later first (by simp [old])⟩
        · rw [← stop]
          exact far fragment later last (by simp [member])

theorem flatMap_ofHits (around : Span → Span) (hits : List Span) :
    (ofHits around hits).flatMap (·.hits) = hits := by
  cases hits with
  | nil => rfl
  | cons hit rest => exact flatMap_gather _ rest

theorem ofHits_induction {motive : Fragment → Prop}
    (single : ∀ hit, motive ⟨around hit, [hit]⟩)
    (extend : ∀ fragment hit, motive fragment → fragment.window.touches (around hit) = true →
      motive ⟨fragment.window.union (around hit), fragment.hits ++ [hit]⟩)
    {hits : List Span} {fragment : Fragment} (member : fragment ∈ ofHits around hits) :
    motive fragment := by
  cases hits with
  | nil => cases member
  | cons hit rest => exact gather_induction single extend (single hit) rest fragment member

theorem isMade_of_mem_ofHits {hits : List Span} {fragment : Fragment}
    (member : fragment ∈ ofHits around hits) : fragment.IsMade around :=
  ofHits_induction (isMade_single around) (fun _ hit made _ => made.extend hit) member

/-- The fragments of separable matches lie apart. -/
theorem ofHits_apart {hits : List Span} (separable : Separable around hits) :
    (ofHits around hits).Pairwise
    (fun fragment next => fragment.window.stop < next.window.start) := by
  cases hits with
  | nil => exact .nil
  | cons hit rest =>
      exact (gather_apart [] (isMade_single around hit) rest (by simpa using separable) (by simp)).2

theorem ofHits_eq_nil_iff (around : Span → Span) {hits : List Span} :
    ofHits around hits = [] ↔ hits = [] := by
  constructor
  · intro absent
    rw [← flatMap_ofHits around hits, absent, List.flatMap_nil]
  · rintro rfl
    rfl

end Fragment

end FacetSearch
