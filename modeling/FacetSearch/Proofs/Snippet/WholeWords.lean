import FacetSearch.Proofs.Snippet.Passages
import FacetSearch.Proofs.Snippet.WordEdges

/-!
The passages of a snippet are made of whole words, and what divides them lies in matches
(`Snippet.cutFrom_wholeWords`). A passage ends where windows end, so its edges are no places inside
a word. Only windows that touch are joined, so each place of a passage lies in the window of one of
its matches (`Fragment.IsFilled`), where a divider can only be part of that match.
-/

set_option autoImplicit false

namespace FacetSearch

open Text

variable {around : Span → Span}

namespace Fragment

/-- Each place of a fragment lies in the window of one of its matches. -/
def IsFilled (around : Span → Span) (fragment : Fragment) : Prop :=
  ∀ place, fragment.window.start ≤ place → place < fragment.window.stop →
    ∃ hit ∈ fragment.hits, (around hit).start ≤ place ∧ place < (around hit).stop

theorem isFilled_single (around : Span → Span) (hit : Span) :
    IsFilled around ⟨around hit, [hit]⟩ :=
  fun _ lower upper => ⟨hit, List.mem_singleton_self hit, lower, upper⟩

/-- A window that touches a fragment leaves no gap. -/
theorem IsFilled.extend {fragment : Fragment} (filled : IsFilled around fragment) {hit : Span}
    (touching : fragment.window.touches (around hit) = true) :
    IsFilled around ⟨fragment.window.union (around hit), fragment.hits ++ [hit]⟩ := by
  intro place lower upper
  simp only [Span.touches, Bool.and_eq_true, decide_eq_true_eq] at touching
  simp only [Span.union] at lower upper
  by_cases own : fragment.window.start ≤ place ∧ place < fragment.window.stop
  · obtain ⟨old, member, inside⟩ := filled place own.1 own.2
    exact ⟨old, List.mem_append_left _ member, inside⟩
  · exact ⟨hit, by simp, by omega, by omega⟩

theorem isFilled_of_mem_ofHits {hits : List Span} {fragment : Fragment}
    (member : fragment ∈ ofHits around hits) : fragment.IsFilled around :=
  ofHits_induction (isFilled_single around) (fun _ _ filled touching =>
    filled.extend touching) member

end Fragment

/-- A divider in a window around a match is part of the match. -/
theorem Dividers.IsAround.inside_of_mem {dividers : Dividers} {text : List Char}
    {matched window : Span} (around : dividers.IsAround text matched window)
    (boundary : isBoundary text matched.stop = true) {place : Nat} {c : Char}
    (stands : Stands text place c) (divides : c ∈ dividers.chars)
    (lower : window.start ≤ place) (upper : place < window.stop) :
    matched.start ≤ place ∧ place + c.utf8Size ≤ matched.stop := by
  have first : matched.start ≤ place := by
    by_contra front
    have clear := around.clear_before place c stands lower (Nat.not_le.mp front)
    simp [divides] at clear
  have last : place < matched.stop := by
    by_contra back
    have clear := around.clear_behind place c stands (Nat.not_lt.mp back) upper
    simp [divides] at clear
  exact ⟨first, stands.next_le boundary last⟩

namespace Snippet

variable {style : SnippetStyle} {text : List Char} {terms : List String} {fragment : Fragment}

/-- The edges of a passage are edges of windows, which are no places inside a word. -/
theorem not_insideWord_window (plain : ∀ c ∈ style.dividers.chars, isAlphanumeric c = false)
    (member : fragment ∈ Fragment.ofHits (windowOf style text) (Span.ofTerms text terms)) :
    ¬ InsideWord text fragment.window.start ∧ ¬ InsideWord text fragment.window.stop := by
  obtain ⟨⟨first, -, start⟩, ⟨last, -, stop⟩, -⟩ := Fragment.isMade_of_mem_ofHits member
  rw [← start, ← stop]
  exact ⟨(Dividers.not_insideWord_windowAround plain text first.start first.stop style.padding).1,
    (Dividers.not_insideWord_windowAround plain text last.start last.stop style.padding).2⟩

/-- A divider in a passage is part of one of its matches. -/
theorem exists_hit_of_mem
    (member : fragment ∈ Fragment.ofHits (windowOf style text) (Span.ofTerms text terms))
    {place : Nat} {c : Char} (stands : Stands text place c)
    (divides : c ∈ style.dividers.chars) (lower : fragment.window.start ≤ place)
    (upper : place < fragment.window.stop) :
    ∃ hit ∈ fragment.hits, hit.start ≤ place ∧ place + c.utf8Size ≤ hit.stop := by
  obtain ⟨hit, own, opens, closes⟩ := Fragment.isFilled_of_mem_ofHits member place lower upper
  have found := mem_ofTerms_of_mem_hits member own
  exact ⟨hit, own, (isAround_windowOf style found).inside_of_mem
    (Span.isOnWords_of_mem_ofTerms found).isBoundary_stop stands divides opens closes⟩

/-- No word goes on across an edge of a passage of a snippet, and each divider in the passage is
part of a match in it. -/
theorem cutFrom_wholeWords (style : SnippetStyle) (text : String) (terms : List String)
    (plain : ∀ c ∈ style.dividers.chars, isAlphanumeric c = false) {snippet : Snippet}
    (cut : (cutFrom style text terms).result = some snippet) :
    ∀ window ∈ snippet.windows,
      ¬ InsideWord text.toList window.start ∧ ¬ InsideWord text.toList window.stop ∧
      ∀ place c, Stands text.toList place c → window.start ≤ place → place < window.stop →
        c ∈ style.dividers.chars →
          ∃ hit ∈ snippet.hits, window.contains hit = true ∧
            hit.start ≤ place ∧ place + c.utf8Size ≤ hit.stop := by
  obtain ⟨-, windows, hits⟩ := parts_of_result_eq_some cut
  rw [windows, hits, List.forall_mem_map]
  intro fragment kept
  have member : fragment ∈ Fragment.ofHits (windowOf style text.toList)
      (Span.ofTerms text.toList terms) :=
    List.mem_of_mem_take kept
  obtain ⟨opens, closes⟩ := not_insideWord_window plain member
  refine ⟨opens, closes, fun place c stands lower upper divides => ?_⟩
  obtain ⟨hit, own, inside⟩ := exists_hit_of_mem member stands divides lower upper
  refine ⟨hit, List.mem_flatMap.mpr ⟨fragment, kept, own⟩, ?_, inside⟩
  simpa [Span.contains] using window_contains member own

/-- Two windows that overlap, the first one around a match with a divider in it. -/
theorem cutFrom_wholeWords_phrase :
    let style : SnippetStyle := { padding := 4, dividers := .ofText "." }
    let text := "one. a b.c d two. e"
    let terms := ["b c", "two"]
    let window : Span := ⟨5, 16, by decide⟩
    let hits : List Span := [⟨7, 10, by decide⟩, ⟨13, 16, by decide⟩]
    (∀ c ∈ style.dividers.chars, isAlphanumeric c = false) ∧
      ∃ snippet, (cutFrom style text terms).result = some snippet ∧
        snippet.windows = [window] ∧
        snippet.hits = hits ∧ ¬ InsideWord text.toList window.start ∧
        ¬ InsideWord text.toList window.stop ∧
        ∀ place c, Stands text.toList place c → window.start ≤ place →
          place < window.stop → c ∈ style.dividers.chars →
            ∃ hit ∈ hits, window.contains hit = true ∧ hit.start ≤ place ∧
              place + c.utf8Size ≤ hit.stop := by
  intro style text terms window hits
  have plain : ∀ c ∈ style.dividers.chars, isAlphanumeric c = false := by
    intro c member
    obtain rfl : c = '.' := by simpa [style, Dividers.ofText] using member
    rfl
  have found : Span.ofTerms text.toList terms = hits := by cbv
  have gathered : fragments style text.toList terms = [⟨window, hits⟩] := by
    rw [fragments, found]
    decide +kernel
  have absent := result_eq_none_iff style text terms
  rw [found] at absent
  obtain ⟨snippet, cut⟩ := Option.ne_none_iff_exists'.mp (absent.not.mpr (List.cons_ne_nil _ _))
  obtain ⟨-, windows, all⟩ := parts_of_result_eq_some cut
  rw [gathered] at windows all
  have listed : snippet.hits = hits := by rw [all, List.flatMap_singleton]
  have whole :=
    cutFrom_wholeWords style text terms plain cut window (by rw [windows]; exact List.mem_cons_self)
  rw [listed] at whole
  exact ⟨plain, snippet, cut, windows, listed, whole⟩

end Snippet

end FacetSearch
