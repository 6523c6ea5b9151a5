import FacetSearch.Proofs.Snippet.Slices

/-!
The passages of a snippet. They lie on character boundaries, apart from each other and in order,
each with a match, and no match in front of the last passage is left out (`Snippet.cutFrom_spec`).
Cutting them never takes a part of the text that is none (`Snippet.cutFrom?_eq`), whatever the
dividers are.
-/

set_option autoImplicit false

namespace FacetSearch

open Text

namespace Snippet

variable (style : SnippetStyle) (text : List Char) (terms : List String)

/-- The window of a match. -/
def windowOf (hit : Span) : Span :=
  style.dividers.windowAround text hit.start hit.stop style.padding

variable {style text terms}

theorem isAround_windowOf (style : SnippetStyle) {hit : Span}
    (member : hit ∈ Span.ofTerms text terms) :
    style.dividers.IsAround text hit (windowOf style text hit) :=
  Dividers.isAround_windowAround _ (Span.isOnWords_of_mem_ofTerms member) style.padding

/-- The matches of terms are separable where dividers are no letters and digits. -/
theorem separable_ofTerms (plain : ∀ c ∈ style.dividers.chars, isAlphanumeric c = false) :
    Separable (windowOf style text) (Span.ofTerms text terms) where
  apart := Span.pairwise_ofTerms text terms
  start_le _ member := (isAround_windowOf style member).start_le
  le_stop _ member := (isAround_windowOf style member).le_stop
  stays _ firstIn _ hitIn _ nextIn ordered :=
    Dividers.windowAround_stop_lt _ style.padding (Span.isOnWords_of_mem_ofTerms firstIn)
      (Span.isOnWords_of_mem_ofTerms hitIn) (Span.isOnWords_of_mem_ofTerms nextIn) plain ordered

variable {fragment : Fragment}

theorem hits_sublist {fragments : List Fragment} (member : fragment ∈ fragments) :
    fragment.hits.Sublist (fragments.flatMap (·.hits)) :=
  List.sublist_flatten_of_mem (List.mem_map_of_mem member)

section Passage

variable (member : fragment ∈ Fragment.ofHits (windowOf style text) (Span.ofTerms text terms))

include member

theorem mem_ofTerms_of_mem_hits {hit : Span} (inside : hit ∈ fragment.hits) :
    hit ∈ Span.ofTerms text terms := by
  rw [← Fragment.flatMap_ofHits (windowOf style text) (Span.ofTerms text terms)]
  exact (hits_sublist member).subset inside

theorem isBounded_window : fragment.window.IsBounded text := by
  obtain ⟨⟨first, firstIn, start⟩, ⟨last, lastIn, stop⟩, _⟩ :=
    Fragment.isMade_of_mem_ofHits member
  refine ⟨?_, ?_⟩
  · rw [← start]
    exact (isAround_windowOf style (mem_ofTerms_of_mem_hits member firstIn)).boundary_start
  · rw [← stop]
    exact (isAround_windowOf style (mem_ofTerms_of_mem_hits member lastIn)).boundary_stop

/-- A passage holds its matches. -/
theorem window_contains {hit : Span} (inside : hit ∈ fragment.hits) :
    fragment.window.start ≤ hit.start ∧ hit.stop ≤ fragment.window.stop := by
  have made := Fragment.isMade_of_mem_ofHits member
  have around := isAround_windowOf style (mem_ofTerms_of_mem_hits member inside)
  exact ⟨(made.start_le hit inside).trans around.start_le,
    around.le_stop.trans (made.le_stop hit inside)⟩

theorem render?_eq (mark : List Char → List Char) :
    fragment.render? mark text = some (fragment.render mark text) := by
  have bounded := isBounded_window member
  have apart : fragment.hits.Pairwise (fun hit next => hit.stop ≤ next.start) := by
    refine (Span.pairwise_ofTerms text terms).sublist ?_
    have part := hits_sublist member
    rwa [Fragment.flatMap_ofHits] at part
  rw [Fragment.render?, Fragment.markFrom?_eq mark bounded.start bounded.stop
    fragment.window.ordered
    (fun hit inside =>
      (Span.isOnWords_of_mem_ofTerms (mem_ofTerms_of_mem_hits member inside)).isBounded)
    (fun hit inside => window_contains member inside) apart]
  rfl

end Passage

/-- The snippet of a text, cut with checked slices. -/
def cutFrom? (style : SnippetStyle) (text : String) (terms : List String) :
    Option (Option Snippet) := do
  let hits ← Span.ofTerms? text.toList terms
  let fragments ← Fragment.ofHits? (fun hit =>
    style.dividers.windowAround? text.toList hit.start hit.stop style.padding) hits
  match fragments.take (max 1 style.maxFragments) with
  | [] => return none
  | fragments =>
    let rendered ← fragments.mapM (·.render? (tagged style) text.toList)
    return some
      { text := String.ofList (ellipsis.intercalate rendered)
        windows := fragments.map (·.window)
        hits := fragments.flatMap (·.hits) }

theorem cutFrom?_eq (style : SnippetStyle) (text : String) (terms : List String) :
    cutFrom? style text terms = some (cutFrom style text terms).result := by
  have windows : (fun hit : Span =>
      style.dividers.windowAround? text.toList hit.start hit.stop style.padding)
      = fun hit => some (windowOf style text.toList hit) :=
    funext fun hit => Dividers.windowAround?_eq _ _ _ _ _
  have members : ∀ fragment ∈ fragments style text.toList terms,
      fragment ∈ Fragment.ofHits (windowOf style text.toList) (Span.ofTerms text.toList terms) :=
    fun _ inside => List.mem_of_mem_take inside
  have same : fragments style text.toList terms
      = (Fragment.ofHits (windowOf style text.toList) (Span.ofTerms text.toList terms)).take
          (max 1 style.maxFragments) := rfl
  simp only [cutFrom?, cutFrom, Span.ofTerms?_eq, windows, Fragment.ofHits?_eq, Option.bind_eq_bind,
    Option.bind_some, ← same]
  generalize fragments style text.toList terms = kept at members
  cases kept with
  | nil => rfl
  | cons fragment rest =>
      simp only [mapM_eq_some fun part inside => render?_eq (members part inside) (tagged style)]
      rfl

/-- What a snippet promises: its passages lie on character boundaries, apart and in order, as many
as allowed at most; its matches are the first ones of the text, each of them lies in one passage,
and each passage has one. -/
structure IsFaithful (style : SnippetStyle) (text : List Char) (terms : List String)
    (snippet : Snippet) : Prop where
  inhabited : 1 ≤ snippet.windows.length
  limited : snippet.windows.length ≤ max 1 style.maxFragments
  bounded : ∀ window ∈ snippet.windows, window.IsBounded text
  apart : snippet.windows.Pairwise (fun window next => window.stop < next.start)
  first : snippet.hits <+: Span.ofTerms text terms
  covered : ∀ hit ∈ snippet.hits, ∃! window, window ∈ snippet.windows ∧
    window.contains hit = true
  occupied : ∀ window ∈ snippet.windows, ∃ hit ∈ snippet.hits, window.contains hit = true
  complete : snippet.windows.length < style.maxFragments → snippet.hits = Span.ofTerms text terms

theorem result_eq_none_iff (style : SnippetStyle) (text : String) (terms : List String) :
    (cutFrom style text terms).result = none ↔ Span.ofTerms text.toList terms = [] := by
  rw [← Fragment.ofHits_eq_nil_iff (windowOf style text.toList)]
  have some_of_pos : fragments style text.toList terms = [] ↔
      Fragment.ofHits (windowOf style text.toList) (Span.ofTerms text.toList terms) = [] := by
    rw [fragments, List.take_eq_nil_iff]
    exact or_iff_right (by omega)
  rw [← some_of_pos, cutFrom]
  cases fragments style text.toList terms with
  | nil => exact iff_of_true rfl rfl
  | cons fragment rest => exact iff_of_false (fun absent => by cases absent) (by simp)

/-- A snippet shows the fragments kept. -/
theorem eq_of_result_eq_some {style : SnippetStyle} {text : String} {terms : List String}
    {snippet : Snippet} (cut : (cutFrom style text terms).result = some snippet) :
    fragments style text.toList terms ≠ [] ∧ snippet =
      { text := String.ofList (ellipsis.intercalate
          ((fragments style text.toList terms).map (·.render (tagged style) text.toList)))
        windows := (fragments style text.toList terms).map (·.window)
        hits := (fragments style text.toList terms).flatMap (·.hits) } := by
  unfold cutFrom at cut
  cases found : fragments style text.toList terms with
  | nil =>
      rw [found] at cut
      cases cut
  | cons fragment rest =>
      rw [found] at cut
      cases cut
      exact ⟨List.cons_ne_nil _ _, rfl⟩

/-- The windows and the matches of a snippet are those of the fragments kept. -/
theorem parts_of_result_eq_some {style : SnippetStyle} {text : String} {terms : List String}
    {snippet : Snippet} (cut : (cutFrom style text terms).result = some snippet) :
    fragments style text.toList terms ≠ [] ∧
      snippet.windows = (fragments style text.toList terms).map (·.window) ∧
      snippet.hits = (fragments style text.toList terms).flatMap (·.hits) := by
  obtain ⟨inhabited, rfl⟩ := eq_of_result_eq_some cut
  exact ⟨inhabited, rfl, rfl⟩

/-- Of windows that lie apart only one contains a match. -/
theorem eq_of_contains {windows : List Span} {hit window other : Span}
    (apart : windows.Pairwise (fun window next => window.stop < next.start))
    (here : window ∈ windows) (there : other ∈ windows) (contains : window.contains hit = true)
    (also : other.contains hit = true) : window = other := by
  simp only [Span.contains, Bool.and_eq_true, decide_eq_true_eq] at contains also
  have ordered := hit.ordered
  induction windows with
  | nil => cases here
  | cons first rest ih =>
      rcases List.mem_cons.mp here with rfl | behind <;>
        rcases List.mem_cons.mp there with rfl | later
      · rfl
      · have between := List.rel_of_pairwise_cons apart later
        omega
      · have between := List.rel_of_pairwise_cons apart behind
        omega
      · exact ih apart.of_cons behind later

theorem isFaithful_of_fragments {style : SnippetStyle} {text : List Char} {terms : List String}
    (plain : ∀ c ∈ style.dividers.chars, isAlphanumeric c = false) {snippet : Snippet}
    (inhabited : fragments style text terms ≠ [])
    (windows : snippet.windows = (fragments style text terms).map (·.window))
    (hits : snippet.hits = (fragments style text terms).flatMap (·.hits)) :
    snippet.IsFaithful style text terms := by
  have member : ∀ fragment ∈ fragments style text terms,
      fragment ∈ Fragment.ofHits (windowOf style text) (Span.ofTerms text terms) :=
    fun _ inside => List.mem_of_mem_take inside
  have apart : snippet.windows.Pairwise (fun window next => window.stop < next.start) := by
    rw [windows, List.pairwise_map]
    exact (Fragment.ofHits_apart (separable_ofTerms plain)).sublist (List.take_sublist _ _)
  have count : snippet.windows.length = min (max 1 style.maxFragments)
      (Fragment.ofHits (windowOf style text) (Span.ofTerms text terms)).length := by
    rw [windows, List.length_map]
    exact List.length_take
  have covered : ∀ hit ∈ snippet.hits, ∃ window ∈ snippet.windows,
      window.contains hit = true := by
    intro hit inside
    rw [hits, List.mem_flatMap] at inside
    obtain ⟨fragment, kept, own⟩ := inside
    refine ⟨fragment.window, by rw [windows]; exact List.mem_map_of_mem kept, ?_⟩
    simpa [Span.contains] using window_contains (member fragment kept) own
  refine ⟨?_, ?_, ?_, apart, ?_, ?_, ?_, ?_⟩
  · rw [windows, List.length_map]
    exact List.length_pos_iff.mpr inhabited
  · rw [count]
    exact Nat.min_le_left _ _
  · rw [windows, List.forall_mem_map]
    exact fun fragment kept => isBounded_window (member fragment kept)
  · rw [hits]
    have whole := Fragment.flatMap_ofHits (windowOf style text) (Span.ofTerms text terms)
    conv_rhs => rw [← whole]
    exact (List.take_prefix _ _).flatMap _
  · intro hit inside
    obtain ⟨window, listed, contains⟩ := covered hit inside
    exact ⟨window, ⟨listed, contains⟩,
      fun other also => eq_of_contains apart also.1 listed also.2 contains⟩
  · intro window listed
    rw [windows, List.mem_map] at listed
    obtain ⟨fragment, kept, rfl⟩ := listed
    obtain ⟨hit, own, _⟩ := (Fragment.isMade_of_mem_ofHits (member fragment kept)).start_mem
    refine ⟨hit, by rw [hits]; exact List.mem_flatMap.mpr ⟨fragment, kept, own⟩, ?_⟩
    simpa [Span.contains] using window_contains (member fragment kept) own
  · intro fewer
    have all : fragments style text terms
        = Fragment.ofHits (windowOf style text) (Span.ofTerms text terms) := by
      have enough : (Fragment.ofHits (windowOf style text) (Span.ofTerms text terms)).length
          ≤ max 1 style.maxFragments := by omega
      exact List.take_of_length_le enough
    rw [hits, all, Fragment.flatMap_ofHits]

/-- A snippet is cut without taking a part of the text that is none, it is there exactly if there is
a match, and it keeps what it promises. -/
theorem cutFrom_spec (style : SnippetStyle) (text : String) (terms : List String)
    (plain : ∀ c ∈ style.dividers.chars, isAlphanumeric c = false) :
    cutFrom? style text terms = some (cutFrom style text terms).result ∧
      ((cutFrom style text terms).result = none ↔ Span.ofTerms text.toList terms = []) ∧
      ∀ snippet, (cutFrom style text terms).result = some snippet →
        snippet.IsFaithful style text.toList terms := by
  refine ⟨cutFrom?_eq style text terms, result_eq_none_iff style text terms,
    fun snippet cut => ?_⟩
  obtain ⟨inhabited, windows, hits⟩ := parts_of_result_eq_some cut
  exact isFaithful_of_fragments plain inhabited windows hits

/-- The window of the third word begins in front of the window of the second one, in the gap behind
the divider. -/
theorem cutFrom_spec_reaching :
    let style : SnippetStyle := { padding := 4, dividers := .ofText "." }
    let text := "one.   a b"
    let terms := ["one", "a", "b"]
    (windowOf style text.toList ⟨9, 10, by decide⟩).start = 5 ∧
      (windowOf style text.toList ⟨7, 8, by decide⟩).start = 7 ∧
      (∀ c ∈ style.dividers.chars, isAlphanumeric c = false) ∧
      ∃ snippet, (cutFrom style text terms).result = some snippet ∧
        snippet.windows = [⟨0, 3, by decide⟩, ⟨5, 10, by decide⟩] ∧
        snippet.hits = [⟨0, 3, by decide⟩, ⟨7, 8, by decide⟩, ⟨9, 10, by decide⟩] ∧
        snippet.IsFaithful style text.toList terms := by
  intro style text terms
  have plain : ∀ c ∈ style.dividers.chars, isAlphanumeric c = false := by
    intro c member
    obtain rfl : c = '.' := by simpa [style, Dividers.ofText] using member
    rfl
  have found : Span.ofTerms text.toList terms
      = [⟨0, 3, by decide⟩, ⟨7, 8, by decide⟩, ⟨9, 10, by decide⟩] := by cbv
  have gathered : fragments style text.toList terms
      = [⟨⟨0, 3, by decide⟩, [⟨0, 3, by decide⟩]⟩,
        ⟨⟨5, 10, by decide⟩, [⟨7, 8, by decide⟩, ⟨9, 10, by decide⟩]⟩] := by
    rw [fragments, found]
    decide +kernel
  obtain ⟨_, absent, faithful⟩ := cutFrom_spec style text terms plain
  rw [found] at absent
  obtain ⟨snippet, cut⟩ := Option.ne_none_iff_exists'.mp (absent.not.mpr (List.cons_ne_nil _ _))
  obtain ⟨_, windows, hits⟩ := parts_of_result_eq_some cut
  rw [gathered] at windows hits
  exact ⟨by decide +kernel, by decide +kernel, plain, snippet, cut, windows, hits,
    faithful snippet cut⟩

end Snippet

end FacetSearch
