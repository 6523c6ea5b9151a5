import FacetSearch.CommandLine.Outcome
import FacetSearch.Proofs.Snippet.Occurrences
import FacetSearch.Proofs.Snippet.Passages

/-!
The two renderings of a snippet. Both put marks around matches: the snippet's text goes through the
matches of each passage by their places in the text, the terminal takes the matches that its window
contains, by their places in the window, and passes over those it cannot mark. Both give the text of
the window with marks at the edges of its matches and nothing else changed (`markedAt`), and none is
passed over (`Snippet.cutFrom_renderings`).
-/

set_option autoImplicit false

namespace FacetSearch

open Text

namespace Text

variable {text : List Char} {start stop place next : Nat}

/-- A boundary in a slice cuts it into the slices in front of it and behind it. -/
theorem cut_slice (first : isBoundary text start = true) (last : isBoundary text stop = true)
    (inside : isBoundary text place = true) (lower : start ≤ place) (upper : place ≤ stop) :
    cut (place - start) (slice text start stop)
      = (slice text start place, slice text place stop) := by
  obtain ⟨front, left, rest, whole, rfl, leftStop, leftSlice⟩ :=
    exists_middle first inside lower
  obtain ⟨other, right, back, rfl, size, rightStop, rightSlice⟩ :=
    exists_middle inside last upper
  have here := cut_byteLength (front ++ left) rest
  have there := cut_byteLength other (right ++ back)
  rw [← whole, leftStop, ← size, List.append_assoc, there] at here
  obtain ⟨rfl, rfl⟩ := Prod.mk.inj here
  have middle := slice_append front (left ++ right) back
  rw [← List.append_assoc, rightStop] at middle
  have width : place - byteLength front = byteLength left := by
    rw [← leftStop, byteLength_append, Nat.add_sub_cancel_left]
  rw [leftSlice, rightSlice, middle, width, cut_byteLength]

theorem slice_append_slice (first : isBoundary text start = true)
    (last : isBoundary text stop = true) (inside : isBoundary text place = true)
    (lower : start ≤ place) (upper : place ≤ stop) :
    slice text start place ++ slice text place stop = slice text start stop := by
  have parts := cut_append (place - start) (slice text start stop)
  rwa [cut_slice first last inside lower upper] at parts

theorem byteLength_slice (first : isBoundary text start = true) (last : isBoundary text stop = true)
    (ordered : start ≤ stop) : start + byteLength (slice text start stop) = stop := by
  obtain ⟨front, middle, back, rfl, rfl, rfl, sliced⟩ := exists_middle first last ordered
  rw [sliced, byteLength_append]

/-- A boundary of a text is one of a slice that it lies in. -/
theorem isBoundary_slice (first : isBoundary text start = true) (last : isBoundary text stop = true)
    (inside : isBoundary text place = true) (lower : start ≤ place) (upper : place ≤ stop) :
    isBoundary (slice text start stop) (place - start) = true := by
  refine isBoundary_iff.mpr ⟨_, _, (slice_append_slice first last inside lower upper).symm, ?_⟩
  have size := byteLength_slice first inside lower
  omega

theorem slice_slice (first : isBoundary text start = true) (last : isBoundary text stop = true)
    (here : isBoundary text place = true) (there : isBoundary text next = true)
    (lower : start ≤ place) (ordered : place ≤ next) (upper : next ≤ stop) :
    slice (slice text start stop) (place - start) (next - start) = slice text place next := by
  rw [slice, cut_slice first last there (lower.trans ordered) upper,
    cut_slice first there here lower ordered]

end Text

section Marks

variable {opening closing text front back : List Char} {hit : Span} {hits : List Span}
  {place start stop : Nat}

/-- The marks at a place: one for a match that ends there, then one for a match that begins
there. -/
def marksAt (opening closing : List Char) (hits : List Span) (place : Nat) : List Char :=
  (if hits.any (·.stop == place) then closing else [])
    ++ (if hits.any (·.start == place) then opening else [])

/-- A part of a text that stands at a place, with marks at the edges of matches. -/
def markedAt (opening closing : List Char) (hits : List Span) (place : Nat) :
    List Char → List Char
  | [] => marksAt opening closing hits place
  | c :: rest =>
    marksAt opening closing hits place ++ c :: markedAt opening closing hits
      (place + c.utf8Size) rest

/-- No match begins or ends at a place. -/
def Quiet (hits : List Span) (place : Nat) : Prop :=
  ∀ hit ∈ hits, hit.start ≠ place ∧ hit.stop ≠ place

theorem Quiet.marksAt_eq (quiet : Quiet hits place) : marksAt opening closing hits place = [] := by
  have starts : hits.any (·.start == place) = false := by
    simpa using fun hit member => (quiet hit member).1
  have stops : hits.any (·.stop == place) = false := by
    simpa using fun hit member => (quiet hit member).2
  simp [marksAt, starts, stops]

/-- Without matches a text stays as it is. -/
theorem markedAt_nil (place : Nat) (text : List Char) :
    markedAt opening closing [] place text = text := by
  induction text generalizing place with
  | nil => rfl
  | cons c text ih =>
      rw [markedAt, ih]
      rfl

/-- Where no match begins or ends nothing is put in. -/
theorem markedAt_append
    (quiet : ∀ edge, place ≤ edge → edge < place + byteLength front → Quiet hits edge) :
    markedAt opening closing hits place (front ++ back)
      = front ++ markedAt opening closing hits (place + byteLength front) back := by
  induction front generalizing place with
  | nil => rfl
  | cons c rest ih =>
      have size := c.utf8Size_pos
      rw [byteLength_cons] at quiet ⊢
      have here := quiet place le_rfl (by omega)
      rw [List.cons_append, markedAt, here.marksAt_eq, ih fun edge lower upper =>
        quiet edge (by omega) (by omega), Nat.add_assoc]
      rfl

variable {rest : List Span}

theorem marksAt_of_lt (later : hit.stop < place) :
    marksAt opening closing (hit :: rest) place = marksAt opening closing rest place := by
  have ordered := hit.ordered
  have start : (hit.start == place) = false := beq_eq_false_iff_ne.mpr (by omega)
  have stop : (hit.stop == place) = false := beq_eq_false_iff_ne.mpr (by omega)
  simp [marksAt, start, stop]

/-- Behind a match only the others matter. -/
theorem markedAt_of_lt (later : hit.stop < place) (text : List Char) :
    markedAt opening closing (hit :: rest) place text
      = markedAt opening closing rest place text := by
  induction text generalizing place with
  | nil => exact marksAt_of_lt later
  | cons c text ih => rw [markedAt, markedAt, marksAt_of_lt later, ih (by omega)]

section First

variable (behind : ∀ next ∈ rest, hit.stop ≤ next.start ∧ next.start < next.stop)

include behind

/-- In front of the first match and inside it no match begins or ends. -/
theorem quiet_of_lt (other : hit.start ≠ place) (before : place < hit.stop) :
    Quiet (hit :: rest) place := by
  refine List.forall_mem_cons.mpr ⟨⟨other, before.ne'⟩, fun next member => ?_⟩
  have follows := behind next member
  omega

variable (inhabited : hit.start < hit.stop)

include inhabited

/-- Where the first match begins there is one opening mark. -/
theorem marksAt_start : marksAt opening closing (hit :: rest) hit.start = opening := by
  have stops : (hit :: rest).any (·.stop == hit.start) = false := by
    simp only [List.any_eq_false, List.forall_mem_cons, beq_iff_eq]
    refine ⟨inhabited.ne', fun next member => ?_⟩
    have follows := behind next member
    omega
  simp [marksAt, stops]

/-- Where the first match ends there is a closing mark in front of the marks of the others. -/
theorem marksAt_stop :
    marksAt opening closing (hit :: rest) hit.stop
      = closing ++ marksAt opening closing rest hit.stop := by
  have stops : rest.any (·.stop == hit.stop) = false := by
    simp only [List.any_eq_false, beq_iff_eq]
    intro next member
    have follows := behind next member
    omega
  have start : (hit.start == hit.stop) = false := beq_eq_false_iff_ne.mpr inhabited.ne
  simp [marksAt, stops, start]

theorem markedAt_stop (text : List Char) : markedAt opening closing (hit :: rest) hit.stop text
    = closing ++ markedAt opening closing rest hit.stop text := by
  cases text with
  | nil => exact marksAt_stop behind inhabited
  | cons c text =>
      have width := c.utf8Size_pos
      rw [markedAt, markedAt, marksAt_stop behind inhabited, markedAt_of_lt (by omega),
        List.append_assoc]

/-- The first match, and the text behind it. -/
theorem markedAt_hit (size : hit.start + byteLength front = hit.stop) :
    markedAt opening closing (hit :: rest) hit.start (front ++ back)
      = opening ++ front ++ closing ++ markedAt opening closing rest hit.stop back := by
  -- The opening mark stands in front of the first character of the match, so the match has to have
  -- one.
  cases front with
  | nil =>
      rw [byteLength_nil] at size
      omega
  | cons c word =>
      have width := c.utf8Size_pos
      rw [byteLength_cons, ← Nat.add_assoc] at size
      have quiet : ∀ edge, hit.start + c.utf8Size ≤ edge →
          edge < hit.start + c.utf8Size + byteLength word →
          Quiet (hit :: rest) edge :=
        fun edge lower upper => quiet_of_lt behind (by omega) (by omega)
      rw [List.cons_append, markedAt, marksAt_start behind inhabited, markedAt_append quiet, size,
        markedAt_stop behind inhabited]
      simp

end First

/-- Matches between two places of a text, one behind the other, each of them between characters and
around some. -/
inductive Laid (text : List Char) (stop : Nat) : Nat → List Span → Prop
  | nil {start : Nat} (boundary : isBoundary text start = true) (ordered : start ≤ stop) :
      Laid text stop start []
  | cons {start : Nat} {hit : Span} {rest : List Span} (boundary : isBoundary text start = true)
      (late : start ≤ hit.start) (opens : isBoundary text hit.start = true)
        (inhabited : hit.start < hit.stop)
      (more : Laid text stop hit.stop rest) : Laid text stop start (hit :: rest)

namespace Laid

theorem boundary_start (laid : Laid text stop start hits) : isBoundary text start = true := by
  cases laid <;> assumption

theorem start_le_stop (laid : Laid text stop start hits) : start ≤ stop := by
  induction laid with
  | nil boundary ordered => exact ordered
  | cons boundary late opens inhabited more ih => exact late.trans (inhabited.le.trans ih)

theorem start_le_of_mem (laid : Laid text stop start hits) :
    ∀ hit ∈ hits, start ≤ hit.start ∧ hit.start < hit.stop := by
  induction laid with
  | nil => simp
  | cons boundary late opens inhabited more ih =>
      refine List.forall_mem_cons.mpr ⟨⟨late, inhabited⟩, fun next member => ?_⟩
      have bounds := ih next member
      omega

/-- Going through matches puts marks at their edges. -/
theorem markFrom_eq (laid : Laid text stop start hits) (last : isBoundary text stop = true) :
    Fragment.markFrom (fun part => opening ++ part ++ closing) text stop start hits
      = markedAt opening closing hits start (slice text start stop) := by
  induction laid with
  | nil boundary ordered =>
      rw [markedAt_nil]
      rfl
  | @cons start hit rest boundary late opens inhabited more ih =>
      have closes := more.boundary_start
      have ends := more.start_le_stop
      have behind := more.start_le_of_mem
      have size := byteLength_slice opens closes inhabited.le
      have gap := byteLength_slice boundary opens late
      have quiet : ∀ edge, start ≤ edge →
          edge < start + byteLength (slice text start hit.start) →
          Quiet (hit :: rest) edge :=
        fun edge lower upper => quiet_of_lt behind (by omega) (by omega)
      rw [Fragment.markFrom, ih, ← slice_append_slice boundary last opens late
        (inhabited.le.trans ends), ← slice_append_slice opens last closes inhabited.le ends,
        markedAt_append quiet, gap,
        markedAt_hit behind inhabited size, Span.covered]
      simp

/-- Two matches that meet. -/
example :
    Fragment.markFrom (fun part => '[' :: part ++ [']']) "a bcd".toList 5 0
      [⟨2, 3, by decide⟩, ⟨3, 5, by decide⟩] = "a [b][cd]".toList := by
  decide

/-- Going through matches by their places in a window that holds them takes each of them. -/
theorem emphasizeFrom_eq {window : Span} (laid : Laid text window.stop start hits)
    (bounded : window.IsBounded text) (within : window.start ≤ start) :
    Terminal.emphasizeFrom (window.covered text) (start - window.start)
        (hits.map fun hit => (hit.start - window.start, hit.stop - window.start))
      = Fragment.markFrom Terminal.mark text window.stop start hits := by
  induction laid with
  | nil boundary ordered =>
      rw [List.map_nil, Terminal.emphasizeFrom, Span.covered,
        cut_slice bounded.start bounded.stop boundary within ordered, Fragment.markFrom]
  | @cons start hit rest boundary late opens inhabited more ih =>
      have closes := more.boundary_start
      have ends := more.start_le_stop
      have follows := within.trans late
      -- A range is passed over only if it is out of order or not between characters.
      have valid : Terminal.canMark (window.covered text) (start - window.start)
          (hit.start - window.start) (hit.stop - window.start) = true := by
        have first : isBoundary (window.covered text) (hit.start - window.start) = true :=
          isBoundary_slice bounded.start bounded.stop opens follows (inhabited.le.trans ends)
        have last : isBoundary (window.covered text) (hit.stop - window.start) = true :=
          isBoundary_slice bounded.start bounded.stop closes (follows.trans inhabited.le) ends
        simp only [Terminal.canMark, first, last, Bool.and_true, Bool.and_eq_true,
          decide_eq_true_eq]
        omega
      rw [List.map_cons, Terminal.emphasizeFrom, if_pos valid,
        ih (follows.trans inhabited.le), Span.covered,
        slice_slice bounded.start bounded.stop boundary opens within late (inhabited.le.trans ends),
        slice_slice bounded.start bounded.stop opens closes follows inhabited.le ends,
        Fragment.markFrom,
        Span.covered]

theorem of_pairwise (first : isBoundary text start = true) (ordered : start ≤ stop)
    (bounded : ∀ hit ∈ hits, hit.IsBounded text ∧ hit.start < hit.stop)
    (inside : ∀ hit ∈ hits, start ≤ hit.start ∧ hit.stop ≤ stop)
    (apart : hits.Pairwise (fun hit next => hit.stop ≤ next.start)) :
    Laid text stop start hits := by
  induction hits generalizing start with
  | nil => exact .nil first ordered
  | cons hit rest ih =>
      obtain ⟨⟨edges, inhabited⟩, others⟩ := List.forall_mem_cons.mp bounded
      obtain ⟨⟨late, early⟩, within⟩ := List.forall_mem_cons.mp inside
      refine .cons first late edges.start inhabited (ih edges.stop early others ?_ apart.of_cons)
      exact fun next member => ⟨List.rel_of_pairwise_cons apart member, (within next member).2⟩

end Laid

end Marks

/-- The codes for bold and for yellow. -/
def Terminal.markStart : List Char := control "1" ++ control "33"

/-- The text of a window with marks around the matches that lie in it. -/
def Span.marked (opening closing text : List Char) (hits : List Span) (window : Span) : List Char :=
  markedAt opening closing (hits.filter window.contains) window.start (window.covered text)

/-- Of fragments that lie apart each holds its own matches only. -/
theorem Fragment.filter_contains {fragments : List Fragment} {fragment : Fragment}
    (apart : fragments.Pairwise (fun fragment next => fragment.window.stop < next.window.start))
    (inside : ∀ fragment ∈ fragments, ∀ hit ∈ fragment.hits,
      fragment.window.start ≤ hit.start ∧ hit.stop ≤ fragment.window.stop) (member :
      fragment ∈ fragments) :
    (fragments.flatMap (·.hits)).filter fragment.window.contains = fragment.hits := by
  obtain ⟨before, behind, rfl⟩ := List.append_of_mem member
  obtain ⟨-, later, across⟩ := List.pairwise_append.mp apart
  have outside : ∀ {others : List Fragment},
      (∀ other ∈ others, other ∈ before ++ fragment :: behind) →
      (∀ other ∈ others, other.window.stop < fragment.window.start ∨
        fragment.window.stop < other.window.start) →
      (others.flatMap (·.hits)).filter fragment.window.contains = [] := by
    intro others among gap
    refine List.filter_eq_nil_iff.mpr fun hit found => ?_
    obtain ⟨other, listed, own⟩ := List.mem_flatMap.mp found
    have bounds := inside other (among other listed) hit own
    have ordered := hit.ordered
    simp only [Span.contains, Bool.and_eq_true, decide_eq_true_eq]
    rcases gap other listed with early | late <;> omega
  have own : fragment.hits.filter fragment.window.contains = fragment.hits :=
    List.filter_eq_self.mpr fun hit listed => by
      simpa [Span.contains] using inside fragment member hit listed
  rw [List.flatMap_append, List.flatMap_cons, List.filter_append, List.filter_append, own,
    outside (by simp +contextual) fun other listed =>
      .inl (across other listed fragment List.mem_cons_self),
    outside (by simp +contextual) fun other listed => .inr (List.rel_of_pairwise_cons later listed),
    List.nil_append, List.append_nil]

namespace Snippet

variable {style : SnippetStyle} {text : List Char} {terms : List String} {fragment : Fragment}

theorem laid_hits
    (member : fragment ∈ Fragment.ofHits (windowOf style text) (Span.ofTerms text terms)) :
    Laid text fragment.window.stop fragment.window.start fragment.hits := by
  have bounded := isBounded_window member
  refine .of_pairwise bounded.start fragment.window.ordered (fun hit inside => ?_)
    (fun hit inside => window_contains member inside) ?_
  · have found := mem_ofTerms_of_mem_hits member inside
    obtain ⟨_, -, occurs⟩ := (Span.isSelection_ofTerms text terms).sound hit found
    exact ⟨(Span.isOnWords_of_mem_ofTerms found).isBounded, occurs.covers.lt⟩
  · refine (Span.pairwise_ofTerms text terms).sublist ?_
    have part := hits_sublist member
    rwa [Fragment.flatMap_ofHits] at part

/-- Of the matches of terms those that a passage contains are its own. -/
theorem filter_contains_ofTerms (plain : ∀ c ∈ style.dividers.chars, isAlphanumeric c = false)
    (member : fragment ∈ Fragment.ofHits (windowOf style text) (Span.ofTerms text terms)) :
    (Span.ofTerms text terms).filter fragment.window.contains = fragment.hits := by
  have own := Fragment.filter_contains (Fragment.ofHits_apart (separable_ofTerms plain))
    (fun _ listed _ inside => window_contains listed inside) member
  rwa [Fragment.flatMap_ofHits] at own

theorem ellipsis_eq : ellipsis = " … ".toList := rfl

theorem mark_eq : Terminal.mark = fun part => Terminal.markStart ++ part ++ Terminal.reset := by
  funext part
  rfl

/-- The text of a snippet shows the texts of its windows, one behind the other with " … " between
them, and the terminal shows the text of a window. In both there are marks around the same matches:
all that lie in the window. -/
theorem cutFrom_renderings (style : SnippetStyle) (text : String) (terms : List String)
    (plain : ∀ c ∈ style.dividers.chars, isAlphanumeric c = false) {snippet : Snippet}
    (cut : (cutFrom style text terms).result = some snippet) :
    snippet.text = String.ofList (" … ".toList.intercalate (snippet.windows.map fun window =>
        trim (window.marked style.openTag.toList style.closeTag.toList text.toList
          (Span.ofTerms text.toList terms)))) ∧
      ∀ window ∈ snippet.windows, CommandLine.emphasizeWindow text.toList window snippet.hits
        = window.marked Terminal.markStart Terminal.reset text.toList
          (Span.ofTerms text.toList terms) := by
  obtain ⟨-, rfl⟩ := eq_of_result_eq_some cut
  have members : ∀ fragment ∈ fragments style text.toList terms,
      fragment ∈ Fragment.ofHits (windowOf style text.toList) (Span.ofTerms text.toList terms) :=
    fun _ kept => List.mem_of_mem_take kept
  have going : ∀ (opening closing : List Char),
      ∀ fragment ∈ fragments style text.toList terms,
      Fragment.markFrom (fun part => opening ++ part ++ closing) text.toList fragment.window.stop
          fragment.window.start fragment.hits
        = fragment.window.marked opening closing text.toList (Span.ofTerms text.toList terms) := by
    intro opening closing fragment kept
    have member := members fragment kept
    rw [Span.marked, filter_contains_ofTerms plain member,
      (laid_hits member).markFrom_eq (isBounded_window member).stop, Span.covered]
  refine ⟨?_, ?_⟩
  · simp only [List.map_map, ← ellipsis_eq]
    congr 2
    refine List.map_congr_left fun fragment kept => ?_
    exact congrArg trim (going style.openTag.toList style.closeTag.toList fragment kept)
  · rw [List.forall_mem_map]
    intro fragment kept
    have member := members fragment kept
    have own : ((fragments style text.toList terms).flatMap (·.hits)).filter
        fragment.window.contains
        = fragment.hits :=
      Fragment.filter_contains
        ((Fragment.ofHits_apart (separable_ofTerms plain)).sublist (List.take_sublist _ _))
        (fun _ listed _ inside => window_contains (members _ listed) inside) kept
    have shown := (laid_hits member).emphasizeFrom_eq (isBounded_window member) le_rfl
    rw [Nat.sub_self, mark_eq, going _ _ fragment kept] at shown
    rw [CommandLine.emphasizeWindow, own, Terminal.emphasize, shown]

/-- A snippet of two passages. The text of the second one begins with blanks, which only the
terminal shows. -/
theorem cutFrom_renderings_passages :
    let style : SnippetStyle := { padding := 4, dividers := .ofText "." }
    let text := "one.   a b"
    let terms := ["one", "a", "b"]
    let first : Span := ⟨0, 3, by decide⟩
    let second : Span := ⟨5, 10, by decide⟩
    (∀ c ∈ style.dividers.chars, isAlphanumeric c = false) ∧
      ∃ snippet, (cutFrom style text terms).result = some snippet ∧
        snippet.windows = [first, second] ∧
        snippet.text = "<em>one</em> … <em>a</em> <em>b</em>" ∧
        CommandLine.emphasizeWindow text.toList second snippet.hits
          = "  \x1b[1m\x1b[33ma\x1b[0m \x1b[1m\x1b[33mb\x1b[0m".toList := by
  intro style text terms first second
  have plain : ∀ c ∈ style.dividers.chars, isAlphanumeric c = false := by
    intro c member
    obtain rfl : c = '.' := by simpa [style, Dividers.ofText] using member
    rfl
  have found : Span.ofTerms text.toList terms
      = [⟨0, 3, by decide⟩, ⟨7, 8, by decide⟩, ⟨9, 10, by decide⟩] := by cbv
  have gathered : fragments style text.toList terms
      = [⟨first, [⟨0, 3, by decide⟩]⟩,
        ⟨second, [⟨7, 8, by decide⟩, ⟨9, 10, by decide⟩]⟩] := by
    rw [fragments, found]
    decide +kernel
  have absent := result_eq_none_iff style text terms
  rw [found] at absent
  obtain ⟨snippet, cut⟩ := Option.ne_none_iff_exists'.mp (absent.not.mpr (List.cons_ne_nil _ _))
  obtain ⟨-, windows, -⟩ := parts_of_result_eq_some cut
  rw [gathered] at windows
  obtain ⟨shown, marked⟩ := cutFrom_renderings style text terms plain cut
  have listed : second ∈ snippet.windows := by
    rw [windows]
    exact List.mem_cons_of_mem _ List.mem_cons_self
  rw [found, windows] at shown
  rw [found] at marked
  refine ⟨plain, snippet, cut, windows, shown.trans ?_, (marked second listed).trans ?_⟩
  · decide +kernel
  · decide +kernel

end Snippet

end FacetSearch
