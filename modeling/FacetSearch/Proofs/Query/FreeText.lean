import FacetSearch.Proofs.Query.Expansion

/-!
What a search phrase says about a field, as the engine reads it. The text is one pair of parentheses
with a clause for every word and every quoted run of the phrase, joined by "AND"
(`phraseText_spec`). Nothing that the phrase holds ends a quoted run or the parentheses early, and
the terms can be told from the text except for a backslash that had to be doubled.
-/

set_option autoImplicit false

namespace FacetSearch

open Piece

namespace Engine

/-- A word without its escapes: a backslash gives way to the character behind it. -/
def unescape : List Char → List Char
  | [] => []
  | '\\' :: c :: rest => c :: unescape rest
  | c :: rest => c :: unescape rest

theorem unescape_cons {c : Char} (plain : c ≠ '\\') (rest : List Char) :
    unescape (c :: rest) = c :: unescape rest := by
  rw [unescape]
  exact fun _ _ same _ => plain same

/-- Escaping keeps the word. -/
theorem unescape_escapeWord (word : List Char) : unescape (escapeWord word) = word := by
  induction word with
  | nil => rfl
  | cons c rest ih =>
      have later : unescape (rest.flatMap fun c =>
          if escapedChars.contains c then ['\\', c] else [c])
          = rest := ih
      rw [escapeWord, List.flatMap_cons]
      by_cases special : escapedChars.contains c = true
      · rw [if_pos special, List.cons_append, List.singleton_append, unescape, later]
      · have plain : c ≠ '\\' := by
          rintro rfl
          exact special (by decide)
        rw [if_neg special, List.singleton_append, unescape_cons plain, later]

/-- Closing the escapes of a phrase adds at most one backslash. -/
theorem closeEscapes_cases (phrase : List Char) :
    closeEscapes phrase = phrase ∨ closeEscapes phrase = phrase ++ ['\\'] := by
  unfold closeEscapes
  split
  · exact .inr rfl
  · exact .inl rfl

/-- A word is known from its pieces. -/
theorem wordPieces_injective {first second : List Char}
    (same : wordPieces first = wordPieces second) : first = second := by
  have lasts : ∀ word : List Char, (wordPieces word).map (fun piece => piece.chars.getLast?)
      = word.map some := by
    intro word
    rw [wordPieces, List.map_map]
    refine List.map_congr_left fun c _ => ?_
    rw [Function.comp_apply]
    split <;> rfl
  have equal : first.map some = second.map some := by rw [← lasts, ← lasts, same]
  exact List.map_injective_iff.mpr (Option.some_injective _) equal

end Engine

namespace Piece

/-- Characters that belong together hold no quoted run without its closing quote. -/
def ClosesQuote (chars : List Char) : Prop :=
  ∀ run, chars = '"' :: run → ∃ contents, run = contents ++ ['"'] ∧
    QuoteState.after contents = .inside

theorem closesQuote_of_ne {c : Char} (other : c ≠ '"') (rest : List Char) :
    ClosesQuote (c :: rest) :=
  fun _ same => absurd (List.cons.inj same).1 other

/-- Parts of a level are known from the level. -/
theorem joined_injective {kind : Junction} {first second : List (List Piece)}
    (inhabited : first ≠ []) (others : second ≠ [])
    (lone : ∀ part ∈ first, Outline.Jointless part)
    (alone : ∀ part ∈ second, Outline.Jointless part)
    (same : joined kind first = joined kind second) : first = second := by
  obtain ⟨head, tail, rfl⟩ := List.exists_cons_of_ne_nil inhabited
  obtain ⟨lead, rest, rfl⟩ := List.exists_cons_of_ne_nil others
  have cut := Outline.cut_joined kind head tail lone
  rw [same, Outline.cut_joined kind lead rest alone] at cut
  obtain ⟨heads, tails⟩ := Prod.ext_iff.mp cut
  have whole : (lead :: rest).map Outline.views = (head :: tail).map Outline.views := by
    have back := congrArg (List.map Prod.snd) tails
    simp only [List.map_map] at back
    rw [List.map_cons, List.map_cons, show Outline.views lead = Outline.views head from heads]
    exact congrArg _ back
  have pieces := congrArg (List.map (List.map Prod.fst)) whole
  simpa only [List.map_map, Function.comp_def, Outline.map_fst_views, List.map_id']
    using pieces.symm

end Piece

namespace FreeTerm

/-- A term as the engine finds it, where a last backslash of a phrase is doubled. -/
def closed : FreeTerm → FreeTerm
  | word variant letters => word variant letters
  | phrase variant contents => phrase variant (Engine.closeEscapes contents)

theorem isName_variant {term : FreeTerm} (legible : term.Legible) : IsName term.variant := by
  cases term <;> exact legible.1

/-- A term is one clause, whose quotes are closed. -/
theorem closesQuote_of_mem_pieces {term : FreeTerm} (legible : term.Legible) :
    ∀ piece ∈ term.pieces, ∃ chars, piece = .text chars ∧ ClosesQuote chars := by
  intro piece member
  rcases List.mem_append.mp member with member | member
  · obtain ⟨c, held, rfl⟩ := List.mem_map.mp member
    have formed := isName_variant legible c held
    refine ⟨[c], rfl, closesQuote_of_ne ?_ _⟩
    rintro rfl
    exact absurd formed (by decide)
  · rcases List.mem_cons.mp member with rfl | member
    · exact ⟨[':'], rfl, closesQuote_of_ne (by decide) _⟩
    · cases term with
      | word variant letters =>
          obtain ⟨c, _, rfl⟩ := List.mem_map.mp member
          by_cases special : Engine.escapedChars.contains c = true
          · rw [if_pos special]
            exact ⟨_, rfl, closesQuote_of_ne (by decide) _⟩
          · rw [if_neg special]
            refine ⟨_, rfl, closesQuote_of_ne ?_ _⟩
            rintro rfl
            exact special (by decide)
      | phrase variant contents =>
          refine ⟨_, List.mem_singleton.mp member, fun run same => ?_⟩
          exact ⟨_, (List.cons.inj same).2.symm, Segment.after_closeEscapes legible.2⟩

theorem jointless_pieces {term : FreeTerm} (legible : term.Legible) :
    Outline.Jointless term.pieces := by
  intro kind member
  obtain ⟨chars, same, _⟩ := closesQuote_of_mem_pieces legible _ member
  cases same

/-- The name of a variant goes up to the first colon. -/
theorem variant_of_pieces {term : FreeTerm} (legible : term.Legible) :
    term.pieces.takeWhile (fun piece => piece.chars != [':']) = single term.variant.toList ∧
      term.pieces.dropWhile (fun piece => piece.chars != [':'])
        = .text [':'] :: term.bodyPieces := by
  have kept : ∀ piece ∈ single term.variant.toList, (piece.chars != [':']) = true := by
    intro piece member
    obtain ⟨c, held, rfl⟩ := List.mem_map.mp member
    have formed := isName_variant legible c held
    simp only [Piece.chars, bne_iff_ne, ne_eq, List.cons.injEq, and_true]
    rintro rfl
    exact absurd formed (by decide)
  rw [pieces, List.takeWhile_append_of_pos kept, List.dropWhile_append_of_pos kept]
  exact ⟨by simp [Piece.chars], by simp [Piece.chars]⟩

/-- What is said about a variant is known from its pieces: words hold no quoted runs. -/
theorem closed_of_bodyPieces {first second : FreeTerm} (variants : first.variant = second.variant)
    (same : first.bodyPieces = second.bodyPieces) : first.closed = second.closed := by
  have apart : ∀ (letters contents : List Char),
      Engine.wordPieces letters ≠ [.text ('"' :: (Engine.closeEscapes contents ++ ['"']))] := by
    intro letters contents equal
    obtain ⟨c, rfl, piece⟩ := List.map_eq_singleton_iff.mp equal
    by_cases special : Engine.escapedChars.contains c = true
    · rw [if_pos special] at piece
      simp at piece
    · rw [if_neg special] at piece
      simp at piece
  cases first with
  | word variant letters =>
      cases second with
      | word other others =>
          obtain rfl : variant = other := variants
          rw [Engine.wordPieces_injective same]
      | phrase other contents => exact absurd same (apart letters contents)
  | phrase variant contents =>
      cases second with
      | word other letters => exact absurd same.symm (apart letters contents)
      | phrase other others =>
          obtain rfl : variant = other := variants
          simp only [bodyPieces, List.cons.injEq, Piece.text.injEq, true_and, and_true,
            List.append_cancel_right_eq] at same
          rw [closed, closed, same]

theorem closed_of_pieces {first second : FreeTerm} (legible : first.Legible)
    (other : second.Legible) (same : first.pieces = second.pieces) :
    first.closed = second.closed := by
  obtain ⟨front, back⟩ := variant_of_pieces legible
  obtain ⟨lead, rest⟩ := variant_of_pieces other
  rw [same] at front back
  have names : single first.variant.toList = single second.variant.toList := front.symm.trans lead
  have bodies := (List.cons.inj (back.symm.trans rest)).2
  have letters := congrArg charsOf names
  rw [Outline.charsOf_single, Outline.charsOf_single] at letters
  exact closed_of_bodyPieces (String.toList_inj.mp letters) bodies

/-- Terms are known from the pieces that they become, one after another. -/
theorem closed_of_map_pieces {first second : List FreeTerm}
    (legible : ∀ term ∈ first, term.Legible) (others : ∀ term ∈ second, term.Legible)
    (same : first.map pieces = second.map pieces) : first.map closed = second.map closed := by
  induction first generalizing second with
  | nil =>
      rw [List.map_eq_nil_iff.mp same.symm]
  | cons term rest ih =>
      obtain ⟨other, more, rfl, head, tail⟩ := List.map_eq_cons_iff.mp same.symm
      have later := ih (fun next member => legible next (List.mem_cons_of_mem _ member))
        (fun next member => others next (List.mem_cons_of_mem _ member)) tail.symm
      rw [List.map_cons, List.map_cons, later,
        closed_of_pieces (legible term List.mem_cons_self)
          (others other List.mem_cons_self) head.symm]

end FreeTerm

/-- The clauses that a segment of a phrase becomes on a field: for text outside quotes one for each
word on the stemmed variant, which is the word with escapes; for a quoted run one on the exact
variant, with its contents in quotes. A field without a variant stands for itself. -/
def Segment.States (catalog : Catalog) (field : String) : Segment → List (List Char) → Prop
  | plain text, clauses =>
    List.Forall₂ (fun word clause => ∃ escaped,
      clause = ((catalog.stemmedVariant field).getD field).toList ++ ':' :: escaped ∧
        Engine.unescape escaped = word)
      (Text.words text) clauses
  | quoted run, clauses =>
    ∃ closed,
      clauses = [((catalog.exactVariant field).getD field).toList ++ ':' :: '"' ::
        (closed ++ ['"'])] ∧
      (closed = Text.trim (withoutQuotes run) ∨ closed = Text.trim (withoutQuotes run) ++ ['\\'])

theorem Segment.states_ofSegment (catalog : Catalog) (field : String) (segment : Segment) :
    segment.States catalog field ((FreeTerm.ofSegment catalog field segment).map
      (·.write.toList)) := by
  cases segment with
  | plain text =>
      simp only [Segment.States, FreeTerm.ofSegment, List.map_map]
      rw [List.forall₂_map_right_iff]
      refine List.forall₂_same.mpr fun word _ =>
        ⟨Engine.escapeWord word, ?_, Engine.unescape_escapeWord word⟩
      simp [FreeTerm.write, Catalog.wordField]
  | quoted run =>
      refine ⟨Engine.closeEscapes (Text.trim (withoutQuotes run)), ?_,
        Engine.closeEscapes_cases _⟩
      simp [FreeTerm.ofSegment, FreeTerm.write, Catalog.phraseField]

namespace Comparison

/-- What a search phrase says about a field, as text: nothing if it has no terms. -/
def phraseText (catalog : Catalog) (field : FieldDescriptor) (negated : Bool) (phrase : String) :
    String :=
  ((phraseClause catalog field.name negated phrase).result.map (Clause.write field)).getD ""

/-- A text that is read as these clauses with "AND" between them, in one pair of parentheses between
a sign and a boost. All quotes are closed, and no clause holds a bracket or a joint. -/
structure IsGroup (text : String) (negated : Bool) (boost : String) (clauses : List (List Piece)) :
    Prop where
  read : Piece.ofText? text.toList = some (single (Clause.sign negated).toList ++
    .bracketed '(' (joined .all clauses) :: single boost.toList)
  unquoted : '"' ∉ (Clause.sign negated ++ boost).toList
  closed : ∀ clause ∈ clauses, ∀ piece ∈ clause, ∃ chars, piece = .text chars ∧
    ClosesQuote chars

variable {catalog : Catalog} {field : FieldDescriptor}

theorem phraseText_eq (negated : Bool) (phrase : String) :
    phraseText catalog field negated phrase
      = if FreeTerm.ofPhrase catalog field.name phrase = [] then ""
        else (Clause.freeText negated (FreeTerm.ofPhrase catalog field.name phrase)).write
          field := by
  unfold phraseText phraseClause
  cases found : FreeTerm.ofPhrase catalog field.name phrase with
  | nil => rfl
  | cons first rest => rw [if_neg (List.cons_ne_nil _ _)]; rfl

theorem write_freeText_ne_empty (negated : Bool) (terms : List FreeTerm) :
    (Clause.freeText negated terms).write field ≠ "" := by
  intro empty
  have chars := congrArg String.toList empty
  simp [Clause.write] at chars

/-- The terms of a phrase are a group of clauses, one for each term. -/
theorem isGroup_freeText {terms : List FreeTerm} (inhabited : terms ≠ [])
    (legible : ∀ term ∈ terms, term.Legible) (negated : Bool) :
    IsGroup ((Clause.freeText negated terms).write field) negated field.suffix
      (terms.map FreeTerm.pieces) where
  read := by
    have whole : (Clause.freeText negated terms).Legible field := ⟨inhabited, legible⟩
    have fits : Fits false _ _ := Clause.fits_clause whole nofun
    exact fits.ofText?_eq
  unquoted := by
    intro member
    rw [String.toList_append] at member
    rcases List.mem_append.mp member with member | member
    · cases negated <;> simp [Clause.sign] at member
    · exact absurd (by decide) (not_structural_of_mem_suffix field '"' member)
  closed := by
    intro clause member
    obtain ⟨term, held, rfl⟩ := List.mem_map.mp member
    exact FreeTerm.closesQuote_of_mem_pieces (legible term held)

/-- The clauses of a phrase, segment by segment. -/
theorem states_ofPhrase (catalog : Catalog) (name phrase : String) :
    ∃ stated, List.Forall₂ (Segment.States catalog name)
      (Segment.ofPhrase phrase.toList) stated ∧
      (FreeTerm.ofPhrase catalog name phrase).map (·.write.toList) = stated.flatten := by
  refine ⟨(Segment.ofPhrase phrase.toList).map fun segment =>
    (FreeTerm.ofSegment catalog name segment).map (·.write.toList), ?_, ?_⟩
  · rw [List.forall₂_map_right_iff]
    exact List.forall₂_same.mpr fun segment _ => segment.states_ofSegment catalog name
  · rw [FreeTerm.ofPhrase, List.map_flatMap, List.flatMap_def]

theorem ofPhrase_eq_nil_iff {name phrase : String} :
    FreeTerm.ofPhrase catalog name phrase = [] ↔ Segment.ofPhrase phrase.toList = [] := by
  constructor
  · intro none
    by_contra terms
    exact ofPhrase_ne_nil terms none
  · intro none
    rw [FreeTerm.ofPhrase, none, List.flatMap_nil]

/-- Groups of terms with the same text have the same terms, up to closing escapes. -/
theorem closed_of_write_freeText {first second : List FreeTerm} (negated : Bool)
    (inhabited : first ≠ []) (others : second ≠ [])
    (legible : ∀ term ∈ first, term.Legible) (readable : ∀ term ∈ second, term.Legible)
    (same : (Clause.freeText negated first).write field
      = (Clause.freeText negated second).write field) :
    first.map FreeTerm.closed = second.map FreeTerm.closed := by
  have one : IsGroup ((Clause.freeText negated first).write field) _ _ _ :=
    isGroup_freeText inhabited legible negated
  have other : IsGroup ((Clause.freeText negated second).write field) _ _ _ :=
    isGroup_freeText others readable negated
  have read := one.read
  rw [same, other.read, Option.some.injEq, List.append_cancel_left_eq, List.cons.injEq,
    Piece.bracketed.injEq] at read
  have lone : ∀ terms : List FreeTerm, (∀ term ∈ terms, term.Legible) →
      ∀ part ∈ terms.map FreeTerm.pieces, Outline.Jointless part := by
    intro terms each part member
    obtain ⟨term, held, rfl⟩ := List.mem_map.mp member
    exact FreeTerm.jointless_pieces (each term held)
  have parts : second.map FreeTerm.pieces = first.map FreeTerm.pieces :=
    joined_injective (by simpa using others) (by simpa using inhabited) (lone second readable)
      (lone first legible) read.1.2
  exact FreeTerm.closed_of_map_pieces legible readable parts.symm

/-- The text of a search phrase is empty exactly if the phrase has no segments. Otherwise it is a
group of the clauses that the segments become, in their order, and phrases with the same text have
the same terms up to the backslash that closes the escapes of a quoted run. -/
theorem phraseText_spec (named : IsName field.name)
    (exact : ∀ variant ∈ catalog.exactVariant field.name, IsName variant)
    (stemmed : ∀ variant ∈ catalog.stemmedVariant field.name, IsName variant)
    (negated : Bool) (phrase : String) :
    (phraseText catalog field negated phrase = "" ↔ Segment.ofPhrase phrase.toList = []) ∧
    (Segment.ofPhrase phrase.toList ≠ [] → ∃ clauses stated,
      IsGroup (phraseText catalog field negated phrase) negated field.suffix clauses ∧
      List.Forall₂ (Segment.States catalog field.name) (Segment.ofPhrase phrase.toList) stated ∧
      clauses.map charsOf = stated.flatten) ∧
    ∀ other, phraseText catalog field negated other = phraseText catalog field negated phrase →
      (FreeTerm.ofPhrase catalog field.name other).map FreeTerm.closed
        = (FreeTerm.ofPhrase catalog field.name phrase).map FreeTerm.closed := by
  have variantName : ∀ variant : Option String, (∀ name ∈ variant, IsName name) →
      IsName (variant.getD field.name) := by
    intro variant formed
    cases variant with
    | none => exact named
    | some name => exact formed name rfl
  have legible : ∀ phrase, ∀ term ∈ FreeTerm.ofPhrase catalog field.name phrase,
      term.Legible :=
    fun _ _ => legible_of_mem_ofPhrase (variantName _ exact) (variantName _ stemmed)
  have empty : ∀ phrase, phraseText catalog field negated phrase = "" ↔
      FreeTerm.ofPhrase catalog field.name phrase = [] := by
    intro phrase
    rw [phraseText_eq]
    split
    · rename_i none
      exact iff_of_true rfl none
    · rename_i some
      exact iff_of_false (write_freeText_ne_empty negated _) some
  refine ⟨(empty phrase).trans ofPhrase_eq_nil_iff, fun segments => ?_, fun other same => ?_⟩
  · have inhabited : FreeTerm.ofPhrase catalog field.name phrase ≠ [] := ofPhrase_ne_nil segments
    obtain ⟨stated, states, flat⟩ := states_ofPhrase catalog field.name phrase
    refine ⟨(FreeTerm.ofPhrase catalog field.name phrase).map FreeTerm.pieces, stated,
      ?_, states, ?_⟩
    · rw [phraseText_eq, if_neg inhabited]
      exact isGroup_freeText inhabited (legible phrase) negated
    · rw [← flat, List.map_map]
      refine List.map_congr_left fun term member => ?_
      have fits : Fits false _ _ := (FreeTerm.forms_term (legible phrase term member)).fits
      exact fits.charsOf_eq
  · by_cases none : FreeTerm.ofPhrase catalog field.name phrase = []
    · have blank := (empty other).mp (same.trans ((empty phrase).mpr none))
      rw [none, blank]
    · have some : FreeTerm.ofPhrase catalog field.name other ≠ [] :=
        fun blank => none ((empty phrase).mp (same.symm.trans ((empty other).mpr blank)))
      rw [phraseText_eq, phraseText_eq, if_neg none, if_neg some] at same
      exact closed_of_write_freeText negated some none (legible other) (legible phrase) same

/-- Words with brackets, a joint and a backslash, and behind them an open quote with an escaped
quote and a dangling backslash, on a field with both variants. -/
theorem phraseText_spec_dangling :
    let options : FieldOptions :=
      { boost := some (.finite false 2 0), exactVariant := some "t-exact",
        stemmedVariant := some "t-stem" }
    let schema : Schema := { fields := ⟨[("t", options)], by decide⟩ }
    let catalog := schema.catalog
    let field := catalog.descriptor "t"
    let phrase := "x) AND y:\\ \"p\\\" OR \\"
    let text :=
      "-(t-stem:x\\) AND t-stem:AND AND t-stem:y\\:\\\\ AND t-exact:\"p\\\" OR \\\\\")^2.0"
    (IsName field.name ∧ (∀ variant ∈ catalog.exactVariant field.name, IsName variant) ∧
      (∀ variant ∈ catalog.stemmedVariant field.name, IsName variant)) ∧
    phraseText catalog field true phrase = text ∧
    ∃ clauses stated, IsGroup text true field.suffix clauses ∧
      List.Forall₂ (Segment.States catalog field.name) (Segment.ofPhrase phrase.toList) stated ∧
      clauses.map charsOf = stated.flatten := by
  intro options schema catalog field phrase text
  have named : IsName field.name := by decide
  have exact : ∀ variant ∈ catalog.exactVariant field.name, IsName variant := by
    intro variant same
    obtain rfl : "t-exact" = variant := Option.some.inj same
    decide
  have stemmed : ∀ variant ∈ catalog.stemmedVariant field.name, IsName variant := by
    intro variant same
    obtain rfl : "t-stem" = variant := Option.some.inj same
    decide
  have written : phraseText catalog field true phrase = text := by decide +kernel
  have segments : Segment.ofPhrase phrase.toList ≠ [] := by decide +kernel
  have spec := (phraseText_spec named exact stemmed true phrase).2.1 segments
  rw [written] at spec
  exact ⟨⟨named, exact, stemmed⟩, written, spec⟩

end Comparison

end FacetSearch
