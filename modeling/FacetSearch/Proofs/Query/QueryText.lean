import FacetSearch.Proofs.Query.ClauseText
import FacetSearch.Query.Basic

/-!
What a reader makes of the text of a query. `fits_write` gives its pieces, for every tree of legible
clauses in which no joining word stands before a joint (`isApart`). `isPart_pieces` gives the tree
of these pieces where the kinds of nodes alternate: then every node of several parts stands in
parentheses of its own, or at the top.
-/

set_option autoImplicit false

namespace FacetSearch

namespace Junction

/-- The node of a query. -/
def query : Junction → List Query → Query
  | all => .all
  | any => .any

/-- The place of the parts of a node. -/
def place : Junction → Query.Place
  | all => .inAll
  | any => .inAny

/-- The other kind of node, which needs parentheses below this one. -/
def other : Junction → Junction
  | all => any
  | any => all

theorem query_inj {first second : Junction} {inner others : List Query}
    (same : first.query inner = second.query others) : first = second ∧ inner = others := by
  cases first <;> cases second <;> cases same
  all_goals exact ⟨rfl, rfl⟩

theorem eq_other_of_ne {first second : Junction} (different : first ≠ second) :
    second = first.other := by
  cases first <;> cases second <;> first | rfl | exact absurd rfl different

end Junction

namespace Query

open Piece (Fits joined)

/-- Every clause satisfies a condition, and groups hold no nodes. -/
inductive Every (good : FieldDescriptor → Clause → Prop) : Query → Prop
  | clause {field : FieldDescriptor} {body : Clause} (holds : good field body) :
      Every good (.clause field body)
  | node (kind : Junction) {parts : List Query} (each : ∀ part ∈ parts, Every good part) :
      Every good (kind.query parts)
  | group {parts : List Query} (expanded : ∀ part ∈ parts, ∀ (kind : Junction) inner,
      part ≠ kind.query inner) (each : ∀ part ∈ parts, Every good part) : Every good
        (.group parts)

/-- Nodes and groups have parts, and none of these is a node of the same kind. -/
inductive Alternates : Query → Prop
  | clause (field : FieldDescriptor) (body : Clause) : Alternates (.clause field body)
  | node (kind : Junction) {parts : List Query} (inhabited : parts ≠ [])
      (unlike : ∀ part ∈ parts, ∀ inner, part ≠ kind.query inner)
      (each : ∀ part ∈ parts, Alternates part) : Alternates (kind.query parts)
  | group {parts : List Query} (inhabited : parts ≠ [])
      (unlike : ∀ part ∈ parts, ∀ inner, part ≠ Junction.any.query inner)
      (each : ∀ part ∈ parts, Alternates part) : Alternates (.group parts)

mutual

/-- Whether the text of a query ends in a word that joins clauses: in its place, it ends with that
of a clause which does. Parentheses around a node end its text. -/
def endsInJoint (place : Place) : Query → Bool
  | clause field body => body.endsInJoint field
  | all parts => (place != .inAny || decide (parts.length ≤ 1)) && lastEndsInJoint .inAll parts
  | any parts => (place != .inAll || decide (parts.length ≤ 1)) && lastEndsInJoint .inAny parts
  | group _ => false

/-- Whether the text of the last one of several parts does. -/
def lastEndsInJoint (place : Place) : List Query → Bool
  | [] => false
  | part :: rest => if rest.isEmpty then part.endsInJoint place else lastEndsInJoint place rest

end

mutual

/-- Whether no part whose text ends in a word that joins clauses stands before another part. -/
def isApart : Query → Bool
  | clause _ _ => true
  | all parts => areApart .inAll parts
  | any parts => areApart .inAny parts
  | group parts => areApart .inAny parts

/-- Whether no such part stands among several, or inside one of them. -/
def areApart (place : Place) : List Query → Bool
  | [] => true
  | part :: rest => (rest.isEmpty || !part.endsInJoint place) && part.isApart && areApart place rest

end

/-- Parts with joints between them, in parentheses if there are several and the place needs them. -/
def joinPieces (kind : Junction) (wrap : Bool) (parts : List (List Piece)) : List Piece :=
  if wrap && decide (1 < parts.length) then [.bracketed '(' (joined kind parts)]
  else joined kind parts

mutual

/-- The pieces of the text of a query in its place. -/
def pieces (place : Place) : Query → List Piece
  | clause field body => body.pieces field
  | all parts => joinPieces .all (place == .inAny) (piecesOfParts .inAll parts)
  | any parts => joinPieces .any (place == .inAll) (piecesOfParts .inAny parts)
  | group parts => [.bracketed '(' (joined .any (piecesOfParts .inAny parts))]

/-- The pieces of the parts of a query. -/
def piecesOfParts (place : Place) : List Query → List (List Piece)
  | [] => []
  | part :: rest => part.pieces place :: piecesOfParts place rest

end

mutual

/-- The tree of a query: groups are nodes, and a lone part is not one. -/
def outline : Query → Outline
  | clause field body => body.outline field
  | all parts => .gather .all (outlines parts)
  | any parts => .gather .any (outlines parts)
  | group parts => .gather .any (outlines parts)

/-- The trees of the parts of a query. -/
def outlines : List Query → List Outline
  | [] => []
  | part :: rest => part.outline :: outlines rest

end

theorem writeParts_eq (place : Place) (parts : List Query) :
    writeParts place parts = parts.map (write place) := by
  induction parts with
  | nil => rfl
  | cons part rest ih => rw [writeParts, ih, List.map_cons]

theorem piecesOfParts_eq (place : Place) (parts : List Query) :
    piecesOfParts place parts = parts.map (pieces place) := by
  induction parts with
  | nil => rfl
  | cons part rest ih => rw [piecesOfParts, ih, List.map_cons]

theorem outlines_eq (parts : List Query) : outlines parts = parts.map outline := by
  induction parts with
  | nil => rfl
  | cons part rest ih => rw [outlines, ih, List.map_cons]

theorem pieces_query (kind : Junction) (place : Place) (parts : List Query) :
    (kind.query parts).pieces place
      = joinPieces kind (place == kind.other.place) (parts.map (pieces kind.place)) := by
  rw [← piecesOfParts_eq]
  cases kind <;> rfl

theorem outline_query (kind : Junction) (parts : List Query) :
    (kind.query parts).outline = .gather kind (parts.map outline) := by
  rw [← outlines_eq]
  cases kind <;> rfl

theorem pieces_group (place : Place) (parts : List Query) :
    (group parts).pieces place = [.bracketed '(' (joined .any (parts.map (pieces .inAny)))] := by
  rw [pieces, piecesOfParts_eq]

theorem outline_group (parts : List Query) :
    (group parts).outline = .gather .any (parts.map outline) := by
  rw [outline, outlines_eq]

theorem toList_write_query (kind : Junction) (place : Place) (parts : List Query) :
    ((kind.query parts).write place).toList
      = if (place == kind.other.place) && decide (1 < parts.length) then
          '(' :: (kind.word.intercalate (parts.map fun part =>
            (part.write kind.place).toList) ++ [')'])
        else kind.word.intercalate (parts.map fun part => (part.write kind.place).toList) := by
  have whole : (kind.query parts).write place
      = join (String.ofList kind.word) (place == kind.other.place)
          (parts.map (write kind.place)) := by
    rw [← writeParts_eq]
    cases kind <;> rfl
  rw [whole, join, List.length_map]
  split
  · simp [Function.comp_def]
  · simp [Function.comp_def]

theorem Every.of_query {good : FieldDescriptor → Clause → Prop} {kind : Junction}
    {parts : List Query} (every : (kind.query parts).Every good) :
    ∀ part ∈ parts, part.Every good := by
  generalize same : kind.query parts = query at every
  cases every with
  | node kind each =>
      obtain ⟨rfl, rfl⟩ := Junction.query_inj same
      exact each
  | clause | group => cases kind <;> cases same

theorem Every.of_clause {good : FieldDescriptor → Clause → Prop} {field : FieldDescriptor}
    {body : Clause} (every : (Query.clause field body).Every good) : good field body := by
  generalize same : Query.clause field body = query at every
  cases every with
  | clause holds =>
      cases same
      exact holds
  | node kind => cases kind <;> cases same
  | group => cases same

theorem Every.of_group {good : FieldDescriptor → Clause → Prop} {parts : List Query}
    (every : (Query.group parts).Every good) : ∀ part ∈ parts, part.Every good := by
  generalize same : Query.group parts = query at every
  cases every with
  | group expanded each =>
      cases same
      exact each
  | node kind => cases kind <;> cases same
  | clause => cases same

theorem lastEndsInJoint_eq (place : Place) (parts : List Query) :
    lastEndsInJoint place parts = parts.getLast?.any (endsInJoint place) := by
  induction parts with
  | nil => rfl
  | cons part rest ih =>
      rw [lastEndsInJoint]
      cases rest with
      | nil => rfl
      | cons second rest => exact ih

theorem endsInJoint_query (kind : Junction) (place : Place) (parts : List Query) :
    (kind.query parts).endsInJoint place
      = ((place != kind.other.place || decide (parts.length ≤ 1))
        && parts.getLast?.any (endsInJoint kind.place)) := by
  rw [← lastEndsInJoint_eq]
  cases kind <;> rfl

theorem areApart_iff (place : Place) (parts : List Query) :
    areApart place parts = true ↔
      (∀ part ∈ parts.dropLast, part.endsInJoint place = false) ∧
        ∀ part ∈ parts, part.isApart = true := by
  induction parts with
  | nil => simp [areApart]
  | cons part rest ih =>
      rw [areApart, Bool.and_eq_true, ih]
      cases rest with
      | nil => simp
      | cons second rest =>
          rw [List.dropLast_cons_cons, List.forall_mem_cons, List.forall_mem_cons]
          simp [and_assoc, and_left_comm]

theorem isApart_query (kind : Junction) (parts : List Query) :
    (kind.query parts).isApart = areApart kind.place parts := by
  cases kind <;> rfl

/-- Where no clause ends in a word that joins clauses, no part does. -/
theorem Every.endsInJoint_eq {query : Query}
    (every : query.Every fun field body => body.endsInJoint field = false) (place : Place) :
    query.endsInJoint place = false := by
  induction every generalizing place with
  | clause holds => exact holds
  | @node kind parts each ih =>
      rw [endsInJoint_query, Bool.and_eq_false_iff]
      refine .inr ((Option.any_eq_false _ _).mpr fun last final => ?_)
      exact ih last (List.mem_of_getLast? final) kind.place
  | group => rfl

theorem Every.isApart_eq {query : Query}
    (every : query.Every fun field body => body.endsInJoint field = false) :
    query.isApart = true := by
  induction every with
  | clause => rfl
  | node kind each ih =>
      rw [isApart_query, areApart_iff]
      refine ⟨fun part member => ?_, ih⟩
      exact (each part (List.mem_of_mem_dropLast member)).endsInJoint_eq kind.place
  | group _ each ih =>
      rw [isApart, areApart_iff]
      refine ⟨fun part member => ?_, ih⟩
      exact (each part (List.mem_of_mem_dropLast member)).endsInJoint_eq .inAny

/-- Texts of parts with joints between them: all but the last one are followed by a joint, and the
last one by what follows the whole. -/
theorem fits_parts {kind : Junction} {parts : List Query} {followed : Bool}
    (each : ∀ part ∈ parts, ∀ {followed : Bool},
      (followed = true → part.endsInJoint kind.place = false) →
      Fits followed (part.write kind.place).toList (part.pieces kind.place))
    (before : ∀ part ∈ parts.dropLast, part.endsInJoint kind.place = false)
    (final : ∀ last ∈ parts.getLast?, followed = true → last.endsInJoint kind.place = false) :
    Fits followed (kind.word.intercalate (parts.map fun part => (part.write kind.place).toList))
      (joined kind (parts.map (pieces kind.place))) := by
  apply Piece.fits_intercalate
  · intro part member
    exact each part (List.mem_of_mem_dropLast member) fun _ => before part member
  · intro last member
    exact each last (List.mem_of_getLast? member) (final last member)

/-- A tree of legible clauses is read piece by piece, whatever its shape. -/
theorem fits_write {query : Query} (legible : query.Every fun field body => body.Legible field)
    (apart : query.isApart = true) {place : Place} {followed : Bool}
    (ends : followed = true → query.endsInJoint place = false) :
    Fits followed (query.write place).toList (query.pieces place) := by
  induction legible generalizing place followed with
  | clause holds => exact Clause.fits_clause holds ends
  | @node kind parts each ih =>
      rw [isApart_query, areApart_iff] at apart
      obtain ⟨before, below⟩ := apart
      rw [toList_write_query, pieces_query, joinPieces, List.length_map]
      split
      · have inside : Fits false
            (kind.word.intercalate (parts.map fun part => (part.write kind.place).toList))
            (joined kind (parts.map (pieces kind.place))) :=
          fits_parts (fun part member => ih part member (below part member)) before fun _ _ => nofun
        exact inside.enclosed.fits
      · rename_i bare
        apply fits_parts (fun part member => ih part member (below part member)) before
        intro last final behind
        have none := ends behind
        rw [endsInJoint_query, Bool.and_eq_false_iff] at none
        rcases none with wrapped | none
        · exact absurd (by simpa using wrapped) bare
        · exact (Option.any_eq_false _ _).mp none last final
  | @group parts expanded each ih =>
      rw [isApart, areApart_iff] at apart
      obtain ⟨before, below⟩ := apart
      have inside : Fits false
          (Junction.any.word.intercalate (parts.map fun part => (part.write .inAny).toList))
          (joined .any (parts.map (pieces .inAny))) :=
        fits_parts (fun part member => ih part member (below part member)) before fun _ _ => nofun
      have whole : ((group parts).write place).toList = '(' :: (Junction.any.word.intercalate
          (parts.map fun part => (part.write .inAny).toList) ++ [')']) := by
        simp [write, writeParts_eq, Junction.word, Function.comp_def]
      rw [whole, pieces_group]
      exact inside.enclosed.fits

theorem ofText?_write {query : Query} (legible : query.Every fun field body => body.Legible field)
    (apart : query.isApart = true) (place : Place) :
    Piece.ofText? (query.write place).toList = some (query.pieces place) := by
  have fits : Fits false (query.write place).toList (query.pieces place) :=
    fits_write legible apart nofun
  exact fits.ofText?_eq

theorem isPart_parenthesized {inside : List Piece} {tree : Outline}
    (whole : Outline.ofPieces? inside = some tree) :
    Outline.IsPart [.bracketed '(' inside] tree :=
  Outline.isPart_enclosed whole false (.inl rfl)

/-- Where the kinds of nodes alternate, the pieces have the tree of the query; and in a place that
asks for parentheses they are one part. -/
theorem isPart_pieces {query : Query} (alternates : query.Alternates)
    (legible : query.Every fun field body => body.Legible field) :
    (∀ place, Outline.ofPieces? (query.pieces place) = some query.outline) ∧
    (∀ kind : Junction, (∀ inner, query ≠ kind.query inner) →
      Outline.IsPart (query.pieces kind.place) query.outline) := by
  induction alternates with
  | clause field body =>
      have part := Clause.isPart_clause legible.of_clause
      exact ⟨fun _ => part.ofPieces?_eq, fun _ _ => part⟩
  | @node kind parts inhabited unlike each ih =>
      have inner : ∀ part ∈ parts, Outline.IsPart (part.pieces kind.place) part.outline := by
        intro part member
        exact (ih part member (legible.of_query part member)).2 kind (unlike part member)
      have level := Outline.ofPieces?_joined kind inhabited inner
      have enclosed := isPart_parenthesized level
      rw [outline_query]
      refine ⟨fun place => ?_, fun above different => ?_⟩
      · rw [pieces_query, joinPieces]
        split
        · exact enclosed.ofPieces?_eq
        · exact level
      · have below : kind ≠ above := by
          rintro rfl
          exact different parts rfl
        rw [pieces_query, joinPieces, Junction.eq_other_of_ne below, List.length_map]
        by_cases several : 1 < parts.length
        · simpa [several] using enclosed
        · -- A lone part needs no parentheses: it is one part already.
          have some := List.length_pos_iff.mpr inhabited
          obtain ⟨only, rfl⟩ := List.length_eq_one_iff.mp (by omega : parts.length = 1)
          have lone := inner only List.mem_cons_self
          simpa [Piece.joined, Outline.gather] using lone
  | @group parts inhabited unlike each ih =>
      have inner : ∀ part ∈ parts, Outline.IsPart (part.pieces .inAny) part.outline := by
        intro part member
        exact (ih part member (legible.of_group part member)).2 .any (unlike part member)
      have part := isPart_parenthesized (Outline.ofPieces?_joined .any inhabited inner)
      simp only [pieces_group, outline_group]
      exact ⟨fun _ => part.ofPieces?_eq, fun _ _ => part⟩

theorem pieces_ne_nil {query : Query} (alternates : query.Alternates) (place : Place) :
    query.pieces place ≠ [] := by
  induction alternates generalizing place with
  | clause field body => cases body <;> simp [pieces, Clause.pieces]
  | @node kind parts inhabited unlike each ih =>
      rw [pieces_query, joinPieces]
      split
      · exact List.cons_ne_nil _ _
      · rcases parts with _ | ⟨first, _ | ⟨second, rest⟩⟩
        · exact absurd rfl inhabited
        · simpa [Piece.joined] using ih first List.mem_cons_self kind.place
        · simp [Piece.joined_cons_cons]
  | group => simp [pieces_group]

theorem write_ne_empty {query : Query} (alternates : query.Alternates)
    (legible : query.Every fun field body => body.Legible field) (apart : query.isApart = true) :
    query.write .top ≠ "" := by
  intro empty
  have read := ofText?_write legible apart .top
  have nothing : Piece.ofText? "".toList = some [] := by simp [Piece.ofText?, Piece.read?]
  rw [empty, nothing] at read
  exact pieces_ne_nil alternates .top (Option.some.inj read).symm

/-- The text of a query is read as its tree. -/
theorem read?_write {query : Query} (alternates : query.Alternates)
    (legible : query.Every fun field body => body.Legible field) (apart : query.isApart = true) :
    Outline.read? (query.write .top) = query.outline := by
  have some := write_ne_empty alternates legible apart
  have pieces := ofText?_write legible apart .top
  have tree := (isPart_pieces alternates legible).1 .top
  rw [Outline.read?, if_neg (by simpa using some), pieces]
  exact tree

end Query

end FacetSearch
