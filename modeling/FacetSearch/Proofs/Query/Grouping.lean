import FacetSearch.Proofs.Query.Compilation

/-!
Grouping by parentheses, for trees of every shape. A node is put in parentheses below a node of the
other kind if it has several parts of its own. A lone part that is a node of the same kind stays
without them, and so does the node around it: `grouped_iff_tight` says that this is the only way in
which the grouping is lost.
-/

set_option autoImplicit false

namespace FacetSearch

namespace Piece

/-- The levels of brackets in pieces: the outermost one, and those inside. -/
inductive IsLevel : List Piece → List Piece → Prop
  | outer (pieces : List Piece) : IsLevel pieces pieces
  | inside {pieces inner level : List Piece} {opening : Char}
      (member : bracketed opening inner ∈ pieces) (within : IsLevel inner level) :
      IsLevel pieces level

/-- No level has joints of both kinds. -/
def Uniform (pieces : List Piece) : Prop :=
  ∀ level, IsLevel pieces level → ¬ (joint .all ∈ level ∧ joint .any ∈ level)

theorem uniform_of_inside {pieces : List Piece}
    (outer : ¬ (joint .all ∈ pieces ∧ joint .any ∈ pieces))
    (inside : ∀ opening inner, bracketed opening inner ∈ pieces → Uniform inner) :
    Uniform pieces := by
  intro level within
  cases within with
  | outer => exact outer
  | inside member deeper => exact inside _ _ member level deeper

theorem mem_joined {kind : Junction} {parts : List (List Piece)} {piece : Piece} :
    piece ∈ joined kind parts ↔
      (∃ part ∈ parts, piece ∈ part) ∨ (piece = joint kind ∧ 1 < parts.length) := by
  induction parts with
  | nil => simp [joined]
  | cons first rest ih =>
      cases rest with
      | nil => simp [joined]
      | cons second rest =>
          rw [joined_cons_cons, List.mem_append, List.mem_cons, ih]
          constructor
          · rintro (held | rfl | ⟨part, member, held⟩ | ⟨rfl, _⟩)
            · exact .inl ⟨first, List.mem_cons_self, held⟩
            · exact .inr ⟨rfl, by simp⟩
            · exact .inl ⟨part, List.mem_cons_of_mem _ member, held⟩
            · exact .inr ⟨rfl, by simp⟩
          · rintro (⟨part, member, held⟩ | ⟨rfl, _⟩)
            · rcases List.mem_cons.mp member with rfl | member
              · exact .inl held
              · exact .inr (.inr (.inl ⟨part, member, held⟩))
            · exact .inr (.inl rfl)

/-- Pieces without brackets and joints. -/
def Flat (pieces : List Piece) : Prop := ∀ piece ∈ pieces, ∃ chars, piece = text chars

theorem flat_nil : Flat [] := nofun

theorem flat_single (letters : List Char) : Flat (single letters) := by
  intro piece member
  obtain ⟨c, _, rfl⟩ := List.mem_map.mp member
  exact ⟨[c], rfl⟩

theorem Flat.uniform {pieces : List Piece} (flat : Flat pieces) : Uniform pieces := by
  apply uniform_of_inside
  · rintro ⟨conjoined, _⟩
    obtain ⟨_, same⟩ := flat _ conjoined
    cases same
  · intro opening inner member
    obtain ⟨_, same⟩ := flat _ member
    cases same

/-- Uniform parts with joints of one kind between them and no others in the open. -/
theorem uniform_joined {kind : Junction} {parts : List (List Piece)}
    (uniform : ∀ part ∈ parts, Uniform part)
    (joints : ∀ part ∈ parts, ∀ other, joint other ∈ part → other = kind) :
    Uniform (joined kind parts) := by
  have same : ∀ other, joint other ∈ joined kind parts → other = kind := by
    intro other shown
    rcases mem_joined.mp shown with ⟨part, member, held⟩ | ⟨same, _⟩
    · exact joints part member other held
    · exact joint.inj same
  apply uniform_of_inside
  · rintro ⟨conjoined, disjoined⟩
    cases (same _ conjoined).trans (same _ disjoined).symm
  · intro opening inner shown
    rcases mem_joined.mp shown with ⟨part, member, held⟩ | ⟨other, _⟩
    · exact fun level within => uniform part member level (.inside held within)
    · cases other

theorem uniform_joined_flat (kind : Junction) {parts : List (List Piece)}
    (flat : ∀ part ∈ parts, Flat part) : Uniform (joined kind parts) := by
  refine uniform_joined (fun part member => (flat part member).uniform) ?_
  intro part member other held
  obtain ⟨_, same⟩ := flat part member _ held
  cases same

theorem flat_append {front back : List Piece} (head : Flat front) (tail : Flat back) :
    Flat (front ++ back) := by
  intro piece member
  rcases List.mem_append.mp member with member | member
  · exact head piece member
  · exact tail piece member

theorem flat_cons (letters : List Char) {rest : List Piece} (flat : Flat rest) :
    Flat (.text letters :: rest) := by
  intro piece member
  rcases List.mem_cons.mp member with rfl | member
  · exact ⟨letters, rfl⟩
  · exact flat piece member

/-- Words around one pair of brackets are uniform if these are. -/
theorem uniform_bracketed {front back inside : List Piece} (opening : Char) (head : Flat front)
    (tail : Flat back) (uniform : Uniform inside) :
    Uniform (front ++ .bracketed opening inside :: back) := by
  have only : ∀ piece ∈ front ++ .bracketed opening inside :: back,
      (∃ chars, piece = .text chars) ∨ piece = .bracketed opening inside := by
    intro piece member
    rcases List.mem_append.mp member with member | member
    · exact .inl (head piece member)
    · rcases List.mem_cons.mp member with same | member
      · exact .inr same
      · exact .inl (tail piece member)
  apply uniform_of_inside
  · rintro ⟨conjoined, _⟩
    rcases only _ conjoined with ⟨_, same⟩ | same <;> cases same
  · intro opening inner member
    rcases only _ member with ⟨_, same⟩ | same
    · cases same
    · cases same
      exact uniform

theorem uniform_enclosed {inside : List Piece} (uniform : Uniform inside) :
    Uniform [.bracketed '(' inside] :=
  uniform_bracketed '(' flat_nil flat_nil uniform

end Piece

open Piece (Uniform IsLevel Flat joined mem_joined flat_nil flat_single flat_append flat_cons
  uniform_bracketed uniform_enclosed)

theorem Engine.flat_valuePieces (value : String) : Flat (valuePieces value) := by
  unfold valuePieces
  split
  · exact flat_single _
  · exact flat_cons _ flat_nil

theorem FreeTerm.flat_pieces (term : FreeTerm) : Flat term.pieces := by
  apply flat_append (flat_single _)
  apply flat_cons
  cases term with
  | word variant letters =>
      intro piece member
      obtain ⟨c, _, rfl⟩ := List.mem_map.mp member
      split
      · exact ⟨_, rfl⟩
      · exact ⟨_, rfl⟩
  | phrase variant contents => exact flat_cons _ flat_nil

/-- The brackets of a clause enclose values, terms or a limit. -/
theorem Clause.uniform_pieces (field : FieldDescriptor) (clause : Clause) :
    Uniform (clause.pieces field) := by
  have suffix := flat_single field.suffix.toList
  have name : ∀ letters, Flat (Piece.single letters ++ [.text [':']]) :=
    fun letters => flat_append (flat_single letters) (flat_cons _ flat_nil)
  cases clause with
  | value negated contents =>
      have flat : Flat ((Clause.value negated contents).pieces field) :=
        flat_append (flat_single _)
          (flat_cons _ (flat_append (Engine.flat_valuePieces contents) suffix))
      exact flat.uniform
  | freeText negated terms =>
      have inside := Piece.uniform_joined_flat .all
        (List.forall_mem_map.mpr fun term (_ : term ∈ terms) => term.flat_pieces)
      exact uniform_bracketed '(' (flat_single _) suffix inside
  | oneOf values =>
      have inside := Piece.uniform_joined_flat .any
        (List.forall_mem_map.mpr fun value (_ : value ∈ values) => Engine.flat_valuePieces value)
      have whole := uniform_bracketed '(' (name field.name.toList) suffix inside
      rwa [List.append_assoc] at whole
  | range bound limit =>
      have bracketed : ∀ opening letters, Uniform (Piece.single field.name.toList ++
          .text [':'] :: ([.bracketed opening (Piece.single letters)] ++
            Piece.single field.suffix.toList)) := by
        intro opening letters
        have whole := uniform_bracketed opening (name field.name.toList) suffix
          (flat_single letters).uniform
        rwa [List.append_assoc] at whole
      cases bound <;> exact bracketed _ _
  | custom symbol arguments =>
      have flat : Flat ((Clause.custom symbol arguments).pieces field) :=
        flat_append (flat_single _)
          (flat_cons _ (flat_append (flat_single _) (flat_single _)))
      exact flat.uniform

namespace Query

/-- The trees inside a tree. -/
inductive Contains : Query → Query → Prop
  | itself (query : Query) : Contains query query
  | node (kind : Junction) {parts : List Query} {part inner : Query} (member : part ∈ parts)
      (within : Contains part inner) : Contains (kind.query parts) inner

/-- Nodes whose text has joints of a kind where nothing asks for parentheses: those with several
parts, and those whose lone part is such a node. -/
inductive Spreads (kind : Junction) : Query → Prop
  | several {parts : List Query} (several : 1 < parts.length) : Spreads kind (kind.query parts)
  | lone {only : Query} (spreads : Spreads kind only) : Spreads kind (kind.query [only])

/-- No node below one of the other kind has a lone part that is a node of its own kind and comes to
several parts. -/
def Tight (query : Query) : Prop :=
  ∀ (kind : Junction) parts only, query.Contains (kind.query parts) →
    kind.other.query [only] ∈ parts → ¬ only.Spreads kind.other

/-- A text that is one part of the level on which it stands. -/
def StandsAlone (text : String) : Prop :=
  ∃ pieces, Piece.ofText? text.toList = some pieces ∧ Outline.Jointless pieces

/-- The text of every node below one of the other kind has one part, or parentheses around it. -/
def Enclosed (query : Query) : Prop :=
  ∀ (kind : Junction) parts inner, query.Contains (kind.query parts) →
    kind.other.query inner ∈ parts → StandsAlone ((kind.other.query inner).write kind.place)

theorem Spreads.exists_parts {kind : Junction} {query : Query} (spreads : query.Spreads kind) :
    ∃ parts, query = kind.query parts := by
  cases spreads with
  | several => exact ⟨_, rfl⟩
  | lone => exact ⟨_, rfl⟩

theorem Tight.of_query {kind : Junction} {parts : List Query} (tight : (kind.query parts).Tight) :
    ∀ part ∈ parts, part.Tight :=
  fun _ member above inner only within => tight above inner only (.node kind member within)

theorem place_ne_place_other (kind : Junction) : kind.place ≠ kind.other.place := by
  cases kind <;> decide

theorem other_other (kind : Junction) : kind.other.other = kind := by
  cases kind <;> rfl

theorem eq_of_place_ne {first second : Junction} (different : first.place ≠ second.other.place) :
    second = first := by
  cases first <;> cases second <;> first | rfl | exact absurd rfl different

/-- A node with open joints shows them in every place that does not ask for parentheses. -/
theorem Spreads.joint_mem {kind : Junction} {query : Query} (spreads : query.Spreads kind)
    {place : Place} (open_ : place ≠ kind.other.place) :
    Piece.joint kind ∈ query.pieces place := by
  induction spreads generalizing place with
  | @several parts several =>
      have unwrapped : (place == kind.other.place) = false := by simpa using open_
      rw [pieces_query, joinPieces, unwrapped, Bool.false_and]
      exact mem_joined.mpr (.inr ⟨rfl, by simpa using several⟩)
  | @lone only spreads ih =>
      have inner := ih (place_ne_place_other kind)
      rw [pieces_query, joinPieces]
      simpa [joined] using inner

/-- A node around a lone part never has parentheses of its own. -/
theorem Spreads.joint_mem_lone {kind : Junction} {only : Query} (spreads : only.Spreads kind)
    (place : Place) : Piece.joint kind ∈ (kind.query [only]).pieces place := by
  have inner := spreads.joint_mem (place_ne_place_other kind)
  rw [pieces_query, joinPieces]
  simpa [joined] using inner

theorem tight_of_leaf {query : Query}
    (leaf : ∀ (kind : Junction) inner, query ≠ kind.query inner) : query.Tight := by
  intro kind parts only within
  generalize same : kind.query parts = node at within
  cases within with
  | itself => exact absurd same.symm (leaf kind parts)
  | node above => exact absurd rfl (leaf above _)

/-- In a tight tree, joints stand open only where nodes of their kind have several parts. A place
that asks for parentheses shows those of a lone part. -/
theorem spreads_of_joint_mem {query : Query}
    (legible : query.Every fun field body => body.Legible field) (tight : query.Tight)
    {place : Place} {kind : Junction} (shown : Piece.joint kind ∈ query.pieces place) :
    query.Spreads kind ∧ (place = kind.other.place →
      ∃ only, query = kind.query [only] ∧ only.Spreads kind) := by
  induction legible generalizing place kind with
  | clause holds => exact absurd shown ((Clause.isPart_clause holds).lone kind)
  | @node own parts each ih =>
      have below : ∀ part ∈ parts, ∀ joint, Piece.joint joint ∈ part.pieces own.place →
          joint = own ∧ part.Spreads own := by
        intro part member joint held
        obtain ⟨spreads, alone⟩ := ih part member (tight.of_query part member) held
        by_cases asks : own.place = joint.other.place
        · obtain ⟨only, rfl, inner⟩ := alone asks
          have unlike : joint = own.other := by
            cases own <;> cases joint <;> first | rfl | exact absurd asks (by decide)
          subst unlike
          exact absurd inner (tight own parts only (.itself _) member)
        · have same := eq_of_place_ne asks
          subst same
          exact ⟨rfl, spreads⟩
      rw [pieces_query, joinPieces] at shown
      split at shown
      · cases List.mem_singleton.mp shown
      · rename_i unwrapped
        have joints : kind = own ∧ (1 < parts.length ∨
            ∃ part ∈ parts, part.Spreads own) := by
          rcases mem_joined.mp shown with ⟨pieces, member, held⟩ | ⟨same, several⟩
          · obtain ⟨part, found, rfl⟩ := List.mem_map.mp member
            have inner := below part found kind held
            exact ⟨inner.1, .inr ⟨part, found, inner.2⟩⟩
          · rw [List.length_map] at several
            exact ⟨Piece.joint.inj same, .inl several⟩
        obtain ⟨rfl, width⟩ := joints
        by_cases several : 1 < parts.length
        · refine ⟨.several several, fun asks => ?_⟩
          simp [asks, several] at unwrapped
        · rcases width with many | ⟨part, member, spreads⟩
          · exact absurd many several
          · have inhabited := List.length_pos_of_mem member
            obtain ⟨only, rfl⟩ := List.length_eq_one_iff.mp (by omega : parts.length = 1)
            rw [List.mem_singleton.mp member] at spreads
            exact ⟨.lone spreads, fun _ => ⟨only, rfl, spreads⟩⟩
  | @group parts expanded each ih =>
      rw [pieces_group] at shown
      cases List.mem_singleton.mp shown

/-- In a tight tree, no level of brackets has joints of both kinds. -/
theorem uniform_pieces {query : Query}
    (legible : query.Every fun field body => body.Legible field) (tight : query.Tight)
    (place : Place) : Uniform (query.pieces place) := by
  have level : ∀ (kind : Junction) (parts : List Query),
      (∀ part ∈ parts, Uniform (part.pieces kind.place)) →
      (∀ part ∈ parts, ∀ joint, Piece.joint joint ∈ part.pieces kind.place →
        joint = kind) →
      Uniform (joined kind (parts.map (pieces kind.place))) :=
    fun kind parts uniform joints =>
      Piece.uniform_joined (List.forall_mem_map.mpr uniform) (List.forall_mem_map.mpr joints)
  induction legible generalizing place with
  | @clause field body holds => exact body.uniform_pieces field
  | @node kind parts each ih =>
      have inside := level kind parts
        (fun part member => ih part member (tight.of_query part member) kind.place) (by
          intro part member joint shown
          have open_ := spreads_of_joint_mem (each part member) (tight.of_query part member) shown
          by_contra different
          have asks : kind.place = joint.other.place := by
            by_contra apart
            exact different (eq_of_place_ne apart)
          obtain ⟨only, rfl, inner⟩ := open_.2 asks
          have unlike : joint = kind.other :=
            Junction.eq_other_of_ne fun same => different same.symm
          subst unlike
          exact tight kind parts only (.itself _) member inner)
      rw [pieces_query, joinPieces]
      split
      · exact uniform_enclosed inside
      · exact inside
  | @group parts expanded each ih =>
      have inside := level .any parts
        (fun part member => ih part member (tight_of_leaf (expanded part member)) .inAny) (by
          intro part member joint shown
          have open_ := spreads_of_joint_mem (each part member)
            (tight_of_leaf (expanded part member)) shown
          obtain ⟨others, same⟩ := open_.1.exists_parts
          exact absurd same (expanded part member joint others))
      rw [pieces_group]
      exact uniform_enclosed inside

theorem Contains.trans {first second third : Query} (one : first.Contains second)
    (other : second.Contains third) : first.Contains third := by
  induction one with
  | itself => exact other
  | node kind member _ ih => exact .node kind member (ih other)

theorem Every.of_contains {good : FieldDescriptor → Clause → Prop} {query inner : Query}
    (every : query.Every good) (within : query.Contains inner) : inner.Every good := by
  induction within with
  | itself => exact every
  | node kind member _ ih => exact ih (every.of_query _ member)

theorem isApart_of_mem {kind : Junction} {parts : List Query} {part : Query}
    (apart : (kind.query parts).isApart = true) (member : part ∈ parts) :
    part.isApart = true := by
  rw [isApart_query, areApart_iff] at apart
  exact apart.2 part member

theorem isApart_of_contains {query inner : Query} (apart : query.isApart = true)
    (within : query.Contains inner) : inner.isApart = true := by
  induction within with
  | itself => exact apart
  | node kind member _ ih => exact ih (isApart_of_mem apart member)

/-- The grouping of a tree is kept exactly if the tree is tight. -/
theorem grouped_iff_tight {query : Query}
    (legible : query.Every fun field body => body.Legible field) (apart : query.isApart = true) :
    (Uniform (query.pieces .top) ∧ query.Enclosed) ↔ query.Tight := by
  have child : ∀ {kind : Junction} {parts : List Query} {part : Query},
      query.Contains (kind.query parts) → part ∈ parts →
      part.Every fun field body => body.Legible field :=
    fun within member => (legible.of_contains within).of_query _ member
  have reads : ∀ {kind : Junction} {parts : List Query} {part : Query},
      query.Contains (kind.query parts) → part ∈ parts → ∀ place,
      Piece.ofText? (part.write place).toList = some (part.pieces place) :=
    fun within member => ofText?_write (child within member)
      (isApart_of_mem (isApart_of_contains apart within) member)
  constructor
  · rintro ⟨_, enclosed⟩ kind parts only within member spreads
    obtain ⟨pieces, read, lone⟩ := enclosed kind parts [only] within member
    have same := Option.some.inj ((reads within member kind.place).symm.trans read)
    apply lone kind.other
    rw [← same]
    exact spreads.joint_mem_lone kind.place
  · intro tight
    refine ⟨uniform_pieces legible tight .top, ?_⟩
    intro kind parts inner within member
    have below : (kind.other.query inner).Tight := by
      intro above others only deeper
      exact tight above others only (within.trans (.node kind member deeper))
    refine ⟨_, reads within member kind.place, fun joint shown => ?_⟩
    obtain ⟨spreads, alone⟩ := spreads_of_joint_mem (child within member) below shown
    obtain ⟨others, same⟩ := spreads.exists_parts
    obtain ⟨rfl, _⟩ := Junction.query_inj same
    obtain ⟨only, lone, inner⟩ := alone (by rw [other_other])
    rw [lone] at member
    exact tight kind parts only within member inner

end Query

end FacetSearch
