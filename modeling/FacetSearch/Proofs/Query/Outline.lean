import FacetSearch.Proofs.Query.Piece

/-!
Outlines: the tree of clauses and joints in a query, without redundant parentheses. `read?` finds it
in a text. A level of brackets is cut at its joints, which have to be of one kind, and a part that
is a pair of parentheses, perhaps with a sign and a boost, is read as the level inside.
-/

set_option autoImplicit false

namespace FacetSearch

/-- The tree of a query. A clause is a leaf, as it stands in the text. -/
inductive Outline where
  | leaf (text : List Char)
  | node (kind : Junction) (parts : List Outline)
  | marked (negated : Bool) (boost : List Char) (inside : Outline)

namespace Outline

mutual

/-- Decides whether two outlines are the same tree. -/
def decEq : (first second : Outline) → Decidable (first = second)
  | leaf text, leaf other =>
    if same : text = other then isTrue (by rw [same])
    else isFalse (by intro equal; exact same (leaf.inj equal))
  | node kind parts, node other others =>
    match decEqList parts others with
    | isTrue same =>
      if kinds : kind = other then isTrue (by rw [same, kinds])
      else isFalse (by intro equal; exact kinds (node.inj equal).1)
    | isFalse different => isFalse (by intro same; exact different (node.inj same).2)
  | marked negated boost inside, marked sign factor other =>
    match decEq inside other with
    | isTrue same =>
      if marks : negated = sign ∧ boost = factor then isTrue (by rw [same, marks.1, marks.2])
      else isFalse (by intro equal; exact marks ⟨(marked.inj equal).1, (marked.inj equal).2.1⟩)
    | isFalse different => isFalse (by intro same; exact different (marked.inj same).2.2)
  | leaf _, node _ _ => isFalse nofun
  | leaf _, marked _ _ _ => isFalse nofun
  | node _ _, leaf _ => isFalse nofun
  | node _ _, marked _ _ _ => isFalse nofun
  | marked _ _ _, leaf _ => isFalse nofun
  | marked _ _ _, node _ _ => isFalse nofun

/-- Decides whether two lists hold the same trees. -/
def decEqList : (first second : List Outline) → Decidable (first = second)
  | [], [] => isTrue rfl
  | [], _ :: _ => isFalse nofun
  | _ :: _, [] => isFalse nofun
  | part :: parts, other :: others =>
    match decEq part other, decEqList parts others with
    | isTrue same, isTrue rest => isTrue (by rw [same, rest])
    | isFalse different, _ => isFalse (by intro same; exact different (List.cons.inj same).1)
    | _, isFalse different => isFalse (by intro same; exact different (List.cons.inj same).2)

end

instance : DecidableEq Outline := decEq

/-- A node around several parts; a lone part needs none. -/
def gather (kind : Junction) : List Outline → Outline
  | [only] => only
  | several => node kind several

/-- A tree in parentheses, which are redundant without a sign and a boost. -/
def mark (negated : Bool) (boost : List Char) (inside : Outline) : Outline :=
  if negated || !boost.isEmpty then marked negated boost inside else inside

/-- A piece and, for brackets, the tree of what they enclose. -/
abbrev View := Piece × Option Outline

/-- Cuts a level at its joints: the first part, then the others, each with the joint before it. -/
def cut : List View → List View × List (Junction × List View)
  | [] => ([], [])
  | (.joint kind, _) :: rest => ([], (kind, (cut rest).1) :: (cut rest).2)
  | view :: rest => (view :: (cut rest).1, (cut rest).2)

/-- The sign before a part, and the part without it. -/
def unsigned : List View → Bool × List View
  | (.text ['-'], _) :: rest => (true, rest)
  | views => (false, views)

/-- Whether a piece is a part of a word. -/
def isText : Piece → Bool
  | .text _ => true
  | _ => false

/-- The boost behind a closing parenthesis. -/
def boost? : List Piece → Option (List Char)
  | [] => some []
  | .text ['^'] :: rest => if rest.all isText then some ('^' :: Piece.charsOf rest) else none
  | _ => none

/-- The tree of a part. -/
def ofPart? (part : List View) : Option Outline :=
  match (unsigned part).2 with
  | (.bracketed '(' _, inside) :: after =>
    match boost? (after.map Prod.fst) with
    | some boost => inside.map (mark (unsigned part).1 boost)
    | none => some (leaf (Piece.charsOf (part.map Prod.fst)))
  | _ => some (leaf (Piece.charsOf (part.map Prod.fst)))

/-- The tree of a level, if its joints are of one kind. -/
def ofViews? (views : List View) : Option Outline :=
  match (cut views).2 with
  | [] => ofPart? (cut views).1
  | (kind, second) :: rest =>
    if rest.all (·.1 = kind) then
      (((cut views).1 :: second :: rest.map Prod.snd).mapM ofPart?).map (node kind)
    else none

mutual

/-- The tree of what brackets enclose. -/
def inside? : Piece → Option Outline
  | .bracketed _ inside => ofViews? (views inside)
  | _ => none

/-- Pieces with what their brackets enclose. -/
def views : List Piece → List View
  | [] => []
  | piece :: rest => (piece, inside? piece) :: views rest

end

/-- The tree of pieces. -/
def ofPieces? (pieces : List Piece) : Option Outline := ofViews? (views pieces)

/-- The tree of a query text. The empty query has none. -/
def read? (query : String) : Option Outline :=
  if query.isEmpty then none else (Piece.ofText? query.toList).bind ofPieces?

@[simp] theorem views_append (front back : List Piece) :
    views (front ++ back) = views front ++ views back := by
  induction front with
  | nil => rfl
  | cons piece rest ih =>
      rw [List.cons_append, views, views, ih, List.cons_append]

@[simp] theorem map_fst_views (pieces : List Piece) : (views pieces).map Prod.fst = pieces := by
  induction pieces with
  | nil => rfl
  | cons piece rest ih => rw [views, List.map_cons, ih]

/-- Pieces that are one part of their level. -/
def Jointless (pieces : List Piece) : Prop := ∀ kind, Piece.joint kind ∉ pieces

theorem Jointless.append {front back : List Piece} (head : Jointless front)
    (tail : Jointless back) : Jointless (front ++ back) := by
  intro kind member
  rcases List.mem_append.mp member with member | member
  · exact head kind member
  · exact tail kind member

theorem jointless_single (text : List Char) : Jointless (Piece.single text) := by
  intro kind member
  obtain ⟨c, _, same⟩ := List.mem_map.mp member
  cases same

theorem cut_cons {piece : Piece} (connects : ∀ kind, piece ≠ .joint kind)
    (inside : Option Outline) (rest : List View) :
    cut ((piece, inside) :: rest) = ((piece, inside) :: (cut rest).1, (cut rest).2) := by
  cases piece with
  | text | bracketed => rfl
  | joint kind => exact absurd rfl (connects kind)

/-- The first part goes up to the first joint. -/
theorem cut_append {pieces : List Piece} (lone : Jointless pieces) (rest : List View) :
    cut (views pieces ++ rest) = (views pieces ++ (cut rest).1, (cut rest).2) := by
  induction pieces with
  | nil => rfl
  | cons piece pieces ih =>
      have connects : ∀ kind, piece ≠ .joint kind := by
        rintro kind rfl
        exact lone kind List.mem_cons_self
      rw [views, List.cons_append, cut_cons connects,
        ih fun kind member => lone kind (List.mem_cons_of_mem _ member)]
      rfl

/-- Pieces that are one part of their level, with this tree. -/
structure IsPart (pieces : List Piece) (outline : Outline) : Prop where
  lone : Jointless pieces
  tree : ofPart? (views pieces) = some outline

theorem IsPart.ofPieces?_eq {pieces : List Piece} {outline : Outline}
    (part : IsPart pieces outline) : ofPieces? pieces = some outline := by
  have whole := cut_append part.lone []
  rw [List.append_nil] at whole
  rw [ofPieces?, ofViews?, whole]
  simp only [cut, List.append_nil, part.tree]

/-- Cutting undoes joining. -/
theorem cut_joined (kind : Junction) (first : List Piece) (others : List (List Piece))
    (lone : ∀ pieces ∈ first :: others, Jointless pieces) :
    cut (views (Piece.joined kind (first :: others)))
      = (views first, others.map fun pieces => (kind, views pieces)) := by
  induction others generalizing first with
  | nil =>
      have whole := cut_append (lone first List.mem_cons_self) []
      rw [List.append_nil] at whole
      rw [Piece.joined, List.intercalate_singleton, whole, cut, List.append_nil, List.map_nil]
  | cons second others ih =>
      have rest := ih second fun pieces member => lone pieces (List.mem_cons_of_mem _ member)
      rw [Piece.joined_cons_cons, views_append, views, cut_append (lone first List.mem_cons_self),
        cut, rest, List.append_nil, List.map_cons]

theorem mapM_ofPart? {α : Type} {pieces : α → List Piece} {outline : α → Outline}
    {items : List α} (each : ∀ item ∈ items, IsPart (pieces item) (outline item)) :
    (items.map fun item => views (pieces item)).mapM ofPart? = some (items.map outline) := by
  induction items with
  | nil => rfl
  | cons item items ih =>
      have tail := ih fun other member => each other (List.mem_cons_of_mem _ member)
      rw [List.map_cons, List.mapM_cons, (each item List.mem_cons_self).tree, tail]
      rfl

/-- Parts with joints of one kind between them are a node, and a lone part is itself. -/
theorem ofPieces?_joined (kind : Junction) {α : Type} {pieces : α → List Piece}
    {outline : α → Outline} {items : List α} (inhabited : items ≠ [])
    (each : ∀ item ∈ items, IsPart (pieces item) (outline item)) :
    ofPieces? (Piece.joined kind (items.map pieces)) = some (gather kind (items.map outline)) := by
  match items with
  | [] => exact absurd rfl inhabited
  | [only] =>
      rw [List.map_singleton, List.map_singleton, Piece.joined, List.intercalate_singleton]
      exact (each only List.mem_cons_self).ofPieces?_eq
  | first :: second :: others =>
      have lone : ∀ part ∈ pieces first :: (second :: others).map pieces, Jointless part := by
        rw [← List.map_cons]
        intro part member
        obtain ⟨item, held, rfl⟩ := List.mem_map.mp member
        exact (each item held).lone
      have same : (others.map fun item => (kind, views (pieces item))).all (·.1 = kind)
          = true := by
        simp
      have trees := mapM_ofPart? each
      rw [ofPieces?, ofViews?, List.map_cons, cut_joined kind _ _ lone]
      simp only [List.map_cons, List.map_map, Function.comp_def] at trees ⊢
      rw [if_pos same, trees]
      rfl

/-- What can follow the closing parenthesis of a part: nothing, or a boost. -/
def IsBoost (boost : List Char) : Prop := boost = [] ∨ ∃ digits, boost = '^' :: digits

theorem charsOf_single (text : List Char) : Piece.charsOf (Piece.single text) = text := by
  induction text with
  | nil => rfl
  | cons c rest ih =>
      change Piece.charsOf (.text [c] :: Piece.single rest) = c :: rest
      rw [Piece.charsOf, ih, Piece.chars, List.singleton_append]

theorem boost?_single {boost : List Char} (formed : IsBoost boost) :
    boost? (Piece.single boost) = some boost := by
  rcases formed with rfl | ⟨digits, rfl⟩
  · rfl
  · have texts : (Piece.single digits).all isText = true := by
      simp [Piece.single, isText]
    change boost? (.text ['^'] :: Piece.single digits) = _
    rw [boost?, if_pos texts, charsOf_single]

/-- Parentheses with a sign and a boost are a part, whatever tree they enclose. -/
theorem isPart_enclosed {inside : List Piece} {outline : Outline}
    (tree : ofPieces? inside = some outline) (negated : Bool) {boost : List Char}
    (formed : IsBoost boost) :
    IsPart (Piece.single (Clause.sign negated).toList ++ .bracketed '(' inside ::
      Piece.single boost)
      (mark negated boost outline) where
  lone := by
    apply (jointless_single _).append
    intro kind member
    rcases List.mem_cons.mp member with same | member
    · cases same
    · exact jointless_single boost kind member
  tree := by
    have after : boost? ((views (Piece.single boost)).map Prod.fst) = some boost := by
      rw [map_fst_views, boost?_single formed]
    have enclosed : inside? (.bracketed '(' inside) = some outline := by
      rw [inside?]
      exact tree
    have unsigned : unsigned (views (Piece.single (Clause.sign negated).toList ++
        .bracketed '(' inside :: Piece.single boost))
          = (negated, (.bracketed '(' inside, some outline) :: views (Piece.single boost)) := by
      rw [← enclosed]
      cases negated <;> rfl
    rw [ofPart?, unsigned]
    simp only [after, Option.map_some]

theorem unsigned_of_ne {c : Char} (plain : c ≠ '-') (inside : Option Outline) (rest : List View) :
    unsigned ((.text [c], inside) :: rest) = (false, (.text [c], inside) :: rest) := by
  unfold unsigned
  split
  · rename_i same
    simp_all
  · rfl

/-- Behind a sign, a name is still a word. -/
theorem unsigned_single (name : List Char) {c : Char} (plain : c ≠ '-') (rest : List Piece) :
    ∃ chars inside more, (unsigned (views (Piece.single name ++ .text [c] :: rest))).2
      = (.text chars, inside) :: more := by
  have skip : ∀ first second : Char, ∀ more : List Piece, ∃ chars inside others,
      (unsigned (views (.text [first] :: .text [second] :: more))).2
        = (.text chars, inside) :: others := by
    intro first second more
    by_cases sign : first = '-'
    · subst sign
      exact ⟨_, _, _, rfl⟩
    · rw [views, unsigned_of_ne sign]
      exact ⟨_, _, _, rfl⟩
  match name with
  | [] =>
      change ∃ chars inside more, (unsigned (views (.text [c] :: rest))).2 = _
      rw [views, unsigned_of_ne plain]
      exact ⟨_, _, _, rfl⟩
  | [only] => exact skip only c rest
  | first :: second :: others => exact skip first second _

/-- A clause begins with a name and one more character, so that it does not look like a pair of
parentheses with a sign. -/
theorem isPart_leaf (name : List Char) {c : Char} (unsigned : c ≠ '-') {rest : List Piece}
    (lone : Jointless rest) :
    IsPart (Piece.single name ++ .text [c] :: rest)
      (leaf (Piece.charsOf (Piece.single name ++ .text [c] :: rest))) where
  lone := by
    apply (jointless_single name).append
    intro kind member
    rcases List.mem_cons.mp member with same | member
    · cases same
    · exact lone kind member
  tree := by
    obtain ⟨chars, inside, more, word⟩ := unsigned_single name unsigned rest
    rw [ofPart?, word, map_fst_views]

end Outline

end FacetSearch
