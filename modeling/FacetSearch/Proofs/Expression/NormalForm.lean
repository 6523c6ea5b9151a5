import Mathlib
import FacetSearch.Expression.Basic

/-!
Normal forms of expressions. `flattened` merges nested nodes of one kind and puts lone parts in the
place of their nodes; `isFlat_flattened` says that nothing is left to merge, and
`flattened_of_isFlat` that a normal form stays as it is.
-/

set_option autoImplicit false

namespace FacetSearch

/-- The kinds of nodes. -/
inductive Junction where
  | all
  | any
  deriving DecidableEq, Repr

namespace Junction

/-- A node of a kind. -/
def node : Junction → List Expression → Expression
  | all => .all
  | any => .any

/-- The parts of a node of the kind; any other expression is its own only part. -/
def parts : Junction → Expression → List Expression
  | all => Expression.conjuncts
  | any => Expression.disjuncts

/-- A node around several parts; a lone part needs none. -/
def gather (kind : Junction) : List Expression → Expression
  | [only] => only
  | several => kind.node several

theorem node_inj {first second : Junction} {inner others : List Expression}
    (same : first.node inner = second.node others) : first = second ∧ inner = others := by
  cases first <;> cases second <;> cases same
  all_goals exact ⟨rfl, rfl⟩

@[simp] theorem parts_node (kind : Junction) (inner : List Expression) :
    kind.parts (kind.node inner) = inner := by
  cases kind <;> rfl

theorem parts_of_unlike (kind : Junction) {expression : Expression}
    (unlike : ∀ inner, expression ≠ kind.node inner) :
    kind.parts expression = [expression] := by
  cases kind <;> cases expression <;> first | rfl | exact absurd rfl (unlike _)

theorem gather_of_several (kind : Junction) {inner : List Expression}
    (several : 2 ≤ inner.length) : kind.gather inner = kind.node inner := by
  match inner with
  | first :: second :: rest => rfl

theorem allOf_eq_gather (inner : List Expression) :
    Expression.allOf inner = all.gather (inner.flatMap all.parts) := by
  unfold Expression.allOf
  rcases equal : inner.flatMap Expression.conjuncts with _ | ⟨first, _ | ⟨second, rest⟩⟩
  all_goals
    simp only [parts, equal]
    rfl

theorem anyOf_eq_gather (inner : List Expression) :
    Expression.anyOf inner = any.gather (inner.flatMap any.parts) := by
  unfold Expression.anyOf
  rcases equal : inner.flatMap Expression.disjuncts with _ | ⟨first, _ | ⟨second, rest⟩⟩
  all_goals
    simp only [parts, equal]
    rfl

end Junction

namespace Expression

open Junction

/-- Induction over the parts of nodes. -/
theorem inductionOnNodes {motive : Expression → Prop}
    (node : ∀ (kind : Junction) parts, (∀ part ∈ parts, motive part) →
      motive (kind.node parts))
    (comparison : ∀ leaf, motive (.comparison leaf)) (expression : Expression) :
    motive expression := by
  refine Expression.rec (motive_1 := motive) (motive_2 := fun parts =>
    ∀ part ∈ parts, motive part)
    (node .all) (node .any) comparison ?_ ?_ expression
  · intro part member
    cases member
  · intro first rest head tail part member
    rcases List.mem_cons.mp member with rfl | member
    · exact head
    · exact tail part member

/-- Every node has parts, and every comparison satisfies a condition. -/
inductive Populated (good : Comparison → Prop) : Expression → Prop
  | node (kind : Junction) {parts : List Expression} (inhabited : parts ≠ [])
      (each : ∀ part ∈ parts, Populated good part) : Populated good (kind.node parts)
  | comparison {leaf : Comparison} (holds : good leaf) : Populated good (.comparison leaf)

/-- Every node has several parts, and none of them is a node of the same kind. -/
inductive IsFlat : Expression → Prop
  | node (kind : Junction) {parts : List Expression} (several : 2 ≤ parts.length)
      (unlike : ∀ part ∈ parts, ∀ inner, part ≠ kind.node inner)
      (each : ∀ part ∈ parts, IsFlat part) : IsFlat (kind.node parts)
  | comparison (leaf : Comparison) : IsFlat (.comparison leaf)

mutual

/-- The expression with nested nodes of the same kind merged and lone parts in the place of their
nodes. -/
def flattened : Expression → Expression
  | .all inner => Junction.all.gather (flatParts .all inner)
  | .any inner => Junction.any.gather (flatParts .any inner)
  | .comparison leaf => .comparison leaf

/-- What expressions give to a node of a kind when they are flat. -/
def flatParts (kind : Junction) : List Expression → List Expression
  | [] => []
  | part :: rest => kind.parts part.flattened ++ flatParts kind rest

end

theorem flatParts_eq (kind : Junction) (inner : List Expression) :
    flatParts kind inner = inner.flatMap fun part => kind.parts part.flattened := by
  induction inner with
  | nil => rfl
  | cons part rest ih => rw [flatParts, ih, List.flatMap_cons]

theorem flattened_node (kind : Junction) (inner : List Expression) :
    (kind.node inner).flattened
      = kind.gather (inner.flatMap fun part => kind.parts part.flattened) := by
  rw [← flatParts_eq]
  cases kind <;> rfl

/-- The reader's way of joining constraints yields the flat conjunction. -/
theorem allOf_map_flattened (inner : List Expression) :
    allOf (inner.map flattened) = (Expression.all inner).flattened := by
  rw [allOf_eq_gather, List.flatMap_map]
  exact (flattened_node .all inner).symm

theorem anyOf_map_flattened (inner : List Expression) :
    anyOf (inner.map flattened) = (Expression.any inner).flattened := by
  rw [anyOf_eq_gather, List.flatMap_map]
  exact (flattened_node .any inner).symm

namespace IsFlat

theorem of_node {kind : Junction} {inner : List Expression} (flat : (kind.node inner).IsFlat) :
    2 ≤ inner.length ∧ ∀ part ∈ inner, part.IsFlat ∧
      ∀ others, part ≠ kind.node others := by
  generalize same : kind.node inner = expression at flat
  cases flat with
  | node kind several unlike each =>
      obtain ⟨rfl, rfl⟩ := node_inj same
      exact ⟨several, fun part member => ⟨each part member, unlike part member⟩⟩
  | comparison leaf => cases kind <;> cases same

theorem parts_ne_nil {expression : Expression} (flat : expression.IsFlat) (kind : Junction) :
    kind.parts expression ≠ [] := by
  by_cases like : ∃ inner, expression = kind.node inner
  · obtain ⟨inner, rfl⟩ := like
    rw [parts_node]
    exact List.ne_nil_of_length_pos (Nat.lt_of_lt_of_le (by omega) flat.of_node.1)
  · rw [parts_of_unlike kind (not_exists.mp like)]
    exact List.cons_ne_nil _ _

/-- What a normal form gives to a node are normal forms of another kind. -/
theorem of_mem_parts {expression part : Expression} (flat : expression.IsFlat) (kind : Junction)
    (member : part ∈ kind.parts expression) :
    part.IsFlat ∧ ∀ inner, part ≠ kind.node inner := by
  by_cases like : ∃ inner, expression = kind.node inner
  · obtain ⟨inner, rfl⟩ := like
    rw [parts_node] at member
    exact flat.of_node.2 part member
  · rw [parts_of_unlike kind (not_exists.mp like)] at member
    rw [List.mem_singleton.mp member]
    exact ⟨flat, not_exists.mp like⟩

end IsFlat

theorem isFlat_gather {kind : Junction} {inner : List Expression} (inhabited : inner ≠ [])
    (each : ∀ part ∈ inner, part.IsFlat ∧ ∀ others, part ≠ kind.node others) :
    (kind.gather inner).IsFlat := by
  match inner with
  | [] => exact absurd rfl inhabited
  | [only] => exact (each only List.mem_cons_self).1
  | first :: second :: rest =>
      exact .node kind (by simp only [List.length_cons]; omega)
        (fun part member => (each part member).2) (fun part member => (each part member).1)

/-- Flat expressions give parts to every node, and none of its own kind. -/
theorem each_of_mem_flatMap (kind : Junction) {inner : List Expression}
    (flat : ∀ part ∈ inner, part.flattened.IsFlat) :
    ∀ part ∈ inner.flatMap (fun part => kind.parts part.flattened),
      part.IsFlat ∧ ∀ others, part ≠ kind.node others := by
  intro part member
  obtain ⟨source, held, inside⟩ := List.mem_flatMap.mp member
  exact (flat source held).of_mem_parts kind inside

theorem isFlat_flattened {good : Comparison → Prop} {expression : Expression}
    (populated : expression.Populated good) : expression.flattened.IsFlat := by
  induction populated with
  | @node kind inner inhabited each ih =>
      rw [flattened_node]
      refine isFlat_gather (fun empty => ?_) (each_of_mem_flatMap kind ih)
      obtain ⟨first, member⟩ := List.exists_mem_of_ne_nil inner inhabited
      exact (ih first member).parts_ne_nil kind (List.flatMap_eq_nil_iff.mp empty first member)
  | @comparison leaf holds => exact .comparison leaf

/-- Parts of other kinds are joined as they are. -/
theorem flatMap_parts_of_unlike {kind : Junction} {inner : List Expression}
    (unlike : ∀ part ∈ inner, ∀ others, part ≠ kind.node others) :
    inner.flatMap kind.parts = inner := by
  induction inner with
  | nil => rfl
  | cons part rest ih =>
      rw [List.flatMap_cons, parts_of_unlike kind (unlike part List.mem_cons_self),
        ih fun other member => unlike other (List.mem_cons_of_mem _ member), List.singleton_append]

theorem flattened_of_isFlat {expression : Expression} (flat : expression.IsFlat) :
    expression.flattened = expression := by
  induction flat with
  | @node kind inner several unlike each ih =>
      have same : inner.map flattened = inner := (List.map_congr_left ih).trans (List.map_id' inner)
      have parts : inner.flatMap (fun part => kind.parts part.flattened) = inner := by
        rw [← List.flatMap_map, same, flatMap_parts_of_unlike unlike]
      rw [flattened_node, parts, gather_of_several kind several]
  | comparison leaf => rfl

/-- The conjuncts of a flat conjunction are those of its parts. -/
theorem parts_flattened_node (kind : Junction) {inner : List Expression}
    (flat : ∀ part ∈ inner, part.flattened.IsFlat) :
    kind.parts (kind.node inner).flattened
      = inner.flatMap fun part => kind.parts part.flattened := by
  have unlike := each_of_mem_flatMap kind flat
  rw [flattened_node]
  generalize inner.flatMap (fun part => kind.parts part.flattened) = merged at unlike
  match merged with
  | [] => exact parts_node kind []
  | [only] => exact parts_of_unlike kind (unlike only List.mem_cons_self).2
  | first :: second :: rest => exact parts_node kind _

/-- A node of several parts keeps its kind when it is flattened. -/
theorem flattened_node_of_several (kind : Junction) {inner : List Expression}
    (several : 2 ≤ inner.length) (flat : ∀ part ∈ inner, part.flattened.IsFlat) :
    ∃ others, (kind.node inner).flattened = kind.node others := by
  refine ⟨_, (flattened_node kind inner).trans (gather_of_several kind ?_)⟩
  match inner with
  | first :: second :: rest =>
      have one := List.length_pos_iff.mpr ((flat first (by simp)).parts_ne_nil kind)
      have two := List.length_pos_iff.mpr ((flat second (by simp)).parts_ne_nil kind)
      simp only [List.flatMap_cons, List.length_append]
      omega

/-- A flat expression is gathered from its parts again. -/
theorem IsFlat.gather_parts {expression : Expression} (flat : expression.IsFlat)
    (kind : Junction) : kind.gather (kind.parts expression) = expression := by
  by_cases like : ∃ inner, expression = kind.node inner
  · obtain ⟨inner, rfl⟩ := like
    rw [parts_node]
    exact gather_of_several kind flat.of_node.1
  · rw [parts_of_unlike kind (not_exists.mp like)]
    rfl

theorem IsFlat.allOf_conjuncts {expression : Expression} (flat : expression.IsFlat) :
    allOf expression.conjuncts = expression := by
  have merged : expression.conjuncts.flatMap Junction.all.parts = expression.conjuncts :=
    flatMap_parts_of_unlike fun part member => (flat.of_mem_parts .all member).2
  rw [allOf_eq_gather, merged]
  exact flat.gather_parts .all

theorem IsFlat.anyOf_singleton {expression : Expression} (flat : expression.IsFlat) :
    anyOf [expression] = expression := by
  rw [anyOf_eq_gather, List.flatMap_singleton]
  exact flat.gather_parts .any

/-- A lone part stands for itself. -/
theorem flattened_lone (kind : Junction) {part : Expression} (flat : part.flattened.IsFlat) :
    (kind.node [part]).flattened = part.flattened := by
  rw [flattened_node, List.flatMap_singleton]
  exact flat.gather_parts kind

namespace Populated

variable {good : Comparison → Prop}

theorem of_node (kind : Junction) {inner : List Expression}
    (populated : (kind.node inner).Populated good) :
    inner ≠ [] ∧ ∀ part ∈ inner, part.Populated good := by
  generalize same : kind.node inner = expression at populated
  cases populated with
  | node kind inhabited each =>
      obtain ⟨rfl, rfl⟩ := node_inj same
      exact ⟨inhabited, each⟩
  | comparison holds => cases kind <;> cases same

theorem of_mem_parts {expression part : Expression} (kind : Junction)
    (populated : expression.Populated good) (member : part ∈ kind.parts expression) :
    part.Populated good := by
  by_cases like : ∃ inner, expression = kind.node inner
  · obtain ⟨inner, rfl⟩ := like
    rw [parts_node] at member
    exact (of_node kind populated).2 part member
  · rw [parts_of_unlike kind (not_exists.mp like)] at member
    rw [List.mem_singleton.mp member]
    exact populated

/-- Flattening keeps all comparisons and leaves no node without parts. -/
theorem flattened {expression : Expression} (populated : expression.Populated good) :
    expression.flattened.Populated good := by
  induction populated with
  | @node kind inner inhabited each ih =>
      have flat := isFlat_flattened (.node kind inhabited each)
      rw [flattened_node] at flat ⊢
      have held : ∀ part ∈ inner.flatMap (fun part => kind.parts part.flattened),
          part.Populated good := by
        intro part member
        obtain ⟨source, held, inside⟩ := List.mem_flatMap.mp member
        exact (ih source held).of_mem_parts kind inside
      generalize inner.flatMap (fun part => kind.parts part.flattened) = merged at flat held
      match merged with
      | [] => exact absurd flat.of_node.1 (by decide)
      | [only] => exact held only List.mem_cons_self
      | first :: second :: rest => exact .node kind (List.cons_ne_nil _ _) held
  | comparison holds => exact .comparison holds

end Populated

end Expression

end FacetSearch
