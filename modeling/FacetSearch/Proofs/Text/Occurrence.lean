import Mathlib.Data.List.Infix
import FacetSearch.Expression.Error

/-!
Phrases inside texts. A phrase does not reach over a character that it does not have, so an
occurrence in a text of several pieces is one in a piece (`contains_enclosed`).
-/

set_option autoImplicit false

namespace FacetSearch.Text

variable {part front back text : List Char} {sign : Char}

theorem contains_iff : contains part text = true ↔ part <:+: text := by
  induction text with
  | nil => rw [contains, List.isEmpty_iff, List.infix_nil]
  | cons c rest ih =>
      rw [contains, Bool.or_eq_true, List.isPrefixOf_iff_prefix, ih, List.infix_cons_iff]

theorem contains_eq_false {c : Char} (inside : c ∈ part) (absent : c ∉ text) :
    contains part text = false := by
  rw [← Bool.not_eq_true, contains_iff]
  exact fun occurs => absent (occurs.subset inside)

theorem prefix_of_notMem (absent : sign ∉ part) (begins : part <+: front ++ sign :: back) :
    part <+: front := by
  rcases List.prefix_or_prefix_of_prefix begins (List.prefix_append front (sign :: back)) with
    shorter | ⟨more, rfl⟩
  · exact shorter
  · cases more with
    | nil => exact ⟨[], by rw [List.append_nil, List.append_nil]⟩
    | cons c others =>
        have same := (List.prefix_append_right_inj front).mp begins
        rw [(List.cons_prefix_cons.mp same).1] at absent
        exact absurd (by simp) absent

/-- A phrase occurs on one side of a character that it does not have. -/
theorem contains_append_cons (absent : sign ∉ part) (named : part ≠ []) :
    contains part (front ++ sign :: back) = (contains part front || contains part back) := by
  rw [Bool.eq_iff_iff, Bool.or_eq_true, contains_iff, contains_iff, contains_iff]
  constructor
  · intro occurs
    induction front with
    | nil =>
        rcases List.infix_cons_iff.mp occurs with begins | later
        · exact absurd (List.prefix_nil.mp (prefix_of_notMem absent begins)) named
        · exact .inr later
    | cons c rest ih =>
        rcases List.infix_cons_iff.mp occurs with begins | later
        · exact .inl (prefix_of_notMem absent begins).isInfix
        · exact (ih later).imp_left fun inside => List.infix_cons inside
  · rintro (inside | inside)
    · exact inside.trans (List.prefix_append front _).isInfix
    · exact inside.trans ((List.suffix_cons sign back).trans (List.suffix_append front _)).isInfix

/-- A phrase with a blank does not occur in a text without one between two signs. -/
theorem contains_enclosed (absent : sign ∉ part) (blank : ' ' ∈ part) (plain : ' ' ∉ text) :
    contains part (front ++ sign :: (text ++ sign :: back)) =
      (contains part front || contains part back) := by
  have named : part ≠ [] := List.ne_nil_of_mem blank
  rw [contains_append_cons absent named, contains_append_cons absent named,
    contains_eq_false blank plain, Bool.false_or]

end FacetSearch.Text
