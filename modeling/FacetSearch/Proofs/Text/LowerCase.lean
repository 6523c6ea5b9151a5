import Mathlib
import FacetSearch.Text.LowerCase

/-!
Lower case of a beginning of a text. A capital sigma looks ahead to the next character that counts.
Where a cut takes this character away the sigma becomes final, so the lower case of the beginning is
not a beginning of the lower case of the whole (`CutsSigma`). Nothing else in front of a cut depends
on what stands behind it (`lowerAfter_prefix_iff`).
-/

set_option autoImplicit false

namespace FacetSearch.Text

variable {before front back : List Char} {c : Char}

/-- Whether only characters that do not count stand in a text. -/
def AllIgnored (text : List Char) : Prop := ∀ c ∈ text, isCaseIgnorable c = true

theorem meetsCased_append_of_allIgnored (ignored : AllIgnored front) :
    meetsCased (front ++ back) = meetsCased back := by
  rw [meetsCased, List.dropWhile_append_of_pos ignored, meetsCased]

/-- Where a character that counts is found, what follows does not matter. -/
theorem meetsCased_append_of_not_allIgnored (counts : ¬ AllIgnored front) :
    meetsCased (front ++ back) = meetsCased front := by
  have remains : front.dropWhile isCaseIgnorable ≠ [] := fun none =>
    counts (List.dropWhile_eq_nil_iff.mp none)
  rw [meetsCased, meetsCased, List.dropWhile_append, if_neg (by simpa using remains),
    List.head?_append_of_ne_nil _ remains]

theorem meetsCased_of_allIgnored (ignored : AllIgnored front) : meetsCased front = false := by
  rw [meetsCased, List.dropWhile_eq_nil_iff.mpr ignored]
  rfl

/-- The lower case of a character between the text in front of it, listed from its end, and the text
behind it. -/
def lowerAt (before : List Char) (c : Char) (rest : List Char) : List Char :=
  if c = 'Σ' then if meetsCased before && !meetsCased rest then ['ς'] else ['σ'] else lowerChar c

theorem lowerAfter_cons (before : List Char) (c : Char) (rest : List Char) :
    lowerAfter before (c :: rest) = lowerAt before c rest ++ lowerAfter (c :: before) rest := rfl

/-- A cut between a capital sigma inside a word and the cased character that follows it. What stands
before the first part is listed from its end. -/
structure CutsSigma (before front back : List Char) : Prop where
  sigma : ∃ head ignored, front = head ++ 'Σ' :: ignored ∧ AllIgnored ignored ∧
    meetsCased (head.reverse ++ before) = true
  cased : meetsCased back = true

theorem cutsSigma_cons_iff {rest : List Char} : CutsSigma before (c :: rest) back ↔
    (c = 'Σ' ∧ AllIgnored rest ∧ meetsCased before = true ∧ meetsCased back = true) ∨
      CutsSigma (c :: before) rest back := by
  constructor
  · rintro ⟨⟨head, ignored, whole, all, inside⟩, cased⟩
    cases head with
    | nil =>
        obtain ⟨rfl, rfl⟩ := List.cons.inj whole
        exact .inl ⟨rfl, all, inside, cased⟩
    | cons d head =>
        obtain ⟨rfl, rfl⟩ := List.cons.inj whole
        exact .inr ⟨⟨head, ignored, rfl, all, by simpa using inside⟩, cased⟩
  · rintro (⟨rfl, all, inside, cased⟩ | ⟨⟨head, ignored, rfl, all, inside⟩, cased⟩)
    · exact ⟨⟨[], rest, rfl, all, inside⟩, cased⟩
    · exact ⟨⟨c :: head, ignored, rfl, all, by simpa using inside⟩, cased⟩

/-- A cut changes a character in front of it only if it is a capital sigma that loses what makes it
a sigma inside a word. -/
theorem lowerAt_append {rest : List Char}
    (kept : ¬ (c = 'Σ' ∧ AllIgnored rest ∧ meetsCased before = true ∧
      meetsCased back = true)) :
    lowerAt before c (rest ++ back) = lowerAt before c rest := by
  unfold lowerAt
  by_cases sigma : c = 'Σ'
  · by_cases ignored : AllIgnored rest
    · rw [meetsCased_append_of_allIgnored ignored, meetsCased_of_allIgnored ignored]
      have alone : meetsCased before = true → meetsCased back = false := fun inside =>
        Bool.eq_false_iff.mpr fun cased => kept ⟨sigma, ignored, inside, cased⟩
      cases inside : meetsCased before with
      | false => rfl
      | true => rw [alone inside]
    · rw [meetsCased_append_of_not_allIgnored ignored]
  · rw [if_neg sigma, if_neg sigma]

/-- The lower case of a first part begins the lower case of the whole text unless the cut between
the parts makes a sigma final. -/
theorem lowerAfter_prefix_iff (before front back : List Char) :
    lowerAfter before front <+: lowerAfter before (front ++ back) ↔
    ¬ CutsSigma before front back := by
  induction front generalizing before with
  | nil =>
      refine iff_of_true List.nil_prefix ?_
      rintro ⟨⟨head, ignored, whole, -⟩, -⟩
      simp at whole
  | cons c rest ih =>
      rw [cutsSigma_cons_iff, List.cons_append, lowerAfter_cons, lowerAfter_cons]
      by_cases cut : c = 'Σ' ∧ AllIgnored rest ∧ meetsCased before = true ∧
        meetsCased back = true
      · obtain ⟨rfl, ignored, inside, cased⟩ := cut
        have alone : lowerAt before 'Σ' rest = ['ς'] := by
          simp [lowerAt, inside, meetsCased_of_allIgnored ignored]
        have followed : lowerAt before 'Σ' (rest ++ back) = ['σ'] := by
          simp [lowerAt, meetsCased_append_of_allIgnored ignored, cased]
        rw [alone, followed]
        refine iff_of_false ?_ fun none => none (.inl ⟨rfl, ignored, inside, cased⟩)
        rw [List.singleton_append, List.singleton_append, List.cons_prefix_cons]
        exact fun found => absurd found.1 (by decide)
      · rw [lowerAt_append cut, List.prefix_append_right_inj, ih, or_iff_right cut]

end FacetSearch.Text
