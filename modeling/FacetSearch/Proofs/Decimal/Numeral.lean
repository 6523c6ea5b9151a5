import Mathlib
import FacetSearch.Decimal.Layout

/-!
The characters of written numbers: digits, signs, points, and the letters of what is not finite.
-/

set_option autoImplicit false

namespace FacetSearch

/-- A character of a written number. -/
def IsNumeral (c : Char) : Prop := c.isDigit = true ∨ c ∈ ['-', '.', 'i', 'n', 'f', 'N', 'a']

/-- A text with no other characters. -/
def AllNumerals (text : String) : Prop := ∀ c ∈ text.toList, IsNumeral c

theorem AllNumerals.append {front back : String} (head : AllNumerals front)
    (tail : AllNumerals back) : AllNumerals (front ++ back) := by
  intro c member
  rw [String.toList_append] at member
  rcases List.mem_append.mp member with member | member
  · exact head c member
  · exact tail c member

theorem isNumeral_of_mem_toDigits {n : Nat} : ∀ c ∈ Nat.toDigits 10 n, IsNumeral c := by
  intro c member
  exact .inl (Nat.isDigit_of_mem_toDigits (by omega) (by omega) member)

namespace Decimal

theorem allNumerals_positional (decimal : Decimal) : AllNumerals decimal.positional := by
  have zero : IsNumeral '0' := .inl (by decide)
  have point : IsNumeral '.' := .inr (by decide)
  have zeros : ∀ count, ∀ d ∈ List.replicate count '0', IsNumeral d := by
    intro count d member
    rw [List.eq_of_mem_replicate member]
    exact zero
  intro c member
  by_cases integral : 0 ≤ decimal.exponent
  · rw [positional, if_pos integral, String.toList_ofList] at member
    rcases List.mem_append.mp member with member | member
    · exact isNumeral_of_mem_toDigits c member
    · exact zeros _ c member
  · rw [positional, if_neg integral, String.toList_ofList] at member
    have padded : ∀ count, ∀ d ∈ List.replicate count '0' ++ digitsOf decimal.digits,
        IsNumeral d := by
      intro count d held
      rcases List.mem_append.mp held with held | held
      · exact zeros _ d held
      · exact isNumeral_of_mem_toDigits d held
    rcases List.mem_append.mp member with member | member
    · exact padded _ c (List.mem_of_mem_take member)
    · rcases List.mem_cons.mp member with rfl | member
      · exact point
      · exact padded _ c (List.mem_of_mem_drop member)

end Decimal

namespace Binary

theorem allNumerals_sign (negative : Bool) : AllNumerals (sign negative) := by
  cases negative with
  | false => exact nofun
  | true =>
      intro c member
      have minus : c = '-' := by simpa [sign] using member
      exact .inr (by simp [minus])

theorem allNumerals_plain (format : BinaryFormat) (number : Binary) :
    AllNumerals (number.plain format) := by
  unfold plain write
  split
  · apply (allNumerals_sign _).append
    intro c member
    have zero : c = '0' := by simpa using member
    rw [zero]
    exact .inl (by decide)
  · exact (allNumerals_sign _).append (Decimal.allNumerals_positional _)
  · apply (allNumerals_sign _).append
    intro c member
    have letters : c = 'i' ∨ c = 'n' ∨ c = 'f' := by simpa using member
    rcases letters with rfl | rfl | rfl <;> exact .inr (by decide)
  · intro c member
    have letters : c = 'N' ∨ c = 'a' ∨ c = 'N' := by simpa using member
    rcases letters with rfl | rfl | rfl <;> exact .inr (by decide)

theorem allNumerals_places : AllNumerals ".0" := by
  intro c member
  have characters : c = '.' ∨ c = '0' := by simpa using member
  rcases characters with rfl | rfl
  · exact .inr (by decide)
  · exact .inl (by decide)

theorem allNumerals_withPlaces (format : BinaryFormat) (number : Binary) :
    AllNumerals (number.withPlaces format) := by
  refine (allNumerals_plain format number).append ?_
  split
  · exact allNumerals_places
  · exact nofun

theorem allNumerals_exactWithPlaces (format : BinaryFormat) (number : Binary) :
    AllNumerals (number.exactWithPlaces format) := by
  unfold exactWithPlaces
  split
  · split
    · have digits : ∀ n : Nat, AllNumerals (toString n) := by
        intro n c member
        rw [Nat.toString_eq_repr, Nat.toList_repr] at member
        exact isNumeral_of_mem_toDigits c member
      exact ((allNumerals_sign _).append (digits _)).append allNumerals_places
    · exact allNumerals_plain format _
  · exact allNumerals_plain format _

end Binary

end FacetSearch
