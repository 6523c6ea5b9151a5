import Mathlib
import FacetSearch.Json.Reader
import FacetSearch.Proofs.Text.Reading

/-!
Objects that are read have each key once (`nodup_keys_of_read?`): a key that comes again sets the
member that is there.
-/

set_option autoImplicit false

namespace FacetSearch

namespace Text.Reader

variable {α β : Type}

/-- Whatever is read satisfies a condition. -/
def Yields (reader : Reader α) (good : α → Prop) : Prop :=
  ∀ text value rest, reader text = some (value, rest) → good value

variable {good : α → Prop}

theorem Yields.pure {value : α} (holds : good value) : Yields (Pure.pure value) good := by
  intro text other rest read
  rw [pure_apply] at read
  cases read
  exact holds

theorem Yields.bind {middle : β → Prop} {first : Reader β} {next : β → Reader α}
    (before : first.Yields middle) (each : ∀ value, middle value → (next value).Yields good) :
    (first >>= next).Yields good := by
  intro text value rest read
  rw [bind_apply, Option.bind_eq_some_iff] at read
  obtain ⟨⟨between, left⟩, taken, later⟩ := read
  exact each between (before text between left taken) left value rest later

/-- What is read last counts. -/
theorem Yields.last {first : Reader β} {next : β → Reader α}
    (each : ∀ value, (next value).Yields good) : (first >>= next).Yields good :=
  Yields.bind (fun _ _ _ _ => trivial) fun value _ => each value

theorem Yields.orElse {first second : Reader α} (one : first.Yields good)
    (other : second.Yields good) : (first <|> second).Yields good := by
  intro text value rest read
  cases taken : first text with
  | none =>
      rw [orElse_of_refused taken] at read
      exact other text value rest read
  | some result =>
      rw [orElse_of_taken taken] at read
      exact one text value rest (taken.trans read)

theorem yields_failure : (failure : Reader α).Yields good := by
  intro text value rest read
  cases read

end Text.Reader

namespace Json

open Text.Reader

/-- An object has each key once. -/
def HasDistinctKeys : Json → Prop
  | object members => (members.map Prod.fst).Nodup
  | _ => True

theorem nodup_setMember {members : List (String × Json)} (distinct : (members.map Prod.fst).Nodup)
    (key : String) (value : Json) : ((setMember members key value).map Prod.fst).Nodup := by
  unfold setMember
  split
  · have kept : (members.map fun entry =>
        if entry.1 == key then (key, value) else entry).map Prod.fst
        = members.map Prod.fst := by
      rw [List.map_map]
      apply List.map_congr_left
      intro entry _
      by_cases same : entry.1 = key <;> simp [same]
    rw [kept]
    exact distinct
  · rename_i fresh
    have absent : key ∉ members.map Prod.fst := by
      intro known
      apply fresh
      rw [List.any_eq_true]
      obtain ⟨entry, member, same⟩ := List.mem_map.mp known
      exact ⟨entry, member, by simpa using same⟩
    rw [List.map_append, List.nodup_append]
    refine ⟨distinct, List.nodup_singleton _, ?_⟩
    intro known given other last same
    rw [same, List.mem_singleton.mp last] at given
    exact absent given

theorem nodup_foldl_setMember (entries : List (String × Json)) {members : List (String × Json)}
    (distinct : (members.map Prod.fst).Nodup) :
    ((entries.foldl (fun known (key, value) => setMember known key value) members).map
      Prod.fst).Nodup := by
  induction entries generalizing members with
  | nil => exact distinct
  | cons entry rest ih => exact ih (nodup_setMember distinct entry.1 entry.2)

theorem hasDistinctKeys_of_float? {negative : Bool} {significand : Significand} {exponent : Int}
    {value : Json} (made : float? negative significand exponent = some value) :
    value.HasDistinctKeys := by
  unfold float? at made
  obtain ⟨scaled, -, same⟩ := Option.bind_eq_some_iff.mp made
  cases same
  trivial

theorem hasDistinctKeys_of_whole? {negative : Bool} {digits : List Char} {value : Json}
    (made : whole? negative digits = some value) : value.HasDistinctKeys := by
  unfold whole? at made
  dsimp only at made
  split at made
  · cases made
    trivial
  · split at made
    · cases made
      trivial
    · exact hasDistinctKeys_of_float? made

theorem yields_number : number.Yields HasDistinctKeys := by
  unfold number
  refine .last fun minus => .last fun digits => .last fun _ => .last fun fraction =>
    .last fun next => ?_
  dsimp only
  -- Both ways to read an exponent go on in the same way.
  split
  all_goals
    refine .last fun exponent => ?_
    split
    · rename_i value made
      apply Yields.pure
      split at made
      · exact hasDistinctKeys_of_whole? made
      · exact hasDistinctKeys_of_float? made
    · exact yields_failure

theorem yields_scalarValue : scalarValue.Yields HasDistinctKeys := by
  have text : (string <$> text).Yields HasDistinctKeys := by
    rw [map_eq_pure_bind]
    exact .last fun _ => .pure trivial
  unfold scalarValue
  refine .orElse ?_ (.orElse ?_ (.orElse ?_ (.orElse text yields_number)))
  all_goals exact .last fun _ => .pure trivial

theorem yields_value (levels : Nat) : (value levels).Yields HasDistinctKeys := by
  cases levels with
  | zero => exact yields_scalarValue
  | succ levels =>
      rw [value]
      refine yields_scalarValue.orElse (.orElse ?_ ?_)
      · unfold arrayOf
        exact .last fun _ => .last fun _ => .last fun _ => .last fun _ => .pure trivial
      · unfold objectOf
        exact .last fun _ => .last fun _ => .last fun _ => .last fun _ =>
          .pure (nodup_foldl_setMember _ .nil)

/-- An object that is read has each key once. -/
theorem nodup_keys_of_read? {source : String} {members : List (String × Json)}
    (read : read? source = some (object members)) : (members.map Prod.fst).Nodup := by
  have whole : Yields (do gap; let result ← value maxLevels; gap; return result)
      HasDistinctKeys :=
    .last fun _ => (yields_value maxLevels).bind fun _ distinct => .last fun _ => .pure distinct
  unfold read? run? at read
  split at read
  · rename_i taken
    rw [Option.some.inj read] at taken
    exact whole _ _ _ taken
  · cases read

end Json

end FacetSearch
