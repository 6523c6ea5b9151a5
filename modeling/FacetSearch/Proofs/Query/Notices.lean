import FacetSearch.Proofs.Query.Failure
import FacetSearch.Proofs.Schema.Cycles

/-!
What compiling an expression gives notice of. `Notes` says that a computation gives a notice, and
each step of the compiler has one lemma that says exactly when it does. A comparison that has been
compiled has told of a group inside itself exactly if its name stands for one
(`notes_recurringGroup_iff`).
-/

set_option autoImplicit false

namespace FacetSearch

/-- A computation gives a notice, whether it succeeds or fails. -/
def Compiling.Notes {α : Type} (computation : Compiling α) (notice : Notice) : Prop :=
  notice ∈ computation.run.notices

namespace Compiling

variable {α β : Type} {notice : Notice}

theorem not_notes_pure (value : α) (notice : Notice) :
    ¬ Notes (pure value : Compiling α) notice :=
  List.not_mem_nil

theorem not_notes_throw (error : CompileError) (notice : Notice) :
    ¬ Notes (throw error : Compiling α) notice := List.not_mem_nil

theorem notes_lift (logged : Logged α) (notice : Notice) :
    Notes (ExceptT.lift logged) notice ↔ notice ∈ logged.notices := by
  have same : (ExceptT.lift logged : Compiling α).run.notices = logged.notices ++ [] := rfl
  rw [Notes, same, List.append_nil]

theorem notes_bind (computation : Compiling α) (next : α → Compiling β) (notice : Notice) :
    (computation >>= next).Notes notice ↔
      computation.Notes notice ∨ ∃ between, computation.Returns between ∧
        (next between).Notes notice := by
  have unfolded : (computation >>= next).run.notices
      = computation.run.notices ++ match computation.run.result with
        | .ok between => (next between).run.notices
        | .error _ => [] := by
    show computation.run.notices ++ (ExceptT.bindCont next computation.run.result).notices = _
    cases computation.run.result <;> rfl
  unfold Notes Returns
  rw [unfolded, List.mem_append]
  cases computation.run.result <;> simp

/-- Only the computation gives notices where its value is just put into a form. -/
theorem notes_map (computation : Compiling α) (make : α → β) (notice : Notice) :
    (computation >>= fun value => pure (make value)).Notes notice ↔ computation.Notes notice := by
  rw [notes_bind]
  apply or_iff_left
  intro later
  obtain ⟨value, -, noted⟩ := later
  exact not_notes_pure _ _ noted

/-- A node or a group gives the notices of its parts. -/
theorem notes_enclose? (computation : Compiling (List Query)) (make : List Query → Query)
    (notice : Notice) :
    Notes (do
      match ← computation with
      | [] => return none
      | parts => return some (make parts)) notice ↔ computation.Notes notice := by
  rw [notes_bind]
  apply or_iff_left
  intro later
  obtain ⟨parts, -, noted⟩ := later
  cases parts with
  | nil => exact not_notes_pure _ _ noted
  | cons first rest => exact not_notes_pure _ _ noted

/-- Where all items compile, the notices are those of the items. -/
theorem notes_collect_iff {compile : α → Compiling (Option Query)} {items : List α}
    {queries : List Query} (returns : (collect compile items).Returns queries) :
    (collect compile items).Notes notice ↔ ∃ item ∈ items, (compile item).Notes notice := by
  induction items generalizing queries with
  | nil => exact iff_of_false (not_notes_pure _ _) (by simp)
  | cons item rest ih =>
      obtain ⟨query, others, compiled, onward, -⟩ := returns_collect_cons returns
      rw [List.exists_mem_cons_iff, ← ih onward, collect, notes_bind]
      apply or_congr_right
      constructor
      · intro later
        obtain ⟨result, -, noted⟩ := later
        exact (notes_map _ _ _).mp noted
      · intro noted
        exact ⟨query, compiled, (notes_map _ _ _).mpr noted⟩

end Compiling

namespace Comparison

variable {catalog : Catalog} {comparison : Comparison} {name group : String}

/-- About a value there is only to tell that it is a search phrase without terms. -/
theorem eq_noTerms_of_mem_valueClause {negated : Bool} {value : String} {notice : Notice}
    (member : notice ∈ (valueClause catalog name negated value).notices) :
    ∃ phrase, notice = .noTerms name phrase := by
  unfold valueClause at member
  by_cases free : Engine.isFreeText (String.ofList (Text.trim value.toList)) = true
  · simp only [free, if_true] at member
    unfold phraseClause at member
    cases terms : FreeTerm.ofPhrase catalog name (String.ofList (Text.trim value.toList)) with
    | nil =>
        rw [terms] at member
        exact ⟨_, List.mem_singleton.mp member⟩
    | cons first rest =>
        rw [terms] at member
        cases member
  · simp only [free] at member
    cases member

/-- About a field there is only to tell that a search phrase has no terms. -/
theorem eq_noTerms_of_notes {notice : Notice}
    (notes : (comparison.clause? catalog name).Notes notice) :
    ∃ phrase, notice = .noTerms name phrase := by
  have silent : ∀ {α : Type} {given : Except CompileError α},
      ¬ (clause?.liftExcept given).Notes notice :=
    List.not_mem_nil
  obtain ⟨field, operator, arguments⟩ := comparison
  cases operator with
  | equal | unequal =>
      rcases (Compiling.notes_bind _ _ _).mp notes with noted | ⟨value, -, noted⟩
      · exact absurd noted silent
      · exact eq_noTerms_of_mem_valueClause ((Compiling.notes_lift _ _).mp noted)
  | oneOf | above | atLeast | below | atMost | custom symbol =>
      exact absurd ((Compiling.notes_map _ _ _).mp notes) silent

theorem not_notes_field (catalog : Catalog) (comparison : Comparison) (name group : String) :
    ¬ (compileOn catalog comparison (.field name)).Notes (.recurringGroup group) := by
  intro notes
  unfold compileOn at notes
  by_cases valid : catalog.isField name = true
  · rw [if_pos valid] at notes
    obtain ⟨phrase, same⟩ := eq_noTerms_of_notes ((Compiling.notes_map _ _ _).mp notes)
    cases same
  · rw [if_neg valid] at notes
    exact Compiling.not_notes_throw _ _ notes

/-- What has been compiled has told of a group inside itself exactly if there is one. -/
theorem notes_recurringGroup_iff {selection : Selection} {result : Option Query}
    (returns : (compileOn catalog comparison selection).Returns result) :
    (compileOn catalog comparison selection).Notes (.recurringGroup group) ↔
    selection.Recurs group := by
  induction selection using Selection.inductionOnMembers generalizing result with
  | field name => exact iff_of_false (not_notes_field catalog comparison name group) nofun
  | group name members ih =>
      obtain ⟨parts, collected, -⟩ := compileOn_group returns
      have each : ∀ member ∈ members,
          ((compileOn catalog comparison member).Notes (.recurringGroup group) ↔
            member.Recurs group) := by
        intro member held
        obtain ⟨query, compiled, -⟩ := Compiling.exists_of_mem_items collected member held
        exact ih member held compiled
      have told : (compileOn catalog comparison (.group name members)).Notes
          (.recurringGroup group) ↔
          (compileOnAll catalog comparison members).Notes (.recurringGroup group) := by
        rw [compileOn]
        exact Compiling.notes_enclose? _ .group _
      rw [told, compileOnAll_eq, Compiling.notes_collect_iff collected]
      constructor
      · intro found
        obtain ⟨member, held, noted⟩ := found
        exact .within held ((each member held).mp noted)
      · intro recurs
        cases recurs with
        | within held deeper => exact ⟨_, held, (each _ held).mpr deeper⟩
  | recurring name =>
      have told : (compileOn catalog comparison (.recurring name)).Notes (.recurringGroup group) ↔
          Notice.recurringGroup group ∈ [Notice.recurringGroup name] := by
        rw [compileOn, Compiling.notes_map, Compiling.notes_lift]
        rfl
      rw [told, List.mem_singleton, Notice.recurringGroup.injEq]
      constructor
      · rintro rfl
        exact .here
      · intro recurs
        cases recurs
        rfl
  | memberless name =>
      have told : (compileOn catalog comparison (.memberless name)).Notes
          (.recurringGroup group) ↔
          Notice.recurringGroup group ∈ [Notice.memberlessGroup name] := by
        rw [compileOn, Compiling.notes_map, Compiling.notes_lift]
        rfl
      rw [told]
      exact iff_of_false (by simp) nofun

end Comparison

end FacetSearch
