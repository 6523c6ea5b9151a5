import Mathlib
import FacetSearch.Config.Discovery
import FacetSearch.Proofs.Schema.Entries

/-!
Which file a setting comes from. Laying files over the defaults, the least important one first,
gives every setting the value of the first file that has one (`foldr_overlay`), whatever kind of
entry it is. The files have exactly one configuration by these rules (`isOf_combine`,
`IsOf.unique`), and it is the one that is loaded unless it has a flaw: flaws of values that another
file replaces do not count.
-/

set_option autoImplicit false

namespace FacetSearch

section Settling

variable {α β : Type} {value? : α → Option β} {standard value other : β} {layers : List α}
  {found : Option β}

/-- The value of the first layer that has one, or no value if no layer has one. -/
def FirstOf (value? : α → Option β) (layers : List α) : Option β → Prop
  | some value => ∃ before layer after, layers = before ++ layer :: after ∧
      value? layer = some value ∧ ∀ earlier ∈ before, value? earlier = none
  | none => ∀ layer ∈ layers, value? layer = none

/-- A setting has the value of the first layer that has one, or the standard value if no layer has
one. -/
def Settles (value? : α → Option β) (standard : β) (layers : List α) (value : β) : Prop :=
  ∃ found, FirstOf value? layers found ∧ value = found.getD standard

theorem firstOf_iff : FirstOf value? layers found ↔ layers.findSome? value? = found := by
  cases found with
  | none => exact List.findSome?_eq_none_iff.symm
  | some value => exact List.findSome?_eq_some_iff.symm

theorem settles_iff :
    Settles value? standard layers value ↔ value = (layers.findSome? value?).getD standard := by
  simp only [Settles, firstOf_iff, exists_eq_left']

theorem Settles.unique (one : Settles value? standard layers value)
    (two : Settles value? standard layers other) : value = other :=
  (settles_iff.mp one).trans (settles_iff.mp two).symm

end Settling

attribute [ext] FilterSettings SnippetSettings Schema Config

namespace Config

/-- A text without a visible character. -/
def IsBlank (text : String) : Prop := ∀ c ∈ text.toList, Text.isBlank c = true

/-- A setting that a configuration cannot be used with: a boost that is no number, a blank name of
the filters, or no fragments. -/
inductive Flaw (config : Config) : (setting : String) → Prop
  | boost {name : String} {options : FieldOptions} {boost : Binary}
      (known : config.schema.fields.get? name = some options) (boosted : options.boost = some boost)
      (infinite : ∀ negative significand exponent,
        boost ≠ .finite negative significand exponent) :
      Flaw config ("fields." ++ name ++ ".boost")
  | typeField (blank : IsBlank config.filter.typeField) : Flaw config "filter.type_field"
  | missingMarker (blank : IsBlank config.filter.missingMarker) :
      Flaw config "filter.missing_marker"
  | dateKey (blank : IsBlank config.filter.dateKey) : Flaw config "filter.date_key"
  | dateFromField (blank : IsBlank config.filter.dateFromField) :
      Flaw config "filter.date_from_field"
  | dateToField (blank : IsBlank config.filter.dateToField) : Flaw config "filter.date_to_field"
  | fragments (none : config.snippet.maxFragments = 0) : Flaw config "snippet.max_fragments"

/-- The configuration that files have by precedence, the most important file first. -/
structure IsOf (files : List (String × ConfigLayer)) (config : Config) : Prop where
  typeField : Settles (fun file => file.2.filter.bind (·.typeField))
    "type-facet" files config.filter.typeField
  defaultTypes : Settles (fun file => file.2.filter.bind (·.defaultTypes))
    ["object", "description", "description-retro"] files config.filter.defaultTypes
  missingMarker : Settles (fun file => file.2.filter.bind (·.missingMarker))
    "__MISSING__" files config.filter.missingMarker
  dateKey : Settles (fun file => file.2.filter.bind (·.dateKey))
    "orig-date-facet" files config.filter.dateKey
  dateFromField : Settles (fun file => file.2.filter.bind (·.dateFromField))
    "orig-date-from-facet" files config.filter.dateFromField
  dateToField : Settles (fun file => file.2.filter.bind (·.dateToField))
    "orig-date-to-facet" files config.filter.dateToField
  strictRoot : Settles (fun file => file.2.filter.bind (·.strictRoot))
    false files config.filter.strictRoot
  padding : Settles (fun file => file.2.snippet.bind (·.padding))
    60 files config.snippet.padding
  dividers : Settles (fun file => file.2.snippet.bind (·.dividers))
    "()[]\x7b\x7d;.:!?" files config.snippet.dividers
  maxFragments : Settles (fun file => file.2.snippet.bind (·.maxFragments))
    3 files config.snippet.maxFragments
  preTag : Settles (fun file => file.2.snippet.bind (·.preTag))
    "<em>" files config.snippet.preTag
  postTag : Settles (fun file => file.2.snippet.bind (·.postTag))
    "</em>" files config.snippet.postTag
  facets : Settles (fun file => file.2.facets.bind (·.fields)) [] files config.schema.facets
  field : ∀ name, FirstOf (fun file => file.2.fields.bind (·.get? name)) files
    (config.schema.fields.get? name)
  group : ∀ name, FirstOf (fun file => file.2.groups.bind (·.get? name)) files
    (config.schema.groups.get? name)
  tag : ∀ facet, FirstOf (fun file => file.2.facets.bind (·.tags) |>.bind (·.get? facet)) files
    (config.schema.tags.get? facet)
  root : config.root = files.head?.bind fun file => Path.parent? file.1

variable {files : List (String × ConfigLayer)} {config other : Config} {β : Type}

/-- What one layer does to a part of the configuration, all layers do: the first one that has a
value for it decides. -/
theorem foldr_overlay (part : Config → β) (value? : ConfigLayer → Option β)
    (step : ∀ config layer, part (config.overlay layer) = (value? layer).getD (part config))
    (root : Option String) (files : List (String × ConfigLayer)) :
    part (combine root (files.map Prod.snd))
      = (files.findSome? fun file => value? file.2).getD (part { root }) := by
  induction files with
  | nil => rfl
  | cons file rest ih =>
      change part ((combine root (rest.map Prod.snd)).overlay file.2) = _
      rw [step, ih, List.findSome?_cons]
      cases value? file.2 <;> rfl

/-- A setting of the filters takes the first value. -/
theorem settles_filter (part : FilterSettings → β) {value? : FilterLayer → Option β}
    (step : ∀ settings layer, part (settings.overlay layer) = (value? layer).getD (part settings))
    (silent : value? {} = none) (root : Option String) :
    Settles (fun file : String × ConfigLayer => file.2.filter.bind value?) (part {}) files
      (part (combine root (files.map Prod.snd)).filter) := by
  refine settles_iff.mpr (foldr_overlay (fun config => part config.filter)
    (fun layer => layer.filter.bind value?) (fun config layer => ?_) root files)
  change part (config.filter.overlay (layer.filter.getD {})) = _
  rw [step]
  cases layer.filter with
  | none => simp [silent]
  | some filter => rfl

/-- A setting of the snippets takes the first value. -/
theorem settles_snippet (part : SnippetSettings → β) {value? : SnippetLayer → Option β}
    (step : ∀ settings layer, part (settings.overlay layer) = (value? layer).getD (part settings))
    (silent : value? {} = none) (root : Option String) :
    Settles (fun file : String × ConfigLayer => file.2.snippet.bind value?) (part {}) files
      (part (combine root (files.map Prod.snd)).snippet) := by
  refine settles_iff.mpr (foldr_overlay (fun config => part config.snippet)
    (fun layer => layer.snippet.bind value?) (fun config layer => ?_) root files)
  change part (config.snippet.overlay (layer.snippet.getD {})) = _
  rw [step]
  cases layer.snippet with
  | none => simp [silent]
  | some snippet => rfl

/-- An entry under a name is the one of the first layer that has it. -/
theorem firstOf_entry (part : Config → Dict β) (value? : ConfigLayer → Option (Dict β))
    (step : ∀ config layer,
      part (config.overlay layer) = ((value? layer).getD .empty).orElse (part config))
    (bare : ∀ root, part { root } = .empty) (root : Option String) (name : String) :
    FirstOf (fun file : String × ConfigLayer => (value? file.2).bind (·.get? name)) files
      ((part (combine root (files.map Prod.snd))).get? name) := by
  have lookUp : ∀ config layer, (part (config.overlay layer)).get? name
      = (((value? layer).bind (·.get? name)).map some).getD ((part config).get? name) := by
    intro config layer
    rw [step, Dict.get?_orElse]
    cases value? layer with
    | none => rfl
    | some dict => cases found : dict.get? name <;> simp [found]
  refine firstOf_iff.mpr ?_
  rw [foldr_overlay (fun config => (part config).get? name) _ lookUp root files, bare]
  induction files with
  | nil => rfl
  | cons file rest ih =>
      rw [List.findSome?_cons, List.findSome?_cons]
      cases (value? file.2).bind (·.get? name) with
      | none => exact ih
      | some value => rfl

theorem combine_root (root : Option String) (layers : List ConfigLayer) :
    (combine root layers).root = root := by
  induction layers with
  | nil => rfl
  | cons layer rest ih => exact ih

/-- Laying the files over each other gives the configuration they have by precedence. -/
theorem isOf_combine (files : List (String × ConfigLayer)) : IsOf files
    (combine (files.head?.bind fun file => Path.parent? file.1) (files.map Prod.snd)) where
  typeField := settles_filter (·.typeField) (fun _ _ => rfl) rfl _
  defaultTypes := settles_filter (·.defaultTypes) (fun _ _ => rfl) rfl _
  missingMarker := settles_filter (·.missingMarker) (fun _ _ => rfl) rfl _
  dateKey := settles_filter (·.dateKey) (fun _ _ => rfl) rfl _
  dateFromField := settles_filter (·.dateFromField) (fun _ _ => rfl) rfl _
  dateToField := settles_filter (·.dateToField) (fun _ _ => rfl) rfl _
  strictRoot := settles_filter (·.strictRoot) (fun _ _ => rfl) rfl _
  padding := settles_snippet (·.padding) (fun _ _ => rfl) rfl _
  dividers := settles_snippet (·.dividers) (fun _ _ => rfl) rfl _
  maxFragments := settles_snippet (·.maxFragments) (fun _ _ => rfl) rfl _
  preTag := settles_snippet (·.preTag) (fun _ _ => rfl) rfl _
  postTag := settles_snippet (·.postTag) (fun _ _ => rfl) rfl _
  facets := settles_iff.mpr <|
    foldr_overlay (·.schema.facets) (·.facets.bind (·.fields)) (fun config layer => by
      change (layer.facets.getD {}).fields.getD config.schema.facets = _
      cases layer.facets <;> rfl) _ files
  field := firstOf_entry (·.schema.fields) (·.fields) (fun _ _ => rfl) (fun _ => rfl) _
  group := firstOf_entry (·.schema.groups) (·.groups) (fun _ _ => rfl) (fun _ => rfl) _
  tag := firstOf_entry (·.schema.tags) (·.facets.bind (·.tags)) (fun config layer => by
    change ((layer.facets.getD {}).tags.getD .empty).orElse config.schema.tags = _
    cases layer.facets <;> rfl) (fun _ => rfl) _
  root := combine_root _ _

/-- Files have one configuration. -/
theorem IsOf.unique (one : IsOf files config) (two : IsOf files other) : config = other := by
  have entries {γ : Type} {value? : String → String × ConfigLayer → Option γ}
      {first second : Dict γ}
      (left : ∀ name, FirstOf (value? name) files (first.get? name))
      (right : ∀ name, FirstOf (value? name) files (second.get? name)) : first = second :=
    Dict.ext_get? fun name => (firstOf_iff.mp (left name)).symm.trans (firstOf_iff.mp (right name))
  exact Config.ext
    (Schema.ext (entries one.field two.field) (entries one.group two.group)
      (one.facets.unique two.facets) (entries one.tag two.tag))
    (FilterSettings.ext (one.typeField.unique two.typeField)
      (one.defaultTypes.unique two.defaultTypes) (one.missingMarker.unique two.missingMarker)
      (one.dateKey.unique two.dateKey) (one.dateFromField.unique two.dateFromField)
      (one.dateToField.unique two.dateToField) (one.strictRoot.unique two.strictRoot))
    (SnippetSettings.ext (one.padding.unique two.padding) (one.dividers.unique two.dividers)
      (one.maxFragments.unique two.maxFragments) (one.preTag.unique two.preTag)
      (one.postTag.unique two.postTag))
    (one.root.trans two.root.symm)

theorem isFinite_eq_false_iff {boost : Binary} : boost.isFinite = false ↔
    ∀ negative significand exponent, boost ≠ .finite negative significand exponent := by
  cases boost <;> simp [Binary.isFinite]

theorem allBlank_iff {text : String} : Text.allBlank text.toList = true ↔ IsBlank text :=
  List.all_eq_true

theorem badBoost?_eq_some {schema : Schema} {name : String} {boost : Binary}
    (bad : badBoost? schema = some (name, boost)) : ∃ options,
      schema.fields.get? name = some options ∧ options.boost = some boost ∧
      boost.isFinite = false := by
  obtain ⟨⟨key, options⟩, member, found⟩ := List.exists_of_findSome?_eq_some bad
  cases boosted : options.boost with
  | none => simp [boosted] at found
  | some value =>
      cases finite : value.isFinite with
      | true => simp [boosted, finite] at found
      | false =>
          simp only [boosted, finite] at found
          cases found
          exact ⟨options, Dict.get?_eq_some_iff.mpr member, boosted, finite⟩

theorem isFinite_of_badBoost? {schema : Schema} {name : String} {options : FieldOptions}
    {boost : Binary} (sound : badBoost? schema = none)
    (known : schema.fields.get? name = some options) (boosted : options.boost = some boost) :
    boost.isFinite = true := by
  have quiet := List.findSome?_eq_none_iff.mp sound (name, options) (Dict.get?_eq_some_iff.mp known)
  simpa only [boosted, ite_eq_left_iff, reduceCtorEq, imp_false, not_not] using quiet

/-- A required text that is blank is a flaw under its key. -/
theorem flaw_of_mem_requiredTexts {key text : String}
    (required : (key, text) ∈ requiredTexts config.filter) (blank : IsBlank text) :
    config.Flaw key := by
  simp only [requiredTexts, List.mem_cons, Prod.mk.injEq, List.not_mem_nil, or_false] at required
  rcases required with ⟨rfl, rfl⟩ | ⟨rfl, rfl⟩ | ⟨rfl, rfl⟩ | ⟨rfl,
    rfl⟩ | ⟨rfl, rfl⟩
  · exact .typeField blank
  · exact .missingMarker blank
  · exact .dateKey blank
  · exact .dateFromField blank
  · exact .dateToField blank

/-- A refusal names a setting with a flaw. -/
theorem flaw_of_check {error : ConfigError} (refused : config.check = .error error) :
    ∃ setting problem, error = .invalid setting problem ∧ config.Flaw setting := by
  unfold check at refused
  split at refused
  next name boost bad =>
    obtain ⟨options, known, boosted, infinite⟩ := badBoost?_eq_some bad
    cases refused
    exact ⟨_, _, rfl, .boost known boosted (isFinite_eq_false_iff.mp infinite)⟩
  next =>
    split at refused
    next key text found =>
      have blank : Text.allBlank text.toList = true := by simpa using List.find?_some found
      cases refused
      exact ⟨_, _, rfl, flaw_of_mem_requiredTexts (List.mem_of_find?_eq_some found)
        (allBlank_iff.mp blank)⟩
    next =>
      split at refused
      next none =>
        cases refused
        exact ⟨_, _, rfl, .fragments none⟩
      next => cases refused

/-- No setting of an accepted configuration has a flaw. -/
theorem not_flaw_of_check {setting : String} (accepted : config.check = .ok ()) :
    ¬ config.Flaw setting := by
  intro flaw
  unfold check at accepted
  split at accepted
  next => cases accepted
  next sound =>
    split at accepted
    next => cases accepted
    next filled =>
      split at accepted
      next => cases accepted
      next some =>
        have visible : ∀ entry ∈ requiredTexts config.filter, ¬ IsBlank entry.2 :=
          fun entry required blank =>
          List.find?_eq_none.mp filled entry required (allBlank_iff.mpr blank)
        cases flaw with
        | boost known boosted infinite =>
            have finite := isFinite_of_badBoost? sound known boosted
            rw [isFinite_eq_false_iff.mpr infinite] at finite
            cases finite
        | typeField blank => exact visible ("filter.type_field", _) (by simp [requiredTexts]) blank
        | missingMarker blank =>
            exact visible ("filter.missing_marker", _) (by simp [requiredTexts]) blank
        | dateKey blank => exact visible ("filter.date_key", _) (by simp [requiredTexts]) blank
        | dateFromField blank =>
            exact visible ("filter.date_from_field", _) (by simp [requiredTexts]) blank
        | dateToField blank =>
            exact visible ("filter.date_to_field", _) (by simp [requiredTexts]) blank
        | fragments none => exact some none

theorem ofLayers_eq (root : Option String) (layers : List ConfigLayer) :
    ofLayers root layers = (combine root layers).check.map fun _ => combine root layers := by
  change ((combine root layers).check.bind fun _ => .ok (combine root layers)) = _
  cases (combine root layers).check <;> rfl

/-- Files have exactly one configuration by precedence. It is loaded if none of its settings has a
flaw, and refused for an invalid setting otherwise, which is one with a flaw. -/
theorem ofFiles_spec (files : List (String × ConfigLayer)) :
    (∃ config, IsOf files config) ∧
    (∀ config, ofFiles files = .ok config ↔ IsOf files config ∧
      ∀ setting, ¬ config.Flaw setting) ∧
    ((∃ setting problem, ofFiles files = .error (.invalid setting problem)) ↔
      ∃ config, IsOf files config ∧ ∃ setting, config.Flaw setting) ∧
    ∀ setting problem, ofFiles files = .error (.invalid setting problem) →
      ∃ config, IsOf files config ∧ config.Flaw setting := by
  have merged := isOf_combine files
  have loaded : ofFiles files = _ := ofLayers_eq _ _
  rw [loaded]
  generalize combine _ _ = config at merged ⊢
  have only : ∀ other, IsOf files other → other = config := fun other same => same.unique merged
  cases checked : config.check with
  | ok =>
      have sound : ∀ setting, ¬ config.Flaw setting := fun setting => not_flaw_of_check checked
      refine ⟨⟨config, merged⟩, fun other => ⟨?_, ?_⟩, ⟨?_, ?_⟩, ?_⟩
      · rintro ⟨⟩
        exact ⟨merged, sound⟩
      · rintro ⟨same, -⟩
        rw [only other same]
        rfl
      · rintro ⟨setting, problem, ⟨⟩⟩
      · rintro ⟨other, same, setting, flaw⟩
        exact absurd (only other same ▸ flaw) (sound setting)
      · rintro setting problem ⟨⟩
  | error error =>
      obtain ⟨setting, problem, rfl, flaw⟩ := flaw_of_check checked
      refine ⟨⟨config, merged⟩, fun other => ⟨?_, ?_⟩, ⟨?_, ?_⟩, ?_⟩
      · rintro ⟨⟩
      · rintro ⟨same, sound⟩
        exact absurd (only other same ▸ flaw) (sound setting)
      · intro _
        exact ⟨config, merged, setting, flaw⟩
      · intro _
        exact ⟨setting, problem, rfl⟩
      · rintro named reason ⟨⟩
        exact ⟨config, merged, flaw⟩

/-- A blank marker in the file of a directory, which the file of a directory inside it replaces. The
other way round the marker is refused. -/
theorem ofFiles_spec_blank :
    let near : String × ConfigLayer :=
      ("/p/c/.disco.toml", { filter := some { missingMarker := some "none" } })
    let far : String × ConfigLayer :=
      ("/p/.disco.toml", { filter := some { missingMarker := some " \t", dateKey := some "when" } })
    (∃ config, ofFiles [near, far] = .ok config ∧ IsOf [near, far] config ∧
      (∀ setting, ¬ config.Flaw setting) ∧ config.filter.missingMarker = "none" ∧
      config.filter.dateKey = "when" ∧ config.root = some "/p/c") ∧
    ofFiles [far, near] = .error (.invalid "filter.missing_marker" "must not be empty") ∧
    ∃ config, IsOf [far, near] config ∧ config.Flaw "filter.missing_marker" := by
  intro near far
  have passed : (combine (Path.parent? near.1) [near.2, far.2]).check = .ok () := by decide +kernel
  have failed : (combine (Path.parent? far.1) [far.2, near.2]).check
      = .error (.invalid "filter.missing_marker" "must not be empty") := by decide +kernel
  have loaded : ofFiles [near, far] = .ok (combine (Path.parent? near.1) [near.2, far.2]) :=
    (ofLayers_eq _ _).trans (congrArg (Except.map _) passed)
  have refused : ofFiles [far, near]
      = .error (.invalid "filter.missing_marker" "must not be empty") :=
    (ofLayers_eq _ _).trans (congrArg (Except.map _) failed)
  obtain ⟨isOf, sound⟩ := ((ofFiles_spec [near, far]).2.1 _).mp loaded
  exact ⟨⟨_, loaded, isOf, sound, rfl, rfl, by decide +kernel⟩, refused,
    (ofFiles_spec [far, near]).2.2.2 _ _ refused⟩

end Config

end FacetSearch
