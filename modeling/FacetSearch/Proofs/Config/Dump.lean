import Mathlib
import FacetSearch.Config.Encoding
import FacetSearch.Proofs.Config.Precedence
import FacetSearch.Proofs.Toml.Document

/-!
Dumped configurations are loaded again (`Config.ofText_dump`). Every part of a configuration is
decoded from what it is encoded as, so that a dump is read as a layer that says everything
(`Config.layer`), and that layer hides the defaults below it.
-/

set_option autoImplicit false

namespace FacetSearch

open Toml

namespace Toml

variable {α β : Type} {encode : α → Toml} {decode : Toml → Option α}

/-- A value is carried by a written form: the form is legible, and what it is read as is decoded as
the value. -/
structure Carries (decode : Toml → Option α) (written : Toml) (value : α) : Prop where
  legible : IsLegible written
  decoded : decode written.reread = some value

theorem carries_string (contents : String) : Carries text? (.string contents) contents :=
  ⟨.string contents, rfl⟩

theorem carries_boolean (value : Bool) : Carries flag? (.boolean value) value :=
  ⟨.boolean value, rfl⟩

theorem carries_integer {n : Nat} (small : n < 2 ^ 64) : Carries natural? (.integer n) n where
  legible := .integer (by omega)
  decoded := by
    have greatest : Int.pow 2 64 = 2 ^ 64 := rfl
    have bounds : 0 ≤ (n : Int) ∧ (n : Int) < Int.pow 2 64 := by
      rw [greatest]
      omega
    change natural? (.integer n) = some n
    rw [natural?, if_pos bounds, Int.toNat_natCast]

/-- A number of 32 bits that is read back from how it is written. Numbers are read with 64 bits
first, so a few of them are not. -/
def ReadsBack (number : Binary) : Prop := (rereadFloat number).bind single? = some number

instance : DecidablePred ReadsBack := fun _ => inferInstanceAs (Decidable (_ = _))

-- Written as 0.00000000000000000000000007038531, which is closer to the next number once it has 64
-- bits.
example : ¬ ReadsBack (.finite false 11420669 (-107)) := by decide +kernel

theorem carries_float {number : Binary} (back : ReadsBack number) :
    Carries single? (.float number) number := by
  obtain ⟨value, read, decoded⟩ := Option.bind_eq_some_iff.mp back
  refine ⟨.float read ?_, by rwa [reread, read]⟩
  cases value with
  | table => cases decoded
  | _ => rfl

theorem mapM_map_of_decoded {encode : α → β} {decode : β → Option α} {values : List α}
    (each : ∀ value ∈ values, decode (encode value) = some value) :
    (values.map encode).mapM decode = some values := by
  induction values with
  | nil => rfl
  | cons value rest ih =>
      rw [List.map_cons, List.mapM_cons, each value List.mem_cons_self,
        ih fun other member => each other (List.mem_cons_of_mem _ member)]
      rfl

theorem carries_texts (texts : List String) : Carries texts? (ofTexts texts) texts :=
  ⟨.texts texts, mapM_map_of_decoded fun _ _ => rfl⟩

theorem carries_oneOrMoreTexts (texts : List String) :
    Carries oneOrMoreTexts? (ofTexts texts) texts :=
  ⟨.texts texts, (carries_texts texts).decoded⟩

section Tables

variable {entries : List (String × Toml)} (distinct : (entries.map Prod.fst).Nodup)
  (each : ∀ entry ∈ entries, IsLegible entry.2)

include distinct each

theorem IsLegible.table_of_plain (plain : ∀ entry ∈ entries, entry.2.isTable = false) :
    IsLegible (.table entries) := by
  rw [← List.append_nil entries] at distinct each ⊢
  exact .table plain nofun distinct each

theorem IsLegible.table_of_tables (below : ∀ entry ∈ entries, entry.2.isTable = true) :
    IsLegible (.table entries) :=
  @IsLegible.table [] entries nofun below distinct each

end Tables

/-- A dictionary is carried entry by entry. -/
theorem carries_dict (dict : Dict α) (kind : Bool)
    (uniform : ∀ value, (encode value).isTable = kind)
    (each : ∀ value ∈ dict.values, Carries decode (encode value) value) :
    Carries (dict? decode) (ofDict encode dict) dict := by
  have carried : ∀ entry ∈ dict.entries, Carries decode (encode entry.2) entry.2 :=
    fun entry member => each entry.2 (List.mem_map_of_mem member)
  have distinct := (dict.map encode).nodup_keys
  have legible : ∀ entry ∈ (dict.map encode).entries, IsLegible entry.2 := by
    intro entry member
    obtain ⟨held, known, rfl⟩ := List.mem_map.mp member
    exact (carried held known).legible
  have same : ∀ entry ∈ (dict.map encode).entries, entry.2.isTable = kind := by
    intro entry member
    obtain ⟨held, -, rfl⟩ := List.mem_map.mp member
    exact uniform held.2
  constructor
  · cases kind with
    | false => exact .table_of_plain distinct legible same
    | true => exact .table_of_tables distinct legible same
  · have decoded : (rereadEntries (dict.map encode).entries).mapM
        (fun entry => (decode entry.2).map (entry.1, ·)) = some dict.entries := by
      rw [rereadEntries_eq, Dict.map, List.map_map]
      refine mapM_map_of_decoded fun entry member => ?_
      simp only [Function.comp_apply, (carried entry member).decoded, Option.map_some]
    rw [ofDict, reread]
    exact Option.bind_eq_some_iff.mpr ⟨_, decoded, congrArg some (Dict.ofList_entries dict)⟩

/-- A table is read as the values of its keys. -/
theorem section?_reread {entries : List (String × Toml)}
    (distinct : (entries.map Prod.fst).Nodup) :
    (reread (.table entries)).section? (entries.map Prod.fst)
      = some (entries.map fun entry => some entry.2.reread) := by
  have named : (rereadEntries entries).map Prod.fst = entries.map Prod.fst :=
    MakeUp.map_fst_rereadEntries entries
  have found : ∀ entry ∈ entries, (rereadEntries entries).lookup entry.1
      = some entry.2.reread := by
    intro entry member
    refine Dict.lookup_of_mem (named ▸ distinct) ?_
    rw [rereadEntries_eq]
    exact List.mem_map_of_mem member
  rw [reread]
  change some ((entries.map Prod.fst).map fun key => (rereadEntries entries).lookup key) = _
  rw [List.map_map]
  exact congrArg some (List.map_congr_left found)

theorem optional?_of_carries {written : Toml} {value : α}
    (carries : Carries decode written value) :
    optional? decode (some written.reread) = some (some value) := by
  rw [optional?, carries.decoded, Option.map_some]

/-- A value that may be missing is decoded from what it is read as. -/
theorem optional?_map {value : Option α}
    (carries : ∀ held ∈ value, Carries decode (encode held) held) :
    optional? decode (value.map fun held => (encode held).reread) = some value := by
  cases value with
  | none => rfl
  | some held => exact optional?_of_carries (carries held rfl)

theorem exists_of_optional? {written : Option Toml} {decoded : Option α} {value : α}
    (taken : optional? decode written = some decoded) (held : value ∈ decoded) :
    ∃ source, decode source = some value := by
  cases written with
  | none =>
      cases taken
      cases held
  | some source =>
      obtain ⟨other, known, rfl⟩ := Option.map_eq_some_iff.mp taken
      cases held
      exact ⟨source, known⟩

theorem lt_of_natural? {value : Toml} {n : Nat} (decoded : natural? value = some n) :
    n < 2 ^ 64 := by
  cases value with
  | integer whole =>
      rw [natural?] at decoded
      split at decoded
      next bounds =>
        have greatest : Int.pow 2 64 = 2 ^ 64 := rfl
        rw [greatest] at bounds
        cases decoded
        omega
      next => cases decoded
  | _ => cases decoded

end Toml

section Options

variable {value : Toml} {options : FieldOptions} {boost exactVariant stemmedVariant : Option Toml}

theorem FieldOptions.ofToml?_of_section
    (known : (value.entries?.getD []).any (fun entry => !keys.contains entry.1) = false)
    (read : value.section? keys = some [boost, exactVariant, stemmedVariant])
    (first : optional? single? boost = some options.boost)
    (second : optional? text? exactVariant = some options.exactVariant)
    (third : optional? text? stemmedVariant = some options.stemmedVariant) :
    ofToml? value = some options := by
  rw [ofToml?, known, read]
  simp [first, second, third]

end Options

theorem mem_entryOf? {α : Type} {key : String} {encode : α → Toml} {value : Option α}
    {entry : String × Toml} :
    entry ∈ entryOf? key encode value ↔ ∃ held ∈ value, entry = (key, encode held) := by
  cases value <;> simp [entryOf?]

/-- The entries of the options of a field are legible, no tables, and known. -/
theorem FieldOptions.entries_spec {options : FieldOptions} {entries : List (String × Toml)}
    (written : options.toToml = .table entries)
    (boosts : ∀ boost ∈ options.boost, ReadsBack boost) :
    (entries.map Prod.fst).Nodup ∧ ∀ entry ∈ entries,
      IsLegible entry.2 ∧ entry.2.isTable = false ∧ entry.1 ∈ keys := by
  cases written
  constructor
  · obtain ⟨boost, exactVariant, stemmedVariant⟩ := options
    cases boost <;> cases exactVariant <;> cases stemmedVariant <;> simp [entryOf?]
  · simp only [List.mem_append, mem_entryOf?]
    rintro entry ((⟨boost, held, rfl⟩ | ⟨contents, -, rfl⟩) | ⟨contents, -, rfl⟩)
    · exact ⟨(carries_float (boosts boost held)).legible, rfl, by simp [keys]⟩
    · exact ⟨.string contents, rfl, by simp [keys]⟩
    · exact ⟨.string contents, rfl, by simp [keys]⟩

/-- The options of a field are carried if its boost is read back. -/
theorem FieldOptions.carries {options : FieldOptions}
    (boosts : ∀ boost ∈ options.boost, ReadsBack boost) :
    Carries ofToml? options.toToml options := by
  obtain ⟨distinct, each⟩ := entries_spec rfl boosts
  have known : (options.toToml.reread.entries?.getD []).any
      (fun entry => !keys.contains entry.1) = false := by
    rw [toToml, reread, rereadEntries_eq]
    refine List.any_eq_false.mpr fun entry member => ?_
    obtain ⟨source, held, rfl⟩ := List.mem_map.mp member
    simp [(each source held).2.2]
  have read : section? keys options.toToml.reread
      = some [options.boost.map fun held => (float held).reread,
      options.exactVariant.map fun held => (string held).reread,
      options.stemmedVariant.map fun held => (string held).reread] := by
    obtain ⟨boost, exactVariant, stemmedVariant⟩ := options
    cases boost <;> cases exactVariant <;> cases stemmedVariant <;>
      simp [toToml, entryOf?, reread, rereadEntries, section?, entries?, keys, List.lookup]
  exact ⟨.table_of_plain distinct (fun entry member => (each entry member).1)
    (fun entry member => (each entry member).2.1), ofToml?_of_section known read
    (optional?_map fun boost held => carries_float (boosts boost held))
    (optional?_map fun contents _ => carries_string contents)
    (optional?_map fun contents _ => carries_string contents)⟩

/-- A layer that says everything that the settings say. -/
def FilterSettings.layer (settings : FilterSettings) : FilterLayer where
  typeField := settings.typeField
  defaultTypes := settings.defaultTypes
  missingMarker := settings.missingMarker
  dateKey := settings.dateKey
  dateFromField := settings.dateFromField
  dateToField := settings.dateToField
  strictRoot := settings.strictRoot

theorem FilterSettings.carries (settings : FilterSettings) :
    Carries FilterLayer.ofToml? settings.toToml settings.layer := by
  have types := carries_texts settings.defaultTypes
  constructor
  · refine .table_of_plain (by simp) ?_ (by simp [ofTexts, isTable])
    simp [IsLegible.string, IsLegible.boolean, types.legible]
  · have read : section? FilterLayer.keys settings.toToml.reread = _ := section?_reread (by simp)
    rw [FilterLayer.ofToml?, read]
    simp [layer, optional?_of_carries (carries_string _), optional?_of_carries (carries_boolean _),
      optional?_of_carries types]

/-- A layer that says everything that the settings say. -/
def SnippetSettings.layer (settings : SnippetSettings) : SnippetLayer where
  padding := settings.padding
  dividers := settings.dividers
  maxFragments := settings.maxFragments
  preTag := settings.preTag
  postTag := settings.postTag

/-- The numbers of the settings have 64 bits. -/
structure SnippetSettings.IsBounded (settings : SnippetSettings) : Prop where
  padding : settings.padding < 2 ^ 64
  maxFragments : settings.maxFragments < 2 ^ 64

theorem SnippetLayer.ofToml?_eq_some_iff {value : Toml} {layer : SnippetLayer} :
    ofToml? value = some layer ↔ ∃ padding dividers maxFragments preTag postTag,
      value.section? keys = some [padding, dividers, maxFragments, preTag, postTag] ∧
      optional? natural? padding = some layer.padding ∧
      optional? text? dividers = some layer.dividers ∧
      optional? natural? maxFragments = some layer.maxFragments ∧
      optional? text? preTag = some layer.preTag ∧
      optional? text? postTag = some layer.postTag := by
  constructor
  · intro decoded
    obtain ⟨values, read, decoded⟩ := Option.bind_eq_some_iff.mp decoded
    split at decoded
    next padding dividers maxFragments preTag postTag =>
      simp only [Option.bind_eq_bind, Option.bind_eq_some_iff, Option.pure_def,
        Option.some.injEq] at decoded
      obtain ⟨_, first, _, second, _, third, _, fourth, _, fifth, rfl⟩ := decoded
      exact ⟨_, _, _, _, _, read, first, second, third, fourth, fifth⟩
    next => cases decoded
  · rintro ⟨padding, dividers, maxFragments, preTag, postTag, read, first, second, third,
      fourth, fifth⟩
    rw [ofToml?, read]
    simp [first, second, third, fourth, fifth]

theorem SnippetSettings.carries {settings : SnippetSettings} (bounded : settings.IsBounded) :
    Carries SnippetLayer.ofToml? settings.toToml settings.layer := by
  have padding := carries_integer bounded.padding
  have fragments := carries_integer bounded.maxFragments
  constructor
  · refine .table_of_plain (by simp) ?_ (by simp [isTable])
    simp [IsLegible.string, padding.legible, fragments.legible]
  · exact SnippetLayer.ofToml?_eq_some_iff.mpr ⟨_, _, _, _, _, section?_reread (by simp),
      optional?_of_carries padding, optional?_of_carries (carries_string _),
      optional?_of_carries fragments, optional?_of_carries (carries_string _),
      optional?_of_carries (carries_string _)⟩

theorem ConfigLayer.ofToml?_eq_some_iff {value : Toml} {layer : ConfigLayer} :
    ofToml? value = some layer ↔ ∃ root fields groups facets filter snippet,
      value.section? keys = some [root, fields, groups, facets, filter, snippet] ∧
      optional? flag? root = some layer.root ∧
      optional? (dict? FieldOptions.ofToml?) fields = some layer.fields ∧
      optional? (dict? oneOrMoreTexts?) groups = some layer.groups ∧
      optional? FacetLayer.ofToml? facets = some layer.facets ∧
      optional? FilterLayer.ofToml? filter = some layer.filter ∧
      optional? SnippetLayer.ofToml? snippet = some layer.snippet := by
  constructor
  · intro decoded
    obtain ⟨values, read, decoded⟩ := Option.bind_eq_some_iff.mp decoded
    split at decoded
    next =>
      simp only [Option.bind_eq_bind, Option.bind_eq_some_iff, Option.pure_def,
        Option.some.injEq] at decoded
      obtain ⟨_, first, _, second, _, third, _, fourth, _, fifth, _, sixth, rfl⟩ := decoded
      exact ⟨_, _, _, _, _, _, read, first, second, third, fourth, fifth, sixth⟩
    next => cases decoded
  · rintro ⟨root, fields, groups, facets, filter, snippet, read, first, second, third, fourth,
      fifth, sixth⟩
    rw [ofToml?, read]
    simp [first, second, third, fourth, fifth, sixth]

namespace Config

variable {config : Config} {contents : String}

/-- A layer that says everything that the configuration says. -/
def layer (config : Config) : ConfigLayer where
  fields := config.schema.fields
  groups := config.schema.groups
  facets := some ⟨config.schema.facets, config.schema.tags⟩
  filter := config.filter.layer
  snippet := config.snippet.layer

/-- All boosts of a configuration are read back. -/
def BoostsReadBack (config : Config) : Prop :=
  ∀ options ∈ config.schema.fields.values, ∀ boost ∈ options.boost, ReadsBack boost

instance : DecidablePred BoostsReadBack := fun _ => inferInstanceAs (Decidable (∀ _ ∈ _, _))

/-- What a dump says about the facets of a schema. -/
def facetsTable (schema : Schema) : Toml :=
  .table [("fields", .ofTexts schema.facets), ("tags", .ofDict .string schema.tags)]

theorem carries_facetsTable (schema : Schema) :
    Carries FacetLayer.ofToml? (facetsTable schema) ⟨schema.facets, schema.tags⟩ := by
  have facets := carries_texts schema.facets
  have tags := carries_dict schema.tags false (fun _ => rfl) fun tag _ => carries_string tag
  constructor
  · refine @IsLegible.table [("fields", .ofTexts schema.facets)]
      [("tags", .ofDict .string schema.tags)]
      ?_ ?_ ?_ ?_
    · simp [ofTexts, isTable]
    · simp [ofDict, isTable]
    · simp
    · simp [facets.legible, tags.legible]
  · have read : (facetsTable schema).reread.section? ["fields", "tags"]
        = _ := section?_reread (by simp)
    rw [FacetLayer.ofToml?, read]
    simp [optional?_of_carries facets, optional?_of_carries tags]

/-- A configuration is carried by its table. -/
theorem carries (bounded : config.snippet.IsBounded) (boosts : config.BoostsReadBack) :
    Carries ConfigLayer.ofToml? config.toToml config.layer := by
  have filter := config.filter.carries
  have snippet := SnippetSettings.carries bounded
  have facets := carries_facetsTable config.schema
  have fields := carries_dict config.schema.fields true (fun _ => rfl)
    fun options member => FieldOptions.carries (boosts options member)
  have groups := carries_dict config.schema.groups false (fun _ => rfl)
    fun members _ => carries_oneOrMoreTexts members
  constructor
  · refine .table_of_tables (by simp) ?_ ?_
    · have inner : IsLegible (.table [("fields", .ofTexts config.schema.facets),
          ("tags", .ofDict .string config.schema.tags)]) := facets.legible
      simp [filter.legible, snippet.legible, inner, fields.legible, groups.legible]
    · simp [FilterSettings.toToml, SnippetSettings.toToml, ofDict, isTable]
  · have read : section? ConfigLayer.keys config.toToml.reread = some [none,
        some (reread (.ofDict FieldOptions.toToml config.schema.fields)),
        some (reread (.ofDict .ofTexts config.schema.groups)),
        some (facetsTable config.schema).reread, some config.filter.toToml.reread,
        some config.snippet.toToml.reread] := by
      rw [toToml, reread]
      simp [facetsTable, rereadEntries, section?, entries?, ConfigLayer.keys, List.lookup]
    exact ConfigLayer.ofToml?_eq_some_iff.mpr ⟨_, _, _, _, _, _, read, rfl,
      optional?_of_carries fields, optional?_of_carries groups, optional?_of_carries facets,
      optional?_of_carries filter,
      optional?_of_carries snippet⟩

/-- A layer that says everything hides the defaults. -/
theorem combine_layer (root : Option String) :
    combine root [config.layer] = { config with root } := by
  have fields := Dict.orElse_empty config.schema.fields
  have groups := Dict.orElse_empty config.schema.groups
  have tags := Dict.orElse_empty config.schema.tags
  exact Config.ext (Schema.ext fields groups rfl tags) rfl rfl rfl

theorem parse_eq_ok_iff {path : String} {layer : ConfigLayer} :
    ConfigLayer.parse path contents = .ok layer ↔
      ∃ table, read? contents = some table ∧ ConfigLayer.ofToml? table = some layer := by
  rw [← Option.bind_eq_some_iff]
  unfold ConfigLayer.parse
  generalize (read? contents).bind ConfigLayer.ofToml? = decoded
  cases decoded with
  | none => exact ⟨nofun, nofun⟩
  | some other =>
      constructor <;> rintro ⟨⟩ <;> rfl

theorem ofLayers_eq_ok_iff {root : Option String} {layers : List ConfigLayer} :
    ofLayers root layers = .ok config ↔ combine root layers = config ∧
    config.check = .ok () := by
  rw [ofLayers_eq]
  generalize combine root layers = combined
  cases checked : combined.check with
  | ok =>
      refine ⟨?_, fun ⟨same, _⟩ => same ▸ rfl⟩
      rintro ⟨⟩
      exact ⟨rfl, checked⟩
  | error error =>
      refine ⟨nofun, ?_⟩
      rintro ⟨rfl, sound⟩
      cases checked.symm.trans sound

/-- A text is loaded as its layer over the defaults, unless a setting cannot be used. -/
theorem ofText_eq_ok_iff : ofText contents = .ok config ↔
    ∃ table layer, read? contents = some table ∧ ConfigLayer.ofToml? table = some layer ∧
      combine none [layer] = config ∧ config.check = .ok () := by
  have parsed {layer : ConfigLayer} := @parse_eq_ok_iff contents "<inline>" layer
  rw [ofText]
  generalize ConfigLayer.parse "<inline>" contents = result at parsed ⊢
  constructor
  · intro accepted
    cases result with
    | error error => cases accepted
    | ok layer =>
        obtain ⟨table, read, decoded⟩ := parsed.mp rfl
        exact ⟨table, layer, read, decoded, ofLayers_eq_ok_iff.mp accepted⟩
  · rintro ⟨table, layer, read, decoded, whole⟩
    rw [parsed.mpr ⟨table, read, decoded⟩]
    exact ofLayers_eq_ok_iff.mpr whole

theorem isBounded_overlay {settings : SnippetSettings} {layer : SnippetLayer} {value : Toml}
    (bounded : settings.IsBounded) (decoded : SnippetLayer.ofToml? value = some layer) :
    (settings.overlay layer).IsBounded := by
  obtain ⟨padding, _, fragments, _, _, -, first, -, third, -⟩ :=
    SnippetLayer.ofToml?_eq_some_iff.mp decoded
  have small {written : Option Toml} {found : Option Nat} {standard : Nat}
      (taken : optional? natural? written = some found) (below : standard < 2 ^ 64) :
      found.getD standard < 2 ^ 64 := by
    cases found with
    | none => exact below
    | some n =>
        obtain ⟨source, known⟩ := exists_of_optional? taken rfl
        exact lt_of_natural? known
  exact ⟨small first bounded.padding, small third bounded.maxFragments⟩

/-- The numbers of a loaded configuration have 64 bits. -/
theorem isBounded_of_ofText (accepted : ofText contents = .ok config) :
    config.snippet.IsBounded := by
  obtain ⟨table, layer, -, decoded, rfl, -⟩ := ofText_eq_ok_iff.mp accepted
  obtain ⟨_, _, _, _, _, snippet, -, -, -, -, -, -, taken⟩ :=
    ConfigLayer.ofToml?_eq_some_iff.mp decoded
  have standard : ({} : SnippetSettings).IsBounded := ⟨by decide, by decide⟩
  change (({} : SnippetSettings).overlay (layer.snippet.getD {})).IsBounded
  cases said : layer.snippet with
  | none => exact standard
  | some settings =>
      obtain ⟨source, known⟩ := exists_of_optional? taken said
      exact isBounded_overlay standard known

/-- The dump of a loaded configuration is loaded as the same configuration. -/
theorem ofText_dump (accepted : ofText contents = .ok config) (boosts : config.BoostsReadBack) :
    ofText config.dump = .ok config := by
  obtain ⟨_, layer, -, -, combined, sound⟩ := ofText_eq_ok_iff.mp accepted
  have carried := carries (isBounded_of_ofText accepted) boosts
  have unrooted : config.root = none := by
    rw [← combined]
    exact combine_root none [layer]
  have rebuilt : combine none [config.layer] = config := by
    rw [combine_layer, ← unrooted]
  exact ofText_eq_ok_iff.mpr ⟨_, _, read?_document carried.legible, carried.decoded,
    rebuilt, sound⟩

theorem ofText_dump_boosted : ∃ contents config,
    ofText contents = .ok config ∧ config.BoostsReadBack ∧ ofText config.dump = .ok config := by
  let contents :=
    "[fields.title]\nboost = 2.5\n[groups]\nall = \"title\"\n[snippet]\npre_tag = '<\"b\">'\n"
  let config : Config :=
    { schema :=
        { fields := ⟨[("title", { boost := some (.finite false 10485760 (-22)) })], by simp⟩
          groups := ⟨[("all", ["title"])], by simp⟩ }
      snippet := { preTag := "<\"b\">" } }
  have accepted : ofText contents = .ok config := by decide +kernel
  have boosts : config.BoostsReadBack := by decide +kernel
  exact ⟨contents, config, accepted, boosts, ofText_dump accepted boosts⟩

end Config

end FacetSearch
