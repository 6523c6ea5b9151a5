import Mathlib
import FacetSearch.Proofs.Toml.Tables
import FacetSearch.Proofs.Toml.Value

/-!
Written documents are read back (`read?_document`). A document is written table by table, each with
a header of its own unless it holds nothing but tables. Its lines are read one by one, and the parts
that they make up add the tables again, each behind the values of the one above it (`MakeUp`).
-/

set_option autoImplicit false

namespace FacetSearch.Toml

open Text (Reader)
open Text.Reader

section Lines

variable {text rest : List Char} {key : String}

/-- What stands behind a line. -/
def EndsLine (text : List Char) : Prop := ∀ c ∈ text.head?, c = '\n'

/-- A line reads a text for this content, up to its end. -/
def ReadsLine (text : List Char) (content : Line) : Prop :=
  ∀ rest, EndsLine rest → line (text ++ rest) = some (content, rest)

theorem map_of_taken {α β : Type} {reader : Reader α} {f : α → β} {value : α}
    (taken : reader text = some (value, rest)) : (f <$> reader) text = some (f value, rest) := by
  change (reader text).bind (fun taken => some (f taken.1, taken.2)) = _
  rw [taken]
  rfl

theorem map_of_refused {α β : Type} {reader : Reader α} {f : α → β}
    (refused : reader text = none) : (f <$> reader) text = none := by
  change (reader text).bind (fun taken => some (f taken.1, taken.2)) = _
  rw [refused]
  rfl

theorem line_of_content {content : Line} (solid : ∀ c ∈ text.head?, isSpace c = false)
    (taken : lineContent text = some (content, rest)) (ends : EndsLine rest) :
    line text = some (content, rest) := by
  have behind : spaces rest = some ((), rest) := by
    refine spaces_of_ne fun c first => ?_
    rw [ends c first]
    rfl
  have noComment : comment rest = none := by
    cases rest with
    | nil => rfl
    | cons c more =>
        refine bind_of_refused (char_of_ne ?_ more)
        rw [ends c rfl]
        decide
  rw [line, bind_of_taken (spaces_of_ne solid), bind_of_taken taken, bind_of_taken behind,
    bind_of_taken (optional_of_refused noComment)]
  rfl

theorem header_of_ne {c : Char} (different : c ≠ '[') (more : List Char) :
    header (c :: more) = none :=
  (orElse_of_refused (bind_of_refused (exactly_of_ne different _ more))).trans
    (bind_of_refused (char_of_ne different more))

theorem readsLine_blank : ReadsLine [] .blank := by
  intro rest ends
  have solid : ∀ c ∈ rest.head?, isSpace c = false := by
    intro c first
    rw [ends c first]
    rfl
  have noHeader : header rest = none := by
    cases rest with
    | nil => rfl
    | cons c more => exact header_of_ne (by rw [ends c rfl]; decide) more
  have noKey : simpleKey rest = none := by
    cases rest with
    | nil => rfl
    | cons c more =>
        obtain rfl := ends c rfl
        exact bind_of_refused
          ((orElse_of_refused (textLine_of_ne (by decide) (by decide) more)).trans
          (bind_of_refused (satisfying_cons_of_neg _ rfl more)))
  have noPair : pair (value maxLevels) rest = none := by
    have noPart : keyPart rest = none :=
      (bind_of_taken (spaces_of_ne solid)).trans (bind_of_refused noKey)
    exact bind_of_refused (bind_of_refused (bind_of_refused noPart))
  exact line_of_content solid ((orElse_of_refused (map_of_refused noHeader)).trans
    (orElse_of_refused (map_of_refused noPair))) ends

/-- The line of a header. -/
def headerLine (way : List String) (key : String) : List Char :=
  '[' :: (['.'].intercalate ((way ++ [key]).map fun key => (writeKey key).toList) ++ [']'])

theorem exists_cons_keys (way : List String) (key : String) (after : List Char) : ∃ c more,
    ['.'].intercalate ((way ++ [key]).map fun key => (writeKey key).toList) ++ after = c :: more ∧
      StartsKey c := by
  have first (head : String) (tail : List String) : ∃ c more,
      ['.'].intercalate ((head :: tail).map fun key => (writeKey key).toList) ++ after
        = c :: more ∧ StartsKey c := by
    obtain ⟨c, more, spelled, starts⟩ := exists_cons_writeKey head
    rw [Text.intercalate_cons_eq_flatMap, spelled]
    exact ⟨c, _, rfl, starts⟩
  cases way with
  | nil => exact first key []
  | cons head tail => exact first head (tail ++ [key])

theorem readsLine_header (way : List String) (key : String) :
    ReadsLine (headerLine way key) (.header (.table ⟨way, key⟩)) := by
  intro rest ends
  have whole : headerLine way key ++ rest
      = '[' :: (['.'].intercalate ((way ++ [key]).map fun key => (writeKey key).toList) ++
        ']' :: rest) := by
    simp [headerLine]
  have path := keyPath_header way key rest
  obtain ⟨c, more, spelled, starts⟩ := exists_cons_keys way key (']' :: rest)
  have noElement : exactly ['[', '['] ('[' :: c :: more) = none := by
    have different : '[' ≠ c := (starts.ne (by decide)).symm
    simp [exactly, List.isPrefixOf, different]
  have taken : header ('[' :: c :: more) = some (.table ⟨way, key⟩, rest) := by
    refine (orElse_of_refused (bind_of_refused noElement)).trans ?_
    rw [bind_of_taken (char_cons _ _), ← spelled, bind_of_taken path,
      bind_of_taken (char_cons _ _)]
    rfl
  rw [whole, spelled]
  exact line_of_content (by rintro d ⟨⟩; rfl) (orElse_of_taken (map_of_taken taken)) ends

/-- The line of a pair. -/
def pairLine (key : String) (value : Toml) : List Char :=
  (writeKey key).toList ++ " = ".toList ++ (write value).toList

theorem readsLine_pair (key : String) {written : Toml} (legible : IsLegible written)
    (single : written.isTable = false) :
    ReadsLine (pairLine key written) (.pair ⟨⟨[], key⟩, written.reread⟩) := by
  intro rest ends
  have whole : pairLine key written ++ rest
      = (writeKey key).toList ++ ' ' :: '=' :: (' ' :: ((write written).toList ++ rest)) := by
    simp [pairLine]
  obtain ⟨c, more, begins, starts⟩ := exists_cons_writeKey key
  have noHeader :
      header ((writeKey key).toList ++ ' ' :: '=' :: (' ' :: ((write written).toList ++ rest)))
      = none := by
    rw [begins]
    exact header_of_ne (starts.ne (by decide)) _
  have skipped : spaces (' ' :: ((write written).toList ++ rest))
      = some ((), (write written).toList ++ rest) := by
    obtain ⟨d, others, spelled, solid⟩ := exists_cons_write legible single
    refine spaces_space ?_
    rw [spelled]
    rintro e ⟨⟩
    exact solid
  have read : value maxLevels ((write written).toList ++ rest) = some (written.reread, rest) :=
    value_write legible single fun c first => .inr (.inr (ends c first))
  have taken : pair (value maxLevels)
      ((writeKey key).toList ++ ' ' :: '=' :: (' ' :: ((write written).toList ++ rest)))
      = some (⟨⟨[], key⟩, written.reread⟩, rest) := by
    rw [pair, bind_of_taken (keyPath_pair key _), bind_of_taken (char_cons _ _),
      bind_of_taken skipped, bind_of_taken read]
    rfl
  rw [whole]
  refine line_of_content ?_ ((orElse_of_refused (map_of_refused noHeader)).trans
    (orElse_of_taken (map_of_taken taken))) ends
  rw [begins]
  rintro d ⟨⟩
  exact starts.not_isSpace

/-- Lines with line ends between them are read one after the other. -/
theorem run?_lines {lines : List (List Char × Line)} (inhabited : lines ≠ [])
    (each : ∀ written ∈ lines, ReadsLine written.1 written.2) :
    run? (separatedBy (do let _ ← newline) line) (['\n'].intercalate (lines.map Prod.fst))
      = some (lines.map Prod.snd) := by
  obtain ⟨first, others, rfl⟩ := List.exists_cons_of_ne_nil inhabited
  have next : ∀ written ∈ others, ∀ after, EndsLine after →
      (do (do let _ ← newline); line : Reader Line) (['\n'] ++ written.1 ++ after)
        = some (written.2, after) := by
    intro written member after ends
    refine (bind_of_taken (bind_of_taken (newline_cons (written.1 ++ after)))).trans ?_
    exact each written (List.mem_cons_of_mem _ member) after ends
  have chained : ∀ written ∈ others, ∀ after, EndsLine (['\n'] ++ written.1 ++ after) := by
    rintro written - after c ⟨⟩
    rfl
  have refused : (do (do let _ ← newline); line : Reader Line) [] = none := rfl
  have ending : EndsLine [] := by
    rintro c ⟨⟩
  have tail := rounds_flatMap_before EndsLine others next (fun _ _ => List.cons_ne_nil _ _) chained
    ending refused
  have follow : EndsLine (others.flatMap (fun written => ['\n'] ++ written.1) ++ []) := by
    cases others with
    | nil => exact ending
    | cons second more =>
        rw [List.flatMap_cons, List.append_assoc]
        exact chained second List.mem_cons_self _
  have whole := separatedBy_of_rounds (each first List.mem_cons_self _ follow) tail
  rw [List.append_nil] at whole
  rw [Text.intercalate_cons_eq_flatMap, run?, whole]
  rfl

end Lines

open Entries

/-- A part of a document: the path of its header and its entries. -/
structure Part where
  path : KeyPath
  own : List (String × Toml)

namespace Part

/-- The entries of a part as lines. -/
def entryLines (own : List (String × Toml)) : List (List Char × Line) :=
  own.map fun entry => (pairLine entry.1 entry.2, .pair ⟨⟨[], entry.1⟩, entry.2.reread⟩)

/-- The lines of a part below some keys. -/
def lines (above : List String) (part : Part) : List (List Char × Line) :=
  (headerLine (above ++ part.path.way) part.path.key,
    .header (.table ⟨above ++ part.path.way, part.path.key⟩)) :: entryLines part.own

/-- The part of a table itself, unless it holds nothing but tables. -/
def ofTable (key : String) (own tables : List (String × Toml)) : List Part :=
  if own = [] ∧ tables ≠ [] then [] else [⟨⟨[], key⟩, own⟩]

/-- The text of lines. -/
def text (lines : List (List Char × Line)) : String :=
  String.ofList (lines.flatMap fun line => line.1 ++ ['\n'])

/-- The part below one more key. -/
def under (key : String) (part : Part) : Part :=
  ⟨⟨key :: part.path.way, part.path.key⟩, part.own⟩

/-- What a part is read as. -/
def content (part : Part) : KeyPath × List Pair := (part.path, pairsOf (rereadEntries part.own))

theorem lines_under (key : String) (above : List String) (part : Part) :
    (part.under key).lines above = part.lines (above ++ [key]) := by
  simp [lines, under]

end Part

/-- Parts that make up tables: they are how the tables are written below any keys, and adding them
to entries with other keys adds the tables. -/
structure MakeUp (parts : List Part) (tables : List (String × Toml)) : Prop where
  inhabited : tables ≠ [] → parts ≠ []
  written : ∀ above, sectionsBelow above tables = parts.map fun part =>
    Part.text (part.lines above)
  legible : ∀ part ∈ parts, ∀ entry ∈ part.own, IsLegible entry.2 ∧
    entry.2.isTable = false
  grows : ∃ nodes : Entries, entriesToToml nodes = rereadEntries tables ∧
    nodes.keys = tables.map Prod.fst ∧
    ∀ entries : Entries, (entries.keys ++ tables.map Prod.fst).Nodup →
      addParts entries ((parts.map Part.content).map headed) = some (entries ++ nodes)

namespace MakeUp

variable {parts others : List Part} {tables more : List (String × Toml)}

theorem nil : MakeUp [] [] where
  inhabited := (absurd rfl ·)
  written _ := rfl
  legible := nofun
  grows := ⟨[], rfl, rfl, fun entries _ => by simp [addParts]⟩

theorem entriesToToml_append (first second : Entries) :
    entriesToToml (first ++ second) = entriesToToml first ++ entriesToToml second := by
  induction first with
  | nil => rfl
  | cons entry rest ih => rw [List.cons_append, entriesToToml, ih, entriesToToml, List.cons_append]

theorem sectionsBelow_append (above : List String) (first second : List (String × Toml)) :
    sectionsBelow above (first ++ second) = sectionsBelow above first ++
      sectionsBelow above second := by
  induction first with
  | nil => rfl
  | cons entry rest ih =>
      rw [List.cons_append, sectionsBelow, ih, sectionsBelow, List.append_assoc]

theorem append (first : MakeUp parts tables) (second : MakeUp others more) :
    MakeUp (parts ++ others) (tables ++ more) where
  inhabited some none := by
    obtain ⟨noParts, noOthers⟩ := List.append_eq_nil_iff.mp none
    refine some (List.append_eq_nil_iff.mpr ⟨?_, ?_⟩)
    · exact by_contra fun held => first.inhabited held noParts
    · exact by_contra fun held => second.inhabited held noOthers
  written above := by
    rw [sectionsBelow_append, first.written, second.written, List.map_append]
  legible part member := (List.mem_append.mp member).elim (first.legible part) (second.legible part)
  grows := by
    obtain ⟨nodes, same, named, grows⟩ := first.grows
    obtain ⟨later, sameLater, namedLater, growsLater⟩ := second.grows
    refine ⟨nodes ++ later, ?_, ?_, fun entries distinct => ?_⟩
    · rw [entriesToToml_append, same, sameLater, rereadEntries_eq, rereadEntries_eq,
        rereadEntries_eq, List.map_append]
    · rw [keys_append, named, namedLater, List.map_append]
    · have front : (entries.keys ++ tables.map Prod.fst).Nodup := by
        rw [List.map_append, ← List.append_assoc] at distinct
        exact (List.nodup_append.mp distinct).1
      have back : (keys (entries ++ nodes) ++ more.map Prod.fst).Nodup := by
        rwa [keys_append, named, List.append_assoc, ← List.map_append]
      have onward := growsLater (entries ++ nodes) back
      rw [List.append_assoc] at onward
      rw [List.map_append, List.map_append, addParts, List.foldlM_append]
      exact Option.bind_eq_some_iff.mpr ⟨_, grows entries front, onward⟩

theorem writeEntries_eq (own : List (String × Toml)) :
    writeEntries own = own.map fun entry => String.ofList (pairLine entry.1 entry.2) := by
  induction own with
  | nil => rfl
  | cons entry rest ih =>
      have line : writeKey entry.1 ++ " = " ++ entry.2.write
          = String.ofList (pairLine entry.1 entry.2) := by
        rw [← String.toList_inj]
        simp [pairLine]
      rw [writeEntries, ih, List.map_cons, line]

theorem isEmpty_writeEntries (own : List (String × Toml)) :
    (writeEntries own).isEmpty = own.isEmpty := by
  cases own <;> rfl

theorem toList_header (way : List String) (key : String) :
    ("[" ++ ".".intercalate ((way ++ [key]).map writeKey) ++ "]").toList = headerLine way key := by
  simp [headerLine, String.toList_intercalate, Function.comp_def]

/-- The text of a part's own lines, with or without a header in front. -/
theorem text_ownLines (header : List (List Char × Line)) (own : List (String × Toml)) :
    String.join
      ((header.map (fun line => String.ofList line.1) ++ writeEntries own).map (· ++ "\n"))
      = Part.text (header ++ Part.entryLines own) := by
  rw [← String.toList_inj, writeEntries_eq]
  simp only [Part.text, Part.entryLines, String.toList_join, String.toList_ofList, List.map_append,
    List.flatMap_append, List.flatMap_map, String.toList_append, List.map_map, Function.comp_def]
  rfl

section Shape

variable {own : List (String × Toml)} (plain : ∀ entry ∈ own, entry.2.isTable = false)
  (below : ∀ entry ∈ tables, entry.2.isTable = true)

include plain below

theorem ownLines_append : ownLines (own ++ tables) = writeEntries own := by
  have kept : own.filter (fun entry => !entry.2.isTable) = own :=
    List.filter_eq_self.mpr fun entry member => by simp [plain entry member]
  have dropped : tables.filter (fun entry => !entry.2.isTable) = [] :=
    List.filter_eq_nil_iff.mpr fun entry member => by simp [below entry member]
  rw [ownLines, List.filter_append, kept, dropped, List.append_nil]

theorem any_isTable_append : (own ++ tables).any (·.2.isTable) = !tables.isEmpty := by
  have none : own.any (·.2.isTable) = false :=
    List.any_eq_false.mpr fun entry member => by simp [plain entry member]
  rw [List.any_append, none, Bool.false_or]
  cases tables with
  | nil => rfl
  | cons first others => simp [below first List.mem_cons_self]

/-- The section of a table below some keys. -/
theorem ownSection_under (key : String) (above : List String) :
    ownSection (above ++ [key]) (own ++ tables)
      = (Part.ofTable key own tables).map fun part => Part.text (part.lines above) := by
  have written := text_ownLines [(headerLine above key, .header (.table ⟨above, key⟩))] own
  have header : "[" ++ ".".intercalate ((above ++ [key]).map writeKey) ++ "]"
      = String.ofList (headerLine above key) := by
    rw [← String.toList_inj, toList_header, String.toList_ofList]
  have named : (above ++ [key]).isEmpty = false := by simp
  rw [ownSection]
  simp only [ownLines_append plain below, any_isTable_append plain below,
    isEmpty_writeEntries, named, header, Bool.false_or, Bool.and_eq_true, Bool.not_eq_true',
    List.isEmpty_iff,
    List.isEmpty_eq_false_iff, Bool.false_eq_true, if_false, Part.ofTable]
  split
  · rfl
  · rw [List.map_singleton, Part.lines, List.append_nil]
    exact congrArg (fun text => [text]) written

/-- The section of a document for the entries without a header. -/
theorem ownSection_root : ownSection [] (own ++ tables)
    = if own = [] then [] else [Part.text (Part.entryLines own)] := by
  have written := text_ownLines [] own
  rw [ownSection]
  simp only [ownLines_append plain below, isEmpty_writeEntries, List.isEmpty_nil, Bool.true_or,
    Bool.and_true, List.isEmpty_iff, if_true]
  split
  · rfl
  · exact congrArg (fun text => [text]) written

end Shape

theorem sectionsBelow_plain {own : List (String × Toml)} (above : List String)
    (plain : ∀ entry ∈ own, entry.2.isTable = false) : sectionsBelow above own = [] := by
  induction own with
  | nil => rfl
  | cons entry rest ih =>
      have single := plain entry List.mem_cons_self
      have none : entry.2.sections (above ++ [entry.1]) = [] := by
        generalize entry.2 = value at single
        cases value with
        | table => cases single
        | _ => rfl
      rw [sectionsBelow, none, ih fun other member => plain other (List.mem_cons_of_mem _ member)]
      rfl

theorem entriesToToml_ofValues (values : List (String × Toml)) :
    entriesToToml (ofValues values) = values := by
  induction values with
  | nil => rfl
  | cons entry rest ih =>
      change (entry.1, entry.2) :: entriesToToml (ofValues rest) = _
      rw [ih]

theorem map_fst_rereadEntries (entries : List (String × Toml)) :
    (rereadEntries entries).map Prod.fst = entries.map Prod.fst := by
  rw [rereadEntries_eq, List.map_map]
  rfl

theorem rereadEntries_append (first second : List (String × Toml)) :
    rereadEntries (first ++ second) = rereadEntries first ++ rereadEntries second := by
  simp only [rereadEntries_eq, List.map_append]

/-- The entries of a part are added to nothing. -/
theorem addPairs_own {own : List (String × Toml)} (distinct : (own.map Prod.fst).Nodup) :
    addPairs [] (pairsOf (rereadEntries own)) = some (ofValues (rereadEntries own)) := by
  have named : (keys [] ++ (rereadEntries own).map Prod.fst).Nodup := by
    rwa [map_fst_rereadEntries]
  rw [addPairs_fresh named, List.nil_append]

/-- The node of a table: only a table with nothing but tables has no header of its own. -/
theorem grows_table {own : List (String × Toml)} {key : String} (inner : MakeUp parts tables)
    (distinct : ((own ++ tables).map Prod.fst).Nodup) : ∃ node : Node,
    node.toToml = (Toml.table (own ++ tables)).reread ∧
    ∀ entries : Entries, key ∉ entries.keys →
      addParts entries (((Part.ofTable key own tables ++ parts.map (Part.under key)).map
        Part.content).map headed) = some (entries ++ [(key, node)]) := by
  obtain ⟨nodes, same, named, grows⟩ := inner.grows
  rw [List.map_append] at distinct
  have deeper : (parts.map (Part.under key)).map Part.content
      = (parts.map Part.content).map (below key) := by
    rw [List.map_map, List.map_map]
    rfl
  have finished (origin : Origin) :
      (Node.table origin (ofValues (rereadEntries own) ++ nodes)).toToml
      = (Toml.table (own ++ tables)).reread := by
    rw [Node.toToml, entriesToToml_append, entriesToToml_ofValues, same, reread,
      rereadEntries_append]
  by_cases hidden : own = [] ∧ tables ≠ []
  · obtain ⟨rfl, inhabited⟩ := hidden
    refine ⟨_, finished .path, fun entries fresh => ?_⟩
    have held : parts.map Part.content ≠ [] := by simpa using inner.inhabited inhabited
    have added := grows [] (by simpa [keys] using distinct)
    rw [Part.ofTable, if_pos ⟨rfl, inhabited⟩, List.nil_append, deeper]
    exact addParts_open fresh held added
  · refine ⟨_, finished .header, fun entries fresh => ?_⟩
    have added :=
      grows (ofValues (rereadEntries own)) (by rwa [keys_ofValues, map_fst_rereadEntries])
    rw [Part.ofTable, if_neg hidden, List.map_append, deeper]
    exact addParts_fresh fresh (addPairs_own (List.nodup_append.mp distinct).1) added

/-- A table, with its own part unless it holds nothing but tables, and the parts below it. -/
theorem table {own : List (String × Toml)} (key : String)
    (plain : ∀ entry ∈ own, entry.2.isTable = false)
    (below : ∀ entry ∈ tables, entry.2.isTable = true)
    (distinct : ((own ++ tables).map Prod.fst).Nodup) (each : ∀ entry ∈ own, IsLegible entry.2)
    (inner : MakeUp parts tables) :
    MakeUp (Part.ofTable key own tables ++ parts.map (Part.under key))
      [(key, .table (own ++ tables))] where
  inhabited _ none := by
    obtain ⟨noOwn, noParts⟩ := List.append_eq_nil_iff.mp none
    rw [Part.ofTable] at noOwn
    split at noOwn
    next hidden => exact inner.inhabited hidden.2 (List.map_eq_nil_iff.mp noParts)
    next => cases noOwn
  written above := by
    have deeper : (parts.map (Part.under key)).map (fun part => Part.text (part.lines above))
        = sectionsBelow (above ++ [key]) tables := by
      rw [inner.written, List.map_map]
      exact List.map_congr_left fun part _ => congrArg Part.text (Part.lines_under key above part)
    rw [sectionsBelow, sections, ownSection_under plain below, sectionsBelow_append,
      sectionsBelow_plain _ plain, List.nil_append, List.map_append, deeper, sectionsBelow,
      List.append_nil]
  legible part member := by
    rcases List.mem_append.mp member with lone | deeper
    · rw [Part.ofTable] at lone
      split at lone
      next => cases lone
      next =>
        obtain rfl := List.mem_singleton.mp lone
        exact fun entry held => ⟨each entry held, plain entry held⟩
    · obtain ⟨lower, held, rfl⟩ := List.mem_map.mp deeper
      exact inner.legible lower held
  grows := by
    obtain ⟨node, same, grows⟩ := grows_table inner distinct
    refine ⟨[(key, node)], ?_, rfl, fun entries apart => grows entries fun member => ?_⟩
    · rw [rereadEntries, ← same]
      rfl
    · exact (List.nodup_append.mp apart).2.2 key member key (by simp) rfl

end MakeUp

theorem MakeUp.exists_of_each {tables : List (String × Toml)}
    (each : ∀ entry ∈ tables, ∃ parts, MakeUp parts [entry]) :
    ∃ parts, MakeUp parts tables := by
  induction tables with
  | nil => exact ⟨[], .nil⟩
  | cons entry rest ih =>
      obtain ⟨first, makesFirst⟩ := each entry List.mem_cons_self
      obtain ⟨others, makesOthers⟩ :=
        ih fun next member => each next (List.mem_cons_of_mem _ member)
      exact ⟨first ++ others, makesFirst.append makesOthers⟩

/-- Every legible table is made up of parts. -/
theorem exists_makeUp {written : Toml} (legible : IsLegible written)
    (composed : written.isTable = true) (key : String) :
    ∃ parts, MakeUp parts [(key, written)] := by
  induction legible generalizing key with
  | boolean | integer | float | string | texts => cases composed
  | @table own tables plain below distinct each ih =>
      obtain ⟨parts, inner⟩ := MakeUp.exists_of_each fun entry member =>
        ih entry (List.mem_append_right own member) (below entry member) entry.1
      exact ⟨_, inner.table key plain below distinct
        fun entry member => each entry (List.mem_append_left tables member)⟩

/-- The mark that may stand in front of a document. -/
def byteOrderMark : Char := '\uFEFF'

/-- A line that is read back and does not begin with a mark. -/
structure IsWritten (written : List Char × Line) : Prop where
  reads : ReadsLine written.1 written.2
  unmarked : written.1.head? ≠ some byteOrderMark

theorem isWritten_blank : IsWritten ([], .blank) := ⟨readsLine_blank, nofun⟩

theorem isWritten_of_mem_entryLines {own : List (String × Toml)}
    (legible : ∀ entry ∈ own, IsLegible entry.2 ∧ entry.2.isTable = false) :
    ∀ written ∈ Part.entryLines own, IsWritten written := by
  intro written member
  obtain ⟨entry, held, rfl⟩ := List.mem_map.mp member
  obtain ⟨c, more, begins, starts⟩ := exists_cons_writeKey entry.1
  refine ⟨readsLine_pair entry.1 (legible entry held).1 (legible entry held).2, ?_⟩
  simp only [pairLine, begins, List.cons_append, List.head?_cons, ne_eq, Option.some.injEq]
  exact starts.ne (by decide)

theorem isWritten_of_mem_lines {part : Part}
    (legible : ∀ entry ∈ part.own, IsLegible entry.2 ∧ entry.2.isTable = false)
    (above : List String) : ∀ written ∈ part.lines above, IsWritten written := by
  intro written member
  rcases List.mem_cons.mp member with rfl | held
  · exact ⟨readsLine_header _ _, by simp [headerLine, byteOrderMark]⟩
  · exact isWritten_of_mem_entryLines legible written held

/-- The lines of blocks, with a blank line behind each of them. -/
def blockLines (blocks : List (List (List Char × Line))) : List (List Char × Line) :=
  blocks.flatMap fun block => block ++ [([], .blank)]

theorem intercalate_append_of_ne_nil {front back : List (List Char)} (inhabited : back ≠ []) :
    ['\n'].intercalate (front ++ back) = front.flatMap (· ++ ['\n']) ++
      ['\n'].intercalate back := by
  induction front with
  | nil => rfl
  | cons first rest ih =>
      obtain ⟨next, more, spelled⟩ :=
        List.exists_cons_of_ne_nil (List.append_ne_nil_of_right_ne_nil rest inhabited)
      rw [List.cons_append, spelled, List.intercalate_cons_cons, ← spelled, ih, List.flatMap_cons]
      simp only [List.append_assoc]

/-- Blocks with line ends between them are lines with line ends between them. -/
theorem toList_intercalate_blocks {blocks : List (List (List Char × Line))}
    (inhabited : blocks ≠ []) : ("\n".intercalate (blocks.map Part.text)).toList
      = ['\n'].intercalate ((blockLines blocks).map Prod.fst) := by
  have block (lines : List (List Char × Line)) (more : List (List Char)) (some : more ≠ []) :
      (Part.text lines).toList ++ ['\n'].intercalate more
        = ['\n'].intercalate (lines.map Prod.fst ++ more) := by
    rw [intercalate_append_of_ne_nil some, Part.text, String.toList_ofList, List.flatMap_map]
  rw [String.toList_intercalate, List.map_map]
  induction blocks with
  | nil => exact absurd rfl inhabited
  | cons first rest ih =>
      have behind : (blockLines (first :: rest)).map Prod.fst
          = first.map Prod.fst ++ [] :: (blockLines rest).map Prod.fst := by
        simp [blockLines]
      rw [behind, ← block first _ (List.cons_ne_nil _ _)]
      cases rest with
      | nil => simp [blockLines]
      | cons second more =>
          have several : (blockLines (second :: more)).map Prod.fst ≠ [] := by simp [blockLines]
          obtain ⟨line, lines, spelled⟩ := List.exists_cons_of_ne_nil several
          have onward := ih (List.cons_ne_nil _ _)
          rw [spelled] at onward ⊢
          rw [List.intercalate_cons_cons, ← onward, List.map_cons, List.map_cons,
            List.intercalate_cons_cons, List.append_assoc]
          rfl

/-- A document that consists of written lines is read line by line. -/
theorem read?_lines {lines : List (List Char × Line)} (inhabited : lines ≠ [])
    (each : ∀ written ∈ lines, IsWritten written) {source : String}
    (spelled : source.toList = ['\n'].intercalate (lines.map Prod.fst)) :
    read? source = ofParts? (partsFrom .root [] (lines.map Prod.snd)) := by
  have unmarked : ∀ rest, source.toList ≠ byteOrderMark :: rest := by
    obtain ⟨first, others, rfl⟩ := List.exists_cons_of_ne_nil inhabited
    intro rest marked
    rw [spelled, Text.intercalate_cons_eq_flatMap] at marked
    cases begins : first.1 with
    | nil =>
        cases others with
        | nil => simp [begins] at marked
        | cons second more => simp [begins, byteOrderMark] at marked
    | cons c text =>
        have different := (each first List.mem_cons_self).unmarked
        rw [begins] at different marked
        exact different (congrArg some (List.cons.inj marked).1)
  rw [read?]
  split
  next rest marked => exact absurd marked (unmarked rest)
  next =>
    rw [spelled, run?_lines inhabited fun written member => (each written member).reads]
    rfl

theorem partsFrom_entryLines (header : Header) (pairs : List Pair) (own : List (String × Toml))
    (rest : List Line) : partsFrom header pairs ((Part.entryLines own).map Prod.snd ++ rest)
      = partsFrom header ((pairsOf (rereadEntries own)).reverse ++ pairs) rest := by
  induction own generalizing pairs with
  | nil => rfl
  | cons entry others ih =>
      refine (ih (⟨⟨[], entry.1⟩, entry.2.reread⟩ :: pairs)).trans ?_
      simp [rereadEntries, pairsOf]

/-- The lines of parts gather the pairs of each part below its header. -/
theorem partsFrom_lines (header : Header) (pairs : List Pair) (parts : List Part) :
    partsFrom header pairs ((blockLines (parts.map (Part.lines []))).map Prod.snd)
      = (header, pairs.reverse) :: (parts.map Part.content).map headed := by
  induction parts generalizing header pairs with
  | nil => rfl
  | cons part others ih =>
      have behind : (blockLines ((part :: others).map (Part.lines []))).map Prod.snd
          = .header (.table part.path) :: ((Part.entryLines part.own).map Prod.snd ++
            .blank :: (blockLines (others.map (Part.lines []))).map Prod.snd) := by
        simp [blockLines, Part.lines]
      rw [behind, partsFrom, partsFrom_entryLines, partsFrom, ih, List.append_nil,
        List.reverse_reverse]
      rfl

/-- The blocks of a document: the entries without a header, if there are any, and the parts. -/
def documentBlocks (own : List (String × Toml)) (parts : List Part) :
    List (List (List Char × Line)) :=
  (if own = [] then [] else [Part.entryLines own]) ++ parts.map (Part.lines [])

theorem partsFrom_documentBlocks (own : List (String × Toml)) (parts : List Part) :
    partsFrom .root [] ((blockLines (documentBlocks own parts)).map Prod.snd)
      = (.root, pairsOf (rereadEntries own)) :: (parts.map Part.content).map headed := by
  rw [documentBlocks]
  split
  next empty =>
    rw [empty, List.nil_append, partsFrom_lines]
    rfl
  next =>
    have behind : (blockLines ([Part.entryLines own] ++ parts.map (Part.lines []))).map Prod.snd
        = (Part.entryLines own).map Prod.snd ++
          .blank :: (blockLines (parts.map (Part.lines []))).map Prod.snd := by
      simp [blockLines]
    rw [behind, partsFrom_entryLines, partsFrom, partsFrom_lines, List.append_nil,
      List.reverse_reverse]

/-- A document is read as the parts that its blocks hold. -/
theorem read?_blocks {own : List (String × Toml)} {parts : List Part}
    (plain : ∀ entry ∈ own, IsLegible entry.2 ∧ entry.2.isTable = false)
    (each : ∀ part ∈ parts, ∀ entry ∈ part.own, IsLegible entry.2 ∧
      entry.2.isTable = false) :
    read? ("\n".intercalate ((documentBlocks own parts).map Part.text))
      = ofParts? ((.root, pairsOf (rereadEntries own)) :: (parts.map Part.content).map headed) := by
  rw [← partsFrom_documentBlocks]
  by_cases none : documentBlocks own parts = []
  · rw [none]
    exact @read?_lines [([], .blank)] nofun (by simpa using isWritten_blank) _ rfl
  · have written : ∀ block ∈ documentBlocks own parts, ∀ line ∈ block, IsWritten line := by
      intro block member
      rcases List.mem_append.mp member with root | below
      · split at root
        next => cases root
        next =>
          obtain rfl := List.mem_singleton.mp root
          exact isWritten_of_mem_entryLines plain
      · obtain ⟨part, held, rfl⟩ := List.mem_map.mp below
        exact isWritten_of_mem_lines (each part held) []
    refine read?_lines ?_ ?_ (toList_intercalate_blocks none)
    · obtain ⟨first, others, spelled⟩ := List.exists_cons_of_ne_nil none
      simp [spelled, blockLines]
    · intro line member
      obtain ⟨block, held, inside⟩ := List.mem_flatMap.mp member
      rcases List.mem_append.mp inside with lone | last
      · exact written block held line lone
      · obtain rfl := List.mem_singleton.mp last
        exact isWritten_blank

/-- A legible table is read back from the document that it is written as. -/
theorem read?_document {entries : List (String × Toml)} (legible : IsLegible (.table entries)) :
    read? (document (.table entries)) = some (reread (.table entries)) := by
  cases legible with
  | @table own tables plain below distinct each =>
  obtain ⟨parts, makeUp⟩ := MakeUp.exists_of_each fun entry member =>
    exists_makeUp (each entry (List.mem_append_right own member)) (below entry member) entry.1
  obtain ⟨nodes, same, named, grows⟩ := makeUp.grows
  have written : document (.table (own ++ tables))
      = "\n".intercalate ((documentBlocks own parts).map Part.text) := by
    rw [document, sections, MakeUp.ownSection_root plain below, MakeUp.sectionsBelow_append,
      MakeUp.sectionsBelow_plain _ plain, List.nil_append, makeUp.written, documentBlocks,
      List.map_append, List.map_map, apply_ite (List.map Part.text)]
    rfl
  rw [List.map_append] at distinct
  have root := MakeUp.addPairs_own (List.nodup_append.mp distinct).1
  have added :=
    grows (ofValues (rereadEntries own)) (by rwa [keys_ofValues, MakeUp.map_fst_rereadEntries])
  have whole :
      addParts [] ((.root, pairsOf (rereadEntries own)) :: (parts.map Part.content).map headed)
      = some (ofValues (rereadEntries own) ++ nodes) :=
    Option.bind_eq_some_iff.mpr ⟨_, root, added⟩
  rw [written, read?_blocks (fun entry member =>
    ⟨each entry (List.mem_append_left tables member), plain entry member⟩) makeUp.legible,
      ofParts?, whole,
    Option.map_some, MakeUp.entriesToToml_append, MakeUp.entriesToToml_ofValues, same, reread,
    MakeUp.rereadEntries_append]

end FacetSearch.Toml
