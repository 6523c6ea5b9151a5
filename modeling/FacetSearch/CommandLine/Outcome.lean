import FacetSearch.CommandLine.Command
import FacetSearch.Config.Discovery
import FacetSearch.Config.Encoding
import FacetSearch.Config.Template
import FacetSearch.Config.Warning
import FacetSearch.Expression.Printer
import FacetSearch.Phrase.Spelling
import FacetSearch.Query.Compiler
import FacetSearch.Terminal.Style
import FacetSearch.Terminal.Table

/-!
What the commands do: what they print, which file they write, and whether they succeed.
-/

set_option autoImplicit false

namespace FacetSearch.CommandLine

/-- What a run leaves behind. A written file is given by its path and text. -/
structure Outcome where
  success : Bool := true
  output : String := ""
  errors : String := ""
  written : Option (String × String) := none
  deriving DecidableEq, Repr

def linesOf (lines : List String) : String := String.join (lines.map (· ++ "\n"))

def printed (lines : List String) : Outcome := { output := linesOf lines }

def failed (message : String) : Outcome :=
  { success := false, errors := "error: " ++ message ++ "\n" }

def printedJson (value : Json) : Outcome := printed [value.pretty]

def jsonTexts (texts : List String) : Json := .array (texts.map .string)

/-- The lines of a text; a line end at its end starts no further line. -/
def splitLines (text : String) : List String :=
  let lines := Terminal.cellLines text.toList
  (if lines.getLast? = some [] then lines.dropLast else lines).map String.ofList

/-- A file's configuration as the commands see it: the files that it comes from, and what they
say. -/
structure Context where
  files : List String
  config : Config

namespace Context

/-- Reads the configuration: that of the given file, or that of the working directory. -/
def load (environment : Environment) (explicit : Option String) :
    ExceptT ConfigError Logged Context := do
  let files := match explicit with
    | some path => [Path.join environment.directory path]
    | none => environment.configFiles
  return ⟨files, ← environment.loadFiles files⟩

end Context

/-- The expression and its tree, in front of its query. -/
def explanation (expression : Expression) : List String :=
  [Terminal.header "Expression:", "  " ++ expression.toText, "", Terminal.header "Tree:"]
    ++ (splitLines expression.toTree).map ("  " ++ ·) ++ [""]

def compiledLines (compiled : CompiledQuery) : List String :=
  [if compiled.query.isEmpty then Terminal.dim "(empty query)" else Terminal.query compiled.query,
    Terminal.dim ("fields: " ++ ", ".intercalate compiled.fields)]

/-- A query and its fields as JSON, with the expression if it is to be explained. -/
def compiledJson (expression : Expression) (compiled : CompiledQuery) (explain : Bool) : Json :=
  .object ((if explain then [("expression", Json.string expression.toText)] else [])
    ++ [("query", .string compiled.query), ("fields", jsonTexts compiled.fields)])

def runCompile (config : Config) (text : String) (json explain : Bool) : Logged Outcome := do
  match Expression.parse text with
  | .error error => return failed error.display
  | .ok none => return printed [Terminal.dim "no query"]
  | .ok (some expression) =>
    match ← (expression.compile config.schema.catalog).run with
    | .error error => return failed error.message
    | .ok compiled =>
      if json then return printedJson (compiledJson expression compiled explain)
      else
        return printed ((if explain then explanation expression else []) ++ compiledLines compiled)

def clausesJson (queries : FilterQueries) : Json :=
  .object (queries.clauses.map fun (clause, tag) =>
    (clause, match tag with
      | some tag => .string tag
      | none => .null))

def filterJson (queries : Option FilterQueries) : Json :=
  .object [("filters", (queries.map clausesJson).getD .null),
    ("params", jsonTexts ((queries.map FilterQueries.params).getD []))]

def runFilter (config : Config) (specification : String) (strict json : Bool) :
    Logged Outcome := do
  let settings := { config.filter with strictRoot := config.filter.strictRoot || strict }
  match ← (Filter.buildText config.schema.catalog settings specification).run with
  | .error error => return failed error.message
  | .ok queries =>
    if json then return printedJson (filterJson queries)
    else
      match queries with
      | none => return printed [Terminal.dim "no filters"]
      | some queries =>
        return printed [Terminal.table ["Clause", "Tag"]
          (queries.clauses.map fun (clause, tag) => [clause, tag.getD "-"])]

def runMergeSpelling (phrase correction : String) : Logged Outcome := do
  return printed [← Spelling.merge phrase correction]

/-- Shows what a spellchecker is asked. -/
def runSpellingQuestion (phrase : String) : Outcome :=
  match Spelling.question? phrase with
  | some question => printed [question]
  | none => { errors := Terminal.dim "nothing to check" ++ "\n" }

def segmentJson (segment : Segment) : Json :=
  .object [("text", .string (String.ofList segment.text)), ("quoted", .boolean segment.isQuoted)]

def segmentRow (segment : Segment) (index : Nat) : List String :=
  [toString index, if segment.isQuoted then "quoted" else "words",
    Text.literal (String.ofList segment.text)]

def runTokenize (phrase : String) (json : Bool) : Outcome :=
  let segments := Segment.ofPhrase phrase.toList
  if json then printedJson (.array (segments.map segmentJson))
  else if segments.isEmpty then printed [Terminal.dim "no segments"]
  else
    printed [Terminal.table ["#", "Kind", "Text"]
      (segments.zipIdx.map fun (segment, index) => segmentRow segment index)]

def spanJson (span : Span) : Json :=
  .object [("start", .integer span.start), ("end", .integer span.stop)]

def snippetJson (snippet : Snippet) : Json :=
  .object [("text", .string snippet.text), ("windows", .array (snippet.windows.map spanJson)),
    ("matches", .array (snippet.hits.map spanJson))]

/-- The text of a window with the matches inside it in the style of the terminal. -/
def emphasizeWindow (text : List Char) (window : Span) (hits : List Span) : List Char :=
  let inside := hits.filter window.contains
  Terminal.emphasize (window.covered text)
    (inside.map fun hit => (hit.start - window.start, hit.stop - window.start))

def windowLine (text : List Char) (hits : List Span) (window : Span) : String :=
  "  " ++ Terminal.dim (toString window.start ++ ".." ++ toString window.stop) ++ " "
    ++ String.ofList (emphasizeWindow text window hits)

def runSnippet (config : Config) (text : String) (terms : List String) (padding : Option Nat)
    (json : Bool) : Logged Outcome := do
  let settings := { config.snippet with padding := padding.getD config.snippet.padding }
  let snippet ← Snippet.cutFrom settings.style text terms
  if json then return printedJson ((snippet.map snippetJson).getD .null)
  else
    match snippet with
    | none => return printed [Terminal.dim "no matches"]
    | some snippet =>
      return printed ([snippet.text, "", Terminal.header "Windows:"]
        ++ snippet.windows.map (windowLine text.toList snippet.hits))

def fileLine (environment : Environment) (path : String) : String :=
  "   " ++ path ++ Terminal.dim (if environment.isGlobal path then " (global)" else "")

/-- Drops texts that are equal to the one before them. -/
def dropRepeated : List String → List String
  | first :: second :: rest =>
    if first = second then dropRepeated (second :: rest) else first :: dropRepeated (second :: rest)
  | short => short

/-- The hints for some warnings, each once, in alphabetical order. -/
def hints (warnings : List ConfigWarning) : List String :=
  dropRepeated ((warnings.filterMap ConfigWarning.hint?).mergeSort fun first second =>
    decide (first ≤ second))

def warningLines (warnings : List ConfigWarning) : List String :=
  Terminal.header ("Warnings (" ++ toString warnings.length ++ "):")
    :: warnings.map (fun warning => "   " ++ Terminal.warning warning.text) ++ [""]
    ++ (hints warnings).map fun hint => Terminal.dim ("Hint: " ++ hint)

def schemaLine (schema : Schema) : String :=
  Terminal.dim (toString schema.fields.size ++ " fields, " ++ toString schema.groups.size
    ++ " groups, " ++ toString schema.facets.length ++ " facets")

/-- Lists the configuration files and what is doubtful in them. Any warning is a failure. -/
def runCheck (environment : Environment) (context : Context) : Outcome :=
  if context.files.isEmpty then
    printed [Terminal.dim "No configuration files found.", "",
      "Run " ++ Terminal.header "disco init" ++ " to create a configuration file."]
  else
    let about := Terminal.header "Config files:" :: context.files.map (fileLine environment)
      ++ ["", schemaLine context.config.schema, ""]
    match context.config.warnings with
    | [] => printed (about ++ [Terminal.success "No issues found."])
    | warnings => { printed (about ++ warningLines warnings) with success := false }

/-- Writes an example file into the working directory, or into the home directory. -/
def runInit (environment : Environment) (global force : Bool) : Outcome :=
  let atHome := match Path.parent? environment.globalPath with
    | some home => Path.same home environment.directory
    | none => false
  let path := if global || atHome then environment.globalPath
    else Path.join environment.directory Environment.fileName
  if (environment.tree.find? path).isSome && !force then
    { success := false
      errors := linesOf ["error: configuration file already exists: " ++ path,
        "use --force to overwrite"] }
  else
    match environment.tree.write path Config.template with
    | .error flaw => failed ("failed to write " ++ path ++ ": " ++ flaw.text)
    | .ok _ =>
      { output := linesOf ["Created " ++ path, "", Terminal.header "Configuration written:"]
          ++ Config.template
        written := some (path, Config.template) }

def runCommand (environment : Environment) (context : Context) : Command → Logged Outcome
  | .compile expression json explain => runCompile context.config expression json explain
  | .filter specification strict json => runFilter context.config specification strict json
  | .mergeSpelling phrase correction => runMergeSpelling phrase correction
  | .spellingQuestion phrase => pure (runSpellingQuestion phrase)
  | .tokenize phrase json => pure (runTokenize phrase json)
  | .snippet text terms padding json => runSnippet context.config text terms padding json
  | .showConfig => pure { output := context.config.dump }
  | .check => pure (runCheck environment context)
  | .init global force => pure (runInit environment global force)

/-- Runs what has been asked for. The configuration is read only if the command works with it. -/
def run (environment : Environment) (invocation : Invocation) : Logged Outcome := do
  if invocation.command.needsConfig then
    match ← (Context.load environment invocation.config).run with
    | .error error => return failed ("failed to load configuration: " ++ error.message)
    | .ok context => runCommand environment context invocation.command
  else
    runCommand environment ⟨[], {}⟩ invocation.command

end FacetSearch.CommandLine
