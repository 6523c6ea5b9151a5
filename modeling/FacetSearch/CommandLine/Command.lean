import FacetSearch.CommandLine.Arguments

/-!
The commands and the arguments that they take.
-/

set_option autoImplicit false

namespace FacetSearch.CommandLine

/-- What the program is asked to do. -/
inductive Command where
  | compile (expression : String) (json explain : Bool)
  | filter (specification : String) (strict json : Bool)
  | mergeSpelling (phrase correction : String)
  | spellingQuestion (phrase : String)
  | tokenize (phrase : String) (json : Bool)
  | snippet (text : String) (terms : List String) (padding : Option Nat) (json : Bool)
  | showConfig
  | check
  | init (global force : Bool)
  deriving DecidableEq, Repr

def Command.needsConfig : Command → Bool
  | .mergeSpelling .. | .spellingQuestion .. | .tokenize .. | .init .. => false
  | _ => true

/-- A command, the configuration file that is asked for, and how much is to be told. -/
structure Invocation where
  command : Command
  config : Option String
  verbosity : Nat
  deriving DecidableEq, Repr

/-- Switches that stand before or after the name of a command. -/
def commonSwitches : List Switch :=
  [⟨"config", some 'c', .value .path⟩, ⟨"verbose", some 'v', .counter⟩,
    ⟨"help", some 'h', .help⟩]

/-- A flag without a letter. -/
def flag (name : String) : Switch := ⟨name, none, .flag⟩

/-- What stands before the name of a command. -/
def rootGrammar : Grammar := ⟨⟨"version", some 'V', .version⟩ :: commonSwitches, some 0⟩

/-- What the commands accept behind their names. -/
def grammars : List (String × Grammar) :=
  let grammar (arguments : Option Nat) (switches : List Switch) : Grammar :=
    ⟨switches ++ commonSwitches, arguments⟩
  [("compile", grammar (some 1) [flag "json", flag "explain"]),
    ("filter", grammar (some 1) [flag "strict", flag "json"]),
    ("spellcheck", grammar (some 2) [flag "query"]),
    ("tokenize", grammar (some 1) [flag "json"]),
    ("snippet", grammar none [⟨"padding", some 'p', .value .natural⟩, flag "json"]),
    ("config", grammar (some 0) []),
    ("check", grammar (some 0) []),
    ("init", grammar (some 0) [flag "global", flag "force"])]

def helpName : String := "help"

def isCommandName (text : String) : Bool :=
  text == helpName || (grammars.lookup text).isSome

/-- The command of a name, from what has been given behind it. -/
def Command.ofGiven (name : String) (given : Given) : Except UsageError Command :=
  match name, given.arguments with
  | "compile", [expression] => .ok (.compile expression (given.has "json") (given.has "explain"))
  | "filter", [specification] => .ok (.filter specification (given.has "strict") (given.has "json"))
  | "spellcheck", [phrase, correction] =>
    if given.has "query" then .error .conflict else .ok (.mergeSpelling phrase correction)
  | "spellcheck", [phrase] =>
    if given.has "query" then .ok (.spellingQuestion phrase) else .error .missingArgument
  | "tokenize", [phrase] => .ok (.tokenize phrase (given.has "json"))
  | "snippet", text :: term :: terms =>
    let padding := (given.value? "padding").bind fun value => Text.toNat64? value.toList
    .ok (.snippet text (term :: terms) padding (given.has "json"))
  | "config", [] => .ok .showConfig
  | "check", [] => .ok .check
  | "init", [] => .ok (.init (given.has "global") (given.has "force"))
  | _, _ => .error .missingArgument

/-- Reads up to the name of a command: what has been given before it, the name, and what follows. -/
def readRoot (given : Given) :
    List String → Except UsageError (Given × Option (String × List String))
  | [] => .ok (given, none)
  | text :: rest =>
    let named := isCommandName text
    if named && !given.onlyArguments && !given.needsValue then .ok (given, some (text, rest))
    else
      match given.take rootGrammar text with
      | .ok next => readRoot next rest
      | .error .unknownArgument =>
        let positional := given.onlyArguments || !(text.toList.head? == some '-' && text != "-")
        if positional && !(given.onlyArguments && named) then .error .unknownCommand
        else .error .unknownArgument
      | .error error => .error error

/-- The names behind the command that explains the others have to be those of a command. -/
def explain : List String → UsageError
  | [] => .helpRequested
  | [name] => if isCommandName name then .helpRequested else .unknownCommand
  | _ => .unknownCommand

def counterLimit : Nat := 255

/-- Reads a command line. What is given behind the name of a command counts more than what is given
before it, and so do mistakes. -/
def parse (arguments : List String) : Except UsageError Invocation := do
  let (root, command) ← readRoot {} arguments
  match command with
  | none =>
    let root ← root.complete
    if root.isNothing then .error .nothingGiven else .error .noCommand
  | some (name, rest) =>
    match grammars.lookup name with
    | none => .error (explain rest)
    | some grammar =>
      let given ← rest.foldlM (Given.take grammar) {}
      let given ← given.complete
      let command ← Command.ofGiven name given
      let root ← root.complete
      let counted := if given.count "verbose" = 0 then root.count "verbose"
        else given.count "verbose"
      return ⟨command, (given.value? "config").orElse fun _ => root.value? "config",
        min counterLimit counted⟩

end FacetSearch.CommandLine
