import FacetSearch.Text.Integer

/-!
Arguments of a command line: switches with one or two dashes, some of which take a value, and
positional arguments. Two dashes alone make all that follows positional.

A switch that takes a value is complete only when the next switch or positional argument comes, and
its value is checked only then. So of two mistakes the one is reported that a reader from left to
right finds first, where an unknown switch is found before the value in front of it is checked.
-/

set_option autoImplicit false

namespace FacetSearch.CommandLine

/-- Why arguments are refused, or what they ask for instead of a command. -/
inductive UsageError where
  | helpRequested
  | versionRequested
  | nothingGiven
  | noCommand
  | unknownCommand
  | unknownArgument
  | unexpectedValue
  | missingValue
  | malformedValue
  | conflict
  | missingArgument
  deriving DecidableEq, Repr

/-- The values that a switch takes. -/
inductive ValueKind where
  | path
  | natural
  deriving DecidableEq, Repr

/-- Whether a text is a value of a kind; if not, why. -/
def ValueKind.check (kind : ValueKind) (value : String) : Except UsageError Unit :=
  match kind with
  | path => if value.isEmpty then .error .missingValue else .ok ()
  | natural => if (Text.toNat64? value.toList).isSome then .ok () else .error .malformedValue

inductive Role where
  | help
  | version
  | flag
  | counter
  | value (kind : ValueKind)
  deriving DecidableEq, Repr

/-- A switch: its name behind two dashes, its letter behind one, and what it does. -/
structure Switch where
  name : String
  letter : Option Char
  role : Role
  deriving DecidableEq, Repr

def Switch.takesValue (switch : Switch) : Bool :=
  match switch.role with
  | .value _ => true
  | _ => false

/-- What a command accepts: switches, and a number of positional arguments if it is bounded. -/
structure Grammar where
  switches : List Switch
  arguments : Option Nat

/-- What has been given so far. `waiting` is a switch that is not complete, with its value if it has
one; `onlyArguments` says that two dashes have come. -/
structure Given where
  flags : List String := []
  counters : List String := []
  values : List (String × String) := []
  arguments : List String := []
  waiting : Option (Switch × Option String) := none
  onlyArguments : Bool := false

namespace Given

def isNothing (given : Given) : Bool :=
  given.flags.isEmpty && given.counters.isEmpty && given.values.isEmpty && given.arguments.isEmpty

def needsValue (given : Given) : Bool :=
  match given.waiting with
  | some (_, none) => true
  | _ => false

/-- Takes the switch that is waiting with its value. -/
def complete (given : Given) : Except UsageError Given :=
  match given.waiting with
  | none => .ok given
  | some (_, none) => .error .missingValue
  | some (switch, some value) =>
    if given.values.any (·.1 == switch.name) then .error .conflict
    else
      match switch.role with
      | .value kind => do
        kind.check value
        return { given with values := given.values ++ [(switch.name, value)], waiting := none }
      | _ => .ok { given with waiting := none }

/-- Takes a switch that has no value. Only counters can be given twice. -/
def takeSwitch (given : Given) (switch : Switch) : Except UsageError Given := do
  let given ← given.complete
  match switch.role with
  | .help => .error .helpRequested
  | .version => .error .versionRequested
  | .counter => .ok { given with counters := given.counters ++ [switch.name] }
  | .flag =>
    if given.flags.contains switch.name then .error .conflict
    else .ok { given with flags := given.flags ++ [switch.name] }
  | .value _ => .ok { given with waiting := some (switch, none) }

def takeValue (given : Given) (switch : Switch) (value : String) : Except UsageError Given := do
  let given ← given.complete
  ({ given with waiting := some (switch, some value) }).complete

/-- Takes what follows two dashes: the name of a switch, and a value behind an equals sign. -/
def takeLong (grammar : Grammar) (given : Given) (text : List Char) : Except UsageError Given :=
  let name := String.ofList (text.takeWhile (· != '='))
  match grammar.switches.find? (·.name == name) with
  | none => .error .unknownArgument
  | some switch =>
    match text.dropWhile (· != '=') with
    | [] => given.takeSwitch switch
    | _ :: value =>
      if switch.takesValue then given.takeValue switch (String.ofList value)
      else .error .unexpectedValue

/-- Takes what follows one dash: letters of switches, the last of which may have its value behind
it, with or without an equals sign. -/
def takeLetters (grammar : Grammar) (given : Given) : List Char → Except UsageError Given
  | [] => .ok given
  | letter :: rest =>
    match grammar.switches.find? (·.letter == some letter) with
    | none => .error .unknownArgument
    | some switch =>
      if switch.takesValue then
        match rest with
        | [] => given.takeSwitch switch
        | '=' :: value => given.takeValue switch (String.ofList value)
        | value => given.takeValue switch (String.ofList value)
      else do
        takeLetters grammar (← given.takeSwitch switch) rest

/-- Takes a positional argument, if there is room for it. -/
def takeArgument (grammar : Grammar) (given : Given) (text : String) : Except UsageError Given := do
  let room := match grammar.arguments with
    | some bound => decide (given.arguments.length < bound)
    | none => true
  if room then
    let given ← given.complete
    return { given with arguments := given.arguments ++ [text] }
  else
    .error .unknownArgument

def take (grammar : Grammar) (given : Given) (text : String) : Except UsageError Given :=
  if given.onlyArguments then given.takeArgument grammar text
  else
    match text.toList with
    | ['-', '-'] => .ok { given with onlyArguments := true }
    | '-' :: '-' :: long => given.takeLong grammar long
    | '-' :: letter :: letters => given.takeLetters grammar (letter :: letters)
    | _ =>
      match given.waiting with
      | some (switch, none) => .ok { given with waiting := some (switch, some text) }
      | _ => given.takeArgument grammar text

def count (given : Given) (name : String) : Nat := given.counters.count name

def has (given : Given) (name : String) : Bool := given.flags.contains name

def value? (given : Given) (name : String) : Option String := given.values.lookup name

end Given

end FacetSearch.CommandLine
