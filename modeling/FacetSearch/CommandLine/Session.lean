import FacetSearch.CommandLine.Outcome

/-!
A session on the command line: which files a run may look at, and the text that it leaves on the two
streams.
-/

set_option autoImplicit false

namespace FacetSearch.CommandLine

/-- The configuration files that a run may look at, from a working directory and with a home
directory: those of all directories above, that of the home directory, and the one that is asked
for. -/
def relevantPaths (directory home : String) (arguments : List String) : List String :=
  let explicit := match parse arguments with
    | .ok invocation => invocation.config.toList.map (Path.join directory)
    | .error _ => []
  (Path.ancestors directory).map (Path.join · Environment.fileName)
    ++ Path.join home Environment.fileName :: explicit

/-- Whether a notice is told: warnings always, and everything from the second degree on. -/
def isTold (verbosity : Nat) (notice : Notice) : Bool :=
  notice.severity == .warning || decide (2 ≤ verbosity)

def noticeLine (notice : Notice) : String :=
  "[" ++ notice.severity.label ++ "] " ++ notice.text

def UsageError.message : UsageError → String
  | helpRequested | nothingGiven =>
    "usage: disco [-c PATH] [-v] COMMAND\n"
      ++ "commands: compile, filter, spellcheck, tokenize, snippet, config, check, init"
  | versionRequested => "disco 0.1.0"
  | noCommand => "error: a command is missing"
  | unknownCommand => "error: unknown command"
  | unknownArgument => "error: unexpected argument"
  | unexpectedValue => "error: a value is given to a flag"
  | missingValue => "error: the value of an option is missing"
  | malformedValue => "error: the value of an option is not a number"
  | conflict => "error: arguments exclude each other"
  | missingArgument => "error: a required argument is missing"

/-- Whether something was asked for instead of a command, rather than a mistake made. -/
def UsageError.isRequest : UsageError → Bool
  | helpRequested | versionRequested => true
  | _ => false

/-- What a session leaves behind: its exit code, its output, its errors, and a file to write. -/
structure Report where
  code : UInt32
  output : String
  errors : String
  written : Option (String × String)

/-- Runs a command line. -/
def report (environment : Environment) (arguments : List String) : Report :=
  match parse arguments with
  | .error error =>
    if error.isRequest then ⟨0, error.message ++ "\n", "", none⟩
    else ⟨2, "", error.message ++ "\n", none⟩
  | .ok invocation =>
    let run := run environment invocation
    let told := run.notices.filter (isTold invocation.verbosity)
    ⟨if run.result.success then 0 else 1, run.result.output,
      linesOf (told.map noticeLine) ++ run.result.errors, run.result.written⟩

end FacetSearch.CommandLine
