import FacetSearch.Text.Literal

/-!
Notices: what a computation tells about decisions that its result does not show, such as an input
that it passed over. A notice is a cause; its severity and its wording follow from it.
-/

set_option autoImplicit false

namespace FacetSearch

inductive Severity where
  | debug
  | warning
  deriving DecidableEq, Repr

def Severity.label : Severity → String
  | debug => "DEBUG"
  | warning => "WARN"

/-- Why an entry of a filter specification, or a part of one, was passed over. -/
inductive FilterSkip where
  | noValue (key : String)
  | notAFacet (key : String)
  | unsupportedKind (key kind : String)
  | blankText (field : String)
  | notAText (field item : String)
  | datesNotAnObject
  | datesNotIntegers
  | nothingToMatch (field : String)
  deriving DecidableEq, Repr

def FilterSkip.text : FilterSkip → String
  | noValue key => "skipping filter entry " ++ Text.literal key ++ " without value"
  | notAFacet key => "skipping filter on non-facet field '" ++ key ++ "'"
  | unsupportedKind key kind => "skipping filter '" ++ key ++ "': unsupported " ++ kind ++ " value"
  | blankText field => "skipping filter '" ++ field ++ "': empty value"
  | notAText field item => "skipping non-string value " ++ item ++ " in filter '" ++ field ++ "'"
  | datesNotAnObject => "skipping date filter: expected an object"
  | datesNotIntegers => "skipping date filter: 'from' and 'to' must be integers"
  | nothingToMatch field => "skipping filter '" ++ field ++ "': nothing to match"

inductive Notice where
  | recurringGroup (group : String)
  | memberlessGroup (group : String)
  | noTerms (field value : String)
  | filterSkipped (reason : FilterSkip)
  | filterIgnored (reason : String)
  | noSnippet (terms : List String)
  | surplusWords (count : Nat) (phrase : String)
  | readingFile (path : String)
  deriving DecidableEq, Repr

namespace Notice

def severity : Notice → Severity
  | recurringGroup _ | memberlessGroup _ | filterIgnored _ => .warning
  | _ => .debug

def text : Notice → String
  | recurringGroup group => "field group '" ++ group ++ "' contains itself; skipping"
  | memberlessGroup group => "field group '" ++ group ++ "' has no members"
  | noTerms field value =>
    "free-text value " ++ Text.literal value ++ " on '" ++ field ++ "' has no terms"
  | filterSkipped reason => reason.text
  | filterIgnored reason => "ignoring malformed filter specification: " ++ reason
  | noSnippet terms => "no snippet: none of " ++ Text.literals terms ++ " occur"
  | surplusWords count phrase =>
    "dropping " ++ toString count ++ " surplus spellcheck words for " ++ Text.literal phrase
  | readingFile path => "loading config " ++ path

def line (notice : Notice) : String := notice.severity.label ++ " " ++ notice.text

end Notice

/-- A result, and the notices given on the way to it in order. -/
structure Logged (α : Type) where
  result : α
  notices : List Notice

namespace Logged

instance : Monad Logged where
  pure value := ⟨value, []⟩
  bind first next :=
    let second := next first.result
    ⟨second.result, first.notices ++ second.notices⟩

def note (notice : Notice) : Logged Unit := ⟨(), [notice]⟩

@[simp] theorem pure_result {α : Type} (value : α) : (pure value : Logged α).result = value :=
  rfl

@[simp] theorem pure_notices {α : Type} (value : α) : (pure value : Logged α).notices = [] := rfl

@[simp] theorem bind_result {α β : Type} (first : Logged α) (next : α → Logged β) :
    (first >>= next).result = (next first.result).result := rfl

@[simp] theorem bind_notices {α β : Type} (first : Logged α) (next : α → Logged β) :
    (first >>= next).notices = first.notices ++ (next first.result).notices := rfl

end Logged

end FacetSearch
