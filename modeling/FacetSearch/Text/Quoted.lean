/-!
Quoted runs: a quote character at both ends, and a backslash before each quote and backslash inside.
Reading also takes a backslash before any other character, which then stands for itself.

`read_escape` says that reading undoes writing, whatever follows.
-/

set_option autoImplicit false

namespace FacetSearch.Text.Quoted

/-- Puts a backslash before every backslash and every `quote`. -/
def escape (quote : Char) : List Char → List Char
  | [] => []
  | c :: rest =>
      if c = quote ∨ c = '\\' then '\\' :: c :: escape quote rest else c :: escape quote rest

def enclose (quote : Char) (text : List Char) : List Char := quote :: (escape quote text ++ [quote])

/-- Reads up to the closing quote: the contents with their escapes resolved, and what follows the
quote. There is no result when the text ends first. -/
def read (quote : Char) : List Char → Option (List Char × List Char)
  | [] => none
  | '\\' :: rest =>
    match rest with
    | [] => none
    | c :: rest => (read quote rest).map fun (contents, after) => (c :: contents, after)
  | c :: rest =>
    if c = quote then some ([], rest)
    else (read quote rest).map fun (contents, after) => (c :: contents, after)

theorem read_escape (quote : Char) (plain : quote ≠ '\\') (text after : List Char) :
    read quote (escape quote text ++ quote :: after) = some (text, after) := by
  induction text with
  | nil => simp [escape, read]
  | cons c rest ih =>
    by_cases special : c = quote ∨ c = '\\'
    · simp [escape, special, read, ih]
    · have ordinary : c ≠ quote ∧ c ≠ '\\' := by simpa using special
      simp [escape, read, ih, ordinary.1, ordinary.2]

end FacetSearch.Text.Quoted
