/-!
The file that a new project starts from: an example of every section, commented out so that it
changes nothing.
-/

set_option autoImplicit false

namespace FacetSearch.Config

def exampleLines : List String :=
  ["# disco configuration",
    "#",
    "# disco looks for .disco.toml files from the current directory up to the",
    "# filesystem root, then falls back to ~/.disco.toml. Closer files win.",
    "",
    "# Stop looking for configs in parent directories and skip the global config.",
    "root = true",
    "",
    "# Searchable fields. Each entry may carry a static boost and the names of the",
    "# unanalyzed (\"exact\") and stemmed variants used by free-text expansion.",
    "[fields]",
    "\"title\" = \x7b boost = 2.0, exact = \"title-exact\", stemmed = \"title-stemmed\" \x7d",
    "\"orig-place-search\" = \x7b boost = 7.0 \x7d",
    "\"binding-orig-place-search\" = \x7b\x7d",
    "\"shelfmark\" = \x7b\x7d",
    "",
    "# Field groups. A comparison on a group name expands to all members.",
    "[groups]",
    "ORIGIN = [\"binding-orig-place-search\", \"orig-place-search\"]",
    "",
    "# Facet fields accepted by the filter builder, with optional tag overrides.",
    "[facets]",
    "fields = [\"type-facet\", \"format-facet\", \"orig-date-from-facet\", \"orig-date-to-facet\"]",
    "tags = \x7b \"orig-date-from-facet\" = \"orig-date\" \x7d",
    "",
    "[filter]",
    "type_field = \"type-facet\"",
    "default_types = [\"object\", \"description\", \"description-retro\"]",
    "missing_marker = \"__MISSING__\"",
    "date_key = \"orig-date-facet\"",
    "date_from_field = \"orig-date-from-facet\"",
    "date_to_field = \"orig-date-to-facet\"",
    "strict_root = false",
    "",
    "[snippet]",
    "padding = 60",
    "dividers = \"()[]\x7b\x7d;.:!?\"",
    "max_fragments = 3",
    "pre_tag = \"<em>\"",
    "post_tag = \"</em>\""]

/-- A line that says nothing: comments and empty lines stay, all others become comments. -/
def commentedOut (line : String) : String :=
  if line.isEmpty || line.toList.head? == some '#' then line else "# " ++ line

def template : String := String.join (exampleLines.map fun line => commentedOut line ++ "\n")

end FacetSearch.Config
