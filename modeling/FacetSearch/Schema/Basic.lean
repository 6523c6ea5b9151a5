import FacetSearch.Decimal.Layout
import FacetSearch.Schema.Groups

/-!
Schemas: the fields that can be searched, named groups of them, and the facets that can be filtered.

A `Catalog` is what the compilers of queries and filters ask about fields. Every schema gives one.
-/

set_option autoImplicit false

namespace FacetSearch

/-- A field's factor of relevance, and the names of its variants for phrases and for words. -/
structure FieldOptions where
  boost : Option Binary := none
  exactVariant : Option String := none
  stemmedVariant : Option String := none
  deriving DecidableEq

structure FieldDescriptor where
  name : String
  boost : Option Binary
  deriving DecidableEq

namespace FieldDescriptor

/-- What follows a clause on a boosted field. -/
def suffix (field : FieldDescriptor) : String :=
  match field.boost with
  | some boost => "^" ++ boost.exactWithPlaces .single
  | none => ""

def boostedName (field : FieldDescriptor) : String := field.name ++ field.suffix

end FieldDescriptor

/-- Facts about fields. A group has finitely many members, and there are finitely many groups. -/
structure Catalog where
  isField : String → Bool
  groups : Groups
  boost : String → Option Binary
  exactVariant : String → Option String
  stemmedVariant : String → Option String
  isFacet : String → Bool
  facetTag : String → String

namespace Catalog

def descriptor (catalog : Catalog) (name : String) : FieldDescriptor :=
  ⟨name, catalog.boost name⟩

/-- The variant of a field for phrases, or the field itself. -/
def phraseField (catalog : Catalog) (name : String) : String :=
  (catalog.exactVariant name).getD name

/-- The variant of a field for words, or the field itself. -/
def wordField (catalog : Catalog) (name : String) : String :=
  (catalog.stemmedVariant name).getD name

/-- The members of a group; an unknown group has none. -/
def members (catalog : Catalog) (group : String) : List String :=
  (catalog.groups.get? group).getD []

/-- The same catalog where every field is a facet and its own tag. -/
def withEveryFieldAsFacet (catalog : Catalog) : Catalog :=
  { catalog with isFacet := catalog.isField, facetTag := id }

end Catalog

/-- Fields and groups by name, facets in order, and tags for some of the facets. -/
structure Schema where
  fields : Dict FieldOptions := .empty
  groups : Groups := .empty
  facets : List String := []
  tags : Dict String := .empty
  deriving DecidableEq

namespace Schema

def withField (schema : Schema) (name : String) (options : FieldOptions) : Schema :=
  { schema with fields := schema.fields.insert name options }

def withGroup (schema : Schema) (name : String) (members : List String) : Schema :=
  { schema with groups := schema.groups.insert name members }

/-- Adds a facet unless it is there already. -/
def withFacet (schema : Schema) (name : String) : Schema :=
  if schema.facets.contains name then schema
  else { schema with facets := schema.facets ++ [name] }

def withTag (schema : Schema) (facet tag : String) : Schema :=
  { schema with tags := schema.tags.insert facet tag }

/-- What the schema tells about fields. Facets without a tag are their own tag. -/
def catalog (schema : Schema) : Catalog where
  isField := schema.fields.contains
  groups := schema.groups
  boost name := (schema.fields.get? name).bind (·.boost)
  exactVariant name := (schema.fields.get? name).bind (·.exactVariant)
  stemmedVariant name := (schema.fields.get? name).bind (·.stemmedVariant)
  isFacet := schema.facets.contains
  facetTag name := (schema.tags.get? name).getD name

end Schema

end FacetSearch
