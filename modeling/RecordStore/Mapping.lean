import RecordStore.Json.Basic
import RecordStore.Schema

/-!
# `RecordStore.Mapping`: how a search engine is to index documents

The mapping of a schema gives every document name a property, which says how the values stored
under it are indexed. A text is indexed for exact matches; if its keyword name is its document
name, a point and more, it is indexed word by word and the exact form becomes a part of it.
-/

set_option autoImplicit false

namespace RecordStore

/-- What follows the document name and a point in the keyword alias, if that is how the alias
starts. -/
def Field.keywordPart? (f : Field) : Option String :=
  match f.keywordAlias with
  | none => none
  | some name =>
    let start := (f.documentName ++ ".").toList
    let rest := name.toList.drop start.length
    if start.isPrefixOf name.toList && !rest.isEmpty then some (String.ofList rest) else none

open RecordStore.Json (single)

/-- The property of an exactly matched type. -/
def exactProperty (type : String) : Json :=
  single "type" (.string type)

/-- How the values of a field are indexed. Points in time keep their nanoseconds. -/
def Field.property (f : Field) : Json :=
  match f.type.element with
  | .string =>
    match f.keywordPart? with
    | some part =>
      .ofMembers [("type", .string "text"), ("fields", single part (exactProperty "keyword"))]
    | none => exactProperty "keyword"
  | .integer => exactProperty "long"
  | .float => exactProperty "double"
  | .boolean => exactProperty "boolean"
  | .dateTime => exactProperty "date_nanos"

/-- The properties of all document names; of two fields with one document name the later one
decides. -/
def Schema.properties (s : Schema) : List (String × Json) :=
  KeyMap.ofList (s.fields.map fun f => (f.documentName, f.property))

/-- The mapping that an index of the schema's documents is created with. -/
def Schema.mapping (s : Schema) : Json :=
  single "mappings" (single "properties" (.object s.properties))

end RecordStore
