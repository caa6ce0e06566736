import RecordStore.FieldType

/-!
# `RecordStore.Field`: descriptions of fields

A field has its own name, under which filters and entities speak of it, and may have two names in
the search engine: the document name, under which its value is stored, and the keyword name, under
which its exact value is found.
-/

set_option autoImplicit false

namespace RecordStore

/-- The description of one field of an entity:

- `name`: the field's own name;
- `type`: the declared type;
- `documentAlias`: the document name, where it is not the field's own;
- `keywordAlias`: the keyword name, where it is not the document name. -/
structure Field where
  name : String
  type : FieldType
  documentAlias : Option String
  keywordAlias : Option String
deriving DecidableEq

namespace Field

/-- The name under which the value is stored. -/
def documentName (f : Field) : String :=
  f.documentAlias.getD f.name

/-- The name under which the exact value is found. -/
def keywordName (f : Field) : String :=
  f.keywordAlias.getD f.documentName

end Field

end RecordStore
