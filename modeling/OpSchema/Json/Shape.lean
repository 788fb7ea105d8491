import OpSchema.Json.Document

/-!
# Shapes of documents

A shape says which documents a reader takes.  Records are referred to by name,
so that shapes of nested records are finite; a grammar gives the fields of each
name.

A record is written as an object, or as the list of its field values in the
order in which they are declared.
-/

namespace OpSchema.Json

/-- A kind of document, with records named by elements of `ρ`. -/
inductive Shape (ρ : Type) where
  /-- A text. -/
  | text
  /-- `true` or `false`. -/
  | flag
  /-- A natural number below `2 ^ 64`; messages call it by the label. -/
  | count (label : String)
  /-- One of a few names, alone or as the single key of an object holding `null`. -/
  | choice (names : List String)
  /-- Any document. -/
  | anything
  /-- A list of documents of one shape. -/
  | list (item : Shape ρ)
  /-- `null`, or a document of the shape. -/
  | nullable (inner : Shape ρ)
  /-- A record of the grammar. -/
  | record (name : ρ)
  deriving DecidableEq, Repr

/-- What happens when a field is not given. -/
inductive Presence where
  /-- The field has to be there. -/
  | required
  /-- The field may be missing from an object, but not from a list of fields. -/
  | optional
  /-- The field has a default. -/
  | defaulted
  deriving DecidableEq, Repr

/-- A field of a record. -/
structure Field (ρ : Type) where
  name : String
  presence : Presence
  shape : Shape ρ
  deriving DecidableEq, Repr

/-- The fields of a record, in the order of declaration, and what messages call
it. -/
structure RecordShape (ρ : Type) where
  title : String
  fields : List (Field ρ)
  deriving DecidableEq, Repr

namespace RecordShape

variable {ρ : Type}

/-- The names of the fields. -/
def names (record : RecordShape ρ) : List String :=
  record.fields.map Field.name

/-- The field of a name. -/
def field? (record : RecordShape ρ) (name : String) : Option (Field ρ) :=
  record.fields.find? fun field => field.name == name

end RecordShape

/-- The records of a format. -/
abbrev Grammar (ρ : Type) : Type := ρ → RecordShape ρ

/-- The value of a field in a document that describes a record with these
fields: by key in an object, by place in a list.  An absent field gives `null`. -/
def Document.field (names : List String) (name : String) : Document → Document
  | .object members => (members.lookup name).getD .null
  | .list items => ((names.zip items).lookup name).getD .null
  | _ => .null

end OpSchema.Json
