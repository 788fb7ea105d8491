import OpSchema.Json.Reader
import OpSchema.Json.Writer
import OpSchema.Signature.Validation
import OpSchema.Text.Search

/-!
# Encoded signatures

A signature is encoded as a compact document with every field present, and
decoded from any text that describes one: fields in any order or by place,
defaulted fields left out, blanks and escapes as the format allows.  What was
read is then validated.

## Main definitions

* `Signature.encode`, `Signature.toDocument`: the one form that is written.
* `signatureGrammar`: the shapes that are read.
* `Signature.decode`: reading and validation, with a limit on the length of the
  text.
-/

namespace OpSchema

open Json (Document Grammar RecordShape)

/-! ## The format -/

/-- The records of an encoded signature. -/
inductive SignatureRecord where
  | signature
  | slot
  | aliasing
  deriving DecidableEq, Repr

/-- The fields of the records, in the order in which they are written. -/
def signatureGrammar : Grammar SignatureRecord
  | .signature =>
    { title := "struct FunctionSchema"
      fields :=
        [⟨"name", .required, .text⟩, ⟨"overload_name", .defaulted, .text⟩,
          ⟨"arguments", .defaulted, .list (.record .slot)⟩,
          ⟨"returns", .defaulted, .list (.record .slot)⟩] }
  | .slot =>
    { title := "struct Argument"
      fields :=
        [⟨"name", .defaulted, .text⟩, ⟨"ty", .required, .choice SlotType.names⟩,
          ⟨"alias_info", .defaulted, .nullable (.record .aliasing)⟩,
          ⟨"kwarg_only", .defaulted, .flag⟩] }
  | .aliasing =>
    { title := "struct AliasInfo"
      fields :=
        [⟨"sets", .defaulted, .list .text⟩, ⟨"is_write", .defaulted, .flag⟩,
          ⟨"contained", .defaulted, .list (.record .aliasing)⟩] }

/-! ## Writing -/

namespace Aliasing

mutual

/-- The document of an aliasing. -/
def toDocument : Aliasing → Document
  | ⟨sets, isWrite, contained⟩ =>
    .object [("sets", .texts sets.symbols), ("is_write", .flag isWrite),
      ("contained", .list (toDocuments contained))]

/-- The documents of a list of aliasings. -/
def toDocuments : List Aliasing → List Document
  | [] => []
  | a :: as => toDocument a :: toDocuments as

end

end Aliasing

/-- The document of a slot. -/
def Slot.toDocument (slot : Slot) : Document :=
  .object [("name", .text slot.name), ("ty", .text slot.type.name),
    ("alias_info", (slot.aliasing.map Aliasing.toDocument).getD .null),
    ("kwarg_only", .flag slot.keywordOnly)]

/-- The document of a signature. -/
def Signature.toDocument (s : Signature) : Document :=
  .object [("name", .text s.name), ("overload_name", .text s.overload),
    ("arguments", .list (s.inputs.map Slot.toDocument)),
    ("returns", .list (s.outputs.map Slot.toDocument))]

/-- The encoded signature. -/
def Signature.encode (s : Signature) : String := s.toDocument.compact

/-! ## Reading

The documents below have passed the reader, so they have the shapes of the
grammar; other documents give some value or other. -/

/-- The value of a field of a record. -/
def SignatureRecord.get (record : SignatureRecord) (name : String) (d : Document) : Document :=
  d.field (signatureGrammar record).names name

namespace Aliasing

mutual

/-- The aliasing that a document describes. -/
def ofDocument : Document → Aliasing
  | .object members =>
    let field := SignatureRecord.get .aliasing
    ⟨.ofList ((field "sets" (.object members)).asList.map Document.asText),
      (field "is_write" (.object members)).asFlag, containedInMembers members⟩
  | .list items =>
    let field := SignatureRecord.get .aliasing
    ⟨.ofList ((field "sets" (.list items)).asList.map Document.asText),
      (field "is_write" (.list items)).asFlag, containedInItems items⟩
  | _ => none

/-- The elements that the members of an object describe. -/
def containedInMembers : List (String × Document) → List Aliasing
  | [] => []
  | (key, d) :: members => if key = "contained" then ofList d else containedInMembers members

/-- The elements that the items of a list of fields describe. -/
def containedInItems : List Document → List Aliasing
  | _ :: _ :: d :: _ => ofList d
  | _ => []

/-- The aliasings that a list describes. -/
def ofList : Document → List Aliasing
  | .list items => ofDocuments items
  | _ => []

/-- The aliasings that some documents describe. -/
def ofDocuments : List Document → List Aliasing
  | [] => []
  | d :: ds => ofDocument d :: ofDocuments ds

end

end Aliasing

/-- The type that a document names, alone or as the key of an object. -/
def SlotType.ofDocument : Document → SlotType
  | .text name => (ofName? name).getD .tensor
  | .object ((name, _) :: _) => (ofName? name).getD .tensor
  | _ => .tensor

/-- The slot that a document describes. -/
def Slot.ofDocument (d : Document) : Slot :=
  let field := SignatureRecord.get .slot
  { name := (field "name" d).asText
    type := .ofDocument (field "ty" d)
    aliasing := (field "alias_info" d).asOption.map Aliasing.ofDocument
    keywordOnly := (field "kwarg_only" d).asFlag }

namespace Signature

/-- The signature that a document describes. -/
def ofDocument (d : Document) : Signature :=
  let field := SignatureRecord.get .signature
  { name := (field "name" d).asText
    overload := (field "overload_name" d).asText
    inputs := (field "arguments" d).asList.map Slot.ofDocument
    outputs := (field "returns" d).asList.map Slot.ofDocument }

/-- The greatest number of bytes of an encoded signature that is read. -/
def maxPayloadBytes : Nat := 65536

/-- The greatest number of bytes of a diagnostic that is kept whole. -/
def maxDiagnosticBytes : Nat := 200

/-- The words in front of the name of an unknown field. -/
def unknownFieldMark : List Char := "unknown field `".toList

/-- Sorts out a diagnostic: one that names an unknown field stands for that
field, any other is kept, cut to size. -/
def errorOfDiagnostic (diagnostic : String) : SignatureError :=
  match Text.between? unknownFieldMark '`' diagnostic.toList with
  | some field => .unknownField (String.ofList field)
  | none => .malformed (Text.cut maxDiagnosticBytes diagnostic)

/-- The signature that a text describes, before validation. -/
def read (source : String) : Except SignatureError Signature :=
  match Json.parse signatureGrammar (.record .signature) source with
  | .error diagnostic => .error (errorOfDiagnostic diagnostic)
  | .ok d => .ok (ofDocument d)

/-- The valid signature that a text describes. -/
def decode (source : String) : Except SignatureError Signature :=
  if maxPayloadBytes < source.utf8ByteSize then
    .error (.tooLarge source.utf8ByteSize maxPayloadBytes)
  else
    match read source with
    | .error e => .error e
    | .ok s =>
      match s.validate with
      | .error e => .error e
      | .ok () => .ok s

end Signature

end OpSchema
