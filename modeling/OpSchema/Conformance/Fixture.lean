import OpSchema.Guard.Context

/-!
# Fixtures

A fixture is a list of cases.  Each case gives an encoded signature, as a
document, and what is expected of it: that it is rejected, or the answers to
questions about mutation, names, aliasing and in-place calls.
-/

namespace OpSchema

open Json (Document Grammar)

/-- The answer that is expected: a truth value, or an error by its label. -/
structure Expectation where
  value : Option Bool
  error : Option String
  deriving DecidableEq, Repr

/-- A question whether the input at a position is mutated. -/
structure IndexQuery where
  index : Nat
  expectation : Expectation
  deriving DecidableEq, Repr

/-- A question whether the input with a name is mutated. -/
structure NameQuery where
  name : String
  expectation : Expectation
  deriving DecidableEq, Repr

/-- A question whether two slots alias. -/
structure AliasQuery where
  left : Locator
  right : Locator
  expectation : Expectation
  deriving DecidableEq, Repr

/-- An in-place call, whether strict mode allows it and whether hardened mode
asks for a copy. -/
structure InplaceQuery where
  storages : List Storage
  strictOk : Bool
  hardenedCopy : Bool
  deriving DecidableEq, Repr

/-- A conformance case. -/
structure FixtureCase where
  name : String
  schema : Document
  expectedError : Option String
  mutationByIndex : List IndexQuery
  mutationByName : List NameQuery
  aliasing : List AliasQuery
  inplace : Option InplaceQuery

/-! ## The format -/

/-- The records of a fixture. -/
inductive FixtureRecord where
  | file
  | fixtureCase
  | indexQuery
  | nameQuery
  | aliasQuery
  | inplaceQuery
  | locator
  deriving DecidableEq, Repr

/-- The fields of the records, in the order of declaration. -/
def fixtureGrammar : Grammar FixtureRecord
  | .file =>
    { title := "struct SchemaInfoFixtureFile"
      fields := [⟨"cases", .required, .list (.record .fixtureCase)⟩] }
  | .fixtureCase =>
    { title := "struct SchemaInfoCase"
      fields :=
        [⟨"name", .required, .text⟩, ⟨"schema", .required, .anything⟩,
          ⟨"expect_schema_error", .optional, .nullable .text⟩,
          ⟨"mutation_by_index", .defaulted, .list (.record .indexQuery)⟩,
          ⟨"mutation_by_name", .defaulted, .list (.record .nameQuery)⟩,
          ⟨"aliasing", .defaulted, .list (.record .aliasQuery)⟩,
          ⟨"inplace", .optional, .nullable (.record .inplaceQuery)⟩] }
  | .indexQuery =>
    { title := "struct IndexQuery"
      fields :=
        [⟨"index", .required, .count "usize"⟩, ⟨"expected", .optional, .nullable .flag⟩,
          ⟨"expected_error", .optional, .nullable .text⟩] }
  | .nameQuery =>
    { title := "struct NameQuery"
      fields :=
        [⟨"name", .required, .text⟩, ⟨"expected", .optional, .nullable .flag⟩,
          ⟨"expected_error", .optional, .nullable .text⟩] }
  | .aliasQuery =>
    { title := "struct AliasQuery"
      fields :=
        [⟨"lhs", .required, .record .locator⟩, ⟨"rhs", .required, .record .locator⟩,
          ⟨"expected", .optional, .nullable .flag⟩,
          ⟨"expected_error", .optional, .nullable .text⟩] }
  | .inplaceQuery =>
    { title := "struct InplaceQuery"
      fields :=
        [⟨"storages", .required, .list (.nullable (.count "u64"))⟩,
          ⟨"expect_strict_ok", .required, .flag⟩, ⟨"expect_hardened_copy", .required, .flag⟩] }
  | .locator => Locator.recordShape

/-! ## Reading

The documents below have passed the reader, so they have the shapes of the
grammar. -/

/-- The value of a field of a record. -/
def FixtureRecord.get (record : FixtureRecord) (name : String) (d : Document) : Document :=
  d.field (fixtureGrammar record).names name

/-- The expectation in a question. -/
def Expectation.ofDocument (record : FixtureRecord) (d : Document) : Expectation :=
  ⟨(record.get "expected" d).asOption.map Document.asFlag,
    (record.get "expected_error" d).asOption.map Document.asText⟩

/-- The question about a position that a document describes. -/
def IndexQuery.ofDocument (d : Document) : IndexQuery :=
  ⟨(FixtureRecord.indexQuery.get "index" d).asNatural, .ofDocument .indexQuery d⟩

/-- The question about a name that a document describes. -/
def NameQuery.ofDocument (d : Document) : NameQuery :=
  ⟨(FixtureRecord.nameQuery.get "name" d).asText, .ofDocument .nameQuery d⟩

/-- The question about two slots that a document describes. -/
def AliasQuery.ofDocument (d : Document) : AliasQuery :=
  ⟨.ofDocument (FixtureRecord.aliasQuery.get "lhs" d),
    .ofDocument (FixtureRecord.aliasQuery.get "rhs" d), .ofDocument .aliasQuery d⟩

/-- The in-place call that a document describes. -/
def InplaceQuery.ofDocument (d : Document) : InplaceQuery :=
  let field := FixtureRecord.get .inplaceQuery
  ⟨(field "storages" d).asList.map fun storage => storage.asOption.map Document.asNatural,
    (field "expect_strict_ok" d).asFlag, (field "expect_hardened_copy" d).asFlag⟩

/-- The case that a document describes. -/
def FixtureCase.ofDocument (d : Document) : FixtureCase :=
  let field := FixtureRecord.get .fixtureCase
  { name := (field "name" d).asText
    schema := field "schema" d
    expectedError := (field "expect_schema_error" d).asOption.map Document.asText
    mutationByIndex := (field "mutation_by_index" d).asList.map IndexQuery.ofDocument
    mutationByName := (field "mutation_by_name" d).asList.map NameQuery.ofDocument
    aliasing := (field "aliasing" d).asList.map AliasQuery.ofDocument
    inplace := (field "inplace" d).asOption.map InplaceQuery.ofDocument }

/-- The cases that a text describes, or the diagnostic. -/
def decodeFixture (source : String) : Except String (List FixtureCase) :=
  match Json.parse fixtureGrammar (.record .file) source with
  | .error diagnostic => .error diagnostic
  | .ok d => .ok ((FixtureRecord.file.get "cases" d).asList.map FixtureCase.ofDocument)

end OpSchema
