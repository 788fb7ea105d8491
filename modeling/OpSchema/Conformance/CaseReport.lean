import OpSchema.Conformance.CaseLog
import OpSchema.Conformance.Fixture

/-!
# Running a case

A case is run in one mode.  Its signature is written canonically and loaded;
then every question is put to the operator and compared with what is expected.
A signature that does not load leaves no questions to fail.
-/

namespace OpSchema

open Json (Document)

/-- The file that holds the fixture. -/
def fixtureFile : String := "schema_info_cases.json"

/-- The packet that the fixture belongs to. -/
def fixturePacket : String := "FT-SI-001"

/-- The name of the suite. -/
def suiteName : String := "schema_info"

/-- The artifact that a record refers to. -/
def fixtureArtifact : String := "crates/ft-conformance/fixtures/" ++ fixtureFile

/-- The command that runs the suite again in a mode. -/
def replayCommand (mode : Mode) : String :=
  "cargo run -p ft-conformance --bin run_schema_info_report -- --mode " ++ mode.label

/-! ## Comparing with what is expected -/

/-- The answer is the expected one: the value and no error, or the error by its
label and no value. -/
def Expectation.isMet (expectation : Expectation) : Except OperatorError Bool → Bool
  | .ok value => expectation.error.isNone && expectation.value == some value
  | .error e => expectation.value.isNone && expectation.error == some e.label

/-- Two answers are the same. -/
def sameAnswer : Except OperatorError Bool → Except OperatorError Bool → Bool
  | .ok a, .ok b => a == b
  | .error a, .error b => a == b
  | _, _ => false

/-- The answer to a question about a position. -/
def IndexQuery.isMet (op : Operator) (query : IndexQuery) : Bool :=
  query.expectation.isMet (op.isMutating query.index)

/-- The answer to a question about a name. -/
def NameQuery.isMet (op : Operator) (query : NameQuery) : Bool :=
  query.expectation.isMet (op.isMutatingByName query.name)

/-- The answer to a question about two slots, which is asked both ways round. -/
def AliasQuery.isMet (op : Operator) (query : AliasQuery) : Bool :=
  let forward := op.areAliasing query.left query.right
  let backward := op.areAliasing query.right query.left
  sameAnswer forward backward && query.expectation.isMet forward

/-- The verdict on a call in a mode. -/
def InplaceQuery.isMet (mode : Mode) (query : InplaceQuery) :
    Except InplaceError Decision → Bool
  | .ok decision =>
    match mode with
    | .strict => query.strictOk
    | .hardened => decision.copyRequired == query.hardenedCopy
  | .error (.undeclaredOverlap _ _) =>
    match mode with
    | .strict => !query.strictOk
    | .hardened => false
  | .error _ => false

/-! ## The checks of a case -/

/-- Which of the expectations of a case were met. -/
structure Checks where
  schema : Bool
  mutation : Bool
  nameLookup : Bool
  aliasing : Bool
  inplace : Bool
  deriving DecidableEq, Repr

namespace Checks

/-- All expectations were met. -/
def passed (checks : Checks) : Bool :=
  checks.schema && checks.mutation && checks.nameLookup && checks.aliasing && checks.inplace

/-- The reason for the outcome: the first expectation that was not met, or the way
in which the case passed. -/
def reasonCode (checks : Checks) (expectsError : Bool) : String :=
  if checks.passed then
    if expectsError then "schema_info_invalid_schema_fail_closed_ok" else "schema_info_parity_ok"
  else if !checks.schema then "schema_info_schema_expectation_mismatch"
  else if !checks.mutation then "schema_info_mutation_mismatch"
  else if !checks.nameLookup then "schema_info_name_lookup_mismatch"
  else if !checks.aliasing then "schema_info_aliasing_mismatch"
  else "schema_info_inplace_policy_mismatch"

end Checks

namespace FixtureCase

/-- Loads the operator of a case from the canonical text of its document. -/
def load (c : FixtureCase) : Except OperatorError Operator :=
  Operator.load c.schema.canonical.compact

/-- Checks the in-place call of a case, if it has one. -/
def checkInplace (c : FixtureCase) (op : Operator) (context : Context) : Bool × Context :=
  match c.inplace with
  | none => (true, context)
  | some query =>
    let (outcome, after) := context.checkInplace op query.storages
    (query.isMet context.mode outcome, after)

/-- Runs the checks of a case on what was loaded. -/
def check (c : FixtureCase) (context : Context) :
    Except OperatorError Operator → Checks × Context
  | .error e =>
    ({ schema := c.expectedError == some e.label, mutation := true, nameLookup := true,
       aliasing := true, inplace := true },
      context.recordLoadFailure c.name e.message)
  | .ok op =>
    let (inplace, after) := c.checkInplace op context
    ({ schema := c.expectedError.isNone
       mutation := c.mutationByIndex.all (IndexQuery.isMet op)
       nameLookup := c.mutationByName.all (NameQuery.isMet op)
       aliasing := c.aliasing.all (AliasQuery.isMet op)
       inplace }, after)

end FixtureCase

/-! ## Reports -/

/-- The outcome of a case in a mode. -/
structure CaseReport where
  name : String
  mode : Mode
  checks : Checks
  log : CaseLog

/-- All expectations of the case were met. -/
def CaseReport.passed (report : CaseReport) : Bool := report.checks.passed

/-- The extra members of a record: the signature that was loaded, the error that
was met instead, and the evidence. -/
def evidenceMembers (loaded : Except OperatorError Operator) (context : Context) :
    List (String × Document) :=
  let (signature, error) := match loaded with
    | .ok op => (op.signature.render, "none")
    | .error e => ("unavailable", e.label)
  [("schema_signature", .text signature), ("schema_error_observed", .text error),
    ("runtime_evidence", .texts (context.ledger.toList.map Evidence.render))]

/-- Runs a case in a mode at a time. -/
def FixtureCase.run (c : FixtureCase) (mode : Mode) (now : Nat) : CaseReport :=
  let loaded := c.load
  let (checks, context) := c.check (Context.new mode) loaded
  let log : CaseLog :=
    { timestamp := now
      suite := suiteName
      fixture := fixtureFile
      packet := fixturePacket
      caseName := c.name
      mode
      artifacts := [fixtureArtifact]
      replayCommand := replayCommand mode
      outcome := if checks.passed then "pass" else "fail"
      reasonCode := checks.reasonCode c.expectedError.isSome }
  { name := c.name, mode, checks, log := log.withExtra (evidenceMembers loaded context) }

end OpSchema
