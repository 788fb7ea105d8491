import OpSchema.Guard.Ledger
import OpSchema.Json.Writer

/-!
# Log records of conformance cases

Every case leaves one record: a fixed envelope of twelve members, followed by
extra members in ascending key order.  Extra members never repeat or shadow a
member of the envelope.
-/

namespace OpSchema

open Json (Document)

/-- The version of the record format. -/
def caseLogVersion : String := "ft-conformance-log-v1"

/-- The record of one case in one mode. -/
structure CaseLog where
  /-- Milliseconds since the beginning of 1970. -/
  timestamp : Nat
  suite : String
  fixture : String
  packet : String
  caseName : String
  mode : Mode
  artifacts : List String
  replayCommand : String
  outcome : String
  reasonCode : String
  extra : List (String × Document) := []

namespace CaseLog

/-- The keys of the envelope. -/
def envelopeKeys : List String :=
  ["schema_version", "ts_unix_ms", "suite_id", "scenario_id", "fixture_id", "packet_id", "case_id",
    "mode", "artifact_refs", "replay_command", "outcome", "reason_code"]

/-- The suite, the mode and the case in one name. -/
def scenario (log : CaseLog) : String :=
  log.suite ++ "/" ++ log.mode.label ++ ":" ++ log.caseName

/-- The members of the envelope. -/
def envelope (log : CaseLog) : List (String × Document) :=
  [("schema_version", .text caseLogVersion), ("ts_unix_ms", .natural log.timestamp),
    ("suite_id", .text log.suite), ("scenario_id", .text log.scenario),
    ("fixture_id", .text log.fixture), ("packet_id", .text log.packet),
    ("case_id", .text log.caseName), ("mode", .text log.mode.label),
    ("artifact_refs", .texts log.artifacts), ("replay_command", .text log.replayCommand),
    ("outcome", .text log.outcome), ("reason_code", .text log.reasonCode)]

/-- Adds extra members.  Those with a key of the envelope are dropped, and a later
member takes the place of an earlier one with its key. -/
def withExtra (log : CaseLog) (members : List (String × Document)) : CaseLog :=
  let kept := members.filter fun (key, _) => !envelopeKeys.contains key
  { log with
    extra := Order.collect Prod.fst (log.extra ++ kept.map fun (key, d) => (key, d.canonical)) }

/-- The document of a record. -/
def toDocument (log : CaseLog) : Document :=
  .object (log.envelope ++ log.extra)

/-- The record on one line. -/
def line (log : CaseLog) : String := log.toDocument.compact

@[simp] theorem map_fst_envelope (log : CaseLog) : log.envelope.map Prod.fst = envelopeKeys := rfl

end CaseLog

end OpSchema
