import OpSchema.Conformance.Suite
import OpSchema.Text.Quoted

/-!
# The report command

The command takes pairs of a flag and a value, runs the suite in the chosen
modes and writes the report.  Its exit status tells whether every case passed.
-/

namespace OpSchema.Command

open Json (Document)

variable {m : Type → Type} [Monad m]

/-- What the arguments ask for.  The last value of a flag counts. -/
structure Options where
  mode : String := "both"
  output : Option String := none
  fixtures : Option String := none
  deriving DecidableEq, Repr

/-- The message for an argument that is no flag. -/
def usage (arg : String) : String :=
  "unknown arg '" ++ arg ++ "'. usage: run_schema_info_report [--mode strict|hardened|both] " ++
    "[--fixtures dir] [--output path]"

/-- Reads the arguments on top of earlier ones. -/
def Options.read (options : Options) : List String → Except String Options
  | [] => .ok options
  | [arg] =>
    if arg = "--mode" then .error "--mode requires one of: strict|hardened|both"
    else if arg = "--output" then .error "--output requires a file path"
    else if arg = "--fixtures" then .error "--fixtures requires a directory path"
    else .error (usage arg)
  | arg :: value :: rest =>
    if arg = "--mode" then read { options with mode := value } rest
    else if arg = "--output" then read { options with output := some value } rest
    else if arg = "--fixtures" then read { options with fixtures := some value } rest
    else .error (usage arg)

/-- The modes of a choice. -/
def modesOf (choice : String) : Except String (List Mode) :=
  if choice = "strict" then .ok [.strict]
  else if choice = "hardened" then .ok [.hardened]
  else if choice = "both" then .ok [.strict, .hardened]
  else .error ("unsupported mode '" ++ choice ++ "'; expected strict|hardened|both")

/-- A run of the suite: the modes, the configuration and the file of the report. -/
structure Plan where
  modes : List Mode
  config : SuiteConfig
  output : String

/-- The run that the arguments ask for. -/
def plan (args : List String) : Except String Plan :=
  match Options.read {} args with
  | .error e => .error e
  | .ok options =>
    match modesOf options.mode with
    | .error e => .error e
    | .ok modes =>
      let standard : SuiteConfig := {}
      let config := { standard with fixtureRoot := options.fixtures.getD standard.fixtureRoot }
      .ok { modes, config, output := options.output.getD config.reportPath }

/-- What a run of the command leaves behind, apart from files. -/
structure Outcome where
  exitCode : Nat
  stdout : String
  stderr : String
  deriving DecidableEq, Repr

/-- The outcome of a run that ends with an error. -/
def failure (stdout message : String) : Outcome :=
  ⟨1, stdout, "Error: " ++ Text.quoted message ++ "\n"⟩

/-- The summary of a report. -/
def summary (plan : Plan) (report : SuiteReport) : Document :=
  .object [("cases_passed", .natural report.casesPassed), ("cases_total", .natural report.casesTotal),
    ("modes", .texts (plan.modes.map Mode.label)), ("output_path", .text plan.output),
    ("status", .text (if report.casesPassed = report.casesTotal then "ok" else "failed"))]

/-- The outcome after a report has been written. -/
def conclude (plan : Plan) (report : SuiteReport) : Outcome :=
  let stdout := (summary plan report).indented ++ "\n"
  if report.casesPassed = report.casesTotal then ⟨0, stdout, ""⟩
  else
    failure stdout ("schema info conformance failed: " ++ toString report.casesPassed ++ "/" ++
      toString report.casesTotal ++ " cases passed")

/-- Runs the command. -/
def run (host : Host m) (args : List String) : m Outcome := do
  match plan args with
  | .error e => pure (failure "" e)
  | .ok plan =>
    match ← emitReport host plan.config plan.modes plan.output with
    | .error e => pure (failure "" e)
    | .ok report => pure (conclude plan report)

end OpSchema.Command
