import OpSchema.Conformance.CaseReport
import OpSchema.Files.Host

/-!
# The conformance suite

The suite loads the fixture, runs its cases and reports.  A report for several
modes is gathered completely before any file is touched, so a fixture that
cannot be loaded leaves an earlier report as it was.

## Main definitions

* `loadFixture`: the cases of the fixture file, within its size limit.
* `runConformance`: all cases in one mode.
* `runSmoke`: the totals of one mode, whatever goes wrong.
* `runModes`: a conformance run in each of several modes, and their totals.
* `emitReport`: all cases in several modes, one line each, in a file.
-/

namespace OpSchema

variable {m : Type → Type} [Monad m]

/-- Where the fixture is and how large it may be, where reports go, and the mode
of the smoke run.

The paths given here are relative to the directory of the suite's own sources.  A
program knows that directory from its build and puts it in front of both; here it
is left out. -/
structure SuiteConfig where
  fixtureRoot : String := "fixtures"
  reportPath : String := "../../artifacts/schema_info/forensics.jsonl"
  maxFixtureBytes : Nat := 1048576
  strictMode : Bool := true

/-- The totals of a run. -/
structure SuiteReport where
  suite : String
  fixtureCount : Nat
  strictMode : Bool
  casesTotal : Nat
  casesPassed : Nat
  deriving DecidableEq, Repr

/-- Loads the cases of a fixture file. -/
def loadFixture (host : Host m) (path : String) (maxBytes : Nat) :
    m (Except String (List FixtureCase)) := do
  match ← host.fileSize path with
  | .error e => pure (.error ("failed reading fixture metadata " ++ path ++ ": " ++ e.message))
  | .ok size =>
    if maxBytes < size then
      pure (.error ("fixture " ++ path ++ " exceeds max bytes: actual=" ++ toString size ++
        " max=" ++ toString maxBytes))
    else
      match ← host.readText path with
      | .error e => pure (.error ("failed reading fixture " ++ path ++ ": " ++ e.message))
      | .ok source =>
        match decodeFixture source with
        | .error diagnostic =>
          pure (.error ("failed parsing fixture " ++ path ++ ": " ++ diagnostic))
        | .ok cases => pure (.ok cases)

/-- Runs cases in a mode, each at its own time. -/
def runCases (host : Host m) (mode : Mode) : List FixtureCase → m (List CaseReport)
  | [] => pure []
  | c :: cases => do
    let now ← host.now
    let reports ← runCases host mode cases
    pure (c.run mode now :: reports)

/-- The number of reports that passed. -/
def passedCount (reports : List CaseReport) : Nat :=
  reports.countP CaseReport.passed

/-- The totals of the reports of one mode. -/
def SuiteReport.ofCases (mode : Mode) (reports : List CaseReport) : SuiteReport :=
  { suite := suiteName
    fixtureCount := 1
    strictMode := mode == .strict
    casesTotal := reports.length
    casesPassed := passedCount reports }

/-- Loads the fixture and runs all of its cases in a mode. -/
def runConformance (host : Host m) (config : SuiteConfig) (mode : Mode) :
    m (Except String (SuiteReport × List CaseReport)) := do
  match ← loadFixture host (Path.join config.fixtureRoot fixtureFile) config.maxFixtureBytes with
  | .error e => pure (.error e)
  | .ok cases =>
    let reports ← runCases host mode cases
    pure (.ok (.ofCases mode reports, reports))

/-- Counts the entries of the fixture directory and runs the cases in the mode of
the configuration.  A fixture that cannot be loaded counts as one without
cases. -/
def runSmoke (host : DirectoryHost m) (config : SuiteConfig) : m SuiteReport := do
  let fixtureCount ← host.entryCount config.fixtureRoot
  let mode := if config.strictMode then Mode.strict else Mode.hardened
  let outcome ← runConformance host.toHost config mode
  let (casesTotal, casesPassed) := match outcome with
    | .error _ => (0, 0)
    | .ok (report, _) => (report.casesTotal, report.casesPassed)
  pure
    { suite := "smoke", fixtureCount, strictMode := config.strictMode, casesTotal, casesPassed }

/-! ## Reports in a file -/

/-- What is gathered from conformance runs: their totals and the records of their cases. -/
structure Gathered where
  casesTotal : Nat := 0
  casesPassed : Nat := 0
  lines : List String := []

/-- Adds a conformance run to what was gathered before. -/
def Gathered.add (gathered : Gathered) (report : SuiteReport) (cases : List CaseReport) :
    Gathered :=
  { casesTotal := gathered.casesTotal + report.casesTotal
    casesPassed := gathered.casesPassed + report.casesPassed
    lines := gathered.lines ++ cases.map fun report => report.log.line }

/-- Makes a conformance run in each mode, up to the first one that fails. -/
def runModes (host : Host m) (config : SuiteConfig) (gathered : Gathered) :
    List Mode → m (Except String Gathered)
  | [] => pure (.ok gathered)
  | mode :: modes => do
    match ← runConformance host config mode with
    | .error e => pure (.error e)
    | .ok (report, cases) => runModes host config (gathered.add report cases) modes

/-- The text of a report file. -/
def reportText (lines : List String) : String :=
  String.join (lines.map (· ++ "\n"))

/-- Makes the directory that is to hold a file, if the path names one. -/
def prepareDirectory (host : Host m) (path : String) : m (Except String Unit) := do
  match Path.parent? path with
  | none => pure (.ok ())
  | some parent =>
    match ← host.createDirectories parent with
    | .error e => pure (.error ("failed creating " ++ parent ++ ": " ++ e.message))
    | .ok () => pure (.ok ())

/-- Writes a text to a file, in place of what was there. -/
def writeReport (host : Host m) (path text : String) : m (Except String Unit) := do
  match ← host.createFile path with
  | .error e => pure (.error ("failed creating " ++ path ++ ": " ++ e.message))
  | .ok () =>
    match ← host.appendText path text with
    | .error e => pure (.error ("failed writing " ++ path ++ ": " ++ e.message))
    | .ok () => pure (.ok ())

/-- The totals of what was gathered in several modes. -/
def SuiteReport.ofModes (modes : List Mode) (gathered : Gathered) : SuiteReport :=
  { suite := suiteName
    fixtureCount := 1
    strictMode := modes.contains .strict
    casesTotal := gathered.casesTotal
    casesPassed := gathered.casesPassed }

/-- Runs the suite in every mode and writes one line for every case to a file. -/
def emitReport (host : Host m) (config : SuiteConfig) (modes : List Mode) (path : String) :
    m (Except String SuiteReport) := do
  match ← runModes host config {} modes with
  | .error e => pure (.error e)
  | .ok gathered =>
    match ← prepareDirectory host path with
    | .error e => pure (.error e)
    | .ok () =>
      match ← writeReport host path (reportText gathered.lines) with
      | .error e => pure (.error e)
      | .ok () => pure (.ok (.ofModes modes gathered))

end OpSchema
