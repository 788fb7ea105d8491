import OpSchema.Conformance.Suite
import OpSchema.Proofs.Conformance.CaseRun
import OpSchema.Proofs.Files.Frame

/-!
# The suite on a machine

A machine has files and a clock.  The clock may show anything: its readings are a
sequence that the machine is given, of 128 bits each.  On a machine the suite becomes a
function from a state to a result and a state, and this file says which.

* A fixture is loaded without leaving a trace, and what is loaded depends on the files
  alone (`Machine.run_loadFixture`, `Machine.cases_congr`).  So every mode finds the same
  cases.
* The cases are run in order, mode by mode, and every case takes one reading of the
  clock (`Machine.run_runModes`).
* A report is gathered before its directory and its file are made, and once the file is
  made nothing can go wrong any more.  So a report ends in one of three ways
  (`Machine.emitReport_cases`).
-/

namespace OpSchema

/-- What is gathered from reports: how many there are, how many of them passed, and their
records. -/
def Gathered.ofReports (reports : List CaseReport) : Gathered :=
  ⟨reports.length, passedCount reports, reports.map fun report => report.log.line⟩

/-- A conformance run adds its reports. -/
theorem Gathered.add_ofCases (before reports : List CaseReport) (mode : Mode) :
    (ofReports before).add (.ofCases mode reports) reports = ofReports (before ++ reports) := by
  simp [ofReports, add, SuiteReport.ofCases, passedCount]

/-- A file system, and what the clock is going to show, reading by reading: milliseconds
in 128 bits. -/
structure Machine where
  files : FileSystem
  times : Nat → BitVec 128

namespace Machine

/-- The machine after readings of its clock. -/
def later (machine : Machine) (readings : Nat) : Machine :=
  { machine with times := fun k => machine.times (k + readings) }

/-- The machine with other files. -/
def withFiles (machine : Machine) (files : FileSystem) : Machine :=
  { machine with files }

/-- An operation on the files. -/
def onFiles {α : Type} (operation : FileSystem → α × FileSystem) : StateM Machine α :=
  modifyGet fun machine =>
    ((operation machine.files).1, machine.withFiles (operation machine.files).2)

/-- The machine as a host. -/
def host : DirectoryHost (StateM Machine) where
  now := modifyGet fun machine => ((machine.times 0).toNat, machine.later 1)
  fileSize path := do return (← get).files.fileSize path
  readText path := do return (← get).files.readText path
  createDirectories path := onFiles (·.createDirectories path)
  createFile path := onFiles (·.createFile path)
  appendText path text := onFiles (·.appendText path text)
  entryCount path := do return (← get).files.entryCount path

variable {machine : Machine} {config : SuiteConfig} {modes : List Mode} {path : String}

theorem run_bind {α β : Type} (action : StateM Machine α) (next : α → StateM Machine β)
    (machine : Machine) : (action >>= next).run machine =
      (next (action.run machine).1).run (action.run machine).2 := rfl

theorem run_fileSize (machine : Machine) (path : String) :
    (host.fileSize path).run machine = (machine.files.fileSize path, machine) := rfl

theorem run_readText (machine : Machine) (path : String) :
    (host.readText path).run machine = (machine.files.readText path, machine) := rfl

theorem run_createDirectories (machine : Machine) (path : String) :
    (host.createDirectories path).run machine =
      ((machine.files.createDirectories path).1,
        machine.withFiles (machine.files.createDirectories path).2) := rfl

theorem run_createFile (machine : Machine) (path : String) :
    (host.createFile path).run machine =
      ((machine.files.createFile path).1,
        machine.withFiles (machine.files.createFile path).2) := rfl

theorem run_appendText (machine : Machine) (path text : String) :
    (host.appendText path text).run machine =
      ((machine.files.appendText path text).1,
        machine.withFiles (machine.files.appendText path text).2) := rfl

/-! ## Loading -/

/-- The cases of the fixture of a configuration. -/
def cases (machine : Machine) (config : SuiteConfig) : Except String (List FixtureCase) :=
  ((loadFixture host.toHost (Path.join config.fixtureRoot fixtureFile)
    config.maxFixtureBytes).run machine).1

/-- Loading a fixture asks for two things, the size and the text of its file. -/
theorem run_loadFixture (machine : Machine) (path : String) (maxBytes : Nat) :
    (loadFixture host.toHost path maxBytes).run machine =
      (((loadFixture host.toHost path maxBytes).run ⟨machine.files, fun _ => 0⟩).1, machine) := by
  unfold loadFixture
  rw [run_bind, run_bind, run_fileSize, run_fileSize]
  dsimp only
  split
  · rfl
  · split
    · rfl
    · rw [run_bind, run_bind, run_readText, run_readText]
      dsimp only
      split
      · rfl
      · split <;> rfl

/-- The cases depend on the files, and not on the time. -/
theorem cases_congr (machine other : Machine) (hfiles : other.files = machine.files)
    (config : SuiteConfig) : other.cases config = machine.cases config := by
  rw [cases, cases, run_loadFixture, run_loadFixture machine, hfiles]

/-- **The fixture loads if it has a size within the limit and a text that can be read.** -/
theorem cases_eq_ok_iff {loaded : List FixtureCase} :
    machine.cases config = .ok loaded ↔
      ∃ size source,
        machine.files.fileSize (Path.join config.fixtureRoot fixtureFile) = .ok size ∧
        size ≤ config.maxFixtureBytes ∧
        machine.files.readText (Path.join config.fixtureRoot fixtureFile) = .ok source ∧
        decodeFixture source = .ok loaded := by
  rw [cases, loadFixture, run_bind, run_fileSize]
  cases machine.files.fileSize (Path.join config.fixtureRoot fixtureFile) with
  | error e => exact ⟨nofun, fun ⟨_, _, hsize, _⟩ => nomatch hsize⟩
  | ok size =>
      dsimp only
      by_cases hlarge : config.maxFixtureBytes < size
      · rw [if_pos hlarge]
        refine ⟨nofun, ?_⟩
        rintro ⟨_, _, hsize, hfits, -⟩
        cases hsize
        exact absurd hfits (Nat.not_le.2 hlarge)
      · rw [if_neg hlarge, run_bind, run_readText]
        cases machine.files.readText (Path.join config.fixtureRoot fixtureFile) with
        | error e => exact ⟨nofun, fun ⟨_, _, _, _, htext, _⟩ => nomatch htext⟩
        | ok source =>
            dsimp only
            constructor
            · intro hloaded
              refine ⟨size, source, rfl, Nat.not_lt.1 hlarge, rfl, ?_⟩
              cases hdecode : decodeFixture source with
              | error e =>
                  rw [hdecode] at hloaded
                  exact absurd hloaded nofun
              | ok decoded =>
                  rw [hdecode] at hloaded
                  exact hloaded
            · rintro ⟨_, _, -, -, htext, hdecode⟩
              cases htext
              rw [hdecode]
              rfl

/-! ## Running -/

/-- The runs of cases in modes, mode by mode. -/
def runsOf (modes : List Mode) (loaded : List FixtureCase) : List (Mode × FixtureCase) :=
  modes.flatMap fun mode => loaded.map fun c => (mode, c)

/-- The reports of the runs, each at the time of its reading of the clock. -/
def reports (machine : Machine) (modes : List Mode) (loaded : List FixtureCase) :
    List CaseReport :=
  (runsOf modes loaded).mapIdx fun k run => run.2.run run.1 (machine.times k).toNat

theorem length_runsOf (modes : List Mode) (loaded : List FixtureCase) :
    (runsOf modes loaded).length = loaded.length * modes.length := by
  induction modes with
  | nil => rfl
  | cons mode modes ih =>
      rw [runsOf, List.flatMap_cons, List.length_append, List.length_map, ← runsOf, ih,
        List.length_cons, Nat.mul_succ, Nat.add_comm]

theorem length_reports (machine : Machine) (modes : List Mode) (loaded : List FixtureCase) :
    (machine.reports modes loaded).length = loaded.length * modes.length := by
  rw [reports, List.length_mapIdx, length_runsOf]

theorem reports_cons (machine : Machine) (mode : Mode) (modes : List Mode)
    (loaded : List FixtureCase) :
    machine.reports (mode :: modes) loaded =
      machine.reports [mode] loaded ++ (machine.later loaded.length).reports modes loaded := by
  simp only [reports, runsOf, List.flatMap_cons, List.flatMap_nil, List.append_nil,
    List.mapIdx_append, List.length_map]
  rfl

theorem run_runCases (mode : Mode) (loaded : List FixtureCase) (machine : Machine) :
    (runCases host.toHost mode loaded).run machine =
      (machine.reports [mode] loaded, machine.later loaded.length) := by
  induction loaded generalizing machine with
  | nil => rfl
  | cons c loaded ih =>
      have hnow : host.now.run machine = ((machine.times 0).toNat, machine.later 1) := rfl
      rw [runCases, run_bind, run_bind, hnow, ih]
      simp only [reports, runsOf, List.flatMap_cons, List.flatMap_nil, List.append_nil,
        List.map_cons, List.mapIdx_cons]
      rfl

theorem run_runConformance (machine : Machine) (config : SuiteConfig) (mode : Mode) :
    (runConformance host.toHost config mode).run machine =
      match machine.cases config with
      | .error e => (.error e, machine)
      | .ok loaded =>
        (.ok (.ofCases mode (machine.reports [mode] loaded), machine.reports [mode] loaded),
          machine.later loaded.length) := by
  have hload : (loadFixture host.toHost (Path.join config.fixtureRoot fixtureFile)
      config.maxFixtureBytes).run machine = (machine.cases config, machine) := by
    rw [cases, run_loadFixture]
  rw [runConformance, run_bind, hload]
  cases machine.cases config with
  | error e => rfl
  | ok loaded =>
      dsimp only
      rw [run_bind, run_runCases]
      rfl

/-! ### Several modes -/

theorem run_runModes_of_error {e : String} (hmodes : modes ≠ [])
    (hcases : machine.cases config = .error e) (gathered : Gathered) :
    (runModes host.toHost config gathered modes).run machine = (.error e, machine) := by
  cases modes with
  | nil => exact absurd rfl hmodes
  | cons mode modes =>
      rw [runModes, run_bind, run_runConformance, hcases]
      rfl

/-- **The cases are run in order, mode by mode**, with one reading of the clock each.  The
fixture is loaded again for every mode, and nothing has changed by then but the clock. -/
theorem run_runModes_of_ok {loaded : List FixtureCase}
    (hcases : modes = [] ∨ machine.cases config = .ok loaded) (before : List CaseReport) :
    (runModes host.toHost config (.ofReports before) modes).run machine =
      (.ok (.ofReports (before ++ machine.reports modes loaded)),
        machine.later (loaded.length * modes.length)) := by
  induction modes generalizing machine before with
  | nil =>
      rw [show machine.reports [] loaded = [] from rfl, List.append_nil]
      rfl
  | cons mode modes ih =>
      have hfirst : machine.cases config = .ok loaded := hcases.resolve_left (List.cons_ne_nil _ _)
      have hothers : (machine.later loaded.length).cases config = .ok loaded :=
        (cases_congr machine (machine.later loaded.length) rfl config).trans hfirst
      -- The other modes find the clock ahead by the cases of the first one.
      have hlater : (machine.later loaded.length).later (loaded.length * modes.length) =
          machine.later (loaded.length * (modes.length + 1)) := by
        simp only [later, Nat.mul_succ, Nat.add_assoc]
      rw [runModes, run_bind, run_runConformance, hfirst]
      dsimp only
      rw [Gathered.add_ofCases, ih (.inr hothers), hlater, List.append_assoc, List.length_cons,
        ← reports_cons]

/-- Nothing is gathered before the first mode. -/
theorem run_runModes {loaded : List FixtureCase}
    (hcases : modes = [] ∨ machine.cases config = .ok loaded) :
    (runModes host.toHost config {} modes).run machine =
      (.ok (.ofReports (machine.reports modes loaded)),
        machine.later (loaded.length * modes.length)) :=
  run_runModes_of_ok hcases []

end Machine

/-! ## Writing -/

namespace FileSystem

/-- The files once the directory for a file is made, if the path names one. -/
def prepare (fs : FileSystem) (path : String) : Except FileError Unit × FileSystem :=
  match Path.parent? path with
  | none => (.ok (), fs)
  | some parent => fs.createDirectories parent

/-- The directory for a file can be made, and then the file. -/
def CanMake (fs : FileSystem) (path : String) : Prop :=
  (fs.prepare path).1 = .ok () ∧ ((fs.prepare path).2.createFile path).1 = .ok ()

theorem addsDirectories_prepare (fs : FileSystem) (path : String) :
    fs.AddsDirectories (fs.prepare path).2 := by
  unfold prepare
  split
  · exact .refl fs
  · exact addsDirectories_createDirectories fs _

end FileSystem

namespace Machine

/-- The message for a directory that cannot be made. -/
def directoryMessage (path : String) (e : FileError) : String :=
  "failed creating " ++ (Path.parent? path).getD "" ++ ": " ++ e.message

theorem run_prepareDirectory (machine : Machine) (path : String) :
    (prepareDirectory host.toHost path).run machine =
      ((machine.files.prepare path).1.mapError (directoryMessage path),
        machine.withFiles (machine.files.prepare path).2) := by
  unfold FileSystem.prepare prepareDirectory directoryMessage
  cases Path.parent? path with
  | none => rfl
  | some parent =>
      dsimp only
      rw [run_bind, run_createDirectories]
      cases (machine.files.createDirectories parent).1 with
      | error e => rfl
      | ok => rfl

/-- Nothing can go wrong once the file is made. -/
theorem run_writeReport_of_ok (hmade : (machine.files.createFile path).1 = .ok ())
    (text : String) :
    ∃ written, (writeReport host.toHost path text).run machine =
        (.ok (), machine.withFiles written) ∧
      written.readText path = .ok text := by
  obtain ⟨written, hwritten, hread⟩ := FileSystem.exists_appendText hmade text
  refine ⟨written, ?_, hread⟩
  rw [writeReport, run_bind, run_createFile, hmade]
  dsimp only
  rw [run_bind, run_appendText]
  dsimp only [withFiles]
  rw [hwritten]
  rfl

theorem run_writeReport_of_error {e : FileError}
    (hfails : (machine.files.createFile path).1 = .error e) (text : String) :
    (writeReport host.toHost path text).run machine =
      (.error ("failed creating " ++ path ++ ": " ++ e.message), machine) := by
  rw [writeReport, run_bind, run_createFile, FileSystem.createFile_of_error hfails]
  rfl

/-- A fixture that does not load is noticed before any file is touched. -/
theorem run_emitReport_of_error {e : String} (hmodes : modes ≠ [])
    (hcases : machine.cases config = .error e) (path : String) :
    (emitReport host.toHost config modes path).run machine = (.error e, machine) := by
  rw [emitReport, run_bind, run_runModes_of_error hmodes hcases]
  rfl

variable {loaded : List FixtureCase}

/-- **A report whose file can be made is written**, with one line for every run. -/
theorem run_emitReport_of_canMake (hcases : modes = [] ∨ machine.cases config = .ok loaded)
    (hmake : machine.files.CanMake path) :
    ∃ after, (emitReport host.toHost config modes path).run machine =
        (.ok (.ofModes modes (.ofReports (machine.reports modes loaded))), after) ∧
      after.files.readText path =
        .ok (reportText (Gathered.ofReports (machine.reports modes loaded)).lines) := by
  -- Running the cases moves the clock alone, so what can be made is the same as before.
  let ran := machine.later (loaded.length * modes.length)
  let prepared := ran.withFiles (machine.files.prepare path).2
  have hdirectory : (prepareDirectory host.toHost path).run ran =
      ((machine.files.prepare path).1.mapError (directoryMessage path), prepared) :=
    ran.run_prepareDirectory path
  have hmade : (prepared.files.createFile path).1 = .ok () := hmake.2
  obtain ⟨written, hwrite, hread⟩ := run_writeReport_of_ok hmade
    (reportText (Gathered.ofReports (machine.reports modes loaded)).lines)
  refine ⟨prepared.withFiles written, ?_, hread⟩
  rw [emitReport, run_bind, run_runModes hcases]
  dsimp only
  rw [run_bind, hdirectory, hmake.1]
  dsimp only [Except.mapError]
  rw [run_bind, hwrite]
  rfl

/-- **A report whose file cannot be made changes no file.** -/
theorem run_emitReport_of_not_canMake (hcases : modes = [] ∨ machine.cases config = .ok loaded)
    (hmake : ¬machine.files.CanMake path) :
    ∃ message after, (emitReport host.toHost config modes path).run machine =
        (.error message, after) ∧
      machine.files.AddsDirectories after.files := by
  let ran := machine.later (loaded.length * modes.length)
  let prepared := ran.withFiles (machine.files.prepare path).2
  have hadds : machine.files.AddsDirectories prepared.files :=
    machine.files.addsDirectories_prepare path
  have hdirectory : (prepareDirectory host.toHost path).run ran =
      ((machine.files.prepare path).1.mapError (directoryMessage path), prepared) :=
    ran.run_prepareDirectory path
  rw [emitReport, run_bind, run_runModes hcases]
  dsimp only
  rw [run_bind, hdirectory]
  cases hprepared : (machine.files.prepare path).1 with
  | error e => exact ⟨_, prepared, rfl, hadds⟩
  | ok =>
      dsimp only [Except.mapError]
      rw [run_bind]
      cases hmade : (prepared.files.createFile path).1 with
      | ok => exact absurd ⟨hprepared, hmade⟩ hmake
      | error e =>
          rw [run_writeReport_of_error hmade]
          exact ⟨_, prepared, rfl, hadds⟩

/-- **How a report ends.**  The fixture does not load, or the file of the report is written,
or it cannot be made. -/
theorem emitReport_cases (machine : Machine) (config : SuiteConfig) (modes : List Mode)
    (path : String) :
    (∃ e, modes ≠ [] ∧ machine.cases config = .error e ∧
      (emitReport host.toHost config modes path).run machine = (.error e, machine)) ∨
    (∃ loaded after, (modes = [] ∨ machine.cases config = .ok loaded) ∧
      machine.files.CanMake path ∧
      (emitReport host.toHost config modes path).run machine =
        (.ok (.ofModes modes (.ofReports (machine.reports modes loaded))), after) ∧
      after.files.readText path =
        .ok (reportText (Gathered.ofReports (machine.reports modes loaded)).lines)) ∨
    ∃ message after, ¬machine.files.CanMake path ∧
      (emitReport host.toHost config modes path).run machine = (.error message, after) ∧
      machine.files.AddsDirectories after.files := by
  -- Without modes the fixture is not even looked at.
  have hloads : (modes ≠ [] ∧ ∃ e, machine.cases config = .error e) ∨
      ∃ loaded, modes = [] ∨ machine.cases config = .ok loaded := by
    by_cases hmodes : modes = []
    · exact .inr ⟨[], .inl hmodes⟩
    · cases machine.cases config with
      | error e => exact .inl ⟨hmodes, e, rfl⟩
      | ok loaded => exact .inr ⟨loaded, .inr rfl⟩
  rcases hloads with ⟨hmodes, e, hcases⟩ | ⟨loaded, hcases⟩
  · exact .inl ⟨e, hmodes, hcases, run_emitReport_of_error hmodes hcases path⟩
  · by_cases hmake : machine.files.CanMake path
    · obtain ⟨after, hrun, hread⟩ := run_emitReport_of_canMake hcases hmake
      exact .inr (.inl ⟨loaded, after, hcases, hmake, hrun, hread⟩)
    · obtain ⟨message, after, hrun, hadds⟩ := run_emitReport_of_not_canMake hcases hmake
      exact .inr (.inr ⟨message, after, hmake, hrun, hadds⟩)

/-- A report that was emitted is the one of some cases, and its file could be made. -/
theorem exists_loaded_of_emitted {report : SuiteReport} {after : Machine}
    (hemitted : (emitReport host.toHost config modes path).run machine = (.ok report, after)) :
    ∃ loaded, (modes = [] ∨ machine.cases config = .ok loaded) ∧ machine.files.CanMake path ∧
      report = .ofModes modes (.ofReports (machine.reports modes loaded)) ∧
      after.files.readText path =
        .ok (reportText (Gathered.ofReports (machine.reports modes loaded)).lines) := by
  rcases emitReport_cases machine config modes path with
    ⟨_, -, -, hrun⟩ | ⟨loaded, _, hloaded, hmake, hrun, hread⟩ | ⟨_, _, -, hrun, -⟩
  · rw [hrun] at hemitted
    exact absurd hemitted nofun
  · rw [hrun] at hemitted
    cases hemitted
    exact ⟨loaded, hloaded, hmake, rfl, hread⟩
  · rw [hrun] at hemitted
    exact absurd hemitted nofun

end Machine

end OpSchema
