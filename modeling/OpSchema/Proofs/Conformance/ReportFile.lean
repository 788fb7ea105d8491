import OpSchema.Proofs.Conformance.Machine
import OpSchema.Proofs.Conformance.Records

/-!
# Report files

A report is written whole or not at all.  Where it is written, its lines are the records
of the runs, and whoever reads the lines counts what the report counts
(`Machine.emitReport_writes_records`).  Where it is not, no file has changed
(`Machine.emitReport_keeps_files`): the fixture is loaded before anything is touched, and
the file of the report is the last thing that can fail.
-/

namespace OpSchema.Machine

variable {machine : Machine} {config : SuiteConfig} {modes : List Mode} {path : String}
  {loaded : List FixtureCase}

/-! ## Reports and their lines -/

/-- A report is the one of a run at a time of the clock. -/
theorem exists_of_mem_reports {report : CaseReport}
    (hreport : report ∈ machine.reports modes loaded) :
    ∃ c mode now, now < 2 ^ 128 ∧ report = FixtureCase.run c mode now := by
  obtain ⟨k, hk, rfl⟩ := List.mem_mapIdx.1 hreport
  exact ⟨_, _, _, (machine.times k).isLt, rfl⟩

/-- The line of a report shows whether it passed. -/
theorem showsPass_line {report : CaseReport} (hreport : report ∈ machine.reports modes loaded) :
    CaseLog.showsPass report.log.line = report.passed := by
  obtain ⟨c, mode, now, hnow, rfl⟩ := exists_of_mem_reports hreport
  exact FixtureCase.showsPass_run hnow

/-- The lines of a report file are the records. -/
theorem lines_reportText (reports : List CaseReport) :
    Text.lines (reportText (Gathered.ofReports reports).lines) =
      reports.map fun report => report.log.line := by
  refine Text.lines_join fun line hline => ?_
  obtain ⟨report, -, rfl⟩ := List.mem_map.1 hline
  exact report.log.newLine_notMem_line

/-- The lines that show `pass` are as many as the reports that passed. -/
theorem countP_showsPass_lines (machine : Machine) (modes : List Mode)
    (loaded : List FixtureCase) :
    (Text.lines (reportText (Gathered.ofReports (machine.reports modes loaded)).lines)).countP
        CaseLog.showsPass =
      passedCount (machine.reports modes loaded) := by
  rw [lines_reportText, List.countP_map, passedCount]
  refine List.countP_congr fun report hreport => ?_
  rw [Function.comp_apply, showsPass_line hreport]

/-! ## Totals do not depend on the time -/

theorem map_passed_reports (machine : Machine) (modes : List Mode) (loaded : List FixtureCase) :
    (machine.reports modes loaded).map CaseReport.passed =
      (runsOf modes loaded).map fun run => (run.2.run run.1 0).passed := by
  refine List.ext_getElem? fun k => ?_
  simp only [reports, List.getElem?_map, List.getElem?_mapIdx, Option.map_map]
  rfl

theorem map_passed_reports_singleton (machine : Machine) (mode : Mode)
    (loaded : List FixtureCase) :
    (machine.reports [mode] loaded).map CaseReport.passed =
      loaded.map fun c => (c.run mode 0).passed := by
  have hruns : runsOf [mode] loaded = loaded.map fun c => (mode, c) := List.append_nil _
  rw [map_passed_reports, hruns, List.map_map]
  rfl

theorem passedCount_reports (machine other : Machine) (modes : List Mode)
    (loaded : List FixtureCase) :
    passedCount (machine.reports modes loaded) = passedCount (other.reports modes loaded) := by
  have hcount : ∀ reports : List CaseReport,
      passedCount reports = (reports.map CaseReport.passed).countP id := fun reports => by
    rw [passedCount, List.countP_map]
    rfl
  rw [hcount, hcount, map_passed_reports, map_passed_reports]

/-- A smoke run has the totals of its mode. -/
theorem totals_runSmoke (machine : Machine) (mode : Mode)
    (hcases : machine.cases config = .ok loaded) :
    let smoke := ((runSmoke host { config with strictMode := mode == .strict }).run machine).1
    smoke.casesTotal = (machine.reports [mode] loaded).length ∧
      smoke.casesPassed = passedCount (machine.reports [mode] loaded) := by
  have hsame : machine.cases { config with strictMode := mode == .strict } = .ok loaded := hcases
  have hmode : (if (mode == .strict) = true then Mode.strict else .hardened) = mode := by
    cases mode <;> rfl
  have hcount : ∀ root : String,
      (host.entryCount root).run machine = (machine.files.entryCount root, machine) := fun _ => rfl
  rw [runSmoke, run_bind, hcount, hmode, run_bind, run_runConformance, hsame]
  exact ⟨rfl, rfl⟩

/-! ## A report that is written -/

/-- A report that was emitted is the one of the cases that were loaded. -/
theorem eq_of_run_emitReport {report : SuiteReport} {after : Machine}
    (hcases : machine.cases config = .ok loaded)
    (hemitted : (emitReport host.toHost config modes path).run machine = (.ok report, after)) :
    report = .ofModes modes (.ofReports (machine.reports modes loaded)) ∧
      after.files.readText path =
        .ok (reportText (Gathered.ofReports (machine.reports modes loaded)).lines) := by
  obtain ⟨_, -, hmake, -, -⟩ := exists_loaded_of_emitted hemitted
  obtain ⟨_, hrun, hread⟩ := run_emitReport_of_canMake (.inr hcases) hmake
  rw [hrun] at hemitted
  cases hemitted
  exact ⟨rfl, hread⟩

/-- **A report that is written is faithful line by line.**  The file holds the records of
the cases, in the order of the modes and of the fixture, each with a new line behind it.
No record has control characters, so the lines are the records, as many as the total says.
Those with the outcome `pass` belong to the cases that passed, as many as the report says.
In a single mode the totals are those of a conformance run and of a smoke run, at any time. -/
theorem emitReport_writes_records {report : SuiteReport} {after : Machine}
    (hcases : machine.cases config = .ok loaded)
    (hemitted : (emitReport host.toHost config modes path).run machine = (.ok report, after)) :
    ∃ text, after.files.readText path = .ok text ∧
      text = String.join ((machine.reports modes loaded).map fun r => r.log.line ++ "\n") ∧
      Text.lines text = (machine.reports modes loaded).map (fun r => r.log.line) ∧
      (∀ line ∈ Text.lines text, ∀ c ∈ line.toList, 0x20 ≤ c.toNat) ∧
      (Text.lines text).length = report.casesTotal ∧
      report.casesTotal = loaded.length * modes.length ∧
      report.casesPassed = (Text.lines text).countP CaseLog.showsPass ∧
      (∀ r ∈ machine.reports modes loaded, CaseLog.showsPass r.log.line = r.passed) ∧
      (report.strictMode = true ↔ Mode.strict ∈ modes) ∧
      ∀ mode, modes = [mode] → ∀ other : Machine, other.files = machine.files →
        (∃ totals reports,
          ((runConformance host.toHost config mode).run other).1 = .ok (totals, reports) ∧
          totals.casesTotal = report.casesTotal ∧ totals.casesPassed = report.casesPassed) ∧
        let smoke := ((runSmoke host { config with strictMode := mode == .strict }).run other).1
        smoke.casesTotal = report.casesTotal ∧ smoke.casesPassed = report.casesPassed := by
  obtain ⟨rfl, hread⟩ := eq_of_run_emitReport hcases hemitted
  have hlines := lines_reportText (machine.reports modes loaded)
  refine ⟨_, hread, ?_, hlines, ?_, ?_, machine.length_reports modes loaded,
    (countP_showsPass_lines machine modes loaded).symm, fun r hr => showsPass_line hr,
    List.contains_iff_mem, ?_⟩
  · exact congrArg String.join List.map_map
  · rw [hlines]
    intro line hline
    obtain ⟨r, -, rfl⟩ := List.mem_map.1 hline
    exact r.log.controlFree_line
  · rw [hlines, List.length_map]
    rfl
  · rintro mode rfl other hfiles
    have hother : other.cases config = .ok loaded :=
      (cases_congr machine other hfiles config).trans hcases
    have htotal : (other.reports [mode] loaded).length = (machine.reports [mode] loaded).length :=
      (other.length_reports [mode] loaded).trans (machine.length_reports [mode] loaded).symm
    have hpassed := passedCount_reports other machine [mode] loaded
    refine ⟨⟨.ofCases mode (other.reports [mode] loaded), other.reports [mode] loaded, ?_,
      htotal, hpassed⟩, ?_⟩
    · rw [run_runConformance, hother]
    · obtain ⟨hsmokeTotal, hsmokePassed⟩ := totals_runSmoke other mode hother
      exact ⟨hsmokeTotal.trans htotal, hsmokePassed.trans hpassed⟩

/-- A fixture of two cases.  Neither signature can be decoded, and only the second case
expects that.  The name of the first case has a new line in it. -/
def twoCases : String :=
  "\x7b\"cases\":[\x7b\"name\":\"two\\nlines\",\"schema\":null\x7d," ++
    "\x7b\"name\":\"void\",\"schema\":null," ++
    "\"expect_schema_error\":\"invalid_schema:invalid_json\"\x7d]\x7d"

/-- A machine with the fixture at its root. -/
def twoCaseMachine : Machine :=
  ⟨FileSystem.empty.put [fixtureFile] (.file twoCases.toUTF8), fun k => BitVec.ofNat 128 k⟩

theorem node?_twoCaseMachine :
    twoCaseMachine.files.node? [fixtureFile] = some (.file twoCases.toUTF8) :=
  FileSystem.empty.node?_put_self _ (List.cons_ne_nil _ _)

theorem node?_twoCaseMachine_of_ne {location : Location} (hroot : location ≠ [])
    (hother : location ≠ [fixtureFile]) : twoCaseMachine.files.node? location = none := by
  rw [twoCaseMachine, FileSystem.node?_put_of_ne _ _ hother]
  simp [FileSystem.node?, FileSystem.empty, hroot]

theorem exists_cases_twoCaseMachine :
    ∃ cases, twoCaseMachine.cases { fixtureRoot := "" } = .ok cases ∧
      cases.map FixtureCase.name = ["two\nlines", "void"] ∧
      cases.map (fun c => (c.run .strict 0).passed) = [false, true] := by
  have hfollow : twoCaseMachine.files.follow fixtureFile = .ok [fixtureFile] := rfl
  have hsize : twoCaseMachine.files.fileSize fixtureFile = .ok twoCases.toUTF8.size := by
    rw [FileSystem.fileSize, FileSystem.find, hfollow]
    dsimp only
    rw [node?_twoCaseMachine]
  have hdecoded : (decodeFixture twoCases).toOption.map
      (List.map fun c => (c.name, (c.run .strict 0).passed)) =
        some [("two\nlines", false), ("void", true)] := by decide +kernel
  cases hdecode : decodeFixture twoCases with
  | error e =>
      rw [hdecode] at hdecoded
      simp [Except.toOption] at hdecoded
  | ok cases =>
      rw [hdecode] at hdecoded
      have hpairs := Option.some.inj hdecoded
      have hnames := congrArg (List.map Prod.fst) hpairs
      have hverdicts := congrArg (List.map Prod.snd) hpairs
      rw [List.map_map] at hnames hverdicts
      refine ⟨cases, cases_eq_ok_iff.2 ⟨_, _, hsize, ?_, ?_, hdecode⟩, hnames, hverdicts⟩
      · show twoCases.toUTF8.size ≤ 1048576
        decide +kernel
      · exact FileSystem.readText_of_file hfollow node?_twoCaseMachine

/-- A report can be written beside the fixture. -/
theorem canMake_twoCaseMachine : twoCaseMachine.files.CanMake "report.jsonl" := by
  refine ⟨rfl, ?_⟩
  have hfollow : twoCaseMachine.files.followFile "report.jsonl" = .ok ["report.jsonl"] := rfl
  show (twoCaseMachine.files.createFile "report.jsonl").1 = .ok ()
  rw [FileSystem.createFile, hfollow]
  have hplace : twoCaseMachine.files.node? ["report.jsonl"] = none :=
    node?_twoCaseMachine_of_ne (List.cons_ne_nil _ _) (by decide)
  dsimp only
  rw [hplace]

/-- Strict mode twice makes four lines. -/
theorem emitReport_twoCaseMachine :
    ∃ cases report after,
      twoCaseMachine.cases { fixtureRoot := "" } = .ok cases ∧
      cases.map FixtureCase.name = ["two\nlines", "void"] ∧
      (emitReport host.toHost { fixtureRoot := "" } [.strict, .strict] "report.jsonl").run
        twoCaseMachine = (.ok report, after) ∧
      report.casesTotal = 4 ∧ report.strictMode = true := by
  obtain ⟨cases, hcases, hnames, -⟩ := exists_cases_twoCaseMachine
  have hloaded : [Mode.strict, .strict] = [] ∨
      twoCaseMachine.cases { fixtureRoot := "" } = .ok cases := .inr hcases
  obtain ⟨after, hemitted, -⟩ := run_emitReport_of_canMake hloaded canMake_twoCaseMachine
  obtain ⟨text, -, -, -, -, -, htotal, -, -, hstrict, -⟩ :=
    emitReport_writes_records hcases hemitted
  have hlength : cases.length = 2 := by
    rw [← cases.length_map, hnames]
    rfl
  refine ⟨cases, _, after, hcases, hnames, hemitted, ?_, hstrict.2 List.mem_cons_self⟩
  rw [htotal, hlength]
  rfl

/-- All cases of a report that is written passed if all its lines show it. -/
theorem exists_lines_of_emitted {report : SuiteReport} {after : Machine}
    (hemitted : (emitReport host.toHost config modes path).run machine = (.ok report, after)) :
    ∃ text, after.files.readText path = .ok text ∧
      (report.casesPassed = report.casesTotal ↔
        ∀ line ∈ Text.lines text, CaseLog.showsPass line = true) := by
  obtain ⟨loaded, -, -, rfl, hread⟩ := exists_loaded_of_emitted hemitted
  refine ⟨_, hread, ?_⟩
  have htotal :
      (Text.lines (reportText (Gathered.ofReports (machine.reports modes loaded)).lines)).length =
        (machine.reports modes loaded).length := by
    rw [lines_reportText, List.length_map]
  show passedCount (machine.reports modes loaded) = (machine.reports modes loaded).length ↔ _
  rw [← countP_showsPass_lines, ← htotal, List.countP_eq_length]

/-! ## A report that is not written -/

/-- **What is wrong with a fixture that does not load**: it is missing, too large, no text
or not to be decoded. -/
theorem exists_cases_eq_error_iff :
    (∃ e, machine.cases config = .error e) ↔
      (∃ e, machine.files.fileSize (Path.join config.fixtureRoot fixtureFile) = .error e) ∨
      (∃ size, machine.files.fileSize (Path.join config.fixtureRoot fixtureFile) = .ok size ∧
        config.maxFixtureBytes < size) ∨
      (∃ e, machine.files.readText (Path.join config.fixtureRoot fixtureFile) = .error e) ∨
      ∃ source e, machine.files.readText (Path.join config.fixtureRoot fixtureFile) = .ok source ∧
        decodeFixture source = .error e := by
  constructor
  · rintro ⟨e, hcases⟩
    cases hsize : machine.files.fileSize (Path.join config.fixtureRoot fixtureFile) with
    | error e' => exact .inl ⟨e', rfl⟩
    | ok size =>
        by_cases hlarge : config.maxFixtureBytes < size
        · exact .inr (.inl ⟨size, rfl, hlarge⟩)
        · cases htext : machine.files.readText (Path.join config.fixtureRoot fixtureFile) with
          | error e' => exact .inr (.inr (.inl ⟨e', rfl⟩))
          | ok source =>
              cases hdecode : decodeFixture source with
              | error e' => exact .inr (.inr (.inr ⟨source, e', rfl, hdecode⟩))
              | ok loaded =>
                  have hloaded : machine.cases config = .ok loaded :=
                    cases_eq_ok_iff.2 ⟨size, source, hsize, Nat.not_lt.1 hlarge, htext, hdecode⟩
                  rw [hloaded] at hcases
                  exact absurd hcases nofun
  · intro hwrong
    cases hcases : machine.cases config with
    | error e => exact ⟨e, rfl⟩
    | ok loaded =>
        obtain ⟨size, source, hsize, hfits, htext, hdecode⟩ := cases_eq_ok_iff.1 hcases
        rw [hsize, htext] at hwrong
        rcases hwrong with ⟨_, hwrong⟩ | ⟨_, hwrong, hlarge⟩ | ⟨_, hwrong⟩ | ⟨_, _, hwrong, hfault⟩
        · exact absurd hwrong nofun
        · cases hwrong
          exact absurd hfits (Nat.not_le.2 hlarge)
        · exact absurd hwrong nofun
        · cases hwrong
          rw [hdecode] at hfault
          exact absurd hfault nofun

/-- A conformance run fails if the fixture does not load. -/
theorem runConformance_eq_error_iff {mode : Mode} {e : String} :
    ((runConformance host.toHost config mode).run machine).1 = .error e ↔
      machine.cases config = .error e := by
  rw [run_runConformance]
  cases machine.cases config with
  | error e' => simp only [Except.error.injEq]
  | ok loaded => exact ⟨nofun, nofun⟩

/-- Whatever goes wrong, directories may have been made and nothing else. -/
theorem addsDirectories_of_run_emitReport {e : String} {after : Machine}
    (hfails : (emitReport host.toHost config modes path).run machine = (.error e, after)) :
    machine.files.AddsDirectories after.files := by
  rcases emitReport_cases machine config modes path with
    ⟨_, -, -, hrun⟩ | ⟨_, _, -, -, hrun, -⟩ | ⟨_, _, -, hrun, hadds⟩
  · rw [hrun] at hfails
    cases hfails
    exact .refl machine.files
  · rw [hrun] at hfails
    exact absurd hfails nofun
  · rw [hrun] at hfails
    cases hfails
    exact hadds

/-- **A report that is not written leaves every file as it was.**  Where a conformance run
in one of the modes fails, at whatever time, the report fails with its error and the machine
is left as it was.  Where the directory or the file cannot be made the report fails too.  A
report that fails keeps the contents of all files, and all it may have added is
directories. -/
theorem emitReport_keeps_files (machine : Machine) (config : SuiteConfig) (modes : List Mode)
    (path : String) :
    (∀ mode ∈ modes, ∀ times e,
      ((runConformance host.toHost config mode).run ⟨machine.files, times⟩).1 = .error e →
        (emitReport host.toHost config modes path).run machine = (.error e, machine)) ∧
    (∀ mode,
      (∃ e, ((runConformance host.toHost config mode).run machine).1 = .error e) ↔
        (∃ e, machine.files.fileSize (Path.join config.fixtureRoot fixtureFile) = .error e) ∨
        (∃ size, machine.files.fileSize (Path.join config.fixtureRoot fixtureFile) = .ok size ∧
          config.maxFixtureBytes < size) ∨
        (∃ e, machine.files.readText (Path.join config.fixtureRoot fixtureFile) = .error e) ∨
        ∃ source e,
          machine.files.readText (Path.join config.fixtureRoot fixtureFile) = .ok source ∧
          decodeFixture source = .error e) ∧
    (¬machine.files.CanMake path →
      ∃ e, ((emitReport host.toHost config modes path).run machine).1 = .error e) ∧
    ∀ e after, (emitReport host.toHost config modes path).run machine = (.error e, after) →
      (∀ location contents, machine.files.node? location = some (.file contents) →
        after.files.node? location = some (.file contents)) ∧
      machine.files.AddsDirectories after.files := by
  refine ⟨?_, ?_, ?_, ?_⟩
  · intro mode hmode times e hfails
    have hcases : machine.cases config = .error e :=
      (cases_congr ⟨machine.files, times⟩ machine rfl config).trans
        (runConformance_eq_error_iff.1 hfails)
    exact run_emitReport_of_error (List.ne_nil_of_mem hmode) hcases path
  · intro mode
    rw [← exists_cases_eq_error_iff]
    exact exists_congr fun e => runConformance_eq_error_iff
  · intro hmake
    rcases emitReport_cases machine config modes path with
      ⟨e, -, -, hrun⟩ | ⟨_, _, -, hmade, -⟩ | ⟨message, _, -, hrun, -⟩
    · exact ⟨e, congrArg Prod.fst hrun⟩
    · exact absurd hmade hmake
    · exact ⟨message, congrArg Prod.fst hrun⟩
  · intro e after hfails
    have hadds := addsDirectories_of_run_emitReport hfails
    exact ⟨fun location contents hfile => hadds.file hfile, hadds⟩

/-- A fixture that is missing leaves the file in the place of the report, and so does a
report that would have to lie below that file. -/
theorem emitReport_keeps_twoCases :
    (∃ e, (emitReport host.toHost { fixtureRoot := "elsewhere" } [.hardened] fixtureFile).run
        twoCaseMachine = (.error e, twoCaseMachine)) ∧
    ∃ e after, (emitReport host.toHost { fixtureRoot := "" } [.strict]
        "schema_info_cases.json/report").run twoCaseMachine = (.error e, after) ∧
      after.files.node? [fixtureFile] = some (.file twoCases.toUTF8) := by
  constructor
  · obtain ⟨hkeeps, hcauses, -⟩ :=
      emitReport_keeps_files twoCaseMachine { fixtureRoot := "elsewhere" } [.hardened] fixtureFile
    have hplace : twoCaseMachine.files.node? ["elsewhere"] = none :=
      node?_twoCaseMachine_of_ne (List.cons_ne_nil _ _) (by decide)
    have hmissing : twoCaseMachine.files.fileSize "elsewhere/schema_info_cases.json" =
        .error .notFound := by
      have hfollow : twoCaseMachine.files.follow "elsewhere/schema_info_cases.json" =
          twoCaseMachine.files.followFrom ["elsewhere"] [fixtureFile] := rfl
      rw [FileSystem.fileSize, FileSystem.find, hfollow, FileSystem.followFrom, hplace]
    obtain ⟨e, hfails⟩ := (hcauses .hardened).2 (.inl ⟨_, hmissing⟩)
    exact ⟨e, hkeeps .hardened List.mem_cons_self _ e hfails⟩
  · obtain ⟨-, -, hfails, hfiles⟩ :=
      emitReport_keeps_files twoCaseMachine { fixtureRoot := "" } [.strict]
        "schema_info_cases.json/report"
    have hmake : ¬twoCaseMachine.files.CanMake "schema_info_cases.json/report" := by
      rintro ⟨hprepared, -⟩
      have halong : twoCaseMachine.files.prepare "schema_info_cases.json/report" =
          twoCaseMachine.files.ensureAlong false [fixtureFile] [] := rfl
      rw [halong, FileSystem.ensureAlong, node?_twoCaseMachine] at hprepared
      simp at hprepared
    obtain ⟨e, hfailed⟩ := hfails hmake
    have hrun : (emitReport host.toHost { fixtureRoot := "" } [.strict]
        "schema_info_cases.json/report").run twoCaseMachine = (.error e, _) := Prod.ext hfailed rfl
    exact ⟨e, _, hrun, (hfiles e _ hrun).1 _ _ node?_twoCaseMachine⟩

end OpSchema.Machine
