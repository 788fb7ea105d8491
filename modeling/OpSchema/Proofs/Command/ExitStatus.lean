import OpSchema.Proofs.Command.Arguments
import OpSchema.Proofs.Conformance.FixtureSize
import OpSchema.Proofs.Conformance.ReportFile
import OpSchema.Proofs.Json.Indented

/-!
# The exit status of the report command

The command makes a plan, emits the report of the plan and concludes.  Arguments that make
no plan end it before anything is done (`Command.run_of_error`).  After that its exit
status is the verdict of the file it wrote: the report counts the cases that passed, and
the lines of the file show as many (`Machine.exists_lines_of_emitted`).

The summary is printed indented, and whoever reads what was printed gets the summary back
(`Command.parseAny_stdout`): a fixture is limited in size, so the numbers in a summary are
short enough to be read as they are.
-/

namespace OpSchema.Command

open Machine (host)
open Json (Document)

variable {args : List String} {p : Plan} {machine : Machine}

/-! ## What the command comes to -/

/-- The command depends on the plan alone. -/
theorem run_congr {m : Type → Type} [Monad m] {first second : List String}
    (hplan : plan first = plan second) (host : Host m) : run host first = run host second := by
  rw [run, run, hplan]

theorem run_of_error {e : String} (hplan : plan args = .error e)
    (machine : Machine) : (run host.toHost args).run machine = (failure "" e, machine) := by
  rw [run, hplan]
  rfl

/-- The outcome once the report was emitted or not. -/
def outcomeOf (p : Plan) : Except String SuiteReport → Outcome
  | .error e => failure "" e
  | .ok report => conclude p report

theorem run_of_ok (hplan : plan args = .ok p) (machine : Machine) :
    (run host.toHost args).run machine =
      (outcomeOf p ((emitReport host.toHost p.config p.modes p.output).run machine).1,
        ((emitReport host.toHost p.config p.modes p.output).run machine).2) := by
  rw [run, hplan]
  dsimp only
  rw [Machine.run_bind]
  cases ((emitReport host.toHost p.config p.modes p.output).run machine).1 with
  | error e => rfl
  | ok report => rfl

theorem exitCode_conclude (p : Plan) (report : SuiteReport) :
    (conclude p report).exitCode = if report.casesPassed = report.casesTotal then 0 else 1 := by
  unfold conclude
  split <;> rfl

theorem stdout_conclude (p : Plan) (report : SuiteReport) :
    (conclude p report).stdout = (summary p report).indented ++ "\n" := by
  unfold conclude
  split <;> rfl

theorem exitCode_conclude_eq_zero_iff {report : SuiteReport} :
    (conclude p report).exitCode = 0 ↔ report.casesPassed = report.casesTotal := by
  rw [exitCode_conclude]
  by_cases hpassed : report.casesPassed = report.casesTotal <;> simp [hpassed]

/-! ## What is printed -/

/-- The members of a summary, and the status by the exit status. -/
theorem summary_eq (p : Plan) (report : SuiteReport) :
    summary p report =
      .object [("cases_passed", .natural report.casesPassed),
        ("cases_total", .natural report.casesTotal), ("modes", .texts (p.modes.map Mode.label)),
        ("output_path", .text p.output),
        ("status", .text (if (conclude p report).exitCode = 0 then "ok" else "failed"))] := by
  rw [summary, if_congr exitCode_conclude_eq_zero_iff rfl rfl]

theorem hasShortNumbers_summary {report : SuiteReport} (hpassed : report.casesPassed < 2 ^ 64)
    (htotal : report.casesTotal < 2 ^ 64) : (summary p report).HasShortNumbers := by
  refine .object ?_
  simp only [List.forall_mem_cons]
  exact ⟨.natural hpassed, .natural htotal, Document.hasShortNumbers_texts _, .text _, .text _,
    List.forall_mem_nil _⟩

theorem nesting_summary_le (p : Plan) (report : SuiteReport) : (summary p report).nesting ≤ 2 := by
  rw [summary, Document.nesting_object_le]
  simp only [List.forall_mem_cons]
  exact ⟨Nat.zero_le 1, Nat.zero_le 1, (Document.isPlain_texts _).2, Nat.zero_le 1, Nat.zero_le 1,
    List.forall_mem_nil _⟩

/-- **Whoever reads what was printed after a report gets the summary back.** -/
theorem parseAny_stdout {report : SuiteReport} {after : Machine} (hplan : plan args = .ok p)
    (hemitted : (emitReport host.toHost p.config p.modes p.output).run machine =
      (.ok report, after)) :
    Json.parseAny (conclude p report).stdout = .ok (summary p report) := by
  obtain ⟨hpassed, htotal⟩ := Machine.totals_of_emitted hemitted
  obtain ⟨hbytes, hmodes⟩ := limits_of_plan hplan
  have hlimit : report.casesTotal ≤ 1048576 * 2 :=
    htotal.trans (Nat.mul_le_mul hbytes.le hmodes)
  have hshort : (summary p report).HasShortNumbers :=
    hasShortNumbers_summary (by omega) (by omega)
  have hnewLine : Json.Blanks "\n".toList := by
    simp [Json.Blanks, Json.isBlank]
  rw [stdout_conclude]
  exact Document.parseAny_indented hshort
    ((nesting_summary_le p report).trans (by decide)) hnewLine

/-! ## The verdict -/

/-- A report that was emitted ends the command with 0 if all its lines show `pass`. -/
theorem exitCode_conclude_eq_zero {report : SuiteReport} {after : Machine}
    (hemitted : (emitReport host.toHost p.config p.modes p.output).run machine =
      (.ok report, after)) :
    (conclude p report).exitCode = 0 ↔
      ∃ text, after.files.readText p.output = .ok text ∧
        ∀ line ∈ Text.lines text, CaseLog.showsPass line = true := by
  obtain ⟨text, hread, hlines⟩ := Machine.exists_lines_of_emitted hemitted
  rw [exitCode_conclude_eq_zero_iff, hlines]
  constructor
  · intro hpass
    exact ⟨text, hread, hpass⟩
  · rintro ⟨other, hother, hpass⟩
    rw [hread] at hother
    cases hother
    exact hpass

/-- **The exit status of the command is the verdict of the file it wrote.**  The command
emits a report if its arguments are settings and the last mode is one that there is; else it
ends with 1, prints nothing and leaves the machine as it was.  It ends with 0 if the report
was emitted and every line of its file shows `pass`.  The summary is printed if the report
was emitted: what is printed reads as the totals, the modes, the path and a status, which says
how the command ends.  The last setting of each flag says which modes are run, on which
fixture, and where the report goes.  No other setting matters, so nothing changes if settings
of different flags change places, or if some are put in front whose flags are set again. -/
theorem run_exit_status (args : List String) (machine : Machine) :
    ((∃ p, plan args = .ok p) ↔
      ∃ settings, args = spell settings ∧
        ∀ value, lastValue .mode settings = some value → value ∈ ["strict", "hardened", "both"]) ∧
    ((¬∃ p, plan args = .ok p) →
      ∃ stderr, (run host.toHost args).run machine = (⟨1, "", stderr⟩, machine)) ∧
    (∀ p, plan args = .ok p →
      ∃ outcome after emitted,
        (run host.toHost args).run machine = (outcome, after) ∧
        (emitReport host.toHost p.config p.modes p.output).run machine = (emitted, after) ∧
        (outcome.exitCode = 0 ∨ outcome.exitCode = 1) ∧
        (outcome.exitCode = 0 ↔
          (∃ report, emitted = .ok report) ∧ ∃ text, after.files.readText p.output = .ok text ∧
            ∀ line ∈ Text.lines text, CaseLog.showsPass line = true) ∧
        (outcome.stdout ≠ "" ↔ ∃ report, emitted = .ok report) ∧
        ∀ report, emitted = .ok report →
          outcome.stdout = (summary p report).indented ++ "\n" ∧
          Json.parseAny outcome.stdout =
            .ok (.object [("cases_passed", .natural report.casesPassed),
              ("cases_total", .natural report.casesTotal),
              ("modes", .texts (p.modes.map Mode.label)), ("output_path", .text p.output),
              ("status", .text (if outcome.exitCode = 0 then "ok" else "failed"))]) ∧
          Json.textMember? outcome.stdout "status" =
            some (if outcome.exitCode = 0 then "ok" else "failed")) ∧
    (∀ settings p, plan (spell settings) = .ok p →
      p.modes =
          (if lastValue .mode settings = some "strict" then [.strict]
            else if lastValue .mode settings = some "hardened" then [.hardened]
            else [.strict, .hardened]) ∧
        p.config = { fixtureRoot := (lastValue .fixtures settings).getD "fixtures" } ∧
        p.output =
          (lastValue .output settings).getD "../../artifacts/schema_info/forensics.jsonl") ∧
    (∀ first second : List Setting, (∀ flag, lastValue flag first = lastValue flag second) →
      run host.toHost (spell first) = run host.toHost (spell second)) ∧
    (∀ first second : List Setting,
      (∀ flag, first.filter (·.1 == flag) = second.filter (·.1 == flag)) →
      run host.toHost (spell first) = run host.toHost (spell second)) ∧
    ∀ extra settings : List Setting,
      (∀ setting ∈ extra, ∃ later ∈ settings, later.1 = setting.1) →
      run host.toHost (spell (extra ++ settings)) = run host.toHost (spell settings) := by
  refine ⟨exists_plan_iff, ?_, ?_, fun _ _ => eq_of_plan_spell, ?_, ?_, ?_⟩
  · intro hnone
    cases hplan : plan args with
    | ok p => exact absurd ⟨p, hplan⟩ hnone
    | error e => exact ⟨_, run_of_error hplan machine⟩
  · intro p hplan
    have hrun := run_of_ok hplan machine
    cases hemitted : (emitReport host.toHost p.config p.modes p.output).run machine with
    | mk emitted after =>
        rw [hemitted] at hrun
        refine ⟨outcomeOf p emitted, after, emitted, hrun, rfl, ?_⟩
        cases emitted with
        | error e =>
            have hnone : ¬∃ report, Except.error e = (.ok report : Except String SuiteReport) :=
              fun ⟨_, hok⟩ => (nomatch hok)
            refine ⟨.inr rfl, ?_, ?_, nofun⟩
            · exact ⟨nofun, fun hpass => absurd hpass.1 hnone⟩
            · exact ⟨fun hprinted => absurd rfl hprinted, fun hok => absurd hok hnone⟩
        | ok report =>
            have hsome : ∃ other, Except.ok report = (.ok other : Except String SuiteReport) :=
              ⟨report, rfl⟩
            refine ⟨?_, ?_, ?_, ?_⟩
            · rw [outcomeOf, exitCode_conclude]
              split
              · exact .inl rfl
              · exact .inr rfl
            · rw [outcomeOf, exitCode_conclude_eq_zero hemitted, and_iff_right hsome]
            · refine iff_of_true ?_ hsome
              rw [outcomeOf, stdout_conclude]
              simp
            · rintro _ ⟨⟩
              have hread := (parseAny_stdout hplan hemitted).trans
                (congrArg Except.ok (summary_eq p report))
              refine ⟨stdout_conclude p report, hread, ?_⟩
              rw [outcomeOf, Json.textMember?, hread]
              rfl
  · intro first second hsame
    exact run_congr (plan_congr hsame) _
  · intro first second hsame
    refine run_congr (plan_congr fun flag => ?_) _
    rw [lastValue, lastValue, hsame]
  · intro extra settings hagain
    exact run_congr (plan_congr (lastValue_prepend hagain)) _

/-- The value of the first flag looks like a flag, and the mode is set twice. -/
def repeatedArguments : List String :=
  ["--mode", "--output", "--output", "report.jsonl", "--fixtures", "", "--mode", "strict"]

/-- The command writes the report of the last mode, in which the first case fails, and prints
a summary that says so. -/
theorem run_repeatedArguments :
    plan repeatedArguments = .ok ⟨[.strict], { fixtureRoot := "" }, "report.jsonl"⟩ ∧
      Json.textMember? ((run host.toHost repeatedArguments).run Machine.twoCaseMachine).1.stdout
        "status" = some "failed" ∧
      run host.toHost repeatedArguments =
        run host.toHost ["--output", "report.jsonl", "--fixtures", "", "--mode", "strict"] ∧
      ∃ stderr, (run host.toHost ["--mode"]).run Machine.twoCaseMachine =
        (⟨1, "", stderr⟩, Machine.twoCaseMachine) := by
  have hplan : plan repeatedArguments = .ok ⟨[.strict], { fixtureRoot := "" }, "report.jsonl"⟩ :=
    rfl
  obtain ⟨cases, hcases, -, hverdicts⟩ := Machine.exists_cases_twoCaseMachine
  have hloaded : [Mode.strict] = [] ∨
      Machine.twoCaseMachine.cases { fixtureRoot := "" } = .ok cases := .inr hcases
  obtain ⟨written, hwritten, hread⟩ :=
    Machine.run_emitReport_of_canMake hloaded Machine.canMake_twoCaseMachine
  refine ⟨hplan, ?_, ?_, ?_⟩
  · obtain ⟨-, -, hreached, -⟩ := run_exit_status repeatedArguments Machine.twoCaseMachine
    obtain ⟨outcome, after, emitted, hrun, hemitted, -, hpasses, -, hprinted⟩ := hreached _ hplan
    rw [hwritten] at hemitted
    cases hemitted
    have hfails : outcome.exitCode ≠ 0 := by
      intro hzero
      obtain ⟨-, text, htext, hlines⟩ := hpasses.1 hzero
      obtain rfl := Except.ok.inj (htext.symm.trans hread)
      rw [Machine.lines_reportText] at hlines
      have hfirst : false ∈
          (Machine.twoCaseMachine.reports [.strict] cases).map CaseReport.passed := by
        rw [Machine.map_passed_reports_singleton, hverdicts]
        exact List.mem_cons_self
      obtain ⟨report, hreport, hfailed⟩ := List.mem_map.1 hfirst
      have hpass := hlines _ (List.mem_map_of_mem hreport)
      rw [Machine.showsPass_line hreport, hfailed] at hpass
      exact Bool.false_ne_true hpass
    rw [hrun, (hprinted _ rfl).2.2, if_neg hfails]
  · obtain ⟨-, -, -, -, -, -, hprepend⟩ := run_exit_status repeatedArguments Machine.twoCaseMachine
    exact hprepend [(.mode, "--output")]
      [(.output, "report.jsonl"), (.fixtures, ""), (.mode, "strict")] (by decide)
  · obtain ⟨-, hrefused, -⟩ := run_exit_status ["--mode"] Machine.twoCaseMachine
    exact hrefused fun ⟨_, hok⟩ => (nomatch hok)

end OpSchema.Command
