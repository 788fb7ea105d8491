import OpSchema.Proofs.Conformance.Machine
import OpSchema.Proofs.Json.Compact
import OpSchema.Proofs.Json.Places

/-!
# How many cases a fixture can have

A fixture is limited in bytes, and every case takes at least one character of its text.  So
the limit holds for the number of cases too (`Machine.length_cases_le`), and the totals of a
report are at most the limit times the number of modes (`Machine.totals_of_emitted`).
-/

namespace OpSchema

/-- A fixture has no more cases than its text has characters. -/
theorem length_le_of_decodeFixture {source : String} {loaded : List FixtureCase}
    (hdecode : decodeFixture source = .ok loaded) : loaded.length ≤ source.toList.length := by
  unfold decodeFixture at hdecode
  split at hdecode
  · exact absurd hdecode nofun
  · next d hparse =>
    obtain rfl := Except.ok.inj hdecode
    obtain ⟨⟨before, more, after, -, -, htext, hspelled⟩, -⟩ := Json.parse_eq_ok_iff.1 hparse
    have hmore : more.length ≤ source.toList.length := by simp [htext]
    rw [List.length_map]
    -- The list of cases is a part of the document, and so its text is a part of the text.
    rcases d.field_eq_null_or_holds (fixtureGrammar .file).names "cases" with hnull | hpart
    · rw [FixtureRecord.get, hnull]
      exact Nat.zero_le _
    · obtain ⟨inside, _, hinside, hsuffix⟩ := hspelled.exists_part hpart
      exact hinside.length_asList_le.trans (hsuffix.length_le.trans hmore)

namespace Machine

variable {machine : Machine} {config : SuiteConfig} {modes : List Mode} {path : String}
  {loaded : List FixtureCase}

/-- **The limit on the bytes of a fixture is one on its cases.** -/
theorem length_cases_le (hcases : machine.cases config = .ok loaded) :
    loaded.length ≤ config.maxFixtureBytes := by
  obtain ⟨size, source, hsize, hfits, htext, hdecode⟩ := cases_eq_ok_iff.1 hcases
  have hbytes : size = source.utf8ByteSize :=
    Except.ok.inj (hsize.symm.trans (FileSystem.fileSize_of_readText htext))
  calc
    loaded.length ≤ source.toList.length := length_le_of_decodeFixture hdecode
    _ ≤ source.utf8ByteSize := Text.length_le_utf8ByteSize source
    _ = size := hbytes.symm
    _ ≤ config.maxFixtureBytes := hfits

/-- **The totals of a report are limited.** -/
theorem totals_of_emitted {report : SuiteReport} {after : Machine}
    (hemitted : (emitReport host.toHost config modes path).run machine = (.ok report, after)) :
    report.casesPassed ≤ report.casesTotal ∧
      report.casesTotal ≤ config.maxFixtureBytes * modes.length := by
  obtain ⟨loaded, hloaded, -, rfl, -⟩ := exists_loaded_of_emitted hemitted
  have htotal : (machine.reports modes loaded).length ≤ config.maxFixtureBytes * modes.length := by
    rw [length_reports]
    rcases hloaded with rfl | hcases
    · exact Nat.le_refl 0
    · exact Nat.mul_le_mul_right modes.length (length_cases_le hcases)
  exact ⟨List.countP_le_length, htotal⟩

end Machine

end OpSchema
