import OpSchema.Proofs.Conformance.CaseRun
import OpSchema.Proofs.Json.Lines
import OpSchema.Proofs.Signature.Nesting

/-!
# Records that are read back

The record of a case stands on a line of its own.  Whoever reads the line finds the
outcome that was recorded (`CaseLog.textMember?_line`), whatever names and errors the
case brought along: extra members take no key of the envelope, and the only number on the
line is the time, which a reader takes as long as it has 128 bits.

The outcome that is recorded is the verdict of the checks, so a reader of the lines counts
the cases that passed (`FixtureCase.showsPass_run`).
-/

namespace OpSchema

open Json (Document)

/-! ## Plain values -/

namespace Json.Document

/-- The document has no numbers, and no list or object inside another. -/
def IsPlain (d : Document) : Prop := d.NumberFree ∧ d.nesting ≤ 1

@[simp] theorem isPlain_text (value : String) : (text value).IsPlain :=
  ⟨.text value, Nat.zero_le 1⟩

@[simp] theorem isPlain_texts (values : List String) : (texts values).IsPlain := by
  refine ⟨.list fun d hd => ?_, (Aliasing.nesting_texts values).le⟩
  obtain ⟨value, -, rfl⟩ := List.mem_map.1 hd
  exact .text value

theorem IsPlain.canonical {d : Document} (hplain : d.IsPlain) : d.canonical.IsPlain :=
  ⟨hplain.1.canonical, d.nesting_canonical_le.trans hplain.2⟩

end Json.Document

/-! ## The line of a record -/

namespace CaseLog

/-- The extra members are plain and have keys of their own. -/
def HasPlainExtra (log : CaseLog) : Prop :=
  ∀ m ∈ log.extra, m.1 ∉ envelopeKeys ∧ m.2.IsPlain

theorem hasPlainExtra_withExtra {log : CaseLog} (hlog : log.extra = [])
    {members : List (String × Document)} (hmembers : ∀ m ∈ members, m.2.IsPlain) :
    (log.withExtra members).HasPlainExtra := by
  intro m hm
  have hadded := Order.mem_of_mem_collect hm
  rw [hlog, List.nil_append] at hadded
  obtain ⟨⟨key, d⟩, hkept, rfl⟩ := List.mem_map.1 hadded
  obtain ⟨hmember, hkey⟩ := List.mem_filter.1 hkept
  refine ⟨?_, (hmembers _ hmember).canonical⟩
  simpa using hkey

/-- The members after the time are plain. -/
theorem isPlain_of_mem_drop {log : CaseLog} (hextra : log.HasPlainExtra) :
    ∀ m ∈ log.envelope.drop 2 ++ log.extra, m.2.IsPlain := by
  have henvelope : ∀ m ∈ log.envelope.drop 2, m.2.IsPlain := by simp [envelope]
  exact List.forall_mem_append.2 ⟨henvelope, fun m hm => (hextra m hm).2⟩

/-- What is read from the line of a record is the record, with the time as the reader
takes it. -/
theorem exists_parseAny_line {log : CaseLog} (htime : log.timestamp < 2 ^ 128)
    (hextra : log.HasPlainExtra) :
    ∃ number, Json.parseAny log.line =
      .ok (.object (log.envelope.set 1 ("ts_unix_ms", .number number) ++ log.extra)) := by
  obtain ⟨number, hnumber⟩ := Document.exists_readsAs_natural htime
  have hplain := isPlain_of_mem_drop hextra
  have hothers : List.Forall₂ Document.ReadsAsMember (log.envelope.drop 2 ++ log.extra)
      (log.envelope.drop 2 ++ log.extra) :=
    List.forall₂_same.2 fun m hm => ⟨rfl, (hplain m hm).1.readsAs⟩
  -- The time is the second member, and all the others read as they are.
  have hversion := (Document.NumberFree.text caseLogVersion).readsAs
  have hmembers : List.Forall₂ Document.ReadsAsMember (log.envelope ++ log.extra)
      (log.envelope.set 1 ("ts_unix_ms", .number number) ++ log.extra) :=
    .cons ⟨rfl, hversion⟩ (.cons ⟨rfl, hnumber⟩ hothers)
  refine ⟨number, (Document.readsAs_object hmembers).parseAny ?_⟩
  have hnesting : (Document.object
      (log.envelope.set 1 ("ts_unix_ms", .number number) ++ log.extra)).nesting ≤ 1 + 1 := by
    rw [Document.nesting_object_le]
    intro m hm
    rcases List.mem_cons.1 hm with rfl | hm
    · exact Nat.zero_le 1
    · rcases List.mem_cons.1 hm with rfl | hm
      · exact Nat.zero_le 1
      · exact (hplain m hm).2
  exact hnesting.trans (by decide)

/-- **Whoever reads the line of a record finds its outcome.** -/
theorem textMember?_line {log : CaseLog} (htime : log.timestamp < 2 ^ 128)
    (hextra : log.HasPlainExtra) : Json.textMember? log.line "outcome" = some log.outcome := by
  obtain ⟨number, hparse⟩ := exists_parseAny_line htime hextra
  have hothers : log.extra.filter (fun m => m.1 == "outcome") = [] := by
    refine List.filter_eq_nil_iff.2 fun m hm hkey => (hextra m hm).1 ?_
    rw [eq_of_beq hkey]
    decide
  have hmembers : (log.envelope.set 1 ("ts_unix_ms", .number number) ++ log.extra).filter
      (fun m => m.1 == "outcome") = [("outcome", .text log.outcome)] := by
    rw [List.filter_append, hothers]
    rfl
  rw [Json.textMember?, hparse]
  dsimp only [Document.asMembers]
  rw [hmembers]

/-- The record on a line has the outcome `pass`. -/
def showsPass (line : String) : Bool :=
  Json.textMember? line "outcome" == some "pass"

/-- A record stands on one line. -/
theorem controlFree_line (log : CaseLog) : Json.ControlFree log.line.toList := by
  rw [line, Document.compact, String.toList_ofList]
  exact log.toDocument.controlFree_compactChars

theorem newLine_notMem_line (log : CaseLog) : '\n' ∉ log.line.toList :=
  fun hmem => absurd (log.controlFree_line _ hmem) (by decide)

end CaseLog

/-! ## The record of a run -/

namespace FixtureCase

variable (c : FixtureCase) (mode : Mode) (now : Nat)

theorem outcome_run :
    (c.run mode now).log.outcome = if (c.run mode now).passed then "pass" else "fail" := rfl

theorem hasPlainExtra_run : (c.run mode now).log.HasPlainExtra := by
  refine CaseLog.hasPlainExtra_withExtra rfl ?_
  simp [evidenceMembers]

variable {c mode now}

/-- **The line of a run shows whether the case passed.** -/
theorem showsPass_run (hnow : now < 2 ^ 128) :
    CaseLog.showsPass (c.run mode now).log.line = (c.run mode now).passed := by
  rw [CaseLog.showsPass, CaseLog.textMember?_line hnow (c.hasPlainExtra_run mode now), outcome_run]
  cases (c.run mode now).passed <;> decide

end FixtureCase

end OpSchema
