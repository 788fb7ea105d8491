import OpSchema.Proofs.Conformance.Loading
import OpSchema.Proofs.Guard.Outcome

/-!
# One case in two modes

The mode of a run reaches a case in one place only, the check of its in-place
call.  So two runs of a case in different modes agree on everything else, and
what they say about the call can be compared: strict mode is asked whether the
call is allowed, hardened mode whether a copy is called for, and by
`Context.checkInplace_eq` both answers come from the same list of conflicts.  A
case whose call is met in both modes therefore has its two expectations pinned
down by the signature and the storages.
-/

namespace OpSchema

open Json (Document)

/-! ## The verdict on a call -/

namespace InplaceQuery

open Context (checkAnswer)

variable {op : Operator} {query : InplaceQuery}

theorem isMet_of_arity_ne (mode : Mode) (harity : query.storages.length ≠ op.inputCount) :
    query.isMet mode (checkAnswer mode op query.storages) = false := by
  unfold checkAnswer
  rw [if_neg harity]
  rfl

/-- In strict mode a call is to be allowed if it has no conflicts. -/
theorem isMet_strict (harity : query.storages.length = op.inputCount) :
    query.isMet .strict (checkAnswer .strict op query.storages) = true ↔
      (query.strictOk = true ↔ op.conflicts query.storages = []) := by
  cases hconflicts : op.conflicts query.storages with
  | nil => simp [isMet, checkAnswer, harity, hconflicts]
  | cons first others => simp [isMet, checkAnswer, harity, hconflicts]

/-- In hardened mode a copy is to be made if there are conflicts. -/
theorem isMet_hardened (harity : query.storages.length = op.inputCount) :
    query.isMet .hardened (checkAnswer .hardened op query.storages) = true ↔
      (query.hardenedCopy = true ↔ op.conflicts query.storages ≠ []) := by
  cases hconflicts : op.conflicts query.storages with
  | nil => simp [isMet, checkAnswer, harity, hconflicts]
  | cons first others => simp [isMet, checkAnswer, harity, hconflicts]

/-- **A query is met in both modes if its two expectations say what the storages of the
call show.** -/
theorem isMet_both_iff (op : Operator) (query : InplaceQuery) :
    (query.isMet .strict (checkAnswer .strict op query.storages) = true ∧
        query.isMet .hardened (checkAnswer .hardened op query.storages) = true) ↔
      query.storages.length = op.inputCount ∧
        (query.strictOk = true ↔ ¬∃ i j, i ≠ j ∧ op.OverlapsUndeclared query.storages i j) ∧
        query.hardenedCopy = !query.strictOk := by
  by_cases harity : query.storages.length = op.inputCount
  · rw [isMet_strict harity, isMet_hardened harity, ← Operator.conflicts_ne_nil_iff]
    cases query.strictOk <;> cases query.hardenedCopy <;> simp [harity]
  · simp [isMet_of_arity_ne _ harity, harity]

end InplaceQuery

/-! ## Runs -/

namespace FixtureCase

theorem checks_run (c : FixtureCase) (mode : Mode) (now : Nat) :
    (c.run mode now).checks = (c.check (.new mode) c.load).1 := rfl

/-- All checks but the one of the in-place call are made without the mode. -/
theorem checks_run_eq (c : FixtureCase) (mode other : Mode) (now later : Nat) :
    { (c.run mode now).checks with inplace := true } =
      { (c.run other later).checks with inplace := true } := by
  rw [checks_run, checks_run]
  cases c.load with
  | error e => rfl
  | ok op => rfl

theorem inplace_run {c : FixtureCase} {op : Operator} {query : InplaceQuery}
    (hload : c.load = .ok op) (hinplace : c.inplace = some query) (mode : Mode) (now : Nat) :
    (c.run mode now).checks.inplace =
      query.isMet mode (Context.checkAnswer mode op query.storages) := by
  rw [checks_run, hload]
  simp only [check, checkInplace, hinplace, Context.checkInplace_eq]
  rfl

theorem inplace_of_passed {report : CaseReport} (hpassed : report.passed = true) :
    report.checks.inplace = true := by
  simp only [CaseReport.passed, Checks.passed, Bool.and_eq_true] at hpassed
  exact hpassed.2

/-- **Two runs of a case in the two modes differ in the verdict on its in-place call
alone**, and that verdict is met in both modes only if the storage list has one storage
for every input and the two expectations are the truth and its opposite about undeclared
overlaps.  So a case that expects the same of both modes does not pass in both, and
neither does one with a storage list of the wrong length. -/
theorem run_modes_agree (c : FixtureCase) (now later : Nat) :
    (c.run .strict now).checks.schema = (c.run .hardened later).checks.schema ∧
    (c.run .strict now).checks.mutation = (c.run .hardened later).checks.mutation ∧
    (c.run .strict now).checks.nameLookup = (c.run .hardened later).checks.nameLookup ∧
    (c.run .strict now).checks.aliasing = (c.run .hardened later).checks.aliasing ∧
    ∀ op query, c.load = .ok op → c.inplace = some query →
      (((c.run .strict now).checks.inplace = true ∧
          (c.run .hardened later).checks.inplace = true) ↔
        query.storages.length = op.inputCount ∧
          (query.strictOk = true ↔ ¬∃ i j, i ≠ j ∧ op.OverlapsUndeclared query.storages i j) ∧
          query.hardenedCopy = !query.strictOk) ∧
      (query.strictOk = query.hardenedCopy →
        ¬((c.run .strict now).passed = true ∧ (c.run .hardened later).passed = true)) ∧
      (query.storages.length ≠ op.inputCount →
        ¬((c.run .strict now).passed = true ∧ (c.run .hardened later).passed = true)) := by
  obtain ⟨hschema, hmutation, hnameLookup, haliasing, -⟩ :=
    Checks.mk.inj (c.checks_run_eq .strict .hardened now later)
  refine ⟨hschema, hmutation, hnameLookup, haliasing, ?_⟩
  intro op query hload hinplace
  have hverdict := InplaceQuery.isMet_both_iff op query
  rw [← inplace_run hload hinplace .strict now, ← inplace_run hload hinplace .hardened later]
    at hverdict
  refine ⟨hverdict, ?_, ?_⟩
  · rintro hequal ⟨hstrict, hhardened⟩
    obtain ⟨-, -, hopposite⟩ :=
      hverdict.1 ⟨inplace_of_passed hstrict, inplace_of_passed hhardened⟩
    rw [hequal] at hopposite
    exact (Bool.eq_not_self _).1 hopposite
  · rintro harity ⟨hstrict, hhardened⟩
    exact harity (hverdict.1 ⟨inplace_of_passed hstrict, inplace_of_passed hhardened⟩).1

/-- An exchange whose two written inputs share a storage. -/
def exchangeCase : FixtureCase :=
  { name := "exchange", schema := Context.exchange.signature.toDocument, expectedError := none
    mutationByIndex := [], mutationByName := [], aliasing := []
    inplace := some ⟨[some 7, some 7, none], false, true⟩ }

/-- Strict mode is expected to reject the exchange and hardened mode to copy. -/
theorem run_exchangeCase :
    exchangeCase.load = .ok Context.exchange ∧
      (exchangeCase.run .strict 0).checks.inplace = true ∧
      (exchangeCase.run .hardened 5).checks.inplace = true := by
  have hdescribes : Signature.Describes exchangeCase.schema Context.exchange.signature :=
    Signature.matches_and_ofDocument_iff.1
      ⟨Signature.matches_toDocument _, Signature.ofDocument_toDocument _⟩
  have hdecode : Signature.decode exchangeCase.schema.canonical.compact =
      .ok Context.exchange.signature := by
    refine Signature.decode_of_read_of_validate ?_ ?_ Context.exchange.valid
    · rw [Document.utf8ByteSize_compact]
      exact Nat.le_trans (Document.compactSize_canonical_le _) (by decide +kernel)
    · exact Signature.read_compact hdescribes.canonical (by decide +kernel)
  have hload : exchangeCase.load = .ok Context.exchange := by
    rw [load, Operator.load, hdecode]
    rfl
  have hoverlap : Context.exchange.OverlapsUndeclared [some 7, some 7, none] 0 1 :=
    ⟨⟨7, rfl, rfl⟩, .inl rfl, rfl⟩
  obtain ⟨-, -, -, -, hcall⟩ := run_modes_agree exchangeCase 0 5
  refine ⟨hload, (hcall _ _ hload rfl).1.2 ⟨rfl, ?_, rfl⟩⟩
  constructor
  · intro hallowed
    exact absurd hallowed Bool.false_ne_true
  · intro hdeclared
    exact absurd ⟨0, 1, by decide, hoverlap⟩ hdeclared

end FixtureCase

end OpSchema
