import OpSchema.Proofs.Guard.Overlap

/-!
# The two modes agree

A strict check is a hardened check that is cut off at its first conflict.  So
the two agree on every call: they reject a storage list of the wrong length
alike, the strict check rejects a call where the hardened one asks for a copy,
and the evidence of the strict check is the beginning of the evidence of the
hardened one.

Neither check can fail on a question to the operator.  The scan asks about
positions of storages, and there are as many storages as inputs; by
`Scan.run_eq_reportAll` it therefore only reports.
-/

namespace OpSchema.Context

variable {op : Operator} {storages : List Storage}

/-! ## Evidence -/

/-- The evidence for conflicts, one piece each. -/
def overlapEvidence (operator : String) (conflicts : List Conflict) : List Evidence :=
  conflicts.map fun conflict => ⟨.overlap, conflictSummary operator conflict⟩

/-- The evidence for a copy, if there are conflicts. -/
def copyEvidence (operator : String) (conflicts : List Conflict) : List Evidence :=
  if conflicts.isEmpty then [] else [⟨.policy, copySummary operator conflicts.length⟩]

theorem toList_started (ledger : Ledger) (op : Operator) :
    (started ledger op).toList =
      ledger.toList ++ [⟨.mutation, mutationSummary op.qualifiedName op.mutatedInputs⟩] :=
  ledger.toList_record _ _

theorem toList_finished (operator : String) (conflicts : List Conflict) (ledger : Ledger) :
    (finished operator conflicts ledger).toList =
      ledger.toList ++ overlapEvidence operator conflicts ++ copyEvidence operator conflicts := by
  cases hempty : conflicts.isEmpty with
  | true => simp [finished, copyEvidence, overlapEvidence, hempty, Ledger.toList_recordConflicts]
  | false => simp [finished, copyEvidence, overlapEvidence, hempty, Ledger.toList_recordConflicts]

/-- What a strict check adds to the evidence is the beginning of what a hardened
check adds. -/
theorem ledger_strict_isPrefix (ledger : Ledger) (op : Operator) (storages : List Storage) :
    ∃ shorter further,
      (checkInplace ⟨.strict, ledger⟩ op storages).2.ledger.toList = ledger.toList ++ shorter ∧
      (checkInplace ⟨.hardened, ledger⟩ op storages).2.ledger.toList =
        ledger.toList ++ (shorter ++ further) := by
  by_cases harity : storages.length = op.inputCount
  · rw [checkInplace_hardened harity, toList_finished, toList_started]
    cases hconflicts : op.conflicts storages with
    | nil =>
        rw [checkInplace_strict_of_nil harity hconflicts, toList_started]
        exact ⟨_, [], rfl, by simp [overlapEvidence, copyEvidence]⟩
    | cons first others =>
        rw [checkInplace_strict_of_cons harity hconflicts, Ledger.toList_recordConflicts,
          toList_started]
        refine ⟨⟨.mutation, mutationSummary op.qualifiedName op.mutatedInputs⟩ ::
            overlapEvidence op.qualifiedName [first],
          overlapEvidence op.qualifiedName others ++
            copyEvidence op.qualifiedName (first :: others), ?_, ?_⟩ <;>
          simp [overlapEvidence]
  · rw [checkInplace_of_arity_ne _ harity, checkInplace_of_arity_ne _ harity]
    exact ⟨_, [], Ledger.toList_record .., by simp [record]⟩

/-! ## Results -/

/-- No check fails on a question to the operator. -/
theorem checkInplace_ne_query (context : Context) (op : Operator) (storages : List Storage)
    (error : OperatorError) : (context.checkInplace op storages).1 ≠ .error (.query error) := by
  obtain ⟨mode, ledger⟩ := context
  by_cases harity : storages.length = op.inputCount
  · cases mode with
    | hardened => simp [checkInplace_hardened harity]
    | strict =>
        cases hconflicts : op.conflicts storages with
        | nil => simp [checkInplace_strict_of_nil harity hconflicts]
        | cons first others => simp [checkInplace_strict_of_cons harity hconflicts]
  · simp [checkInplace_of_arity_ne _ harity]

/-- A strict check rejects a call where a hardened check asks for a copy, naming
the first conflict of the hardened check. -/
theorem checkInplace_strict_eq_error_iff {ledger : Ledger} (harity : storages.length = op.inputCount)
    {operator : String} {conflict : Conflict} :
    (checkInplace ⟨.strict, ledger⟩ op storages).1 = .error (.undeclaredOverlap operator conflict) ↔
      ∃ decision, (checkInplace ⟨.hardened, ledger⟩ op storages).1 = .ok decision ∧
        decision.copyRequired = true ∧ decision.conflicts.head? = some conflict ∧
        decision.operator = operator := by
  simp only [checkInplace_hardened harity, Except.ok.injEq, exists_eq_left']
  cases hconflicts : op.conflicts storages with
  | nil => simp [checkInplace_strict_of_nil harity hconflicts]
  | cons first others => simp [checkInplace_strict_of_cons harity hconflicts, and_comm]

/-- A hardened check that asks for a copy has a first conflict. -/
theorem exists_first_of_copyRequired {ledger : Ledger} (harity : storages.length = op.inputCount)
    {decision : Decision}
    (hok : (checkInplace ⟨.hardened, ledger⟩ op storages).1 = .ok decision)
    (hcopy : decision.copyRequired = true) :
    ∃ first, decision.conflicts.head? = some first := by
  rw [checkInplace_hardened harity] at hok
  obtain rfl := Except.ok.inj hok
  cases hconflicts : op.conflicts storages with
  | nil => simp [hconflicts] at hcopy
  | cons first others => exact ⟨first, by simp⟩

/-- A call that a strict check allows is one that a hardened check allows without
a copy, with the same decision but for the mode. -/
theorem checkInplace_of_strict_eq_ok {ledger : Ledger} (harity : storages.length = op.inputCount)
    {decision : Decision} (hstrict : (checkInplace ⟨.strict, ledger⟩ op storages).1 = .ok decision) :
    (checkInplace ⟨.hardened, ledger⟩ op storages).1 = .ok { decision with mode := .hardened } ∧
      decision.mode = .strict ∧ decision.conflicts = [] ∧ decision.copyRequired = false := by
  cases hconflicts : op.conflicts storages with
  | nil =>
      rw [checkInplace_strict_of_nil harity hconflicts] at hstrict
      obtain rfl := Except.ok.inj hstrict
      simp [checkInplace_hardened harity, hconflicts]
  | cons first others => simp [checkInplace_strict_of_cons harity hconflicts] at hstrict

/-! ## The main statement -/

/-- **Strict and hardened checks agree on every call.**  From the same evidence
they reject a wrong number of storages alike; otherwise the strict check rejects
the call at the first of the conflicts for which the hardened one asks for a
copy, and decides like it where there are none.  What the strict check records
begins what the hardened one records, and in no mode does a question to the
operator fail or a position lie beyond the storages. -/
theorem checkInplace_modes_agree (strict hardened : Context) (op : Operator)
    (storages : List Storage) (hstrict : strict.mode = .strict)
    (hhardened : hardened.mode = .hardened) (hledger : strict.ledger = hardened.ledger) :
    ((∃ expected actual,
        (strict.checkInplace op storages).1 = .error (.arityMismatch expected actual) ∧
        (hardened.checkInplace op storages).1 = .error (.arityMismatch expected actual)) ↔
      storages.length ≠ op.inputCount) ∧
    (storages.length ≠ op.inputCount →
      (strict.checkInplace op storages).1 =
        .error (.arityMismatch op.inputCount storages.length) ∧
      (hardened.checkInplace op storages).1 =
        .error (.arityMismatch op.inputCount storages.length)) ∧
    (storages.length = op.inputCount →
      ((∃ operator conflict,
          (strict.checkInplace op storages).1 = .error (.undeclaredOverlap operator conflict)) ↔
        ∃ decision, (hardened.checkInplace op storages).1 = .ok decision ∧
          decision.copyRequired = true) ∧
      (∀ operator conflict,
        (strict.checkInplace op storages).1 = .error (.undeclaredOverlap operator conflict) →
        ∃ decision, (hardened.checkInplace op storages).1 = .ok decision ∧
          decision.conflicts.head? = some conflict ∧ decision.operator = operator) ∧
      (∀ decision, (strict.checkInplace op storages).1 = .ok decision →
        (hardened.checkInplace op storages).1 = .ok { decision with mode := .hardened } ∧
        decision.mode = .strict ∧ decision.conflicts = [] ∧ decision.copyRequired = false) ∧
      (∀ index ∈ op.mutatedInputs, index < storages.length)) ∧
    (∃ shorter longer,
      (strict.checkInplace op storages).2.ledger.toList = strict.ledger.toList ++ shorter ∧
      (hardened.checkInplace op storages).2.ledger.toList = hardened.ledger.toList ++ longer ∧
      shorter <+: longer) ∧
    ∀ error, (strict.checkInplace op storages).1 ≠ .error (.query error) ∧
      (hardened.checkInplace op storages).1 ≠ .error (.query error) := by
  obtain ⟨_, ledger⟩ := strict
  obtain ⟨_, _⟩ := hardened
  dsimp only at hstrict hhardened hledger
  subst hstrict hhardened hledger
  refine ⟨⟨?_, fun harity => ?_⟩, fun harity => ?_, fun harity => ⟨⟨?_, ?_⟩, ?_, ?_, ?_⟩, ?_, ?_⟩
  · rintro ⟨expected, actual, -, hrejected⟩ harity
    simp [checkInplace_hardened harity] at hrejected
  · exact ⟨op.inputCount, storages.length, by simp [checkInplace_of_arity_ne _ harity]⟩
  · simp [checkInplace_of_arity_ne _ harity]
  · rintro ⟨operator, conflict, hrejected⟩
    obtain ⟨decision, hok, hcopy, -⟩ := (checkInplace_strict_eq_error_iff harity).1 hrejected
    exact ⟨decision, hok, hcopy⟩
  · rintro ⟨decision, hok, hcopy⟩
    obtain ⟨first, hfirst⟩ := exists_first_of_copyRequired harity hok hcopy
    exact ⟨decision.operator, first,
      (checkInplace_strict_eq_error_iff harity).2 ⟨decision, hok, hcopy, hfirst, rfl⟩⟩
  · intro operator conflict hrejected
    obtain ⟨decision, hok, -, hfirst⟩ := (checkInplace_strict_eq_error_iff harity).1 hrejected
    exact ⟨decision, hok, hfirst⟩
  · exact fun decision => checkInplace_of_strict_eq_ok harity
  · exact fun index hmem => harity ▸ Operator.lt_inputCount_of_mem hmem
  · obtain ⟨shorter, further, hshorter, hlonger⟩ := ledger_strict_isPrefix ledger op storages
    exact ⟨shorter, _, hshorter, hlonger, List.prefix_append ..⟩
  · exact fun error => ⟨checkInplace_ne_query _ op storages error,
      checkInplace_ne_query _ op storages error⟩

/-- The exchange of two inputs in one storage is rejected in strict mode and
asks for a copy in hardened mode. -/
theorem checkInplace_modes_agree_on_exchange :
    ∃ operator conflict decision,
      (checkInplace ⟨.strict, .empty⟩ exchange [some 7, some 7, none]).1 =
        .error (.undeclaredOverlap operator conflict) ∧
      (checkInplace ⟨.hardened, .empty⟩ exchange [some 7, some 7, none]).1 = .ok decision ∧
      decision.conflicts.head? = some conflict := by
  have hrejected : (checkInplace ⟨.strict, .empty⟩ exchange [some 7, some 7, none]).1 =
      .error (.undeclaredOverlap "exchange_" ⟨0, 1, 7⟩) := rfl
  have hagree := checkInplace_modes_agree ⟨.strict, .empty⟩ ⟨.hardened, .empty⟩ exchange
    [some 7, some 7, none] rfl rfl rfl
  obtain ⟨decision, hok, hfirst, -⟩ := (hagree.2.2.1 rfl).2.1 _ _ hrejected
  exact ⟨_, _, decision, hrejected, hok, hfirst⟩

end OpSchema.Context
