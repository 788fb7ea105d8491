import OpSchema.Proofs.Guard.Modes

/-!
# What a check answers and what it records

A check is a scan that writes to the ledger as it goes and may be left in the
middle.  From outside it is simpler: the answer (`Context.checkAnswer`) and the
evidence (`Context.checkEvidence`) are determined by the mode, the operator and
the storages, and the evidence goes to the end of the ledger
(`Context.checkInplace_eq`).  What is there already plays no part, and neither
does anything of the operator beyond its name, its inputs that are written and
the conflicts of the call.
-/

namespace OpSchema

/-! ## Several pieces of evidence -/

namespace Ledger

theorem ext_toList {first second : Ledger} (h : first.toList = second.toList) :
    first = second := by
  obtain ⟨entries⟩ := first
  obtain ⟨others⟩ := second
  exact congrArg Ledger.mk (Array.toList_inj.1 h)

/-- Records pieces of evidence in turn. -/
def recordAll (ledger : Ledger) (evidence : List Evidence) : Ledger :=
  evidence.foldl (fun ledger e => ledger.record e.kind e.summary) ledger

@[simp] theorem toList_recordAll (ledger : Ledger) (evidence : List Evidence) :
    (ledger.recordAll evidence).toList = ledger.toList ++ evidence := by
  induction evidence generalizing ledger with
  | nil => simp [recordAll]
  | cons e evidence ih =>
      rw [recordAll, List.foldl_cons]
      refine (ih (ledger.record e.kind e.summary)).trans ?_
      simp

end Ledger

namespace Context

/-! ## The answer and the evidence -/

/-- The answer of a check in a mode.  Strict mode rejects the call at its first
conflict, if there is one. -/
def checkAnswer (mode : Mode) (op : Operator) (storages : List Storage) :
    Except InplaceError Decision :=
  if storages.length = op.inputCount then
    match mode, op.conflicts storages with
    | .strict, first :: _ => .error (.undeclaredOverlap op.qualifiedName first)
    | mode, conflicts =>
      .ok ⟨op.qualifiedName, mode, op.mutatedInputs, conflicts, !conflicts.isEmpty⟩
  else .error (.arityMismatch op.inputCount storages.length)

/-- The evidence of a check in a mode: a rejected storage list, or the mutated
inputs and then the conflicts, of which strict mode sees the first and hardened
mode all, with the copy that they call for. -/
def checkEvidence (mode : Mode) (op : Operator) (storages : List Storage) : List Evidence :=
  if storages.length = op.inputCount then
    ⟨.mutation, mutationSummary op.qualifiedName op.mutatedInputs⟩ ::
      match mode with
      | .strict => overlapEvidence op.qualifiedName ((op.conflicts storages).take 1)
      | .hardened => overlapEvidence op.qualifiedName (op.conflicts storages) ++
          copyEvidence op.qualifiedName (op.conflicts storages)
  else
    [⟨.policy, rejectionSummary op.qualifiedName
      (.arityMismatch op.inputCount storages.length)⟩]

/-- **A check gives its answer and adds its evidence.** -/
theorem checkInplace_eq (context : Context) (op : Operator) (storages : List Storage) :
    context.checkInplace op storages =
      (checkAnswer context.mode op storages,
        { context with
          ledger := context.ledger.recordAll (checkEvidence context.mode op storages) }) := by
  obtain ⟨mode, ledger⟩ := context
  have hrecorded : ∀ after : Ledger,
      after.toList = ledger.toList ++ checkEvidence mode op storages →
      after = ledger.recordAll (checkEvidence mode op storages) := by
    intro after hafter
    exact Ledger.ext_toList (hafter.trans (ledger.toList_recordAll _).symm)
  by_cases harity : storages.length = op.inputCount
  · cases mode with
    | hardened =>
        rw [checkInplace_hardened harity]
        refine Prod.ext ?_ (congrArg (Context.mk .hardened) (hrecorded _ ?_))
        · simp [checkAnswer, harity]
        · rw [toList_finished, toList_started]
          simp [checkEvidence, harity]
    | strict =>
        cases hconflicts : op.conflicts storages with
        | nil =>
            rw [checkInplace_strict_of_nil harity hconflicts]
            refine Prod.ext ?_ (congrArg (Context.mk .strict) (hrecorded _ ?_))
            · simp [checkAnswer, harity, hconflicts]
            · rw [toList_started]
              simp [checkEvidence, harity, hconflicts, overlapEvidence]
        | cons first others =>
            rw [checkInplace_strict_of_cons harity hconflicts]
            refine Prod.ext ?_ (congrArg (Context.mk .strict) (hrecorded _ ?_))
            · simp [checkAnswer, harity, hconflicts]
            · rw [Ledger.toList_recordConflicts, toList_started]
              simp [checkEvidence, harity, hconflicts, overlapEvidence]
  · rw [checkInplace_of_arity_ne _ harity]
    refine Prod.ext ?_ (congrArg (Context.mk mode) (hrecorded _ ?_))
    · simp [checkAnswer, harity]
    · simp [checkEvidence, harity]

/-- A check adds its evidence at the end of the ledger. -/
theorem toList_checkInplace (context : Context) (op : Operator) (storages : List Storage) :
    (context.checkInplace op storages).2.ledger.toList =
      context.ledger.toList ++ checkEvidence context.mode op storages := by
  rw [checkInplace_eq, Ledger.toList_recordAll]

theorem mode_checkInplace (context : Context) (op : Operator) (storages : List Storage) :
    (context.checkInplace op storages).2.mode = context.mode := by
  rw [checkInplace_eq]

/-- Operators that agree on what a check asks are checked alike. -/
theorem checkInplace_congr {first second : Operator} {storages : List Storage}
    (hname : first.qualifiedName = second.qualifiedName)
    (hcount : first.inputCount = second.inputCount)
    (hmutated : first.mutatedInputs = second.mutatedInputs)
    (hconflicts : first.conflicts storages = second.conflicts storages) (context : Context) :
    context.checkInplace first storages = context.checkInplace second storages := by
  have hanswer : checkAnswer context.mode first storages =
      checkAnswer context.mode second storages := by
    simp only [checkAnswer, hname, hcount, hmutated, hconflicts]
  have hevidence : checkEvidence context.mode first storages =
      checkEvidence context.mode second storages := by
    simp only [checkEvidence, hname, hcount, hmutated, hconflicts]
  rw [checkInplace_eq, checkInplace_eq, hanswer, hevidence]

end Context

end OpSchema
