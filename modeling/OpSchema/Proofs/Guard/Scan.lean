import OpSchema.Guard.Context

/-!
# What a scan finds

The scan for conflicts is a loop over the mutated inputs around a loop over all
inputs.  It asks the operator about every pair that it examines, it records
evidence as it goes, and in strict mode it leaves both loops at the first
conflict.  This file says what all of that comes to, in either mode.

`Operator.conflicts` lists the conflicts of a call without a scan, and
`Scan.run_eq_reportAll` says that the scan reports this list, conflict by
conflict, and does nothing else.

## Strategy

Both loops are folds whose step reports some conflicts, none included.  So one
lemma, `Scan.foldlM_eq_reportAll`, passes from the step to the loop, and it is
used twice.  The step needs that a question about two inputs within range is
answered (`Operator.exists_areAliasing_input`), which is where the arity of the
call enters.
-/

namespace OpSchema

namespace Operator

variable {op : Operator} {storages : List Storage}

/-- The slot at a position within the inputs. -/
theorem exists_slot_input {i : Nat} (hi : i < op.inputCount) :
    ∃ slot, op.slot (.input i) = .ok slot := by
  have hslot : op.inputs[i]? = some op.inputs[i] := Array.getElem?_eq_getElem hi
  exact ⟨op.inputs[i], by simp [slot, slots, Locator.input, hslot]⟩

/-- A question about two positions within the inputs is answered. -/
theorem exists_areAliasing_input {i j : Nat} (hi : i < op.inputCount) (hj : j < op.inputCount) :
    ∃ declared, op.areAliasing (.input i) (.input j) = .ok declared := by
  obtain ⟨left, hleft⟩ := exists_slot_input hi
  obtain ⟨right, hright⟩ := exists_slot_input hj
  simp only [areAliasing, hleft, hright]
  exact ⟨_, rfl⟩

/-! ## The conflicts of a call -/

/-- The conflict of the mutated input at `mutated`, which has the given storage,
with the input at `other`, which holds `held`; none if they have no conflict or
if it is for the other one to have it. -/
def conflictWith (op : Operator) (mutated storage : Nat) : Storage × Nat → List Conflict
  | (held, other) =>
    if other ≠ mutated ∧ held = some storage ∧ ¬ (other < mutated ∧ op.writesInput other = true) then
      match op.areAliasing (.input mutated) (.input other) with
      | .ok false => [⟨mutated, other, storage⟩]
      | _ => []
    else []

/-- The conflicts of the mutated input at a position, by ascending position of
the other input. -/
def conflictsFrom (op : Operator) (storages : List Storage) (mutated : Nat) : List Conflict :=
  match storages[mutated]? with
  | some (some storage) => storages.zipIdx.flatMap (op.conflictWith mutated storage)
  | _ => []

/-- The conflicts of a call, by ascending position of the mutated input. -/
def conflicts (op : Operator) (storages : List Storage) : List Conflict :=
  op.mutatedInputs.flatMap (op.conflictsFrom storages)

end Operator

/-! ## Reports -/

/-- Records conflicts in turn. -/
def Ledger.recordConflicts (operator : String) (conflicts : List Conflict) (ledger : Ledger) :
    Ledger :=
  conflicts.foldl (fun ledger conflict =>
    ledger.record .overlap (conflictSummary operator conflict)) ledger

/-- The evidence of recorded conflicts follows what was there. -/
theorem Ledger.toList_recordConflicts (operator : String) (conflicts : List Conflict)
    (ledger : Ledger) :
    (ledger.recordConflicts operator conflicts).toList =
      ledger.toList ++ conflicts.map fun conflict => ⟨.overlap, conflictSummary operator conflict⟩ := by
  induction conflicts generalizing ledger with
  | nil => simp [recordConflicts]
  | cons conflict conflicts ih =>
      simp only [recordConflicts, List.foldl_cons] at ih ⊢
      rw [ih]
      simp

namespace Scan

variable {mode : Mode} {operator : String} {op : Operator} {storages : List Storage}

/-- Takes note of conflicts in turn. -/
def reportAll (mode : Mode) (operator : String) (scan : Scan) (conflicts : List Conflict) :
    Outcome :=
  conflicts.foldlM (report mode operator) scan

/-- A loop whose step reports `found` reports all of it. -/
theorem foldlM_eq_reportAll {α : Type} {step : Scan → α → Outcome} {found : α → List Conflict}
    {items : List α}
    (hstep : ∀ item ∈ items, ∀ scan, step scan item = reportAll mode operator scan (found item))
    (scan : Scan) :
    items.foldlM step scan = reportAll mode operator scan (items.flatMap found) := by
  induction items generalizing scan with
  | nil => rfl
  | cons item items ih =>
      have hhead := hstep item List.mem_cons_self scan
      have htail := fun other hmem => hstep other (List.mem_cons_of_mem item hmem)
      rw [List.foldlM_cons, hhead, List.flatMap_cons, reportAll, reportAll, List.foldlM_append]
      exact bind_congr fun next => ih htail next

/-- In hardened mode everything is recorded and kept. -/
theorem reportAll_hardened (scan : Scan) (conflicts : List Conflict) :
    reportAll .hardened operator scan conflicts =
      .ok ⟨scan.ledger.recordConflicts operator conflicts, scan.conflicts ++ conflicts⟩ := by
  induction conflicts generalizing scan with
  | nil => simp [reportAll, Ledger.recordConflicts, pure, Except.pure]
  | cons conflict conflicts ih =>
      have hnext := ih ⟨scan.ledger.record .overlap (conflictSummary operator conflict),
        scan.conflicts.push conflict⟩
      rw [reportAll, List.foldlM_cons]
      refine hnext.trans ?_
      simp [Ledger.recordConflicts]

/-- In strict mode nothing is left to do without conflicts. -/
theorem reportAll_strict_nil (scan : Scan) : reportAll .strict operator scan [] = .ok scan := rfl

/-- In strict mode the first conflict is the last that is recorded. -/
theorem reportAll_strict_cons (scan : Scan) (conflict : Conflict) (conflicts : List Conflict) :
    reportAll .strict operator scan (conflict :: conflicts) =
      .error (.undeclaredOverlap operator conflict,
        scan.ledger.recordConflicts operator [conflict]) := rfl

/-! ## The loops -/

/-- One pair within range: the question is answered, and the conflict of the pair
is reported if there is one. -/
theorem examine_eq_reportAll {mutated other : Nat} (hmutated : mutated < op.inputCount)
    (hother : other < op.inputCount) (storage : Nat) (held : Storage) (scan : Scan) :
    examine mode op mutated storage scan (held, other) =
      reportAll mode op.qualifiedName scan (op.conflictWith mutated storage (held, other)) := by
  obtain ⟨declared, hdeclared⟩ := Operator.exists_areAliasing_input hmutated hother
  have hsingle : ∀ conflict : Conflict,
      reportAll mode op.qualifiedName scan [conflict] = scan.report mode op.qualifiedName conflict :=
    fun conflict => bind_pure (scan.report mode op.qualifiedName conflict)
  simp only [examine, Operator.conflictWith, hdeclared]
  by_cases hskip : other = mutated ∨ held ≠ some storage
  · rw [if_pos hskip, if_neg fun h => hskip.elim h.1 fun hheld => hheld h.2.1]
    rfl
  · by_cases hlower : other < mutated ∧ op.writesInput other = true
    · rw [if_neg hskip, if_pos hlower, if_neg fun h => h.2.2 hlower]
      rfl
    · obtain ⟨hne, hheld⟩ := not_or.1 hskip
      rw [if_neg hskip, if_neg hlower, if_pos ⟨hne, Decidable.not_not.1 hheld, hlower⟩]
      cases declared with
      | true => rfl
      | false => exact (hsingle _).symm

/-- One mutated input: its conflicts are reported. -/
theorem visit_eq_reportAll (harity : storages.length = op.inputCount)
    (mutated : Fin storages.length) (scan : Scan) :
    visit mode op storages scan mutated =
      reportAll mode op.qualifiedName scan (op.conflictsFrom storages mutated) := by
  have hheld : storages[mutated.val]? = some (storages.get mutated) := by simp
  simp only [visit, Operator.conflictsFrom, hheld]
  cases hstorage : storages.get mutated with
  | none => rfl
  | some storage =>
      refine foldlM_eq_reportAll (fun item hitem scan => ?_) scan
      obtain ⟨held, other⟩ := item
      have hother : other < storages.length := by
        have := List.mem_zipIdx hitem
        omega
      exact examine_eq_reportAll (harity ▸ mutated.isLt) (harity ▸ hother) storage held scan

/-- **The scan reports the conflicts of the call, and does nothing else.** -/
theorem run_eq_reportAll (harity : storages.length = op.inputCount)
    (hrange : ∀ index ∈ op.mutatedInputs, index < storages.length) (scan : Scan) :
    run mode op storages scan (op.mutatedInputs.pmap Fin.mk hrange) =
      reportAll mode op.qualifiedName scan (op.conflicts storages) := by
  have hloop : (op.mutatedInputs.pmap Fin.mk hrange).foldlM (visit mode op storages) scan =
      reportAll mode op.qualifiedName scan
        ((op.mutatedInputs.pmap Fin.mk hrange).flatMap fun mutated =>
          op.conflictsFrom storages mutated.val) :=
    foldlM_eq_reportAll (fun mutated _ scan => visit_eq_reportAll harity mutated scan) scan
  have hpositions : (op.mutatedInputs.pmap Fin.mk hrange).map Fin.val = op.mutatedInputs := by
    simp [List.map_pmap]
  rw [run, hloop, ← List.flatMap_map, hpositions, Operator.conflicts]

end Scan

/-! ## Decisions -/

namespace Context

variable {op : Operator} {storages : List Storage} {ledger : Ledger}

/-- The evidence at the start of a check. -/
def started (ledger : Ledger) (op : Operator) : Ledger :=
  ledger.record .mutation (mutationSummary op.qualifiedName op.mutatedInputs)

/-- The evidence at the end of a check that found some conflicts and did not
reject the call. -/
def finished (operator : String) (conflicts : List Conflict) (ledger : Ledger) : Ledger :=
  let recorded := ledger.recordConflicts operator conflicts
  if conflicts.isEmpty then recorded
  else recorded.record .policy (copySummary operator conflicts.length)

theorem checkInplace_of_arity_ne (context : Context) (harity : storages.length ≠ op.inputCount) :
    context.checkInplace op storages =
      (.error (.arityMismatch op.inputCount storages.length),
        context.record .policy (rejectionSummary op.qualifiedName
          (.arityMismatch op.inputCount storages.length))) := by
  simp only [checkInplace, dif_neg harity]

/-- A hardened check decides by the conflicts of the call. -/
theorem checkInplace_hardened (harity : storages.length = op.inputCount) :
    checkInplace ⟨.hardened, ledger⟩ op storages =
      (.ok ⟨op.qualifiedName, .hardened, op.mutatedInputs, op.conflicts storages,
          !(op.conflicts storages).isEmpty⟩,
        ⟨.hardened, finished op.qualifiedName (op.conflicts storages) (started ledger op)⟩) := by
  have hconflicts : ((#[] : Array Conflict) ++ op.conflicts storages).toList =
      op.conflicts storages := by simp
  simp only [checkInplace, dif_pos harity, Scan.run_eq_reportAll harity, Scan.reportAll_hardened,
    hconflicts, finished, started]
  cases op.conflicts storages <;> rfl

/-- A strict check without conflicts allows the call. -/
theorem checkInplace_strict_of_nil (harity : storages.length = op.inputCount)
    (hconflicts : op.conflicts storages = []) :
    checkInplace ⟨.strict, ledger⟩ op storages =
      (.ok ⟨op.qualifiedName, .strict, op.mutatedInputs, [], false⟩,
        ⟨.strict, started ledger op⟩) := by
  simp only [checkInplace, dif_pos harity, Scan.run_eq_reportAll harity, hconflicts,
    Scan.reportAll_strict_nil]
  rfl

/-- A strict check rejects the call at its first conflict. -/
theorem checkInplace_strict_of_cons (harity : storages.length = op.inputCount)
    {first : Conflict} {others : List Conflict} (hconflicts : op.conflicts storages = first :: others) :
    checkInplace ⟨.strict, ledger⟩ op storages =
      (.error (.undeclaredOverlap op.qualifiedName first),
        ⟨.strict, (started ledger op).recordConflicts op.qualifiedName [first]⟩) := by
  simp only [checkInplace, dif_pos harity, Scan.run_eq_reportAll harity, hconflicts,
    Scan.reportAll_strict_cons]
  rfl

end Context

end OpSchema
