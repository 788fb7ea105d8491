import OpSchema.Proofs.Guard.Outcome
import OpSchema.Proofs.Guard.Wording

/-!
# What a check reports, and the evidence for it

A check reports conflicts in two ways: a hardened check lists them in its decision,
a strict check names one in its error.  `Context.reported` puts the two together.
This file says how a reported conflict names its two inputs, and that the ledger
tells all that was reported.

* **The order of a pair.**  A conflict names a mutated input first, and of two mutated
  inputs the lower one.  A mutated input behind one that is only read comes first all
  the same, so the lower position is not always first
  (`Context.checkInplace_transfer_names_higher_first`).
* **The evidence.**  What a check adds to the ledger can be read off its answer: the
  mutated inputs, the reported conflicts one by one, and the copy if the answer asks
  for one (`Context.checkEvidence_eq`).  Conversely, each entry tells what it is for.

## Strategy

Both rest on `Context.checkInplace_eq`, which has the answer and the evidence of a
check, each from the list of all conflicts of the call.  Strict mode cuts this list off
behind its first conflict, in the answer and in the evidence alike.
-/

namespace OpSchema

namespace Context

variable {op : Operator} {storages : List Storage}

/-! ## Reported conflicts -/

/-- The conflicts that an answer names, in a decision or in an error. -/
def reported : Except InplaceError Decision → List Conflict
  | .ok decision => decision.conflicts
  | .error (.undeclaredOverlap _ conflict) => [conflict]
  | .error _ => []

/-- The answer allows the call, if a copy is made first. -/
def asksForCopy : Except InplaceError Decision → Bool
  | .ok decision => decision.copyRequired
  | .error _ => false

theorem checkAnswer_of_arity_ne (mode : Mode) (harity : storages.length ≠ op.inputCount) :
    checkAnswer mode op storages = .error (.arityMismatch op.inputCount storages.length) := by
  unfold checkAnswer
  rw [if_neg harity]

/-- The conflicts of the call are reported in their order, all of them or as many as
the mode lets the check find. -/
theorem reported_checkAnswer (mode : Mode) (harity : storages.length = op.inputCount) :
    reported (checkAnswer mode op storages) = match mode with
      | .strict => (op.conflicts storages).take 1
      | .hardened => op.conflicts storages := by
  cases mode with
  | hardened => simp [checkAnswer, harity, reported]
  | strict =>
      cases hconflicts : op.conflicts storages with
      | nil => simp [checkAnswer, harity, hconflicts, reported]
      | cons first others => simp [checkAnswer, harity, hconflicts, reported]

theorem mem_conflicts_of_reported {mode : Mode} {conflict : Conflict}
    (hreported : conflict ∈ reported (checkAnswer mode op storages)) :
    conflict ∈ op.conflicts storages := by
  by_cases harity : storages.length = op.inputCount
  · rw [reported_checkAnswer mode harity] at hreported
    cases mode with
    | strict => exact List.mem_of_mem_take hreported
    | hardened => exact hreported
  · rw [checkAnswer_of_arity_ne mode harity] at hreported
    exact absurd hreported List.not_mem_nil

/-! ## The order of a pair -/

/-- **A reported conflict names a mutated input first**, and it names the lower
position first exactly if the input there is mutated; so it does for every pair of two
mutated inputs. -/
theorem checkInplace_names_mutated_first (context : Context) (op : Operator)
    (storages : List Storage) :
    ∀ conflict ∈ reported (context.checkInplace op storages).1,
      op.isMutating conflict.mutated = .ok true ∧
      (conflict.mutated < conflict.other ↔
        op.isMutating (min conflict.mutated conflict.other) = .ok true) := by
  intro conflict hreported
  rw [checkInplace_eq] at hreported
  obtain ⟨hmutating, hne, -, -, hlower, -⟩ :=
    Operator.mem_conflicts.1 (mem_conflicts_of_reported hreported)
  refine ⟨hmutating, ?_, ?_⟩
  · intro hlt
    rw [Nat.min_eq_left (Nat.le_of_lt hlt)]
    exact hmutating
  · intro hmin
    rcases Nat.lt_or_gt_of_ne hne with hlt | hgt
    · -- The pair would have been met from the lower position.
      rw [Nat.min_eq_right (Nat.le_of_lt hlt)] at hmin
      exact absurd ⟨hlt, hmin⟩ hlower
    · exact hgt

/-- The exchange of two inputs that are both mutated. -/
theorem checkInplace_exchange_names_lower_first :
    ⟨0, 1, 7⟩ ∈ reported ((Context.new .strict).checkInplace exchange [some 7, some 7, none]).1 ∧
      exchange.isMutating (min 0 1) = .ok true := by
  have hreported : ⟨0, 1, 7⟩ ∈
      reported ((Context.new .strict).checkInplace exchange [some 7, some 7, none]).1 :=
    List.mem_cons_self
  obtain ⟨-, hlower⟩ := checkInplace_names_mutated_first _ _ _ _ hreported
  exact ⟨hreported, hlower.1 (by decide)⟩

/-- An operator that reads its first input and writes its second. -/
def transfer : Operator :=
  { signature :=
      { name := "transfer_"
        inputs := [⟨"source", .tensor, none, false⟩, ⟨"target", .tensor, some (.write "a"), false⟩] }
    valid := rfl
    inputs := _
    inputs_eq := rfl
    outputs := _
    outputs_eq := rfl
    positions := _
    positions_eq := rfl }

/-- **The lower position is not always first**: in either mode the one conflict of a
transfer within a storage names the target before the source. -/
theorem checkInplace_transfer_names_higher_first :
    [some 7, some 7].length = transfer.inputCount ∧
      ((Context.new .hardened).checkInplace transfer [some 7, some 7]).1 =
        .ok ⟨"transfer_", .hardened, [1], [⟨1, 0, 7⟩], true⟩ ∧
      ((Context.new .strict).checkInplace transfer [some 7, some 7]).1 =
        .error (.undeclaredOverlap "transfer_" ⟨1, 0, 7⟩) ∧
      ¬∀ conflict ∈ reported ((Context.new .hardened).checkInplace transfer [some 7, some 7]).1,
        conflict.mutated < conflict.other := by
  refine ⟨rfl, rfl, rfl, fun hall => ?_⟩
  exact absurd (hall ⟨1, 0, 7⟩ List.mem_cons_self) (by decide)

/-! ## The evidence -/

/-- The evidence of a check of the wrong arity is one entry, and it ends in the wording
of the error. -/
theorem checkEvidence_of_arity_ne (mode : Mode) (harity : storages.length ≠ op.inputCount) :
    ∃ words, checkEvidence mode op storages =
      [⟨.policy, words ++ (InplaceError.arityMismatch op.inputCount storages.length).message⟩] := by
  obtain ⟨words, hwords⟩ := exists_rejectionSummary_eq op.qualifiedName
    (.arityMismatch op.inputCount storages.length)
  refine ⟨words, ?_⟩
  unfold checkEvidence
  rw [if_neg harity, hwords]

/-- The evidence of a check of the right arity is what its answer tells. -/
theorem checkEvidence_eq (mode : Mode) (harity : storages.length = op.inputCount) :
    checkEvidence mode op storages =
      ⟨.mutation, mutationSummary op.qualifiedName op.mutatedInputs⟩ ::
        (overlapEvidence op.qualifiedName (reported (checkAnswer mode op storages)) ++
          if asksForCopy (checkAnswer mode op storages) then
            [⟨.policy, copySummary op.qualifiedName
              (reported (checkAnswer mode op storages)).length⟩]
          else []) := by
  rw [reported_checkAnswer mode harity]
  cases mode with
  | hardened =>
      cases hconflicts : op.conflicts storages with
      | nil => simp [checkEvidence, checkAnswer, harity, hconflicts, asksForCopy, copyEvidence]
      | cons first others =>
          simp [checkEvidence, checkAnswer, harity, hconflicts, asksForCopy, copyEvidence]
  | strict =>
      cases hconflicts : op.conflicts storages with
      | nil => simp [checkEvidence, checkAnswer, harity, hconflicts, asksForCopy]
      | cons first others => simp [checkEvidence, checkAnswer, harity, hconflicts, asksForCopy]

/-- **Every check leaves full evidence of its answer.**  It keeps the mode and all
earlier entries, and adds the rejection of a storage list of the wrong length, or else
the mutated inputs, an entry for each reported conflict in turn and, if the answer asks
for a copy, an entry with the number of conflicts.  What is reported is an undeclared
overlap.  The operator, the mutated inputs, the conflict and the number can be read off
their entries. -/
theorem checkInplace_leaves_evidence (context : Context) (op : Operator)
    (storages : List Storage) :
    ∃ answer after added, context.checkInplace op storages = (answer, after) ∧
      after.mode = context.mode ∧
      after.ledger.toList = context.ledger.toList ++ added ∧
      (storages.length ≠ op.inputCount →
        ∃ error words, error = .arityMismatch op.inputCount storages.length ∧
          answer = .error error ∧ added = [⟨.policy, words ++ error.message⟩]) ∧
      (storages.length = op.inputCount →
        added =
          ⟨.mutation, mutationSummary op.qualifiedName op.mutatedInputs⟩ ::
            ((reported answer).map (fun conflict =>
                ⟨.overlap, conflictSummary op.qualifiedName conflict⟩) ++
              if asksForCopy answer then
                [⟨.policy, copySummary op.qualifiedName (reported answer).length⟩]
              else []) ∧
        ∀ conflict ∈ reported answer,
          op.OverlapsUndeclared storages conflict.mutated conflict.other) ∧
      Function.Injective2 mutationSummary ∧ Function.Injective2 conflictSummary ∧
      Function.Injective2 copySummary := by
  refine ⟨_, _, checkEvidence context.mode op storages, checkInplace_eq context op storages, rfl,
    Ledger.toList_recordAll _ _, ?_, ?_, mutationSummary_injective2, conflictSummary_injective2,
    copySummary_injective2⟩
  · intro harity
    obtain ⟨words, hwords⟩ := checkEvidence_of_arity_ne context.mode harity
    exact ⟨_, words, rfl, checkAnswer_of_arity_ne context.mode harity, hwords⟩
  · intro harity
    refine ⟨checkEvidence_eq context.mode harity, ?_⟩
    intro conflict hreported
    exact Operator.overlapsUndeclared_of_mem (mem_conflicts_of_reported hreported)

/-- Three inputs in one storage, two of them mutated: the check of the exchange adds an
entry for each of the three pairs, between the mutated inputs and the copy.  With one
storage only it adds one entry, for the rejection. -/
theorem checkInplace_exchange_leaves_evidence :
    ([some 7, some 7, some 7].length = exchange.inputCount ∧
      ∃ answer after,
        (Context.new .hardened).checkInplace exchange [some 7, some 7, some 7] = (answer, after) ∧
        reported answer = [⟨0, 1, 7⟩, ⟨0, 2, 7⟩, ⟨1, 2, 7⟩] ∧
        after.ledger.toList.map Evidence.kind =
          [.policy, .mutation, .overlap, .overlap, .overlap, .policy]) ∧
    [some 7].length ≠ exchange.inputCount ∧
      ∃ after, (Context.new .hardened).checkInplace exchange [some 7] =
          (.error (.arityMismatch 3 1), after) ∧
        after.ledger.toList.map Evidence.kind = [.policy, .policy] := by
  constructor
  · obtain ⟨answer, after, added, hcheck, -, hledger, -, hadded, -⟩ :=
      checkInplace_leaves_evidence (.new .hardened) exchange [some 7, some 7, some 7]
    have hanswer : answer = .ok ⟨"exchange_", .hardened, [0, 1],
        [⟨0, 1, 7⟩, ⟨0, 2, 7⟩, ⟨1, 2, 7⟩], true⟩ := (congrArg Prod.fst hcheck).symm
    refine ⟨rfl, answer, after, hcheck, by rw [hanswer]; rfl, ?_⟩
    rw [hledger, (hadded rfl).1, hanswer]
    rfl
  · obtain ⟨answer, after, added, hcheck, -, hledger, hrejected, -⟩ :=
      checkInplace_leaves_evidence (.new .hardened) exchange [some 7]
    have harity : [some 7].length ≠ exchange.inputCount := by decide
    obtain ⟨error, words, herror, hanswer, hadded⟩ := hrejected harity
    refine ⟨harity, after, ?_, ?_⟩
    · rw [hcheck, hanswer, herror]
      rfl
    · rw [hledger, hadded]
      rfl

end Context

end OpSchema
