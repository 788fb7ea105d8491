import OpSchema.Proofs.Guard.Scan

/-!
# A hardened check finds every undeclared overlap once

Two inputs overlap undeclared if they hold the same storage, at least one of
them is mutated and the signature does not declare that they alias.  This is a
relation on unordered pairs, while a conflict names a mutated input first.  The
file shows that a hardened check reports every such pair by exactly one
conflict, and reports nothing else.

## Strategy

* `Operator.mem_conflicts` says which conflicts are listed, without the loops.
* **No pair twice.**  Both orders of a pair are listed only if both inputs are
  mutated, and then the order with the higher position first is skipped
  (`Operator.eq_of_mem_conflicts`).
* **No pair lost.**  The skipped order is the one whose other input is mutated
  and lower, and the relation is symmetric, so the pair is met from there
  (`Operator.exists_mem_conflicts`).
* **Order.**  The list ascends strictly (`Operator.pairwise_conflicts`), so what
  is listed is listed once.
-/

namespace OpSchema

/-- The conflict is one of the inputs at `i` and `j`, in either order. -/
def Conflict.isOn (conflict : Conflict) (i j : Nat) : Bool :=
  decide (conflict.mutated = i ∧ conflict.other = j) ||
    decide (conflict.mutated = j ∧ conflict.other = i)

/-- Conflicts by the mutated input, and then by the other one. -/
def Conflict.Before (first second : Conflict) : Prop :=
  first.mutated < second.mutated ∨
    first.mutated = second.mutated ∧ first.other < second.other

namespace Operator

variable {op : Operator} {storages : List Storage}

/-- The inputs at `i` and `j` hold the same storage, at least one of them is
mutated, and the signature does not declare that they alias. -/
def OverlapsUndeclared (op : Operator) (storages : List Storage) (i j : Nat) : Prop :=
  (∃ storage, storages[i]? = some (some storage) ∧ storages[j]? = some (some storage)) ∧
    (op.isMutating i = .ok true ∨ op.isMutating j = .ok true) ∧
    op.areAliasing (.input i) (.input j) = .ok false

theorem OverlapsUndeclared.symm {i j : Nat} (hoverlap : op.OverlapsUndeclared storages i j) :
    op.OverlapsUndeclared storages j i := by
  obtain ⟨⟨storage, hi, hj⟩, hmutating, hundeclared⟩ := hoverlap
  exact ⟨⟨storage, hj, hi⟩, hmutating.symm, areAliasing_symm hundeclared⟩

theorem isMutating_eq_ok_true {i : Nat} : op.isMutating i = .ok true ↔ op.writesInput i = true := by
  simp only [isMutating, writesInput, slot, slots, Locator.input]
  cases hslot : op.inputs[i]? with
  | none => simp
  | some slot => simp

/-! ## Which conflicts are listed -/

theorem mem_conflictWith {mutated storage other : Nat} {held : Storage} {conflict : Conflict} :
    conflict ∈ op.conflictWith mutated storage (held, other) ↔
      conflict = ⟨mutated, other, storage⟩ ∧ other ≠ mutated ∧ held = some storage ∧
        ¬ (other < mutated ∧ op.writesInput other = true) ∧
        op.areAliasing (.input mutated) (.input other) = .ok false := by
  simp only [conflictWith]
  split
  · next hexamined =>
    split
    · next hundeclared => simp [hexamined, hundeclared]
    · next hdeclared =>
      simp only [List.not_mem_nil, false_iff]
      exact fun h => hdeclared h.2.2.2.2
  · next hskipped =>
    simp only [List.not_mem_nil, false_iff]
    rintro ⟨-, hne, hheld, hlower, -⟩
    exact hskipped ⟨hne, hheld, hlower⟩

theorem mem_conflictsFrom {mutated : Nat} {conflict : Conflict} :
    conflict ∈ op.conflictsFrom storages mutated ↔
      conflict.mutated = mutated ∧ conflict.other ≠ mutated ∧
        storages[mutated]? = some (some conflict.storage) ∧
        storages[conflict.other]? = some (some conflict.storage) ∧
        ¬ (conflict.other < mutated ∧ op.writesInput conflict.other = true) ∧
        op.areAliasing (.input mutated) (.input conflict.other) = .ok false := by
  simp only [conflictsFrom]
  split
  · next storage hstorage =>
    simp only [List.mem_flatMap, Prod.exists, mem_conflictWith, List.mem_zipIdx_iff_getElem?,
      hstorage]
    constructor
    · rintro ⟨held, other, hheld, rfl, hne, rfl, hlower, hundeclared⟩
      exact ⟨rfl, hne, rfl, hheld, hlower, hundeclared⟩
    · rintro ⟨rfl, hne, hsame, hheld, hlower, hundeclared⟩
      obtain rfl : storage = conflict.storage := by simpa using hsame
      exact ⟨_, _, hheld, rfl, hne, rfl, hlower, hundeclared⟩
  · next hnone =>
    simp only [List.not_mem_nil, false_iff]
    rintro ⟨-, -, hstorage, -⟩
    exact hnone _ hstorage

/-- A conflict is listed for a mutated input and another one with its storage,
if the signature does not declare it and the pair is not met from the other
input before. -/
theorem mem_conflicts {conflict : Conflict} :
    conflict ∈ op.conflicts storages ↔
      op.isMutating conflict.mutated = .ok true ∧ conflict.other ≠ conflict.mutated ∧
        storages[conflict.mutated]? = some (some conflict.storage) ∧
        storages[conflict.other]? = some (some conflict.storage) ∧
        ¬ (conflict.other < conflict.mutated ∧ op.isMutating conflict.other = .ok true) ∧
        op.areAliasing (.input conflict.mutated) (.input conflict.other) = .ok false := by
  simp only [conflicts, List.mem_flatMap, mem_mutatedInputs, mem_conflictsFrom,
    isMutating_eq_ok_true]
  constructor
  · rintro ⟨mutated, hwrites, rfl, hconflict⟩
    exact ⟨hwrites, hconflict⟩
  · rintro ⟨hwrites, hconflict⟩
    exact ⟨_, hwrites, rfl, hconflict⟩

/-- A listed conflict is an undeclared overlap. -/
theorem overlapsUndeclared_of_mem {conflict : Conflict} (hmem : conflict ∈ op.conflicts storages) :
    op.OverlapsUndeclared storages conflict.mutated conflict.other := by
  obtain ⟨hmutating, -, hmutated, hother, -, hundeclared⟩ := mem_conflicts.1 hmem
  exact ⟨⟨_, hmutated, hother⟩, .inl hmutating, hundeclared⟩

/-- **No pair is listed twice.** -/
theorem eq_of_mem_conflicts {first second : Conflict} (hfirst : first ∈ op.conflicts storages)
    (hsecond : second ∈ op.conflicts storages)
    (hpair : second.isOn first.mutated first.other = true) : second = first := by
  obtain ⟨hmutating₁, hne₁, hstorage₁, -, hlower₁, -⟩ := mem_conflicts.1 hfirst
  obtain ⟨hmutating₂, hne₂, hstorage₂, hother₂, hlower₂, -⟩ := mem_conflicts.1 hsecond
  simp only [Conflict.isOn, Bool.or_eq_true, decide_eq_true_eq] at hpair
  rcases hpair with ⟨hmutated, hother⟩ | ⟨hmutated, hother⟩
  · have hstorage : second.storage = first.storage := by
      rw [hmutated, hstorage₁] at hstorage₂
      simpa using hstorage₂.symm
    cases first
    cases second
    simp_all
  · -- Both inputs are mutated, and one of the two orders puts the higher first.
    rw [hmutated] at hmutating₂ hlower₂
    rw [hother] at hlower₂
    rcases Nat.lt_or_gt_of_ne hne₁ with hlt | hgt
    · exact absurd ⟨hlt, hmutating₂⟩ hlower₁
    · exact absurd ⟨hgt, hmutating₁⟩ hlower₂

/-- **No pair is lost.** -/
theorem exists_mem_conflicts {i j : Nat} (hne : i ≠ j)
    (hoverlap : op.OverlapsUndeclared storages i j) :
    ∃ conflict ∈ op.conflicts storages, conflict.isOn i j = true := by
  -- Take the mutated input of the pair, and of two mutated ones the lower.
  have hfrom : ∀ {m o : Nat}, m ≠ o → op.isMutating m = .ok true →
      ¬ (o < m ∧ op.isMutating o = .ok true) → op.OverlapsUndeclared storages m o →
      ∃ conflict ∈ op.conflicts storages, conflict.mutated = m ∧ conflict.other = o := by
    rintro m o hmo hmutating hlower ⟨⟨storage, hm, ho⟩, -, hundeclared⟩
    exact ⟨⟨m, o, storage⟩,
      mem_conflicts.2 ⟨hmutating, hmo.symm, hm, ho, hlower, hundeclared⟩, rfl, rfl⟩
  have hchoice : (op.isMutating i = .ok true ∧ ¬ (j < i ∧ op.isMutating j = .ok true)) ∨
      (op.isMutating j = .ok true ∧ ¬ (i < j ∧ op.isMutating i = .ok true)) := by
    by_cases hi : op.isMutating i = .ok true
    · by_cases hlower : j < i ∧ op.isMutating j = .ok true
      · exact .inr ⟨hlower.2, fun h => absurd h.1 (Nat.lt_asymm hlower.1)⟩
      · exact .inl ⟨hi, hlower⟩
    · exact .inr ⟨hoverlap.2.1.resolve_left hi, fun h => hi h.2⟩
  rcases hchoice with ⟨hmutating, hlower⟩ | ⟨hmutating, hlower⟩
  · obtain ⟨conflict, hmem, hmutated, hother⟩ := hfrom hne hmutating hlower hoverlap
    exact ⟨conflict, hmem, by simp [Conflict.isOn, hmutated, hother]⟩
  · obtain ⟨conflict, hmem, hmutated, hother⟩ := hfrom hne.symm hmutating hlower hoverlap.symm
    exact ⟨conflict, hmem, by simp [Conflict.isOn, hmutated, hother]⟩

/-! ## The order of the list -/

private theorem pairwise_zipIdx {α : Type} (items : List α) :
    items.zipIdx.Pairwise fun first second => first.2 < second.2 := by
  have hpositions : (items.zipIdx.map Prod.snd).Pairwise (· < ·) := by
    rw [List.zipIdx_map_snd]
    exact List.pairwise_lt_range'
  exact List.pairwise_map.1 hpositions

/-- The mutated inputs ascend. -/
theorem pairwise_mutatedInputs (op : Operator) : op.mutatedInputs.Pairwise (· < ·) :=
  List.pairwise_map.2 ((pairwise_zipIdx op.signature.inputs).filter _)

private theorem pairwise_conflictsFrom (mutated : Nat) :
    (op.conflictsFrom storages mutated).Pairwise Conflict.Before := by
  simp only [conflictsFrom]
  split
  · next storage _ =>
    refine List.pairwise_flatMap.2 ⟨?_, ?_⟩
    · rintro ⟨held, other⟩ -
      simp only [conflictWith]
      split
      · split <;> simp
      · exact List.Pairwise.nil
    · refine (pairwise_zipIdx storages).imp ?_
      rintro ⟨held₁, other₁⟩ ⟨held₂, other₂⟩ hlt first hfirst second hsecond
      obtain ⟨rfl, -⟩ := mem_conflictWith.1 hfirst
      obtain ⟨rfl, -⟩ := mem_conflictWith.1 hsecond
      exact .inr ⟨rfl, hlt⟩
  · exact List.Pairwise.nil

/-- The conflicts of a call ascend, first by the mutated input. -/
theorem pairwise_conflicts (op : Operator) (storages : List Storage) :
    (op.conflicts storages).Pairwise Conflict.Before := by
  refine List.pairwise_flatMap.2 ⟨fun mutated _ => pairwise_conflictsFrom mutated, ?_⟩
  refine (pairwise_mutatedInputs op).imp ?_
  intro lower higher hlt first hfirst second hsecond
  obtain ⟨rfl, -⟩ := mem_conflictsFrom.1 hfirst
  obtain ⟨rfl, -⟩ := mem_conflictsFrom.1 hsecond
  exact .inl hlt

theorem nodup_conflicts (op : Operator) (storages : List Storage) :
    (op.conflicts storages).Nodup := by
  refine (pairwise_conflicts op storages).imp ?_
  rintro first second hbefore rfl
  rcases hbefore with hlt | ⟨-, hlt⟩ <;> exact Nat.lt_irrefl _ hlt

/-! ## Counting -/

/-- An undeclared overlap is listed exactly once. -/
theorem countP_isOn_eq_one {i j : Nat} (hne : i ≠ j)
    (hoverlap : op.OverlapsUndeclared storages i j) :
    (op.conflicts storages).countP (fun conflict => conflict.isOn i j) = 1 := by
  obtain ⟨conflict, hmem, hon⟩ := exists_mem_conflicts hne hoverlap
  have hsame : ∀ other ∈ op.conflicts storages,
      other.isOn i j = true ↔ (other == conflict) = true := by
    intro other hother
    rw [beq_iff_eq]
    refine ⟨fun hpair => eq_of_mem_conflicts hmem hother ?_, fun heq => heq ▸ hon⟩
    simp only [Conflict.isOn, Bool.or_eq_true, decide_eq_true_eq] at hon hpair ⊢
    omega
  rw [List.countP_congr hsame]
  exact (nodup_conflicts op storages).count.trans (if_pos hmem)

/-- No other pair is listed. -/
theorem countP_isOn_eq_zero {i j : Nat} (hdeclared : ¬ op.OverlapsUndeclared storages i j) :
    (op.conflicts storages).countP (fun conflict => conflict.isOn i j) = 0 := by
  refine List.countP_eq_zero.2 fun conflict hmem hon => hdeclared ?_
  have hoverlap := overlapsUndeclared_of_mem hmem
  simp only [Conflict.isOn, Bool.or_eq_true, decide_eq_true_eq] at hon
  rcases hon with ⟨rfl, rfl⟩ | ⟨rfl, rfl⟩
  · exact hoverlap
  · exact hoverlap.symm

/-- There are conflicts if there is an undeclared overlap. -/
theorem conflicts_ne_nil_iff :
    op.conflicts storages ≠ [] ↔ ∃ i j, i ≠ j ∧ op.OverlapsUndeclared storages i j := by
  constructor
  · intro hne
    obtain ⟨conflict, hmem⟩ := List.exists_mem_of_ne_nil _ hne
    have hdistinct := (mem_conflicts.1 hmem).2.1
    exact ⟨_, _, hdistinct.symm, overlapsUndeclared_of_mem hmem⟩
  · rintro ⟨i, j, hne, hoverlap⟩
    obtain ⟨conflict, hmem, -⟩ := exists_mem_conflicts hne hoverlap
    exact List.ne_nil_of_mem hmem

end Operator

/-! ## The main statement -/

namespace Context

/-- **A hardened check reports every undeclared overlap exactly once, and nothing
else**: each by a mutated input that holds the shared storage, the lower one of
two, in ascending order, and with a copy required if there is any. -/
theorem checkInplace_hardened_reports_overlaps (context : Context) (op : Operator)
    (storages : List Storage) (hmode : context.mode = .hardened)
    (harity : storages.length = op.inputCount) :
    ∃ decision after, context.checkInplace op storages = (.ok decision, after) ∧
      (∀ i j, i ≠ j →
        (op.OverlapsUndeclared storages i j →
          decision.conflicts.countP (fun conflict => conflict.isOn i j) = 1) ∧
        (¬ op.OverlapsUndeclared storages i j →
          decision.conflicts.countP (fun conflict => conflict.isOn i j) = 0)) ∧
      (∀ conflict ∈ decision.conflicts,
        conflict.mutated ≠ conflict.other ∧
        op.isMutating conflict.mutated = .ok true ∧
        storages[conflict.mutated]? = some (some conflict.storage) ∧
        storages[conflict.other]? = some (some conflict.storage) ∧
        (op.isMutating conflict.other = .ok true → conflict.mutated < conflict.other)) ∧
      decision.conflicts.Pairwise Conflict.Before ∧
      (decision.copyRequired = true ↔ ∃ i j, i ≠ j ∧ op.OverlapsUndeclared storages i j) ∧
      decision.mutatedInputs.Pairwise (· < ·) ∧
      ∀ i, i ∈ decision.mutatedInputs ↔ op.isMutating i = .ok true := by
  obtain ⟨mode, ledger⟩ := context
  obtain rfl : mode = .hardened := hmode
  refine ⟨_, _, checkInplace_hardened harity, ?_, ?_, ?_, ?_, ?_, ?_⟩
  · exact fun i j hne => ⟨Operator.countP_isOn_eq_one hne, Operator.countP_isOn_eq_zero⟩
  · intro conflict hmem
    obtain ⟨hmutating, hne, hmutated, hother, hlower, -⟩ := Operator.mem_conflicts.1 hmem
    refine ⟨hne.symm, hmutating, hmutated, hother, fun hboth => ?_⟩
    exact Nat.lt_of_le_of_ne (Nat.not_lt.1 fun hlt => hlower ⟨hlt, hboth⟩) hne.symm
  · exact Operator.pairwise_conflicts op storages
  · rw [← Operator.conflicts_ne_nil_iff]
    simp
  · exact Operator.pairwise_mutatedInputs op
  · exact fun i => Operator.mem_mutatedInputs.trans Operator.isMutating_eq_ok_true.symm

/-- An operator that writes through inputs of two different sets and reads a
third input. -/
def exchange : Operator :=
  { signature :=
      { name := "exchange_"
        inputs := [⟨"left", .tensor, some (.write "a"), false⟩,
          ⟨"right", .tensor, some (.write "b"), false⟩, ⟨"spare", .tensor, none, false⟩] }
    valid := rfl
    inputs := _
    inputs_eq := rfl
    outputs := _
    outputs_eq := rfl
    positions := _
    positions_eq := rfl }

/-- Both written inputs and the one that is read in one storage. -/
theorem checkInplace_exchange_reports_overlaps :
    [some 7, some 7, some 7].length = exchange.inputCount ∧
      ∃ decision after,
        (Context.new .hardened).checkInplace exchange [some 7, some 7, some 7] =
          (.ok decision, after) ∧
        decision.copyRequired = true ∧
        decision.conflicts.countP (fun conflict => conflict.isOn 1 0) = 1 := by
  have harity : [some 7, some 7, some 7].length = exchange.inputCount := rfl
  have hoverlap : exchange.OverlapsUndeclared [some 7, some 7, some 7] 1 0 :=
    ⟨⟨7, rfl, rfl⟩, .inl rfl, rfl⟩
  obtain ⟨decision, after, hcheck, hpairs, -, -, hcopy, -⟩ :=
    checkInplace_hardened_reports_overlaps (.new .hardened) exchange _ rfl harity
  exact ⟨harity, decision, after, hcheck, hcopy.2 ⟨1, 0, by decide, hoverlap⟩,
    (hpairs 1 0 (by decide)).1 hoverlap⟩

end Context

end OpSchema
