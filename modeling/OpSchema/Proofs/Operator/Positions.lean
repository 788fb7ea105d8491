import OpSchema.Proofs.Guard.Overlap
import OpSchema.Proofs.Operator.Overlap

/-!
# Inputs by name and by position

An operator finds an input by its name in a table that is made once, and a signature
finds it by going through its inputs.  If a name were used twice the two would differ:
the table keeps the last position of a name and the search stops at the first.  The inputs
of a valid signature have distinct names, so that both give the one position at which the name
stands (`Signature.positionTable_eq_some_iff`, `Signature.inputIndex?_eq_some_iff`).

Questions by name are then questions by position, and the list of mutated inputs is the list
of those positions whose question is answered with yes
(`Operator.inputPosition_finds_named_input`).
-/

namespace OpSchema

namespace Signature

variable {s : Signature} {name : String} {index : Nat}

/-- The input at a position has the name. -/
def IsNamed (s : Signature) (index : Nat) (name : String) : Prop :=
  ∃ slot, s.inputs[index]? = some slot ∧ slot.name = name

theorem isNamed_iff : s.IsNamed index name ↔ (s.inputs.map Slot.name)[index]? = some name := by
  rw [IsNamed, List.getElem?_map, Option.map_eq_some_iff]

theorem exists_isNamed_iff : (∃ index, s.IsNamed index name) ↔ name ∈ s.inputs.map Slot.name := by
  rw [List.mem_iff_getElem?]
  exact exists_congr fun _ => isNamed_iff

theorem IsNamed.lt_length (hnamed : s.IsNamed index name) : index < s.inputs.length := by
  obtain ⟨slot, hslot, -⟩ := hnamed
  exact (List.getElem?_eq_some_iff.1 hslot).1

theorem IsNamed.name_getElem (hnamed : s.IsNamed index name) (hindex : index < s.inputs.length) :
    s.inputs[index].name = name := by
  obtain ⟨slot, hslot, hname⟩ := hnamed
  rw [List.getElem?_eq_getElem hindex, Option.some.injEq] at hslot
  rw [hslot, hname]

theorem nodup_names_of_validate (hvalid : s.validate = .ok ()) :
    (s.inputs.map Slot.name).Nodup := by
  obtain ⟨-, hinputs, -⟩ := validate_eq_ok.1 hvalid
  exact fresh_nil_left.1 (validateInputs_eq_ok.1 hinputs).2

/-- The table is made from the names and their positions. -/
theorem positionTable_eq (s : Signature) :
    s.positionTable = Std.HashMap.ofList (s.inputs.map Slot.name).zipIdx := by
  rw [positionTable, List.zipIdx_map]
  rfl

theorem positionTable_eq_none (hnone : ¬∃ index, s.IsNamed index name) :
    s.positionTable[name]? = none := by
  rw [positionTable_eq]
  apply Std.HashMap.getElem?_ofList_of_contains_eq_false
  rw [List.zipIdx_map_fst, Bool.eq_false_iff, ne_eq, List.contains_iff_mem]
  exact fun hmem => hnone (exists_isNamed_iff.2 hmem)

section Distinct

variable (hdistinct : (s.inputs.map Slot.name).Nodup)
include hdistinct

/-- A name stands at one position. -/
theorem IsNamed.unique {other : Nat} (hnamed : s.IsNamed index name)
    (hother : s.IsNamed other name) : index = other := by
  have hindex : index < (s.inputs.map Slot.name).length := by
    rw [List.length_map]
    exact hnamed.lt_length
  apply (List.getElem?_inj hindex hdistinct).1
  rw [isNamed_iff.1 hnamed, isNamed_iff.1 hother]

/-- The search stops at the position of the name. -/
theorem inputIndex?_eq_some_iff : s.inputIndex? name = some index ↔ s.IsNamed index name := by
  rw [inputIndex?, List.findIdx?_eq_some_iff_getElem]
  constructor
  · rintro ⟨hindex, hname, -⟩
    exact ⟨s.inputs[index], List.getElem?_eq_getElem hindex, eq_of_beq hname⟩
  · intro hnamed
    have hindex := hnamed.lt_length
    refine ⟨hindex, beq_iff_eq.2 (hnamed.name_getElem hindex), ?_⟩
    -- An earlier input with the name would be at this position too.
    intro earlier hearlier hsame
    have hfound : s.IsNamed earlier name :=
      ⟨s.inputs[earlier], List.getElem?_eq_getElem _, eq_of_beq hsame⟩
    exact absurd (hfound.unique hdistinct hnamed) (Nat.ne_of_lt hearlier)

/-- The table has the position of the name. -/
theorem positionTable_eq_some_iff : s.positionTable[name]? = some index ↔ s.IsNamed index name := by
  have hkeys : (s.inputs.map Slot.name).zipIdx.Pairwise fun first second =>
      (first.1 == second.1) = false := by
    rw [← List.pairwise_map (R := fun first second => (first == second) = false),
      List.zipIdx_map_fst]
    exact hdistinct.imp fun hne => beq_false_of_ne hne
  have hfound : ∀ position, s.IsNamed position name → s.positionTable[name]? = some position := by
    intro position hnamed
    rw [positionTable_eq]
    apply Std.HashMap.getElem?_ofList_of_mem (beq_self_eq_true name) hkeys
    exact List.mk_mem_zipIdx_iff_getElem?.2 (isNamed_iff.1 hnamed)
  refine ⟨fun hindex => ?_, hfound index⟩
  by_cases hname : ∃ position, s.IsNamed position name
  · obtain ⟨position, hnamed⟩ := hname
    rw [hfound position hnamed, Option.some.injEq] at hindex
    exact hindex ▸ hnamed
  · rw [positionTable_eq_none hname] at hindex
    exact absurd hindex nofun

end Distinct

end Signature

namespace Operator

variable {op : Operator} {s : Signature} {name : String} {index : Nat}

theorem signature_of_ofSignature (hload : ofSignature s = .ok op) : op.signature = s := by
  unfold ofSignature at hload
  split at hload
  · exact absurd hload nofun
  · rw [← Except.ok.inj hload]

/-! ## Questions by name -/

theorem inputPosition_eq_ok_iff :
    op.inputPosition name = .ok index ↔ op.signature.IsNamed index name := by
  rw [← Signature.positionTable_eq_some_iff (Signature.nodup_names_of_validate op.valid),
    inputPosition, op.positions_eq]
  cases op.signature.positionTable[name]? with
  | none => simp
  | some position => simp

theorem inputPosition_of_not_exists (hnone : ¬∃ index, op.signature.IsNamed index name) :
    op.inputPosition name = .error (.notFound name) := by
  rw [inputPosition, op.positions_eq, Signature.positionTable_eq_none hnone]

theorem isMutatingByName_of_not_exists (hnone : ¬∃ index, op.signature.IsNamed index name) :
    op.isMutatingByName name = .error (.notFound name) := by
  rw [isMutatingByName, inputPosition_of_not_exists hnone]

theorem hasInput_iff : op.hasInput name = true ↔ ∃ index, op.signature.IsNamed index name := by
  rw [hasInput, op.positions_eq, Signature.positionTable_eq, Std.HashMap.contains_ofList,
    List.zipIdx_map_fst, List.contains_iff_mem, Signature.exists_isNamed_iff]

/-- A question by name is the question by the position of the name. -/
theorem exists_isMutatingByName (hnamed : op.signature.IsNamed index name) :
    ∃ writes, op.isMutating index = .ok writes ∧ op.isMutatingByName name = .ok writes := by
  have hindex : index < op.inputCount := by
    rw [inputCount_eq]
    exact hnamed.lt_length
  obtain ⟨slot, hslot⟩ := exists_slot_input hindex
  have hmutating : op.isMutating index = .ok slot.isWrite := by rw [isMutating, hslot]
  refine ⟨slot.isWrite, hmutating, ?_⟩
  rw [isMutatingByName, inputPosition_eq_ok_iff.2 hnamed]
  exact hmutating

/-! ## Mutated inputs -/

theorem mem_mutatedInputs_iff : index ∈ op.mutatedInputs ↔ op.isMutating index = .ok true := by
  rw [mem_mutatedInputs, isMutating_eq_ok_true]

/-- Some input is mutated exactly if the signature is mutable. -/
theorem mutatedInputs_ne_nil_iff : op.mutatedInputs ≠ [] ↔ op.isMutable = true := by
  rw [isMutable, Signature.isMutable, List.any_eq_true]
  constructor
  · intro hsome
    obtain ⟨index, hindex⟩ := List.exists_mem_of_ne_nil _ hsome
    have hwrites := mem_mutatedInputs.1 hindex
    rw [writesInput, op.inputs_eq, List.getElem?_toArray, Option.any_eq_true] at hwrites
    obtain ⟨slot, hslot, hwrite⟩ := hwrites
    exact ⟨slot, List.mem_of_getElem? hslot, hwrite⟩
  · rintro ⟨slot, hslot, hwrite⟩
    obtain ⟨index, hindex⟩ := List.mem_iff_getElem?.1 hslot
    have hmem : index ∈ op.mutatedInputs := by
      rw [mem_mutatedInputs, writesInput, op.inputs_eq, List.getElem?_toArray, hindex]
      exact hwrite
    exact List.ne_nil_of_mem hmem

/-! ## All questions about inputs -/

/-- **Inputs are found by name where they stand.**  In the operator of a valid signature the
position of a name is the one at which an input has it, and the one that a search through the
inputs finds; a name that no input has is not found, by whatever question.  What is asked by name
is answered as by position, and the mutated inputs are the positions with the answer yes, in
ascending order; there are some exactly if the operator is mutable. -/
theorem inputPosition_finds_named_input (s : Signature) (op : Operator)
    (hload : ofSignature s = .ok op) :
    (∀ name,
      (∀ index, op.inputPosition name = .ok index ↔
        index < op.inputCount ∧ s.IsNamed index name) ∧
      (∀ index other, s.IsNamed index name → s.IsNamed other name → index = other) ∧
      (∀ index, op.inputPosition name = .ok index ↔ s.inputIndex? name = some index) ∧
      ((¬∃ index, s.IsNamed index name) → op.inputPosition name = .error (.notFound name) ∧
        op.isMutatingByName name = .error (.notFound name)) ∧
      (op.hasInput name = true ↔ ∃ index, s.IsNamed index name) ∧
      ∀ index, s.IsNamed index name →
        ∃ writes, op.isMutating index = .ok writes ∧ op.isMutatingByName name = .ok writes) ∧
    op.mutatedInputs.Pairwise (· < ·) ∧
    (∀ index, index ∈ op.mutatedInputs ↔ op.isMutating index = .ok true) ∧
    (op.mutatedInputs ≠ [] ↔ op.isMutable = true) := by
  obtain rfl := signature_of_ofSignature hload
  have hdistinct := Signature.nodup_names_of_validate op.valid
  refine ⟨fun name => ⟨?_, ?_, ?_, ?_, hasInput_iff, fun index => exists_isMutatingByName⟩,
    pairwise_mutatedInputs op, fun index => mem_mutatedInputs_iff, mutatedInputs_ne_nil_iff⟩
  · intro index
    rw [inputPosition_eq_ok_iff, inputCount_eq]
    exact (and_iff_right_of_imp Signature.IsNamed.lt_length).symm
  · intro index other hnamed hother
    exact hnamed.unique hdistinct hother
  · intro index
    rw [inputPosition_eq_ok_iff, Signature.inputIndex?_eq_some_iff hdistinct]
  · intro hnone
    exact ⟨inputPosition_of_not_exists hnone, isMutatingByName_of_not_exists hnone⟩

/-- A signature that writes through its second input. -/
def accumulation : Signature :=
  { name := "accumulate_"
    inputs := [⟨"term", .tensor, none, false⟩, ⟨"total", .tensor, some (.write "a"), false⟩,
      ⟨"scale", .scalar, none, true⟩]
    outputs := [⟨"total", .tensor, some (.write "a"), false⟩] }

/-- The name of the output is that of the second input, which is the one that is found. -/
theorem inputPosition_accumulation :
    ∃ op, ofSignature accumulation = .ok op ∧ op.inputPosition "total" = .ok 1 ∧
      op.isMutatingByName "total" = .ok true ∧ op.hasInput "mean" = false ∧
      op.isMutatingByName "mean" = .error (.notFound "mean") ∧ op.mutatedInputs ≠ [] := by
  obtain ⟨op, hload, hsignature⟩ := exists_ofSignature (s := accumulation) rfl
  obtain ⟨hnames, -, hmutated, hmutable⟩ := inputPosition_finds_named_input accumulation op hload
  have htotal : accumulation.IsNamed 1 "total" := ⟨_, rfl, rfl⟩
  have hmean : ¬∃ index, accumulation.IsNamed index "mean" := by
    rw [Signature.exists_isNamed_iff]
    decide
  obtain ⟨hposition, -, -, -, -, hwrites⟩ := hnames "total"
  obtain ⟨-, -, -, hmissing, hhas, -⟩ := hnames "mean"
  refine ⟨op, hload, ?_, ?_, ?_, (hmissing hmean).2, ?_⟩
  · exact (hposition 1).2 ⟨by rw [inputCount_eq, hsignature]; decide, htotal⟩
  · obtain ⟨writes, hindex, hname⟩ := hwrites 1 htotal
    rw [hname, ← hindex, ← hmutated, mem_mutatedInputs, writesInput, op.inputs_eq, hsignature]
    rfl
  · exact Bool.eq_false_iff.2 fun hfound => hmean (hhas.1 hfound)
  · rw [hmutable, isMutable, hsignature]
    rfl

end Operator

end OpSchema
