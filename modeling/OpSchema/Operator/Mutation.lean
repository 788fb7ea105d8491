import OpSchema.Operator.Basic

/-!
# Which inputs an operator writes

An input is mutated when its aliasing says that the operator writes through it.
-/

namespace OpSchema.Operator

/-- The operator writes through the input at a position. -/
def isMutating (op : Operator) (index : Nat) : Except OperatorError Bool :=
  match op.slot (.input index) with
  | .error e => .error e
  | .ok slot => .ok slot.isWrite

/-- The operator writes through the input with a name. -/
def isMutatingByName (op : Operator) (name : String) : Except OperatorError Bool :=
  match op.inputPosition name with
  | .error e => .error e
  | .ok index => op.isMutating index

/-- The operator writes through one of its inputs. -/
def isMutable (op : Operator) : Bool := op.signature.isMutable

/-- The operator writes through the input at a position, and there is one. -/
def writesInput (op : Operator) (index : Nat) : Bool :=
  op.inputs[index]?.any Slot.isWrite

/-- The positions of the inputs that are written through, in ascending order. -/
def mutatedInputs (op : Operator) : List Nat :=
  (op.signature.inputs.zipIdx.filter fun (slot, _) => slot.isWrite).map Prod.snd

/-- The mutated inputs are those that the operator writes through. -/
theorem mem_mutatedInputs {op : Operator} {index : Nat} :
    index ∈ op.mutatedInputs ↔ op.writesInput index = true := by
  simp [mutatedInputs, writesInput, op.inputs_eq, List.mem_zipIdx_iff_getElem?, Option.any_eq_true]

/-- A mutated input is one of the inputs. -/
theorem lt_inputCount_of_mem {op : Operator} {index : Nat} (hmem : index ∈ op.mutatedInputs) :
    index < op.inputCount := by
  have hwrites := mem_mutatedInputs.1 hmem
  rw [writesInput, Option.any_eq_true] at hwrites
  obtain ⟨slot, hslot, -⟩ := hwrites
  exact (Array.getElem?_eq_some_iff.1 hslot).1

end OpSchema.Operator
