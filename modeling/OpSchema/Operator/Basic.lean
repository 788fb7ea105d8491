import Std.Data.HashMap
import OpSchema.Locator
import OpSchema.Signature.Codec

/-!
# Operators

An operator is a signature that has passed validation, together with tables that
answer for a slot by its position and for an input by its name.  Queries on an
operator only read it.

## Main definitions

* `Operator.ofSignature`, `Operator.load`: the ways to get one.
* `Operator.slot`: the slot that a locator names.
* `Operator.inputPosition`: the position of an input by name.
-/

namespace OpSchema

/-- Why an operator could not be had or asked. -/
inductive OperatorError where
  /-- A list of `size` slots has no slot at the position. -/
  | outOfRange (locator : Locator) (size : Nat)
  /-- No input has the name. -/
  | notFound (name : String)
  /-- The signature was rejected. -/
  | invalidSignature (error : SignatureError)
  deriving DecidableEq, Repr

namespace OperatorError

/-- The wording of an error. -/
def message : OperatorError → String
  | outOfRange locator size =>
    locator.kind.label ++ " slot " ++ toString locator.index ++
      " is out of range (schema declares " ++ toString size ++ ")"
  | notFound name => "schema has no input slot named '" ++ name ++ "'"
  | invalidSignature error => "invalid schema: " ++ error.message

/-- The error of the signature that is behind an error. -/
def source? : OperatorError → Option SignatureError
  | invalidSignature error => some error
  | _ => none

/-- The short name of an error. -/
def label : OperatorError → String
  | outOfRange _ _ => "out_of_range"
  | notFound _ => "not_found"
  | invalidSignature error => "invalid_schema:" ++ error.label

end OperatorError

/-- The positions of the inputs by name; the last position of a repeated name. -/
def Signature.positionTable (s : Signature) : Std.HashMap String Nat :=
  Std.HashMap.ofList (s.inputs.zipIdx.map fun (slot, index) => (slot.name, index))

/-- A valid signature with its slots by position and its inputs by name. -/
structure Operator where
  signature : Signature
  valid : signature.validate = .ok ()
  inputs : Array Slot
  inputs_eq : inputs = signature.inputs.toArray
  outputs : Array Slot
  outputs_eq : outputs = signature.outputs.toArray
  positions : Std.HashMap String Nat
  positions_eq : positions = signature.positionTable

namespace Operator

/-! ## Loading -/

/-- The operator of a valid signature. -/
def ofSignature (s : Signature) : Except OperatorError Operator :=
  match valid : s.validate with
  | .error e => .error (.invalidSignature e)
  | .ok () => .ok ⟨s, valid, s.inputs.toArray, rfl, s.outputs.toArray, rfl, s.positionTable, rfl⟩

/-- A valid signature has an operator. -/
theorem exists_ofSignature {s : Signature} (hvalid : s.validate = .ok ()) :
    ∃ op, ofSignature s = .ok op ∧ op.signature = s := by
  unfold ofSignature
  split
  · next e herror =>
    rw [hvalid] at herror
    exact absurd herror nofun
  · exact ⟨_, rfl, rfl⟩

/-- The operator that an encoded signature describes. -/
def load (source : String) : Except OperatorError Operator :=
  match Signature.decode source with
  | .error e => .error (.invalidSignature e)
  | .ok s => ofSignature s

/-! ## Slots -/

/-- The name of the operator with its overload. -/
def qualifiedName (op : Operator) : String := op.signature.qualifiedName

/-- The number of inputs. -/
def inputCount (op : Operator) : Nat := op.inputs.size

/-- The number of outputs. -/
def outputCount (op : Operator) : Nat := op.outputs.size

/-- The inputs or the outputs. -/
def slots (op : Operator) : SlotKind → Array Slot
  | .input => op.inputs
  | .output => op.outputs

/-- The slot that a locator names. -/
def slot (op : Operator) (locator : Locator) : Except OperatorError Slot :=
  match (op.slots locator.kind)[locator.index]? with
  | some slot => .ok slot
  | none => .error (.outOfRange locator (op.slots locator.kind).size)

/-- The table of inputs has as many slots as the signature. -/
theorem inputCount_eq (op : Operator) : op.inputCount = op.signature.inputs.length := by
  rw [inputCount, op.inputs_eq, List.size_toArray]

/-- The table of outputs has as many slots as the signature. -/
theorem outputCount_eq (op : Operator) : op.outputCount = op.signature.outputs.length := by
  rw [outputCount, op.outputs_eq, List.size_toArray]

/-- All locators of the operator: the inputs, then the outputs. -/
def locators (op : Operator) : List Locator :=
  (List.range op.inputCount).map .input ++ (List.range op.outputCount).map .output

/-! ## Inputs by name -/

/-- An input has the name. -/
def hasInput (op : Operator) (name : String) : Bool := op.positions.contains name

/-- The position of the input with a name. -/
def inputPosition (op : Operator) (name : String) : Except OperatorError Nat :=
  match op.positions[name]? with
  | some index => .ok index
  | none => .error (.notFound name)

end Operator

end OpSchema
