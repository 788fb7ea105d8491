import OpSchema.Alias.Aliasing

/-!
# Slots

A slot is one input or output of an operator: a name, which outputs may leave
empty, a type, and what it says about aliasing.
-/

namespace OpSchema

/-- The type of a slot. -/
inductive SlotType where
  | tensor
  | optionalTensor
  | tensorList
  | int
  | float
  | bool
  | scalar
  | intList
  | str
  | generic
  deriving DecidableEq, Repr, Inhabited

namespace SlotType

/-- Every type. -/
def all : List SlotType :=
  [tensor, optionalTensor, tensorList, int, float, bool, scalar, intList, str, generic]

/-- The type as it stands in a signature. -/
def label : SlotType → String
  | tensor => "Tensor"
  | optionalTensor => "Tensor?"
  | tensorList => "Tensor[]"
  | int => "int"
  | float => "float"
  | bool => "bool"
  | scalar => "Scalar"
  | intList => "int[]"
  | str => "str"
  | generic => "Any"

/-- The type as it stands in an encoded signature. -/
def name : SlotType → String
  | tensor => "tensor"
  | optionalTensor => "optional_tensor"
  | tensorList => "tensor_list"
  | int => "int"
  | float => "float"
  | bool => "bool"
  | scalar => "scalar"
  | intList => "int_list"
  | str => "str"
  | generic => "generic"

/-- The names of all types. -/
def names : List String := all.map name

/-- The type of a name. -/
def ofName? (s : String) : Option SlotType := all.find? fun type => type.name == s

/-- The type of a label. -/
def ofLabel? (s : String) : Option SlotType := all.find? fun type => type.label == s

@[simp] theorem ofName?_name (type : SlotType) : ofName? type.name = some type := by
  cases type <;> decide

@[simp] theorem ofLabel?_label (type : SlotType) : ofLabel? type.label = some type := by
  cases type <;> decide

/-- The mark of an aliasing, which is empty where there is none. -/
def mark (aliasing : Option Aliasing) : String :=
  (aliasing.map Aliasing.render).getD ""

/-- The type with the marks of its aliasing.  The mark of a tensor stands in
front of the question mark of an optional one; a list of tensors shows the mark
of its first element in front of the brackets and its own behind them. -/
def render (type : SlotType) (aliasing : Option Aliasing) : String :=
  match type with
  | optionalTensor => "Tensor" ++ mark aliasing ++ "?"
  | tensorList =>
    "Tensor" ++ mark (aliasing.bind fun a => a.contained.head?) ++ "[]" ++ mark aliasing
  | other => other.label ++ mark aliasing

end SlotType

/-- An input or output of an operator. -/
structure Slot where
  name : String
  type : SlotType
  aliasing : Option Aliasing := Option.none
  keywordOnly : Bool := false
  deriving DecidableEq, Inhabited

namespace Slot

/-- The operator writes through the slot. -/
def isWrite (slot : Slot) : Bool :=
  slot.aliasing.any Aliasing.isWrite

/-- The slot as it stands in a signature. -/
def render (slot : Slot) : String :=
  let rendered := slot.type.render slot.aliasing
  if slot.name.isEmpty then rendered else rendered ++ " " ++ slot.name

end Slot

end OpSchema
