import OpSchema.Slot

/-!
# Signatures

The signature of an operator overload: its name, the name of the overload, the
input slots and the output slots.
-/

namespace OpSchema

/-- The declared signature of one operator overload. -/
structure Signature where
  name : String
  overload : String := ""
  inputs : List Slot := []
  outputs : List Slot := []
  deriving DecidableEq, Inhabited

namespace Signature

/-- The name, followed by the name of the overload if there is one. -/
def qualifiedName (s : Signature) : String :=
  if s.overload.isEmpty then s.name else s.name ++ "." ++ s.overload

/-- The position of the first input with a name. -/
def inputIndex? (s : Signature) (name : String) : Option Nat :=
  s.inputs.findIdx? fun slot => slot.name == name

/-- The operator writes through one of its inputs. -/
def isMutable (s : Signature) : Bool :=
  s.inputs.any Slot.isWrite

/-- The inputs as they stand in the signature.  A star stands in front of the
first one that is given by keyword only. -/
def renderInputs : List Slot → List String
  | [] => []
  | slot :: slots =>
    if slot.keywordOnly then ("*, " ++ slot.render) :: slots.map Slot.render
    else slot.render :: renderInputs slots

/-- The outputs as they stand in the signature: a single one bare, any other
number of them in parentheses. -/
def renderOutputs : List Slot → String
  | [slot] => slot.render
  | slots => "(" ++ ", ".intercalate (slots.map Slot.render) ++ ")"

/-- The signature in its conventional form. -/
def render (s : Signature) : String :=
  s.qualifiedName ++ "(" ++ ", ".intercalate (renderInputs s.inputs) ++ ") -> " ++
    renderOutputs s.outputs

end Signature

end OpSchema
