import OpSchema.Signature.Basic
import OpSchema.Signature.Error
import OpSchema.Text.WhiteSpace

/-!
# Validation

A signature is checked from its name through its inputs to its outputs, and the
first defect is reported.  The slots of a valid signature can be told apart by
name, and its alias sets are named by identifiers or are the wildcard alone.
-/

namespace OpSchema

/-- A letter or underscore followed by letters, digits and underscores, all of
them ASCII. -/
def isIdentifier (s : String) : Bool :=
  match s.toList with
  | [] => false
  | c :: cs => (c.isAlpha || c == '_') && cs.all fun d => d.isAlphanum || d == '_'

/-- The symbols that an alias set may have. -/
def isAliasSymbol (s : String) : Bool :=
  s == wildcardSymbol || isIdentifier s

namespace Aliasing

mutual

/-- Checks an aliasing and all that it contains on behalf of a slot: its symbols
in ascending order, then a write without a set, then a wildcard beside other
symbols, then its elements. -/
def validate (slot : String) : Aliasing → Except SignatureError Unit
  | ⟨sets, isWrite, contained⟩ =>
    match sets.symbols.find? fun symbol => !isAliasSymbol symbol with
    | some symbol => .error (.invalidSymbol slot symbol)
    | Option.none =>
      if isWrite && sets.isEmpty then .error (.writeWithoutSet slot)
      else if sets.contains wildcardSymbol && decide (1 < sets.size) then
        .error (.mixedWildcard slot)
      else validateList slot contained

/-- Checks a list of aliasings from left to right. -/
def validateList (slot : String) : List Aliasing → Except SignatureError Unit
  | [] => .ok ()
  | a :: as =>
    match validate slot a with
    | .error e => .error e
    | .ok () => validateList slot as

end

end Aliasing

namespace Slot

/-- Checks the aliasing of a slot under a label for the slot. -/
def validateAliasing (label : String) (slot : Slot) : Except SignatureError Unit :=
  match slot.aliasing with
  | none => .ok ()
  | some aliasing => aliasing.validate label

end Slot

namespace Signature

/-- Checks the inputs from position `index` on, the names before it being
`seen`. -/
def validateInputs (index : Nat) (seen : List String) : List Slot → Except SignatureError Unit
  | [] => .ok ()
  | slot :: slots =>
    if slot.name.isEmpty then .error (.emptyInputName index)
    else if seen.contains slot.name then .error (.duplicateInput slot.name)
    else
      match slot.validateAliasing slot.name with
      | .error e => .error e
      | .ok () => validateInputs (index + 1) (slot.name :: seen) slots

/-- What messages call the output at a position. -/
def outputLabel (index : Nat) (slot : Slot) : String :=
  if slot.name.isEmpty then "return " ++ toString index else slot.name

/-- Checks the outputs from position `index` on, the names before it being
`seen`.  Empty names may repeat. -/
def validateOutputs (index : Nat) (seen : List String) : List Slot → Except SignatureError Unit
  | [] => .ok ()
  | slot :: slots =>
    if !slot.name.isEmpty && seen.contains slot.name then .error (.duplicateOutput slot.name)
    else
      match slot.validateAliasing (outputLabel index slot) with
      | .error e => .error e
      | .ok () => validateOutputs (index + 1) (slot.name :: seen) slots

/-- The first defect of a signature, if it has one. -/
def validate (s : Signature) : Except SignatureError Unit :=
  if Text.isBlank s.name then .error .blankName
  else
    match validateInputs 0 [] s.inputs with
    | .error e => .error e
    | .ok () => validateOutputs 0 [] s.outputs

end Signature

end OpSchema
