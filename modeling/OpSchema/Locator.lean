import OpSchema.Json.Reader
import OpSchema.Json.Writer

/-!
# Locators

A locator names one slot of a signature: an input or an output, and its
position.
-/

namespace OpSchema

open Json (Document Grammar RecordShape)

/-- The two lists of slots. -/
inductive SlotKind where
  | input
  | output
  deriving DecidableEq, Repr, Inhabited

namespace SlotKind

/-- The name of the list. -/
def label : SlotKind → String
  | input => "input"
  | output => "output"

/-- The list of a name. -/
def ofLabel? (s : String) : Option SlotKind :=
  [input, output].find? fun kind => kind.label == s

/-- Inputs come before outputs. -/
def rank : SlotKind → Nat
  | input => 0
  | output => 1

@[simp] theorem ofLabel?_label (kind : SlotKind) : ofLabel? kind.label = some kind := by
  cases kind <;> decide

end SlotKind

/-- A slot by its list and its position there. -/
structure Locator where
  kind : SlotKind
  index : Nat
  deriving DecidableEq, Repr, Inhabited

namespace Locator

/-- The input at a position. -/
def input (index : Nat) : Locator := ⟨.input, index⟩

/-- The output at a position. -/
def output (index : Nat) : Locator := ⟨.output, index⟩

/-- Inputs before outputs, and each by position. -/
def compare (l r : Locator) : Ordering :=
  (Ord.compare l.kind.rank r.kind.rank).then (Ord.compare l.index r.index)

instance : Ord Locator := ⟨compare⟩

/-- The locator as it stands in messages. -/
def render (l : Locator) : String :=
  l.kind.label ++ "[" ++ toString l.index ++ "]"

/-! ## Encoded locators -/

/-- The fields of an encoded locator, whatever other records the format has. -/
def recordShape {ρ : Type} : RecordShape ρ :=
  { title := "struct SchemaArgument"
    fields := [⟨"kind", .required, .choice ["input", "output"]⟩, ⟨"index", .required, .count "usize"⟩] }

/-- The document of a locator. -/
def toDocument (l : Locator) : Document :=
  .object [("kind", .text l.kind.label), ("index", .natural l.index)]

/-- The encoded locator. -/
def encode (l : Locator) : String := l.toDocument.compact

/-- The list that a document names, alone or as the key of an object. -/
def kindOfDocument : Document → SlotKind
  | .text name => (SlotKind.ofLabel? name).getD .input
  | .object ((name, _) :: _) => (SlotKind.ofLabel? name).getD .input
  | _ => .input

/-- The locator that a document describes. -/
def ofDocument (d : Document) : Locator :=
  let names := (@recordShape Empty).names
  ⟨kindOfDocument (d.field names "kind"), (d.field names "index").asNatural⟩

/-- The format whose only record is the locator. -/
def grammar : Grammar Unit := fun _ => recordShape

/-- The locator that a text describes, or the diagnostic. -/
def decode (source : String) : Except String Locator :=
  match Json.parse grammar (.record ()) source with
  | .error diagnostic => .error diagnostic
  | .ok d => .ok (ofDocument d)

end Locator

end OpSchema
