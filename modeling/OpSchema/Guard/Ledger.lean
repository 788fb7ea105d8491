/-!
# The evidence ledger

Decisions are recorded as they are made.  A ledger only grows at its end.
-/

namespace OpSchema

/-- How undeclared overlaps are dealt with: rejected, or made safe by a copy. -/
inductive Mode where
  | strict
  | hardened
  deriving DecidableEq, Repr, Inhabited

namespace Mode

/-- The mode as it is chosen and reported. -/
def label : Mode → String
  | strict => "strict"
  | hardened => "hardened"

/-- The mode as it stands in evidence. -/
def title : Mode → String
  | strict => "Strict"
  | hardened => "Hardened"

/-- The mode of a label. -/
def ofLabel? (s : String) : Option Mode := [strict, hardened].find? fun mode => mode.label == s

end Mode

/-- What a piece of evidence is about. -/
inductive EvidenceKind where
  | schema
  | mutation
  | overlap
  | policy
  deriving DecidableEq, Repr, Inhabited

/-- The kind as it stands in front of a summary. -/
def EvidenceKind.title : EvidenceKind → String
  | schema => "Schema"
  | mutation => "Mutation"
  | overlap => "Alias"
  | policy => "Policy"

/-- One piece of evidence. -/
structure Evidence where
  kind : EvidenceKind
  summary : String
  deriving DecidableEq, Repr, Inhabited

/-- The kind and the summary. -/
def Evidence.render (e : Evidence) : String :=
  e.kind.title ++ ": " ++ e.summary

/-- The evidence in the order in which it was recorded. -/
structure Ledger where
  entries : Array Evidence := #[]
  deriving DecidableEq, Repr, Inhabited

namespace Ledger

/-- The ledger without evidence. -/
def empty : Ledger := ⟨#[]⟩

/-- Adds a piece of evidence at the end. -/
def record (ledger : Ledger) (kind : EvidenceKind) (summary : String) : Ledger :=
  ⟨ledger.entries.push ⟨kind, summary⟩⟩

/-- The number of pieces. -/
def size (ledger : Ledger) : Nat := ledger.entries.size

/-- The evidence as a list, in the order in which it was recorded. -/
def toList (ledger : Ledger) : List Evidence := ledger.entries.toList

/-- The ledger has no evidence. -/
def isEmpty (ledger : Ledger) : Bool := ledger.entries.isEmpty

@[simp] theorem toList_record (ledger : Ledger) (kind : EvidenceKind) (summary : String) :
    (ledger.record kind summary).toList = ledger.toList ++ [⟨kind, summary⟩] := by
  simp [toList, record]

@[simp] theorem size_record (ledger : Ledger) (kind : EvidenceKind) (summary : String) :
    (ledger.record kind summary).size = ledger.size + 1 := by
  simp [size, record]

end Ledger

end OpSchema
