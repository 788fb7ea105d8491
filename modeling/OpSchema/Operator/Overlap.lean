import Std.Data.HashSet
import OpSchema.Operator.Basic

/-!
# Which slots may share storage

Two slots alias when their alias sets share a symbol or when one of them is the
wildcard, whatever the other declares.  The relation is reflexive and symmetric,
but not transitive.  The wider relation also looks at the elements of containers
on either side.
-/

namespace OpSchema

namespace Aliasing

/-- Two slots with these aliasings may share storage. -/
def slotsOverlap : Option Aliasing → Option Aliasing → Bool
  | some a, some b => a.overlaps b
  | some a, Option.none => a.isWildcard
  | Option.none, some b => b.isWildcard
  | Option.none, Option.none => false

/-- The symbols of all sets in a list of aliasings. -/
def symbolsOf (aliasings : List Aliasing) : List String :=
  aliasings.flatMap fun a => a.sets.symbols

/-- The two lists share a symbol. -/
def shareSymbol (left right : List String) : Bool :=
  let known := Std.HashSet.ofList right
  left.any known.contains

/-- Some aliasing of one list may share storage with some aliasing of the other,
where neither list is empty.  A wildcard in one of them is enough; otherwise it
takes a symbol that stands in both, and each list is looked through once. -/
def listsOverlap (left right : List Aliasing) : Bool :=
  left.any isWildcard || right.any isWildcard || shareSymbol (symbolsOf left) (symbolsOf right)

/-- Two slots with these aliasings, or elements of them, may share storage. -/
def slotsMayOverlap : Option Aliasing → Option Aliasing → Bool
  | some a, some b => listsOverlap a.flatten b.flatten
  | some a, Option.none => a.flatten.any isWildcard
  | Option.none, some b => b.flatten.any isWildcard
  | Option.none, Option.none => false

/-- Overlapping slots overlap in either order. -/
theorem slotsOverlap_comm (left right : Option Aliasing) :
    slotsOverlap left right = slotsOverlap right left := by
  cases left with
  | none => cases right <;> rfl
  | some a =>
      cases right with
      | none => rfl
      | some b => exact a.overlaps_comm b

theorem shareSymbol_iff {left right : List String} :
    shareSymbol left right = true ↔ ∃ symbol ∈ left, symbol ∈ right := by
  simp [shareSymbol, List.any_eq_true]

/-- Two lists overlap if a member of one overlaps a member of the other. -/
theorem listsOverlap_iff {left right : List Aliasing} (hleft : left ≠ []) (hright : right ≠ []) :
    listsOverlap left right = true ↔ ∃ a ∈ left, ∃ b ∈ right, a.overlaps b = true := by
  obtain ⟨a, ha⟩ := List.exists_mem_of_ne_nil left hleft
  obtain ⟨b, hb⟩ := List.exists_mem_of_ne_nil right hright
  simp only [listsOverlap, symbolsOf, Bool.or_eq_true, List.any_eq_true, shareSymbol_iff,
    List.mem_flatMap, overlaps, intersects, SymbolSet.intersects_iff]
  constructor
  · rintro ((⟨x, hx, hwild⟩ | ⟨y, hy, hwild⟩) | ⟨symbol, ⟨x, hx, hsx⟩, ⟨y, hy, hsy⟩⟩)
    · exact ⟨x, hx, b, hb, .inl (.inl hwild)⟩
    · exact ⟨a, ha, y, hy, .inl (.inr hwild)⟩
    · exact ⟨x, hx, y, hy, .inr ⟨symbol, hsx, hsy⟩⟩
  · rintro ⟨x, hx, y, hy, (hwild | hwild) | ⟨symbol, hsx, hsy⟩⟩
    · exact .inl (.inl ⟨x, hx, hwild⟩)
    · exact .inl (.inr ⟨y, hy, hwild⟩)
    · exact .inr ⟨symbol, ⟨x, hx, hsx⟩, ⟨y, hy, hsy⟩⟩

end Aliasing

namespace Operator

/-- The two slots are declared to alias. -/
def areAliasing (op : Operator) (l r : Locator) : Except OperatorError Bool :=
  match op.slot l with
  | .error e => .error e
  | .ok left =>
    match op.slot r with
    | .error e => .error e
    | .ok right => .ok (l == r || Aliasing.slotsOverlap left.aliasing right.aliasing)

/-- An answer about two slots is the answer in the other order too. -/
theorem areAliasing_symm {op : Operator} {l r : Locator} {declared : Bool}
    (hanswer : op.areAliasing l r = .ok declared) : op.areAliasing r l = .ok declared := by
  simp only [areAliasing] at hanswer ⊢
  cases hleft : op.slot l with
  | error e => simp [hleft] at hanswer
  | ok left =>
      cases hright : op.slot r with
      | error e => simp [hleft, hright] at hanswer
      | ok right =>
          simp only [hleft, hright] at hanswer ⊢
          rw [← hanswer, Aliasing.slotsOverlap_comm, Bool.beq_comm]

/-- The two slots, or elements of them, are declared to alias. -/
def mayContainAlias (op : Operator) (l r : Locator) : Except OperatorError Bool :=
  match op.areAliasing l r with
  | .error e => .error e
  | .ok true => .ok true
  | .ok false =>
    match op.slot l with
    | .error e => .error e
    | .ok left =>
      match op.slot r with
      | .error e => .error e
      | .ok right => .ok (Aliasing.slotsMayOverlap left.aliasing right.aliasing)

/-- The positions among `inputs` of the inputs that alias a slot. -/
def aliasesAmong (op : Operator) (target : Locator) : List Nat → Except OperatorError (List Nat)
  | [] => .ok []
  | index :: inputs =>
    match op.areAliasing (.input index) target with
    | .error e => .error e
    | .ok declared =>
      match op.aliasesAmong target inputs with
      | .error e => .error e
      | .ok others => .ok (if declared then index :: others else others)

/-- The positions of the inputs that alias the output at a position, in
ascending order. -/
def outputAliases (op : Operator) (index : Nat) : Except OperatorError (List Nat) :=
  match op.slot (.output index) with
  | .error e => .error e
  | .ok _ => op.aliasesAmong (.output index) (List.range op.inputCount)

end Operator

end OpSchema
