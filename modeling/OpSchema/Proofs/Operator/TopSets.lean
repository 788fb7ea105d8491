import OpSchema.Proofs.Operator.Overlap

/-!
# Aliasing by the sets at the top

Whether two slots alias is a question about two positions, and a signature declares
for each of them an alias set or nothing at all.  The answer is a function of these
sets and of nothing else: it does not look at names, types, writes or the elements of
a container (`Operator.areAliasing_congr`).  Two slots alias if one of the two sets is the
wildcard, whatever the other slot declares, or if both slots declare a common symbol
(`Slot.Shares`).

Positions are checked before anything is compared, the first locator before the second.
So a locator out of range is reported even if both are the same, and the order of two
slots shows only in the error (`Operator.areAliasing_compares_top_sets`).

The inputs that alias an output are found by one question for each input.  All of these are
answered, since the output was looked up before, and the positions are asked in ascending
order (`Operator.aliasesAmong_eq_filter`).
-/

namespace OpSchema

/-! ## Slots of a signature -/

namespace Signature

/-- The inputs or the outputs. -/
def slotsOf (s : Signature) : SlotKind → List Slot
  | .input => s.inputs
  | .output => s.outputs

/-- The slot that a locator names, if there is one. -/
def slotAt? (s : Signature) (l : Locator) : Option Slot := (s.slotsOf l.kind)[l.index]?

end Signature

namespace Slot

variable {left right : Slot}

/-- The alias set that a slot declares for itself, whatever its elements declare. -/
def topSet (slot : Slot) : Option SymbolSet := slot.aliasing.map Aliasing.sets

/-- The slots are declared to alias: the set of one of them is the wildcard, or both
declare a symbol. -/
def Shares (left right : Slot) : Prop :=
  left.topSet = some (.singleton "*") ∨ right.topSet = some (.singleton "*") ∨
    ∃ first second symbol, left.topSet = some first ∧ right.topSet = some second ∧
      symbol ∈ first ∧ symbol ∈ second

/-- Only the sets at the top matter. -/
theorem shares_congr {left' right' : Slot} (hleft : left'.topSet = left.topSet)
    (hright : right'.topSet = right.topSet) : left'.Shares right' ↔ left.Shares right := by
  unfold Shares
  rw [hleft, hright]

theorem IsSound.top {slot : Slot} {a : Aliasing} (hsound : slot.IsSound)
    (htop : slot.aliasing = some a) : a.IsSound :=
  hsound a htop 0 a (.top a)

theorem IsSound.isWildcard_iff_topSet {slot : Slot} {a : Aliasing} (hsound : slot.IsSound)
    (htop : slot.aliasing = some a) :
    a.isWildcard = true ↔ slot.topSet = some (.singleton "*") := by
  rw [(hsound.top htop).isWildcard_iff, topSet, htop, Option.map_some, Option.some.injEq]

theorem topSet_of_none {slot : Slot} (hnone : slot.aliasing = none) : slot.topSet = none := by
  rw [topSet, hnone, Option.map_none]

theorem topSet_of_some {slot : Slot} {a : Aliasing} (htop : slot.aliasing = some a) :
    slot.topSet = some a.sets := by
  rw [topSet, htop, Option.map_some]

/-- **The sets at the top are compared.** -/
theorem slotsOverlap_iff (hleft : left.IsSound) (hright : right.IsSound) :
    Aliasing.slotsOverlap left.aliasing right.aliasing = true ↔ left.Shares right := by
  cases hfirst : left.aliasing with
  | none =>
      cases hsecond : right.aliasing with
      | none => simp [Aliasing.slotsOverlap, Shares, topSet_of_none hfirst, topSet_of_none hsecond]
      | some b =>
          rw [Aliasing.slotsOverlap, hright.isWildcard_iff_topSet hsecond]
          simp [Shares, topSet_of_none hfirst]
  | some a =>
      cases hsecond : right.aliasing with
      | none =>
          rw [Aliasing.slotsOverlap, hleft.isWildcard_iff_topSet hfirst]
          simp [Shares, topSet_of_none hsecond]
      | some b =>
          rw [Aliasing.slotsOverlap, Aliasing.overlaps, Bool.or_eq_true, Bool.or_eq_true,
            hleft.isWildcard_iff_topSet hfirst, hright.isWildcard_iff_topSet hsecond,
            Aliasing.intersects, SymbolSet.intersects_iff, or_assoc]
          simp [Shares, topSet_of_some hfirst, topSet_of_some hsecond]

end Slot

namespace Operator

variable {op other : Operator} {l r : Locator} {left right : Slot}

/-! ## Slots by their locators -/

theorem slots_eq (op : Operator) (kind : SlotKind) :
    op.slots kind = (op.signature.slotsOf kind).toArray := by
  cases kind with
  | input => exact op.inputs_eq
  | output => exact op.outputs_eq

theorem slot_of_slotAt? (hl : op.signature.slotAt? l = some left) : op.slot l = .ok left := by
  rw [Signature.slotAt?] at hl
  rw [slot, slots_eq, List.getElem?_toArray, hl]

/-- A locator without a slot is reported with the number of slots that there are. -/
theorem slot_of_slotAt?_eq_none (hl : op.signature.slotAt? l = none) :
    op.slot l = .error (.outOfRange l (op.signature.slotsOf l.kind).length) := by
  rw [Signature.slotAt?] at hl
  rw [slot, slots_eq, List.getElem?_toArray, hl, List.size_toArray]

theorem areAliasing_of_slotAt?_eq_none (hl : op.signature.slotAt? l = none) (r : Locator) :
    op.areAliasing l r = .error (.outOfRange l (op.signature.slotsOf l.kind).length) := by
  simp only [areAliasing, slot_of_slotAt?_eq_none hl]

theorem areAliasing_of_slotAt?_of_eq_none (hl : op.signature.slotAt? l = some left)
    (hr : op.signature.slotAt? r = none) :
    op.areAliasing l r = .error (.outOfRange r (op.signature.slotsOf r.kind).length) := by
  simp only [areAliasing, slot_of_slotAt? hl, slot_of_slotAt?_eq_none hr]

/-- Two slots alias if they are one or if they share. -/
theorem exists_areAliasing_iff (hl : op.signature.slotAt? l = some left)
    (hr : op.signature.slotAt? r = some right) :
    ∃ answer, op.areAliasing l r = .ok answer ∧ (answer = true ↔ l = r ∨ left.Shares right) := by
  have hleft := slot_of_slotAt? hl
  have hright := slot_of_slotAt? hr
  refine ⟨_, areAliasing_eq hleft hright, ?_⟩
  rw [Bool.or_eq_true, beq_iff_eq,
    Slot.slotsOverlap_iff (isSound_of_slot hleft) (isSound_of_slot hright)]

/-! ## Nothing but the sets -/

/-- The two operators declare the same sets at the same positions, and nothing at the
same positions. -/
def SameTopSets (other op : Operator) : Prop :=
  ∀ kind, (other.signature.slotsOf kind).map Slot.topSet =
    (op.signature.slotsOf kind).map Slot.topSet

theorem SameTopSets.length (hsame : other.SameTopSets op) (kind : SlotKind) :
    (other.signature.slotsOf kind).length = (op.signature.slotsOf kind).length := by
  have hlength := congrArg List.length (hsame kind)
  rwa [List.length_map, List.length_map] at hlength

theorem SameTopSets.map_slotAt? (hsame : other.SameTopSets op) (l : Locator) :
    (other.signature.slotAt? l).map Slot.topSet = (op.signature.slotAt? l).map Slot.topSet := by
  rw [Signature.slotAt?, Signature.slotAt?, ← List.getElem?_map, ← List.getElem?_map, hsame l.kind]

theorem SameTopSets.slotAt?_eq_none (hsame : other.SameTopSets op)
    (hl : op.signature.slotAt? l = none) : other.signature.slotAt? l = none := by
  have hslots := hsame.map_slotAt? l
  rwa [hl, Option.map_none, Option.map_eq_none_iff] at hslots

theorem SameTopSets.exists_slotAt? (hsame : other.SameTopSets op)
    (hl : op.signature.slotAt? l = some left) :
    ∃ left', other.signature.slotAt? l = some left' ∧ left'.topSet = left.topSet := by
  have hslots := hsame.map_slotAt? l
  rwa [hl, Option.map_some, Option.map_eq_some_iff] at hslots

/-- **Where two operators declare the same sets at the top, the same slots alias.** -/
theorem areAliasing_congr (hsame : other.SameTopSets op) (l r : Locator) :
    other.areAliasing l r = op.areAliasing l r := by
  cases hl : op.signature.slotAt? l with
  | none =>
      rw [areAliasing_of_slotAt?_eq_none hl,
        areAliasing_of_slotAt?_eq_none (hsame.slotAt?_eq_none hl), hsame.length]
  | some left =>
      obtain ⟨left', hl', hleft⟩ := hsame.exists_slotAt? hl
      cases hr : op.signature.slotAt? r with
      | none =>
          rw [areAliasing_of_slotAt?_of_eq_none hl hr,
            areAliasing_of_slotAt?_of_eq_none hl' (hsame.slotAt?_eq_none hr), hsame.length]
      | some right =>
          obtain ⟨right', hr', hright⟩ := hsame.exists_slotAt? hr
          obtain ⟨answer, hanswer, hiff⟩ := exists_areAliasing_iff hl hr
          obtain ⟨answer', hanswer', hiff'⟩ := exists_areAliasing_iff hl' hr'
          have hanswers : answer' = answer := by
            rw [Bool.eq_iff_iff, hiff, hiff', Slot.shares_congr hleft hright]
          rw [hanswer, hanswer', hanswers]

/-! ## The aliases of an output -/

/-- Inputs that are there are all asked, and those that alias are kept. -/
theorem aliasesAmong_eq_filter {target : Locator} {inputs : List Nat}
    (hinputs : ∀ i ∈ inputs, ∃ answer, op.areAliasing (.input i) target = .ok answer) :
    op.aliasesAmong target inputs =
      .ok (inputs.filter fun i => op.areAliasing (.input i) target = .ok true) := by
  induction inputs with
  | nil => rfl
  | cons i inputs ih =>
      rw [List.forall_mem_cons] at hinputs
      obtain ⟨⟨answer, hanswer⟩, hothers⟩ := hinputs
      rw [aliasesAmong, hanswer, ih hothers]
      cases answer with
      | false => simp [hanswer]
      | true => simp [hanswer]

theorem slotAt?_input_of_lt {i : Nat} (hi : i < op.signature.inputs.length) :
    op.signature.slotAt? (.input i) = some op.signature.inputs[i] :=
  List.getElem?_eq_getElem hi

theorem slotAt?_output_of_lt {i : Nat} (hi : i < op.signature.outputs.length) :
    op.signature.slotAt? (.output i) = some op.signature.outputs[i] :=
  List.getElem?_eq_getElem hi

/-- The aliases of an output are the inputs that alias it, in ascending order. -/
theorem exists_outputAliases {index : Nat} (hindex : index < op.signature.outputs.length) :
    ∃ aliases, op.outputAliases index = .ok aliases ∧ aliases.Pairwise (· < ·) ∧
      ∀ i, i ∈ aliases ↔ i < op.signature.inputs.length ∧
        op.areAliasing (.input i) (.output index) = .ok true := by
  have houtput := slotAt?_output_of_lt hindex
  have hanswered : ∀ i ∈ List.range op.inputCount,
      ∃ answer, op.areAliasing (.input i) (.output index) = .ok answer := by
    intro i hi
    rw [List.mem_range, inputCount_eq] at hi
    obtain ⟨answer, hanswer, -⟩ := exists_areAliasing_iff (slotAt?_input_of_lt hi) houtput
    exact ⟨answer, hanswer⟩
  have haliases := aliasesAmong_eq_filter hanswered
  refine ⟨_, by rw [outputAliases, slot_of_slotAt? houtput, haliases],
    List.pairwise_lt_range.filter _, ?_⟩
  intro i
  rw [List.mem_filter, List.mem_range, inputCount_eq, decide_eq_true_eq]

/-! ## All questions about two slots -/

/-- **Two slots alias by the sets at the top.**  A locator without a slot is reported with the
number of slots of its list, the first one if both have none.  Two locators with a slot are
answered, in either order alike: they alias exactly if they are one, if the set of one of them
is the wildcard, or if both declare a symbol.  What else the slots declare, their elements among
it, does not matter.  An output that is there has as its aliases the inputs that alias it, in
ascending order. -/
theorem areAliasing_compares_top_sets (op : Operator) :
    (∀ l r, op.signature.slotAt? l = none →
      op.areAliasing l r = .error (.outOfRange l (op.signature.slotsOf l.kind).length)) ∧
    (∀ l r left, op.signature.slotAt? l = some left → op.signature.slotAt? r = none →
      op.areAliasing l r = .error (.outOfRange r (op.signature.slotsOf r.kind).length)) ∧
    (∀ l r left right, op.signature.slotAt? l = some left → op.signature.slotAt? r = some right →
      (∃ answer, op.areAliasing l r = .ok answer ∧ (answer = true ↔ l = r ∨ left.Shares right)) ∧
      op.areAliasing l r = op.areAliasing r l) ∧
    (∀ other : Operator, other.SameTopSets op →
      ∀ l r, other.areAliasing l r = op.areAliasing l r) ∧
    ∀ index, index < op.signature.outputs.length →
      ∃ aliases, op.outputAliases index = .ok aliases ∧ aliases.Pairwise (· < ·) ∧
        ∀ i, i ∈ aliases ↔ i < op.signature.inputs.length ∧
          op.areAliasing (.input i) (.output index) = .ok true := by
  refine ⟨fun l r hl => areAliasing_of_slotAt?_eq_none hl r,
    fun l r left hl hr => areAliasing_of_slotAt?_of_eq_none hl hr, ?_,
    fun other hsame => areAliasing_congr hsame, fun index hindex => exists_outputAliases hindex⟩
  intro l r left right hl hr
  obtain ⟨answer, hanswer, hiff⟩ := exists_areAliasing_iff hl hr
  refine ⟨⟨answer, hanswer, hiff⟩, ?_⟩
  rw [hanswer, areAliasing_symm hanswer]

/-- Parts in two sets, a seed that declares nothing and an input that may be anything; the
output shares a set with the parts. -/
def assembly (elements : List Aliasing) : Signature :=
  { name := "assemble"
    inputs := [⟨"parts", .tensorList, some ⟨.ofList ["a", "b"], false, elements⟩, false⟩,
      ⟨"seed", .tensor, none, false⟩, ⟨"spare", .tensor, some .wildcard, false⟩]
    outputs := [⟨"", .tensor, some (.read "b"), false⟩] }

/-- The operator whose parts have the given elements. -/
def assemble (elements : List Aliasing) (hvalid : (assembly elements).validate = .ok ()) :
    Operator :=
  ⟨assembly elements, hvalid, _, rfl, _, rfl, _, rfl⟩

/-- The parts may be anything inside. -/
def assembleBoxed : Operator := assemble [.containing .wildcard] rfl

/-- The parts say nothing about what is inside. -/
def assembleFlat : Operator := assemble [] rfl

/-- What is inside the parts is not seen: they share `b` with the output and nothing with the
seed.  A position beyond the inputs is out of range, also when it is compared with itself. -/
theorem areAliasing_assembleBoxed :
    assembleBoxed.areAliasing (.input 3) (.input 3) = .error (.outOfRange (.input 3) 3) ∧
      assembleBoxed.areAliasing (.output 0) (.input 3) = .error (.outOfRange (.input 3) 3) ∧
      assembleBoxed.areAliasing (.input 0) (.output 0) = .ok true ∧
      assembleBoxed.areAliasing (.input 1) (.input 0) = .ok false ∧
      assembleFlat.areAliasing (.input 1) (.input 0) =
        assembleBoxed.areAliasing (.input 1) (.input 0) ∧
      ∃ aliases, assembleBoxed.outputAliases 0 = .ok aliases ∧ 2 ∈ aliases ∧ 1 ∉ aliases := by
  obtain ⟨hfirst, hsecond, hanswered, hsame, houtputs⟩ :=
    areAliasing_compares_top_sets assembleBoxed
  refine ⟨hfirst (.input 3) (.input 3) rfl, hsecond (.output 0) (.input 3) _ rfl rfl,
    ?_, ?_, ?_, ?_⟩
  · obtain ⟨⟨answer, hanswer, hiff⟩, -⟩ := hanswered (.input 0) (.output 0) _ _ rfl rfl
    rw [hanswer, hiff.2 (.inr (.inr (.inr ⟨_, _, "b", rfl, rfl, by decide, by decide⟩)))]
  · obtain ⟨-, hswap⟩ := hanswered (.input 1) (.input 0) _ _ rfl rfl
    rw [hswap]
    decide +kernel
  · exact hsame assembleFlat (fun kind => by cases kind <;> rfl) _ _
  · obtain ⟨aliases, haliases, -, hiff⟩ := houtputs 0 (by decide)
    exact ⟨aliases, haliases, (hiff 2).2 (by decide +kernel),
      fun hseed => absurd ((hiff 1).1 hseed) (by decide +kernel)⟩

end Operator

end OpSchema
