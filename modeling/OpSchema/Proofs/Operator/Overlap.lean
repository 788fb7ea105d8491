import OpSchema.Operator.Overlap
import OpSchema.Proofs.Alias.Reach
import OpSchema.Proofs.Signature.WellFormed

/-!
# Which slots may share storage

Two questions are put to an operator about two slots: whether they alias, which
looks at the top level, and whether one may contain an alias of the other, which
looks at all levels on both sides.  This file says what the answers are, for any
two locators.

A locator either names a slot (`Operator.HasSlot`) or lies beyond the end of its
list.  Within range both questions are answered, reflexive and symmetric.  Out of
range both fail alike, and it is the first locator out of range that the error
names: so the order of two locators shows if neither names a slot
(`Operator.areAliasing_swap_iff`).

## Strategy

The wider question is answered by three branches: a shortcut for slots that alias,
a comparison of all levels on both sides, and a search for a wildcard if one side
declares nothing.  The branches are one:

* a side that declares nothing has no levels, and the comparison of no levels with
  others comes down to the search (`Slot.slotsMayOverlap_eq`);
* what overlaps at the top overlaps at some level, so the shortcut decides nothing
  by itself (`Operator.mayContainAlias_eq`).

The levels are what lies below the top by `Aliasing.mem_flatten_iff`, and in a valid
signature the wildcard stands alone in its set.
-/

namespace OpSchema

/-! ## Sound signatures -/

namespace Signature

variable {s : Signature}

/-- The three checks of a signature. -/
theorem validate_eq_ok : s.validate = .ok () ↔ Text.isBlank s.name = false ∧
    validateInputs 0 [] s.inputs = .ok () ∧ validateOutputs 0 [] s.outputs = .ok () := by
  unfold validate
  cases Text.isBlank s.name with
  | true => simp
  | false =>
      cases validateInputs 0 [] s.inputs with
      | error e => simp
      | ok _ => simp

theorem isSound_of_validate (hvalid : s.validate = .ok ()) :
    (∀ slot ∈ s.inputs, slot.IsSound) ∧ ∀ slot ∈ s.outputs, slot.IsSound := by
  obtain ⟨-, hinputs, houtputs⟩ := validate_eq_ok.1 hvalid
  refine ⟨fun slot hslot => ?_, (validateOutputs_eq_ok.1 houtputs).1⟩
  exact ((validateInputs_eq_ok.1 hinputs).1 slot hslot).2

end Signature

/-- In a sound aliasing the wildcard stands alone. -/
theorem Aliasing.IsSound.isWildcard_iff {a : Aliasing} (hsound : a.IsSound) :
    a.isWildcard = true ↔ a.sets = .singleton "*" := by
  rw [isWildcard, SymbolSet.contains_iff, wildcardSymbol]
  constructor
  · intro hmem
    apply SymbolSet.ext_mem
    intro symbol
    rw [SymbolSet.mem_singleton]
    constructor
    · exact hsound.wildcard hmem symbol
    · intro hsame
      rw [hsame]
      exact hmem
  · intro hsets
    rw [hsets, SymbolSet.mem_singleton]

/-! ## All levels of two slots -/

namespace Slot

variable {left right : Slot}

/-- The slot has the aliasing, as its own or at some depth below. -/
def Declares (slot : Slot) (a : Aliasing) : Prop :=
  ∃ top, slot.aliasing = some top ∧ ∃ levels, Aliasing.LiesBelow levels top a

/-- The two slots, or elements of them, may share storage: one of them declares the
wildcard at some depth, whatever the other declares, or both declare a symbol. -/
def MayShare (left right : Slot) : Prop :=
  (∃ a, (left.Declares a ∨ right.Declares a) ∧ a.sets = .singleton "*") ∨
    ∃ a b symbol, left.Declares a ∧ right.Declares b ∧ symbol ∈ a.sets ∧ symbol ∈ b.sets

theorem MayShare.symm (hshare : left.MayShare right) : right.MayShare left := by
  rcases hshare with ⟨a, hdeclares, hwildcard⟩ | ⟨a, b, symbol, ha, hb, hleft, hright⟩
  · exact .inl ⟨a, hdeclares.symm, hwildcard⟩
  · exact .inr ⟨b, a, symbol, hb, ha, hright, hleft⟩

theorem IsSound.of_declares {slot : Slot} {a : Aliasing} (hsound : slot.IsSound)
    (hdeclares : slot.Declares a) : a.IsSound := by
  obtain ⟨top, htop, levels, hbelow⟩ := hdeclares
  exact hsound top htop levels a hbelow

/-- The aliasing of the slot and all that lies below it, if it has one. -/
def levels (slot : Slot) : List Aliasing := (slot.aliasing.map Aliasing.flatten).getD []

theorem mem_levels {slot : Slot} {a : Aliasing} : a ∈ slot.levels ↔ slot.Declares a := by
  unfold levels Declares
  cases slot.aliasing with
  | none => simp
  | some top => simp [Aliasing.mem_flatten_iff]

/-- A slot without an aliasing is one without levels. -/
theorem slotsMayOverlap_eq (left right : Slot) :
    Aliasing.slotsMayOverlap left.aliasing right.aliasing =
      Aliasing.listsOverlap left.levels right.levels := by
  unfold levels
  cases left.aliasing with
  | none =>
      cases right.aliasing with
      | none => rfl
      | some b => simp [Aliasing.slotsMayOverlap, Aliasing.listsOverlap, Aliasing.symbolsOf,
          Aliasing.shareSymbol]
  | some a =>
      cases right.aliasing with
      | none => simp [Aliasing.slotsMayOverlap, Aliasing.listsOverlap, Aliasing.symbolsOf,
          Aliasing.shareSymbol]
      | some b => rfl

/-- **All levels of two slots are compared.** -/
theorem slotsMayOverlap_iff (hleft : left.IsSound) (hright : right.IsSound) :
    Aliasing.slotsMayOverlap left.aliasing right.aliasing = true ↔ left.MayShare right := by
  have hwildcard : ∀ {slot : Slot}, slot.IsSound → (slot.levels.any Aliasing.isWildcard = true ↔
      ∃ a, slot.Declares a ∧ a.sets = .singleton "*") := by
    intro slot hsound
    rw [List.any_eq_true]
    refine exists_congr fun a => ?_
    rw [mem_levels]
    exact and_congr_right fun hdeclares => (hsound.of_declares hdeclares).isWildcard_iff
  have hsymbol : Aliasing.shareSymbol (Aliasing.symbolsOf left.levels)
      (Aliasing.symbolsOf right.levels) = true ↔
      ∃ a b symbol, left.Declares a ∧ right.Declares b ∧ symbol ∈ a.sets ∧ symbol ∈ b.sets := by
    simp only [Aliasing.shareSymbol_iff, Aliasing.symbolsOf, List.mem_flatMap, mem_levels]
    constructor
    · rintro ⟨symbol, ⟨a, ha, hinLeft⟩, b, hb, hinRight⟩
      exact ⟨a, b, symbol, ha, hb, hinLeft, hinRight⟩
    · rintro ⟨a, b, symbol, ha, hb, hinLeft, hinRight⟩
      exact ⟨symbol, ⟨a, ha, hinLeft⟩, b, hb, hinRight⟩
  rw [slotsMayOverlap_eq, Aliasing.listsOverlap, Bool.or_eq_true, Bool.or_eq_true,
    hwildcard hleft, hwildcard hright, hsymbol, MayShare]
  simp only [or_and_right, exists_or]

theorem slotsMayOverlap_comm (hleft : left.IsSound) (hright : right.IsSound) :
    Aliasing.slotsMayOverlap left.aliasing right.aliasing =
      Aliasing.slotsMayOverlap right.aliasing left.aliasing := by
  rw [Bool.eq_iff_iff, slotsMayOverlap_iff hleft hright, slotsMayOverlap_iff hright hleft]
  exact ⟨.symm, .symm⟩

/-- What overlaps at the top overlaps at some level. -/
theorem slotsMayOverlap_of_slotsOverlap {left right : Option Aliasing}
    (hoverlap : Aliasing.slotsOverlap left right = true) :
    Aliasing.slotsMayOverlap left right = true := by
  have hself : ∀ a : Aliasing, a ∈ a.flatten := fun a => Aliasing.mem_flatten_iff.2 ⟨0, .top a⟩
  cases left with
  | none =>
      cases right with
      | none => exact hoverlap
      | some b => exact List.any_eq_true.2 ⟨b, hself b, hoverlap⟩
  | some a =>
      cases right with
      | none => exact List.any_eq_true.2 ⟨a, hself a, hoverlap⟩
      | some b =>
          apply (Aliasing.listsOverlap_iff a.flatten_ne_nil b.flatten_ne_nil).2
          exact ⟨a, hself a, b, hself b, hoverlap⟩

end Slot

namespace Operator

variable {op : Operator} {l r : Locator} {left right : Slot}

/-! ## The range of a locator -/

/-- The locator lies within its list of slots. -/
def HasSlot (op : Operator) (l : Locator) : Prop := l.index < (op.slots l.kind).size

instance (op : Operator) (l : Locator) : Decidable (op.HasSlot l) :=
  inferInstanceAs (Decidable (_ < _))

theorem exists_slot (hl : op.HasSlot l) : ∃ slot, op.slot l = .ok slot := by
  have hfound : (op.slots l.kind)[l.index]? = some (op.slots l.kind)[l.index] :=
    Array.getElem?_eq_getElem hl
  exact ⟨_, by rw [slot, hfound]⟩

theorem slot_of_not_hasSlot (hl : ¬op.HasSlot l) :
    op.slot l = .error (.outOfRange l (op.slots l.kind).size) := by
  have hnone : (op.slots l.kind)[l.index]? = none :=
    Array.getElem?_eq_none (Nat.not_lt.1 hl)
  rw [slot, hnone]

/-- All slots of an operator are sound. -/
theorem isSound_of_slot {l : Locator} {slot : Slot} (hslot : op.slot l = .ok slot) :
    slot.IsSound := by
  obtain ⟨hinputs, houtputs⟩ := Signature.isSound_of_validate op.valid
  have hmem : slot ∈ op.slots l.kind := by
    unfold Operator.slot at hslot
    split at hslot
    · next found hfound =>
      obtain rfl := Except.ok.inj hslot
      exact Array.mem_of_getElem? hfound
    · exact absurd hslot nofun
  cases hkind : l.kind with
  | input =>
      rw [hkind, slots, op.inputs_eq, List.mem_toArray] at hmem
      exact hinputs slot hmem
  | output =>
      rw [hkind, slots, op.outputs_eq, List.mem_toArray] at hmem
      exact houtputs slot hmem

/-! ## Aliasing slots -/

theorem areAliasing_eq (hl : op.slot l = .ok left) (hr : op.slot r = .ok right) :
    op.areAliasing l r = .ok (l == r || Aliasing.slotsOverlap left.aliasing right.aliasing) := by
  simp only [areAliasing, hl, hr]

theorem areAliasing_of_not_hasSlot (hl : ¬op.HasSlot l) (r : Locator) :
    op.areAliasing l r = .error (.outOfRange l (op.slots l.kind).size) := by
  simp only [areAliasing, slot_of_not_hasSlot hl]

theorem areAliasing_of_hasSlot_of_not (hl : op.HasSlot l) (hr : ¬op.HasSlot r) :
    op.areAliasing l r = .error (.outOfRange r (op.slots r.kind).size) := by
  obtain ⟨left, hleft⟩ := exists_slot hl
  simp only [areAliasing, hleft, slot_of_not_hasSlot hr]

/-- A locator out of range is reported, the first one if both are. -/
theorem exists_areAliasing_eq_error (hrange : ¬(op.HasSlot l ∧ op.HasSlot r)) :
    ∃ outside, (outside = l ∨ outside = r) ∧ ¬op.HasSlot outside ∧
      op.areAliasing l r = .error (.outOfRange outside (op.slots outside.kind).size) := by
  by_cases hl : op.HasSlot l
  · have hr : ¬op.HasSlot r := fun hr => hrange ⟨hl, hr⟩
    exact ⟨r, .inr rfl, hr, areAliasing_of_hasSlot_of_not hl hr⟩
  · exact ⟨l, .inl rfl, hl, areAliasing_of_not_hasSlot hl r⟩

/-- If one of the locators names a slot, their order does not show. -/
theorem areAliasing_swap (hrange : op.HasSlot l ∨ op.HasSlot r) :
    op.areAliasing l r = op.areAliasing r l := by
  by_cases hl : op.HasSlot l
  · by_cases hr : op.HasSlot r
    · obtain ⟨left, hleft⟩ := exists_slot hl
      obtain ⟨right, hright⟩ := exists_slot hr
      have hanswer := areAliasing_eq hleft hright
      rw [hanswer, areAliasing_symm hanswer]
    · rw [areAliasing_of_hasSlot_of_not hl hr, areAliasing_of_not_hasSlot hr]
  · have hr : op.HasSlot r := hrange.resolve_left hl
    rw [areAliasing_of_not_hasSlot hl, areAliasing_of_hasSlot_of_not hr hl]

/-- **The order of two locators shows exactly if they differ and neither names a
slot**: each order then reports another locator. -/
theorem areAliasing_swap_iff :
    op.areAliasing l r = op.areAliasing r l ↔ l = r ∨ op.HasSlot l ∨ op.HasSlot r := by
  constructor
  · intro hsame
    by_cases hrange : op.HasSlot l ∨ op.HasSlot r
    · exact .inr hrange
    · obtain ⟨hl, hr⟩ := not_or.1 hrange
      rw [areAliasing_of_not_hasSlot hl, areAliasing_of_not_hasSlot hr] at hsame
      obtain ⟨hlocator, -⟩ := OperatorError.outOfRange.inj (Except.error.inj hsame)
      exact .inl hlocator
  · intro hrange
    rcases hrange with rfl | hrange
    · rfl
    · exact areAliasing_swap hrange

/-! ## Slots that may contain an alias -/

/-- The shortcut for slots that alias decides nothing by itself. -/
theorem mayContainAlias_eq (hl : op.slot l = .ok left) (hr : op.slot r = .ok right) :
    op.mayContainAlias l r =
      .ok (l == r || Aliasing.slotsMayOverlap left.aliasing right.aliasing) := by
  simp only [mayContainAlias, areAliasing_eq hl hr, hl, hr]
  cases hsame : l == r with
  | true => rfl
  | false =>
      cases htop : Aliasing.slotsOverlap left.aliasing right.aliasing with
      | true => simp [Slot.slotsMayOverlap_of_slotsOverlap htop]
      | false => rfl

theorem mayContainAlias_of_error {e : OperatorError} (herror : op.areAliasing l r = .error e) :
    op.mayContainAlias l r = .error e := by
  simp only [mayContainAlias, herror]

theorem mayContainAlias_eq_ok_true_iff (hl : op.slot l = .ok left) (hr : op.slot r = .ok right) :
    op.mayContainAlias l r = .ok true ↔ l = r ∨ left.MayShare right := by
  rw [mayContainAlias_eq hl hr, Except.ok.injEq, Bool.or_eq_true, beq_iff_eq,
    Slot.slotsMayOverlap_iff (isSound_of_slot hl) (isSound_of_slot hr)]

/-- Two slots may contain an alias of each other. -/
theorem mayContainAlias_swap (hl : op.HasSlot l) (hr : op.HasSlot r) :
    op.mayContainAlias l r = op.mayContainAlias r l := by
  obtain ⟨left, hleft⟩ := exists_slot hl
  obtain ⟨right, hright⟩ := exists_slot hr
  rw [mayContainAlias_eq hleft hright, mayContainAlias_eq hright hleft, Bool.beq_comm,
    Slot.slotsMayOverlap_comm (isSound_of_slot hleft) (isSound_of_slot hright)]

/-- **A slot is looked through to any depth for aliases of another.**  Two slots of
an operator may contain an alias exactly if they are one slot, or one of them
declares the wildcard at some depth, or they declare a common symbol at some depth
each; so the relation is reflexive, symmetric and wider than aliasing.  Out of range
it fails as the question about aliasing does. -/
theorem mayContainAlias_looks_through_levels (op : Operator) (l r : Locator) :
    (op.HasSlot l → op.HasSlot r →
      (∃ left right, op.slot l = .ok left ∧ op.slot r = .ok right ∧
        ∃ answer, op.mayContainAlias l r = .ok answer ∧
          (answer = true ↔ l = r ∨ left.MayShare right)) ∧
      op.mayContainAlias l l = .ok true ∧
      op.mayContainAlias l r = op.mayContainAlias r l ∧
      (op.areAliasing l r = .ok true → op.mayContainAlias l r = .ok true)) ∧
    (¬(op.HasSlot l ∧ op.HasSlot r) →
      ∃ outside size, op.areAliasing l r = .error (.outOfRange outside size) ∧
        op.mayContainAlias l r = .error (.outOfRange outside size)) := by
  constructor
  · intro hl hr
    obtain ⟨left, hleft⟩ := exists_slot hl
    obtain ⟨right, hright⟩ := exists_slot hr
    have hanswer := mayContainAlias_eq hleft hright
    refine ⟨⟨left, right, hleft, hright, _, hanswer, ?_⟩, ?_, mayContainAlias_swap hl hr, ?_⟩
    · rw [← mayContainAlias_eq_ok_true_iff hleft hright, hanswer, Except.ok.injEq]
    · exact (mayContainAlias_eq_ok_true_iff hleft hleft).2 (.inl rfl)
    · intro haliasing
      simp only [mayContainAlias, haliasing]
  · intro hrange
    obtain ⟨outside, -, -, herror⟩ := exists_areAliasing_eq_error hrange
    exact ⟨outside, _, herror, mayContainAlias_of_error herror⟩

/-- An operator on lists of lists: the elements of the first are in a set, those of
the second may be anything.  A third input declares nothing. -/
def regroup : Operator :=
  { signature :=
      { name := "regroup"
        inputs := [⟨"parts", .generic, some (.containing (.containing (.read "a"))), false⟩,
          ⟨"others", .generic, some (.containing (.containing .wildcard)), false⟩,
          ⟨"size", .int, none, false⟩]
        outputs := [⟨"", .tensor, some (.read "a"), false⟩] }
    valid := rfl
    inputs := _
    inputs_eq := rfl
    outputs := _
    outputs_eq := rfl
    positions := _
    positions_eq := rfl }

/-- An element two levels down shares a set with the output, which the question about
aliasing does not see; a wildcard at that depth reaches an input that declares
nothing; and a position beyond the inputs is out of range. -/
theorem mayContainAlias_regroup :
    regroup.areAliasing (.input 0) (.output 0) = .ok false ∧
      regroup.mayContainAlias (.input 0) (.output 0) = .ok true ∧
      regroup.mayContainAlias (.input 2) (.input 1) = .ok true ∧
      ∃ outside size, regroup.mayContainAlias (.input 0) (.input 3) =
        .error (.outOfRange outside size) := by
  obtain ⟨hshared, -⟩ := mayContainAlias_looks_through_levels regroup (.input 0) (.output 0)
  obtain ⟨hreached, -⟩ := mayContainAlias_looks_through_levels regroup (.input 2) (.input 1)
  obtain ⟨-, houtside⟩ := mayContainAlias_looks_through_levels regroup (.input 0) (.input 3)
  refine ⟨rfl, ?_, ?_, ?_⟩
  · obtain ⟨⟨left, right, hleft, hright, answer, hanswer, hiff⟩, -⟩ := hshared (by decide) (by decide)
    obtain rfl := Except.ok.inj hleft
    obtain rfl := Except.ok.inj hright
    rw [hanswer, hiff.2 (.inr (.inr ⟨.read "a", .read "a", "a", ?_, ?_, by decide, by decide⟩))]
    · exact ⟨_, rfl, 2, .inside List.mem_cons_self (.inside List.mem_cons_self (.top _))⟩
    · exact ⟨_, rfl, 0, .top _⟩
  · obtain ⟨⟨left, right, hleft, hright, answer, hanswer, hiff⟩, -⟩ := hreached (by decide) (by decide)
    obtain rfl := Except.ok.inj hright
    rw [hanswer, hiff.2 (.inr (.inl ⟨.wildcard, .inr ?_, rfl⟩))]
    exact ⟨_, rfl, 2, .inside List.mem_cons_self (.inside List.mem_cons_self (.top _))⟩
  · obtain ⟨outside, size, -, herror⟩ := houtside (by decide)
    exact ⟨outside, size, herror⟩

end Operator

end OpSchema
