import OpSchema.Proofs.Alias.Renaming
import OpSchema.Proofs.Guard.Outcome
import OpSchema.Proofs.Operator.Overlap

/-!
# Operators with renamed symbols

A valid signature stays valid when the symbols of its alias sets get other names,
and the two operators cannot be told apart: they answer every question alike, and
every check of a call gives the same answer and the same evidence
(`Operator.ofSignature_rename`).

## Strategy

Nothing but the symbols changes, so the slots of the renamed operator are the old
slots, renamed (`Operator.slot_rename`).  Questions about writes and names do not
look at symbols at all.  Questions about two slots compare symbols, and
`Aliasing.slotsOverlap_rename` and `Aliasing.slotsMayOverlap_rename` apply, as all
symbols of a valid signature are ones that validation allows.  A check asks for no
more than that (`Context.checkInplace_congr`).
-/

namespace OpSchema

/-! ## Slots and signatures -/

/-- The slot with other names for the symbols of its aliasing. -/
def Slot.rename (r : Renaming) (slot : Slot) : Slot :=
  { slot with aliasing := slot.aliasing.map (Aliasing.rename r) }

/-- The signature with other names for the symbols of all its slots. -/
def Signature.rename (r : Renaming) (s : Signature) : Signature :=
  { s with inputs := s.inputs.map (Slot.rename r), outputs := s.outputs.map (Slot.rename r) }

variable {r : Renaming}

namespace Slot

variable {slot : Slot}

theorem name_comp_rename : Slot.name ∘ Slot.rename r = Slot.name := rfl

@[simp] theorem isWrite_rename : (slot.rename r).isWrite = slot.isWrite := by
  unfold isWrite rename
  cases slot.aliasing with
  | none => rfl
  | some top => exact Aliasing.isWrite_rename

theorem IsSound.rename (hsound : slot.IsSound) : (slot.rename r).IsSound := by
  intro top htop levels a hbelow
  obtain ⟨old, hold, rfl⟩ := Option.map_eq_some_iff.1 htop
  obtain ⟨below, holdBelow, rfl⟩ := hbelow.exists_of_rename
  exact (hsound old hold levels below holdBelow).rename

theorem IsSound.hasSymbols (hsound : slot.IsSound) : Aliasing.SlotHasSymbols slot.aliasing := by
  intro top htop a ha
  obtain ⟨levels, hbelow⟩ := Aliasing.exists_liesBelow_of_mem_flatten ha
  exact (hsound top htop levels a hbelow).symbols

end Slot

namespace Signature

variable {s : Signature}

theorem validateInputs_rename {index : Nat} {seen : List String} {slots : List Slot}
    (hvalid : validateInputs index seen slots = .ok ()) :
    validateInputs index seen (slots.map (Slot.rename r)) = .ok () := by
  obtain ⟨hslots, hfresh⟩ := validateInputs_eq_ok.1 hvalid
  rw [validateInputs_eq_ok, List.map_map, Slot.name_comp_rename, List.forall_mem_map]
  exact ⟨fun slot hslot => ⟨(hslots slot hslot).1, (hslots slot hslot).2.rename⟩, hfresh⟩

theorem validateOutputs_rename {index : Nat} {seen : List String} {slots : List Slot}
    (hvalid : validateOutputs index seen slots = .ok ()) :
    validateOutputs index seen (slots.map (Slot.rename r)) = .ok () := by
  obtain ⟨hslots, hfresh⟩ := validateOutputs_eq_ok.1 hvalid
  rw [validateOutputs_eq_ok, List.map_map, Slot.name_comp_rename, List.forall_mem_map]
  exact ⟨fun slot hslot => (hslots slot hslot).rename, hfresh⟩

/-- A valid signature stays valid. -/
theorem validate_rename (hvalid : s.validate = .ok ()) : (s.rename r).validate = .ok () := by
  obtain ⟨hname, hinputs, houtputs⟩ := validate_eq_ok.1 hvalid
  exact validate_eq_ok.2 ⟨hname, validateInputs_rename hinputs, validateOutputs_rename houtputs⟩

/-- Positions go by the names of slots, which stay. -/
theorem positionTable_rename : (s.rename r).positionTable = s.positionTable := by
  rw [positionTable, positionTable, rename, List.zipIdx_map, List.map_map]
  rfl

theorem isMutable_rename : (s.rename r).isMutable = s.isMutable := by
  rw [isMutable, isMutable, rename, List.any_map]
  exact congrArg s.inputs.any (funext fun slot => Slot.isWrite_rename)

end Signature

/-! ## Operators -/

namespace Operator

variable {op renamed : Operator}

/-- The two operators answer every question alike. -/
structure AnswersAlike (first second : Operator) : Prop where
  isMutating : ∀ index, first.isMutating index = second.isMutating index
  isMutatingByName : ∀ name, first.isMutatingByName name = second.isMutatingByName name
  inputPosition : ∀ name, first.inputPosition name = second.inputPosition name
  areAliasing : ∀ l r, first.areAliasing l r = second.areAliasing l r
  mayContainAlias : ∀ l r, first.mayContainAlias l r = second.mayContainAlias l r
  isMutable : first.isMutable = second.isMutable
  mutatedInputs : first.mutatedInputs = second.mutatedInputs
  outputAliases : ∀ index, first.outputAliases index = second.outputAliases index

theorem slots_rename (hrenamed : renamed.signature = op.signature.rename r) (kind : SlotKind) :
    renamed.slots kind = (op.slots kind).map (Slot.rename r) := by
  cases kind with
  | input => simp [slots, renamed.inputs_eq, op.inputs_eq, hrenamed, Signature.rename]
  | output => simp [slots, renamed.outputs_eq, op.outputs_eq, hrenamed, Signature.rename]

theorem inputCount_rename (hrenamed : renamed.signature = op.signature.rename r) :
    renamed.inputCount = op.inputCount := by
  rw [inputCount_eq, inputCount_eq, hrenamed, Signature.rename, List.length_map]

/-- A locator names the old slot, renamed, or there is none as before. -/
theorem slot_rename (hrenamed : renamed.signature = op.signature.rename r) (l : Locator) :
    renamed.slot l = (op.slot l).map (Slot.rename r) := by
  rw [slot, slot, slots_rename hrenamed, Array.getElem?_map, Array.size_map]
  cases (op.slots l.kind)[l.index]? with
  | none => rfl
  | some slot => rfl

/-! ## Writes and names -/

theorem isMutating_rename (hrenamed : renamed.signature = op.signature.rename r) (index : Nat) :
    renamed.isMutating index = op.isMutating index := by
  rw [isMutating, isMutating, slot_rename hrenamed]
  cases op.slot (.input index) with
  | error e => rfl
  | ok slot => exact congrArg Except.ok Slot.isWrite_rename

theorem inputPosition_rename (hrenamed : renamed.signature = op.signature.rename r)
    (name : String) : renamed.inputPosition name = op.inputPosition name := by
  have hpositions : renamed.positions = op.positions := by
    rw [renamed.positions_eq, op.positions_eq, hrenamed, Signature.positionTable_rename]
  rw [inputPosition, inputPosition, hpositions]

theorem isMutatingByName_rename (hrenamed : renamed.signature = op.signature.rename r)
    (name : String) : renamed.isMutatingByName name = op.isMutatingByName name := by
  simp only [isMutatingByName, inputPosition_rename hrenamed, isMutating_rename hrenamed]

theorem mutatedInputs_rename (hrenamed : renamed.signature = op.signature.rename r) :
    renamed.mutatedInputs = op.mutatedInputs := by
  rw [mutatedInputs, mutatedInputs, hrenamed, Signature.rename, List.zipIdx_map, List.filter_map,
    List.map_map]
  refine congrArg (List.map _) (List.filter_congr fun entry _ => ?_)
  exact Slot.isWrite_rename

theorem writesInput_rename (hrenamed : renamed.signature = op.signature.rename r) (index : Nat) :
    renamed.writesInput index = op.writesInput index := by
  rw [Bool.eq_iff_iff, ← mem_mutatedInputs, ← mem_mutatedInputs, mutatedInputs_rename hrenamed]

/-! ## Two slots -/

theorem areAliasing_rename (hrenamed : renamed.signature = op.signature.rename r)
    (first second : Locator) : renamed.areAliasing first second = op.areAliasing first second := by
  rw [areAliasing, areAliasing, slot_rename hrenamed, slot_rename hrenamed]
  cases hfirst : op.slot first with
  | error e => rfl
  | ok left =>
      cases hsecond : op.slot second with
      | error e => rfl
      | ok right =>
          have hoverlap := Aliasing.slotsOverlap_rename (r := r)
            (isSound_of_slot hfirst).hasSymbols (isSound_of_slot hsecond).hasSymbols
          exact congrArg (fun overlap => Except.ok (first == second || overlap)) hoverlap

theorem mayContainAlias_rename (hrenamed : renamed.signature = op.signature.rename r)
    (first second : Locator) :
    renamed.mayContainAlias first second = op.mayContainAlias first second := by
  rw [mayContainAlias, mayContainAlias, areAliasing_rename hrenamed, slot_rename hrenamed,
    slot_rename hrenamed]
  cases op.areAliasing first second with
  | error e => rfl
  | ok declared =>
      cases declared with
      | true => rfl
      | false =>
          cases hfirst : op.slot first with
          | error e => rfl
          | ok left =>
              cases hsecond : op.slot second with
              | error e => rfl
              | ok right =>
                  exact congrArg Except.ok (Aliasing.slotsMayOverlap_rename
                    (isSound_of_slot hfirst).hasSymbols (isSound_of_slot hsecond).hasSymbols)

theorem aliasesAmong_rename (hrenamed : renamed.signature = op.signature.rename r)
    (target : Locator) (inputs : List Nat) :
    renamed.aliasesAmong target inputs = op.aliasesAmong target inputs := by
  induction inputs with
  | nil => rfl
  | cons index inputs ih => rw [aliasesAmong, aliasesAmong, areAliasing_rename hrenamed, ih]

theorem outputAliases_rename (hrenamed : renamed.signature = op.signature.rename r)
    (index : Nat) : renamed.outputAliases index = op.outputAliases index := by
  rw [outputAliases, outputAliases, slot_rename hrenamed, aliasesAmong_rename hrenamed,
    inputCount_rename hrenamed]
  cases op.slot (.output index) with
  | error e => rfl
  | ok slot => rfl

/-- Every question is answered as before. -/
theorem answersAlike_rename (hrenamed : renamed.signature = op.signature.rename r) :
    AnswersAlike renamed op where
  isMutating := isMutating_rename hrenamed
  isMutatingByName := isMutatingByName_rename hrenamed
  inputPosition := inputPosition_rename hrenamed
  areAliasing := areAliasing_rename hrenamed
  mayContainAlias := mayContainAlias_rename hrenamed
  isMutable := by rw [isMutable, isMutable, hrenamed, Signature.isMutable_rename]
  mutatedInputs := mutatedInputs_rename hrenamed
  outputAliases := outputAliases_rename hrenamed

/-! ## Checks -/

theorem conflicts_rename (hrenamed : renamed.signature = op.signature.rename r)
    (storages : List Storage) : renamed.conflicts storages = op.conflicts storages := by
  have hpair : ∀ mutated storage, renamed.conflictWith mutated storage =
      op.conflictWith mutated storage := by
    intro mutated storage
    funext ⟨held, other⟩
    simp only [conflictWith, writesInput_rename hrenamed, areAliasing_rename hrenamed]
  have hfrom : renamed.conflictsFrom storages = op.conflictsFrom storages := by
    funext mutated
    simp only [conflictsFrom, hpair]
  rw [conflicts, conflicts, hfrom, mutatedInputs_rename hrenamed]

theorem checkInplace_rename (hrenamed : renamed.signature = op.signature.rename r)
    (context : Context) (storages : List Storage) :
    context.checkInplace renamed storages = context.checkInplace op storages := by
  refine Context.checkInplace_congr ?_ (inputCount_rename hrenamed)
    (mutatedInputs_rename hrenamed) (conflicts_rename hrenamed storages) context
  rw [qualifiedName, qualifiedName, hrenamed]
  rfl

/-- **Symbols are only names.**  A valid signature stays valid under a renaming of
its symbols, its operator answers every question as before, and every check of a
call gives the same answer and leaves the same evidence. -/
theorem ofSignature_rename (r : Renaming) (s : Signature) (hvalid : s.validate = .ok ()) :
    (s.rename r).validate = .ok () ∧
    ∃ op renamed, ofSignature s = .ok op ∧ ofSignature (s.rename r) = .ok renamed ∧
      AnswersAlike renamed op ∧
      ∀ (context : Context) (storages : List Storage),
        context.checkInplace renamed storages = context.checkInplace op storages := by
  have hrenamed := Signature.validate_rename (r := r) hvalid
  obtain ⟨op, hop, hsignature⟩ := exists_ofSignature hvalid
  obtain ⟨renamed, hother, hother'⟩ := exists_ofSignature hrenamed
  have hsame : renamed.signature = op.signature.rename r := by rw [hother', hsignature]
  exact ⟨hrenamed, op, renamed, hop, hother, answersAlike_rename hsame, checkInplace_rename hsame⟩

/-- The renaming that exchanges two symbols. -/
def exchangeSymbols : Renaming where
  toFun s := if s = "a" then "d" else if s = "d" then "a" else s
  wildcard := by decide
  identifier s hs := by
    split
    · exact isIdentifier_iff.1 (by decide)
    split
    · exact isIdentifier_iff.1 (by decide)
    · exact hs
  injective s t _ _ hsame := by grind

/-- A list of tensors that are written, and an output in two sets.  The exchange of
`a` and `d` puts the symbol of the elements behind the other symbol of the output. -/
def gathered : Signature :=
  { name := "gather_"
    inputs := [⟨"parts", .tensorList, some ⟨.ofList ["b"], true, [.write "a"]⟩, false⟩,
      ⟨"spare", .tensor, some .wildcard, false⟩]
    outputs := [⟨"", .tensor, some ⟨.ofList ["a", "c"], false, []⟩, false⟩] }

theorem ofSignature_exchange_gathered :
    gathered.validate = .ok () ∧
    gathered.rename exchangeSymbols ≠ gathered ∧
    ∃ op renamed, ofSignature gathered = .ok op ∧
      ofSignature (gathered.rename exchangeSymbols) = .ok renamed ∧ AnswersAlike renamed op := by
  have hvalid : gathered.validate = .ok () := by decide +kernel
  obtain ⟨-, op, renamed, hop, hrenamed, halike, -⟩ :=
    ofSignature_rename exchangeSymbols gathered hvalid
  exact ⟨hvalid, by decide +kernel, op, renamed, hop, hrenamed, halike⟩

end Operator

end OpSchema
