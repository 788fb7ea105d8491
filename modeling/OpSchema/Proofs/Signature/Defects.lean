import OpSchema.Proofs.Signature.WellFormed
import OpSchema.Proofs.Text.ByteOrder

/-!
# The first defect

Validation stops at the first defect that it meets.  Here all defects of a signature
are listed, each of them described by itself and whatever else is wrong, in the order
in which a reader of the signature comes upon them (`Signature.defects`).  Validation
reports the first of the list, or nothing if the list is empty
(`Signature.validate_reports_first_defect`).

The list goes from the name through the inputs to the outputs.  For a slot it has what
is wrong with its name and then, under a label for the slot, what is wrong with its
aliasing: invalid symbols in the order of their bytes, a write without a set, a wildcard
beside other symbols, and then the same for all elements from left to right, so that a
tree of aliasings is gone through depth first.

## Strategy

`SignatureError.reportFirst` turns a list of defects into the outcome of a check.  The
outcome for `es ++ fs` is that for `es` if it is an error and that for `fs` otherwise,
which is what a check followed by another one comes to
(`SignatureError.check_eq_reportFirst_append`).  So each check is compared with its own part of
the list, and the loops carry what they have seen: the names of the slots before
(`Signature.defectsFrom_cons`).
-/

namespace OpSchema

/-! ## Lists of defects -/

namespace SignatureError

variable {es fs : List SignatureError} {e : SignatureError}

/-- The outcome of a check that stops at the first of the defects. -/
def reportFirst : List SignatureError → Except SignatureError Unit
  | [] => .ok ()
  | e :: _ => .error e

/-- A defect that is there under a condition. -/
def defectIf (p : Prop) [Decidable p] (e : SignatureError) : List SignatureError :=
  if p then [e] else []

/-- A check followed by another one comes upon the defects of both. -/
theorem check_eq_reportFirst_append {first second : Except SignatureError Unit} :
    first = reportFirst es → second = reportFirst fs →
      (match first with
        | .error e => .error e
        | .ok () => second) = reportFirst (es ++ fs) := by
  rintro rfl rfl
  cases es with
  | nil => rfl
  | cons e es => rfl

theorem reportFirst_defectIf_append (p : Prop) [Decidable p] :
    reportFirst (defectIf p e ++ es) = if p then .error e else reportFirst es := by
  unfold defectIf
  split
  · rfl
  · rfl

/-- Of the elements that are defects it is the first one that is found. -/
theorem reportFirst_filter_append {α : Type} (f : α → SignatureError) (p : α → Bool) (l : List α) :
    reportFirst ((l.filter p).map f ++ es) =
      match l.find? p with
      | some a => .error (f a)
      | none => reportFirst es := by
  rw [← List.head?_filter]
  cases l.filter p with
  | nil => rfl
  | cons a l => rfl

end SignatureError

open SignatureError

/-! ## Aliasings -/

instance (s : String) : Decidable (IsIdentifier s) :=
  decidable_of_iff _ isIdentifier_iff

namespace SymbolSet

variable {s : SymbolSet}

theorem isEmpty_iff : s.isEmpty = true ↔ s = ∅ := by
  rw [isEmpty, List.isEmpty_iff]
  exact ⟨fun hnone => ext_symbols hnone, fun hempty => congrArg symbols hempty⟩

/-- The wildcard stands beside another symbol unless it is the whole set. -/
theorem one_lt_size_iff (hwildcard : "*" ∈ s) : 1 < s.size ↔ s ≠ .singleton "*" := by
  rw [← Nat.not_le, not_iff_not, size_le_one_iff hwildcard]
  constructor
  · intro hall
    apply ext_mem
    intro symbol
    rw [mem_singleton]
    exact ⟨hall symbol, fun hsame => hsame ▸ hwildcard⟩
  · intro hsingleton symbol hmem
    rw [hsingleton, mem_singleton] at hmem
    exact hmem

end SymbolSet

namespace Aliasing

variable {slot : String}

/-- What is wrong with the sets of an aliasing, whatever it contains. -/
def setDefects (slot : String) (a : Aliasing) : List SignatureError :=
  ((Text.sortByBytes a.sets.symbols).filter fun symbol =>
      ¬(symbol = "*" ∨ IsIdentifier symbol)).map (.invalidSymbol slot) ++
    defectIf (a.isWrite = true ∧ a.sets = ∅) (.writeWithoutSet slot) ++
    defectIf ("*" ∈ a.sets ∧ a.sets ≠ .singleton "*") (.mixedWildcard slot)

mutual

/-- What is wrong with an aliasing and then with its elements from left to right. -/
def defects (slot : String) : Aliasing → List SignatureError
  | ⟨sets, isWrite, contained⟩ =>
    setDefects slot ⟨sets, isWrite, contained⟩ ++ defectsOfList slot contained

/-- What is wrong with a list of aliasings from left to right. -/
def defectsOfList (slot : String) : List Aliasing → List SignatureError
  | [] => []
  | a :: as => defects slot a ++ defectsOfList slot as

end

theorem defects_eq (slot : String) (a : Aliasing) :
    a.defects slot = a.setDefects slot ++ a.contained.flatMap (defects slot) := by
  have hlist : ∀ as, defectsOfList slot as = as.flatMap (defects slot) := by
    intro as
    induction as with
    | nil => rfl
    | cons a as ih => rw [defectsOfList, ih, List.flatMap_cons]
  obtain ⟨sets, isWrite, contained⟩ := a
  rw [defects, hlist]

theorem validateList_eq_reportFirst {as : List Aliasing}
    (hall : ∀ a ∈ as, a.validate slot = reportFirst (a.defects slot)) :
    validateList slot as = reportFirst (as.flatMap (defects slot)) := by
  induction as with
  | nil => rfl
  | cons a as ih =>
      rw [List.forall_mem_cons] at hall
      rw [validateList, List.flatMap_cons]
      exact check_eq_reportFirst_append hall.1 (ih hall.2)

/-- **The first defect of an aliasing is found depth first.** -/
theorem validate_eq_reportFirst (slot : String) (a : Aliasing) :
    a.validate slot = reportFirst (a.defects slot) := by
  induction a using Aliasing.induction with
  | hstep a ih =>
      have helements := validateList_eq_reportFirst ih
      rw [defects_eq, setDefects, Text.sortByBytes_of_ascending a.sets.ascending,
        List.append_assoc, List.append_assoc, reportFirst_filter_append,
        reportFirst_defectIf_append, reportFirst_defectIf_append, ← helements]
      obtain ⟨sets, isWrite, contained⟩ := a
      have hinvalid : (fun symbol => decide ¬(symbol = "*" ∨ IsIdentifier symbol)) =
          fun symbol => !isAliasSymbol symbol := by
        funext symbol
        simp [← isAliasSymbol_iff]
      have hwrite : (isWrite && sets.isEmpty) = true ↔ isWrite = true ∧ sets = ∅ := by
        rw [Bool.and_eq_true, SymbolSet.isEmpty_iff]
      have hmixed : (sets.contains wildcardSymbol && decide (1 < sets.size)) = true ↔
          "*" ∈ sets ∧ sets ≠ .singleton "*" := by
        rw [Bool.and_eq_true, SymbolSet.contains_iff, decide_eq_true_eq, wildcardSymbol]
        exact and_congr_right SymbolSet.one_lt_size_iff
      rw [validate, hinvalid]
      cases sets.symbols.find? fun symbol => !isAliasSymbol symbol with
      | none => exact if_congr hwrite rfl (if_congr hmixed rfl rfl)
      | some symbol => rfl

end Aliasing

/-! ## Slots -/

/-- What is wrong with the aliasing of a slot, under a label for the slot. -/
def Slot.aliasingDefects (label : String) (slot : Slot) : List SignatureError :=
  match slot.aliasing with
  | none => []
  | some aliasing => aliasing.defects label

theorem Slot.validateAliasing_eq_reportFirst (label : String) (slot : Slot) :
    slot.validateAliasing label = reportFirst (slot.aliasingDefects label) := by
  unfold validateAliasing aliasingDefects
  cases slot.aliasing with
  | none => rfl
  | some aliasing => exact aliasing.validate_eq_reportFirst label

namespace Signature

/-- What is wrong with the input at a position, behind the inputs `earlier`. -/
def inputDefects (earlier : List Slot) (index : Nat) (slot : Slot) : List SignatureError :=
  defectIf (slot.name = "") (.emptyInputName index) ++
    defectIf (slot.name ∈ earlier.map Slot.name) (.duplicateInput slot.name) ++
    slot.aliasingDefects slot.name

/-- What is wrong with the output at a position, behind the outputs `earlier`.  An output
without a name goes by its position. -/
def outputDefects (earlier : List Slot) (index : Nat) (slot : Slot) : List SignatureError :=
  defectIf (slot.name ≠ "" ∧ slot.name ∈ earlier.map Slot.name) (.duplicateOutput slot.name) ++
    slot.aliasingDefects (if slot.name = "" then "return " ++ toString index else slot.name)

theorem outputLabel_eq (index : Nat) (slot : Slot) : outputLabel index slot =
    if slot.name = "" then "return " ++ toString index else slot.name :=
  if_congr String.isEmpty_iff rfl rfl

/-- What is wrong with the slots of a list, for each by its position and the slots before it. -/
def slotDefects (wrong : List Slot → Nat → Slot → List SignatureError) (slots : List Slot) :
    List SignatureError :=
  slots.zipIdx.flatMap fun (slot, index) => wrong (slots.take index) index slot

/-- The part of the list that belongs to the slots behind `earlier`. -/
def defectsFrom (wrong : List Slot → Nat → Slot → List SignatureError)
    (earlier slots : List Slot) : List SignatureError :=
  (slots.zipIdx earlier.length).flatMap fun (slot, index) =>
    wrong ((earlier ++ slots).take index) index slot

theorem defectsFrom_cons (wrong : List Slot → Nat → Slot → List SignatureError)
    (earlier : List Slot) (slot : Slot) (slots : List Slot) :
    defectsFrom wrong earlier (slot :: slots) =
      wrong earlier earlier.length slot ++ defectsFrom wrong (earlier ++ [slot]) slots := by
  simp [defectsFrom]

/-- The names before a position are those that the loop has seen. -/
def Seen (seen : List String) (earlier : List Slot) : Prop :=
  ∀ name, name ∈ seen ↔ name ∈ earlier.map Slot.name

theorem Seen.concat {seen : List String} {earlier : List Slot} (hseen : Seen seen earlier)
    (slot : Slot) : Seen (slot.name :: seen) (earlier ++ [slot]) := by
  intro name
  rw [List.mem_cons, hseen name, List.map_append, List.mem_append, List.map_singleton,
    List.mem_singleton]
  exact or_comm

theorem validateInputs_eq_reportFirst {seen : List String} {earlier : List Slot}
    (hseen : Seen seen earlier) (slots : List Slot) :
    validateInputs earlier.length seen slots =
      reportFirst (defectsFrom inputDefects earlier slots) := by
  induction slots generalizing seen earlier with
  | nil => rfl
  | cons slot slots ih =>
      have hrest := ih (hseen.concat slot)
      rw [List.length_append, List.length_singleton] at hrest
      rw [validateInputs, defectsFrom_cons, inputDefects, List.append_assoc, List.append_assoc,
        reportFirst_defectIf_append, reportFirst_defectIf_append]
      refine if_congr String.isEmpty_iff rfl (if_congr ?_ rfl ?_)
      · rw [List.contains_iff_mem, hseen slot.name]
      · exact check_eq_reportFirst_append (slot.validateAliasing_eq_reportFirst slot.name) hrest

theorem validateOutputs_eq_reportFirst {seen : List String} {earlier : List Slot}
    (hseen : Seen seen earlier) (slots : List Slot) :
    validateOutputs earlier.length seen slots =
      reportFirst (defectsFrom outputDefects earlier slots) := by
  induction slots generalizing seen earlier with
  | nil => rfl
  | cons slot slots ih =>
      have hrest := ih (hseen.concat slot)
      rw [List.length_append, List.length_singleton] at hrest
      rw [validateOutputs, outputLabel_eq, defectsFrom_cons, outputDefects, List.append_assoc,
        reportFirst_defectIf_append]
      refine if_congr ?_ rfl ?_
      · rw [← hseen slot.name]
        simp
      · exact check_eq_reportFirst_append (slot.validateAliasing_eq_reportFirst _) hrest

/-! ## Signatures -/

/-- The name has nothing but white space. -/
def HasBlankName (s : Signature) : Prop :=
  ∀ c ∈ s.name.toList, Text.isWhiteSpace c = true

-- Named here, since there is also an instance that goes through all characters there are.
instance (s : Signature) : Decidable s.HasBlankName :=
  List.decidableBAll (fun c => Text.isWhiteSpace c = true) s.name.toList

/-- All that is wrong with a signature, in the order of its parts. -/
def defects (s : Signature) : List SignatureError :=
  defectIf s.HasBlankName .blankName ++
    slotDefects inputDefects s.inputs ++ slotDefects outputDefects s.outputs

/-- **Validation reports the first defect.** -/
theorem validate_reports_first_defect (s : Signature) : s.validate = reportFirst s.defects := by
  have hnone : Seen [] [] := fun _ => Iff.rfl
  have hinputs : validateInputs 0 [] s.inputs = reportFirst (slotDefects inputDefects s.inputs) :=
    validateInputs_eq_reportFirst hnone s.inputs
  have houtputs : validateOutputs 0 [] s.outputs =
      reportFirst (slotDefects outputDefects s.outputs) :=
    validateOutputs_eq_reportFirst hnone s.outputs
  have hblank : Text.isBlank s.name = true ↔ s.HasBlankName := by
    simp [Text.isBlank, HasBlankName]
  rw [validate, defects, List.append_assoc, reportFirst_defectIf_append]
  exact if_congr hblank rfl (check_eq_reportFirst_append hinputs houtputs)

end Signature

end OpSchema
