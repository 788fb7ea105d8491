import OpSchema.Proofs.Signature.Nesting

/-!
# Which signatures are valid

Validation goes through a signature from its name to its last output and stops at
the first defect.  Here it is compared with a description that knows neither an
order nor a first defect: a signature is well-formed if its name is not blank, its
slots can be told apart, and every aliasing in it, at whatever depth, is sound
(`Signature.WellFormed`).  The two agree on every signature, and what validation
reports is always a defect of the signature (`Signature.isDefect_of_validate`).

## Strategy

* **Aliasings.**  One level is sound exactly if the checks on it pass
  (`Aliasing.validate_eq_ok`); all levels follow by `Aliasing.induction`.
* **Slots.**  The two loops carry the names that they have seen.  What they check
  of the slots that are left is that those names do not occur again, which for no
  names seen is that all names are distinct.
-/

namespace OpSchema

/-! ## Identifiers -/

/-- A letter from `a` to `z`, of either case. -/
def IsLetter (c : Char) : Prop := 'a' ≤ c ∧ c ≤ 'z' ∨ 'A' ≤ c ∧ c ≤ 'Z'

/-- A letter or underscore, followed by letters, digits and underscores. -/
def IsIdentifier (s : String) : Prop :=
  ∃ first others, s.toList = first :: others ∧ (IsLetter first ∨ first = '_') ∧
    ∀ c ∈ others, IsLetter c ∨ ('0' ≤ c ∧ c ≤ '9') ∨ c = '_'

private theorem isAlpha_iff {c : Char} : c.isAlpha = true ↔ IsLetter c := by
  unfold Char.isAlpha Char.isUpper Char.isLower
  simp only [Bool.or_eq_true, Bool.and_eq_true, decide_eq_true_eq, IsLetter, Char.le_def]
  exact or_comm

private theorem isAlphanum_iff {c : Char} :
    c.isAlphanum = true ↔ IsLetter c ∨ ('0' ≤ c ∧ c ≤ '9') := by
  simp only [Char.isAlphanum, Bool.or_eq_true, isAlpha_iff, Char.isDigit, Bool.and_eq_true,
    decide_eq_true_eq, Char.le_def]

theorem isIdentifier_iff {s : String} : isIdentifier s = true ↔ IsIdentifier s := by
  unfold isIdentifier IsIdentifier
  cases s.toList with
  | nil => simp
  | cons first others =>
      simp only [Bool.and_eq_true, Bool.or_eq_true, beq_iff_eq, List.all_eq_true, isAlpha_iff,
        isAlphanum_iff, or_assoc]
      constructor
      · rintro ⟨hfirst, hothers⟩
        exact ⟨first, others, rfl, hfirst, hothers⟩
      · rintro ⟨_, _, hsame, hfirst, hothers⟩
        obtain ⟨rfl, rfl⟩ := List.cons.inj hsame
        exact ⟨hfirst, hothers⟩

theorem isAliasSymbol_iff {s : String} :
    isAliasSymbol s = true ↔ s = "*" ∨ IsIdentifier s := by
  rw [isAliasSymbol, Bool.or_eq_true, isIdentifier_iff, beq_iff_eq, wildcardSymbol]

/-! ## Aliasings -/

/-- A set with the wildcard has another symbol exactly if it has more than one. -/
theorem SymbolSet.size_le_one_iff {s : SymbolSet} (hwildcard : "*" ∈ s) :
    s.size ≤ 1 ↔ ∀ symbol ∈ s, symbol = "*" := by
  obtain ⟨symbols, hascending⟩ := s
  change "*" ∈ symbols at hwildcard
  change symbols.length ≤ 1 ↔ ∀ symbol ∈ symbols, symbol = "*"
  rcases symbols with _ | ⟨first, _ | ⟨second, others⟩⟩
  · exact absurd hwildcard List.not_mem_nil
  · obtain rfl : "*" = first := List.mem_singleton.1 hwildcard
    simp
  · -- Two symbols of a set differ, so one of them is not the wildcard.
    have hless : first < second := (List.pairwise_cons.1 hascending).1 second List.mem_cons_self
    refine iff_of_false (by simp) fun hall => ?_
    rw [hall first List.mem_cons_self, hall second (by simp)] at hless
    exact String.lt_irrefl _ hless

namespace Aliasing

/-- What the sets of an aliasing have to satisfy, whatever it contains: symbols
are identifiers or the wildcard, the wildcard stands alone, and what is written
through belongs to a set. -/
structure IsSound (a : Aliasing) : Prop where
  symbols : ∀ symbol ∈ a.sets, symbol = "*" ∨ IsIdentifier symbol
  wildcard : "*" ∈ a.sets → ∀ symbol ∈ a.sets, symbol = "*"
  write : a.isWrite = true → ∃ symbol, symbol ∈ a.sets

theorem validateList_eq_ok {slot : String} {as : List Aliasing} :
    validateList slot as = .ok () ↔ ∀ a ∈ as, a.validate slot = .ok () := by
  induction as with
  | nil => simp [validateList]
  | cons a as ih =>
      rw [validateList, List.forall_mem_cons]
      cases a.validate slot with
      | error e => simp
      | ok _ => simpa using ih

/-- The checks of an aliasing are those of its own sets and those of its
elements. -/
theorem validate_eq_ok {slot : String} {a : Aliasing} :
    a.validate slot = .ok () ↔ a.IsSound ∧ ∀ b ∈ a.contained, b.validate slot = .ok () := by
  obtain ⟨sets, isWrite, contained⟩ := a
  have hsymbols : (sets.symbols.find? fun symbol => !isAliasSymbol symbol) = Option.none ↔
      ∀ symbol ∈ sets, symbol = "*" ∨ IsIdentifier symbol := by
    rw [List.find?_eq_none]
    exact forall₂_congr fun symbol _ => by simp [isAliasSymbol_iff]
  have hwrite : (isWrite && sets.isEmpty) = false ↔
      (isWrite = true → ∃ symbol, symbol ∈ sets) := by
    have hempty : sets.isEmpty = false ↔ ∃ symbol, symbol ∈ sets := by
      rw [SymbolSet.isEmpty, List.isEmpty_eq_false_iff_exists_mem]
      rfl
    rw [Bool.and_eq_false_imp, hempty]
  have hwildcard : (sets.contains wildcardSymbol && decide (1 < sets.size)) = false ↔
      ("*" ∈ sets → ∀ symbol ∈ sets, symbol = "*") := by
    rw [Bool.and_eq_false_imp, SymbolSet.contains_iff, wildcardSymbol]
    refine imp_congr_right fun hmem => ?_
    rw [decide_eq_false_iff_not, Nat.not_lt, SymbolSet.size_le_one_iff hmem]
  rw [validate]
  split
  · next symbol hfound =>
    -- An invalid symbol was found, so not all symbols are valid.
    refine iff_of_false (by simp) fun hall => ?_
    simp [hsymbols.2 hall.1.symbols] at hfound
  · next hnone =>
    split
    · next hset =>
      refine iff_of_false (by simp) fun hall => ?_
      simp [hwrite.2 hall.1.write] at hset
    · next hset =>
      split
      · next hmixed =>
        refine iff_of_false (by simp) fun hall => ?_
        simp [hwildcard.2 hall.1.wildcard] at hmixed
      · next hmixed =>
        rw [validateList_eq_ok]
        exact (and_iff_right ⟨hsymbols.1 hnone, hwildcard.1 (eq_false_of_ne_true hmixed),
          hwrite.1 (eq_false_of_ne_true hset)⟩).symm

/-- **An aliasing is valid exactly if all levels of it are sound.** -/
theorem validate_eq_ok_iff_forall_liesBelow {slot : String} {a : Aliasing} :
    a.validate slot = .ok () ↔ ∀ levels b, LiesBelow levels a b → b.IsSound := by
  induction a using Aliasing.induction with
  | hstep a ih =>
      rw [validate_eq_ok]
      constructor
      · rintro ⟨hsound, hcontained⟩ levels b hbelow
        cases hbelow with
        | top => exact hsound
        | inside hb hbelow => exact (ih _ hb).1 (hcontained _ hb) _ _ hbelow
      · intro hall
        refine ⟨hall 0 a (.top a), fun b hb => (ih b hb).2 fun levels c hbelow => ?_⟩
        exact hall _ c (.inside hb hbelow)

end Aliasing

/-! ## Slots -/

/-- Every aliasing of the slot is sound, at any depth. -/
def Slot.IsSound (slot : Slot) : Prop :=
  ∀ top, slot.aliasing = some top → ∀ levels a, Aliasing.LiesBelow levels top a → a.IsSound

theorem Slot.validateAliasing_eq_ok {label : String} {slot : Slot} :
    slot.validateAliasing label = .ok () ↔ slot.IsSound := by
  unfold validateAliasing IsSound
  cases slot.aliasing with
  | none => simp
  | some top => simp [Aliasing.validate_eq_ok_iff_forall_liesBelow]

namespace Signature

/-- The names differ from each other and from those seen before. -/
def Fresh (seen names : List String) : Prop :=
  (∀ name ∈ names, name ∉ seen) ∧ names.Nodup

theorem fresh_nil_left {names : List String} : Fresh [] names ↔ names.Nodup := by
  simp [Fresh]

theorem fresh_cons {seen names : List String} {name : String} :
    Fresh seen (name :: names) ↔ name ∉ seen ∧ Fresh (name :: seen) names := by
  rw [Fresh, Fresh, List.forall_mem_cons, List.nodup_cons]
  simp only [List.mem_cons, not_or]
  constructor
  · rintro ⟨⟨hname, hseen⟩, hnew, hdistinct⟩
    exact ⟨hname, fun other hmem => ⟨fun hsame => hnew (hsame ▸ hmem), hseen other hmem⟩, hdistinct⟩
  · rintro ⟨hname, hothers, hdistinct⟩
    exact ⟨⟨hname, fun other hmem => (hothers other hmem).2⟩,
      fun hmem => (hothers name hmem).1 rfl, hdistinct⟩

/-- A name that does not occur may as well have been seen. -/
theorem fresh_cons_left {seen names : List String} {name : String} (habsent : name ∉ names) :
    Fresh (name :: seen) names ↔ Fresh seen names := by
  refine and_congr_left fun _ => forall₂_congr fun other hmem => ?_
  rw [List.mem_cons, not_or]
  exact and_iff_right fun hsame => habsent (hsame ▸ hmem)

theorem validateInputs_eq_ok {index : Nat} {seen : List String} {slots : List Slot} :
    validateInputs index seen slots = .ok () ↔
      (∀ slot ∈ slots, slot.name ≠ "" ∧ slot.IsSound) ∧ Fresh seen (slots.map Slot.name) := by
  induction slots generalizing index seen with
  | nil => simp [validateInputs, Fresh]
  | cons slot slots ih =>
      rw [validateInputs, List.forall_mem_cons, List.map_cons, fresh_cons,
        ← @Slot.validateAliasing_eq_ok slot.name slot]
      by_cases hempty : slot.name = ""
      · simp [hempty]
      by_cases hseen : slot.name ∈ seen
      · simp [hempty, hseen]
      rw [if_neg (by simpa [String.isEmpty_iff] using hempty), if_neg (by simpa using hseen)]
      cases slot.validateAliasing slot.name with
      | error e => simp
      | ok _ => simpa [hempty, hseen] using ih

private theorem fresh_filter_cons {seen names : List String} {name : String} :
    Fresh seen ((name :: names).filter (· ≠ "")) ↔
      (name ≠ "" → name ∉ seen) ∧ Fresh (name :: seen) (names.filter (· ≠ "")) := by
  by_cases hempty : name = ""
  · subst hempty
    rw [fresh_cons_left (by simp)]
    simp
  · rw [List.filter_cons_of_pos (by simpa using hempty), fresh_cons]
    simp [hempty]

/-- Outputs may be without a name, and only those with one have to differ. -/
theorem validateOutputs_eq_ok {index : Nat} {seen : List String} {slots : List Slot} :
    validateOutputs index seen slots = .ok () ↔
      (∀ slot ∈ slots, slot.IsSound) ∧ Fresh seen ((slots.map Slot.name).filter (· ≠ "")) := by
  induction slots generalizing index seen with
  | nil => simp [validateOutputs, Fresh]
  | cons slot slots ih =>
      rw [validateOutputs, List.forall_mem_cons, List.map_cons, fresh_filter_cons,
        ← @Slot.validateAliasing_eq_ok (outputLabel index slot) slot]
      by_cases hrepeated : slot.name ≠ "" ∧ slot.name ∈ seen
      · simp [hrepeated.1, hrepeated.2]
      have hnew : slot.name ≠ "" → slot.name ∉ seen := not_and.1 hrepeated
      rw [if_neg (by simpa [String.isEmpty_iff] using hnew), and_iff_right hnew]
      cases slot.validateAliasing (outputLabel index slot) with
      | error e => simp
      | ok _ => simpa using ih

/-! ## Signatures -/

/-- What a valid signature satisfies: a name that is not blank, inputs with
distinct names, outputs whose names are distinct where they are given, and sound
aliasings. -/
structure WellFormed (s : Signature) : Prop where
  name : ∃ c ∈ s.name.toList, Text.isWhiteSpace c = false
  inputsNamed : ∀ slot ∈ s.inputs, slot.name ≠ ""
  inputsDistinct : (s.inputs.map Slot.name).Nodup
  outputsDistinct : ((s.outputs.map Slot.name).filter (· ≠ "")).Nodup
  aliasings : ∀ slot ∈ s.inputs ++ s.outputs, ∀ top, slot.aliasing = some top →
    ∀ levels a, Aliasing.LiesBelow levels top a → a.IsSound

/-- **The valid signatures are the well-formed ones.** -/
theorem validate_eq_ok_iff_wellFormed (s : Signature) : s.validate = .ok () ↔ s.WellFormed := by
  have hname : Text.isBlank s.name = false ↔ ∃ c ∈ s.name.toList, Text.isWhiteSpace c = false := by
    simp [Text.isBlank]
  have hinputs : validateInputs 0 [] s.inputs = .ok () ↔
      (∀ slot ∈ s.inputs, slot.name ≠ "" ∧ slot.IsSound) ∧ (s.inputs.map Slot.name).Nodup := by
    rw [validateInputs_eq_ok, fresh_nil_left]
  have houtputs : validateOutputs 0 [] s.outputs = .ok () ↔
      (∀ slot ∈ s.outputs, slot.IsSound) ∧
        ((s.outputs.map Slot.name).filter (· ≠ "")).Nodup := by
    rw [validateOutputs_eq_ok, fresh_nil_left]
  constructor
  · intro hvalid
    unfold validate at hvalid
    split at hvalid
    · simp at hvalid
    · next hblank =>
      split at hvalid
      · simp at hvalid
      · next hok =>
        obtain ⟨hslots, hdistinct⟩ := hinputs.1 hok
        obtain ⟨hsound, hgiven⟩ := houtputs.1 hvalid
        refine ⟨hname.1 (eq_false_of_ne_true hblank), fun slot hslot => (hslots slot hslot).1,
          hdistinct, hgiven, ?_⟩
        rw [List.forall_mem_append]
        exact ⟨fun slot hslot => (hslots slot hslot).2, hsound⟩
  · intro hwell
    obtain ⟨hinputsSound, houtputsSound⟩ := List.forall_mem_append.1 hwell.aliasings
    have hok : validateInputs 0 [] s.inputs = .ok () :=
      hinputs.2 ⟨fun slot hslot => ⟨hwell.inputsNamed slot hslot, hinputsSound slot hslot⟩,
        hwell.inputsDistinct⟩
    simp [validate, hname.2 hwell.name, hok, houtputs.2 ⟨houtputsSound, hwell.outputsDistinct⟩]

end Signature

/-! ## What is reported -/

/-- The error is a defect of a signature, not of a text. -/
def SignatureError.isDefect : SignatureError → Bool
  | .malformed _ => false
  | .unknownField _ => false
  | .tooLarge _ _ => false
  | .incompatible _ => false
  | _ => true

namespace Aliasing

private theorem isDefect_of_validateList {slot : String} {as : List Aliasing} {e : SignatureError}
    (hall : ∀ a ∈ as, ∀ e, a.validate slot = .error e → e.isDefect = true)
    (hinvalid : validateList slot as = .error e) : e.isDefect = true := by
  induction as with
  | nil => simp [validateList] at hinvalid
  | cons a as ih =>
      rw [List.forall_mem_cons] at hall
      rw [validateList] at hinvalid
      split at hinvalid
      · next hfirst =>
        obtain rfl := Except.error.inj hinvalid
        exact hall.1 _ hfirst
      · exact ih hall.2 hinvalid

theorem isDefect_of_validate {slot : String} {a : Aliasing} {e : SignatureError}
    (hinvalid : a.validate slot = .error e) : e.isDefect = true := by
  induction a using Aliasing.induction generalizing e with
  | hstep a ih =>
      obtain ⟨sets, isWrite, contained⟩ := a
      rw [validate] at hinvalid
      split at hinvalid
      · exact Except.error.inj hinvalid ▸ rfl
      split at hinvalid
      · exact Except.error.inj hinvalid ▸ rfl
      split at hinvalid
      · exact Except.error.inj hinvalid ▸ rfl
      · exact isDefect_of_validateList (fun b hb e => ih b hb) hinvalid

end Aliasing

private theorem Slot.isDefect_of_validateAliasing {label : String} {slot : Slot}
    {e : SignatureError} (hinvalid : slot.validateAliasing label = .error e) :
    e.isDefect = true := by
  unfold validateAliasing at hinvalid
  split at hinvalid
  · simp at hinvalid
  · exact Aliasing.isDefect_of_validate hinvalid

namespace Signature

private theorem isDefect_of_validateInputs {index : Nat} {seen : List String} {slots : List Slot}
    {e : SignatureError} (hinvalid : validateInputs index seen slots = .error e) :
    e.isDefect = true := by
  fun_induction validateInputs index seen slots with
  | case1 => simp at hinvalid
  | case2 => exact Except.error.inj hinvalid ▸ rfl
  | case3 => exact Except.error.inj hinvalid ▸ rfl
  | case4 _ _ _ _ _ _ _ hslot =>
      exact Slot.isDefect_of_validateAliasing (Except.error.inj hinvalid ▸ hslot)
  | case5 _ _ _ _ _ _ _ ih => exact ih hinvalid

private theorem isDefect_of_validateOutputs {index : Nat} {seen : List String} {slots : List Slot}
    {e : SignatureError} (hinvalid : validateOutputs index seen slots = .error e) :
    e.isDefect = true := by
  fun_induction validateOutputs index seen slots with
  | case1 => simp at hinvalid
  | case2 => exact Except.error.inj hinvalid ▸ rfl
  | case3 _ _ _ _ _ _ hslot =>
      exact Slot.isDefect_of_validateAliasing (Except.error.inj hinvalid ▸ hslot)
  | case4 _ _ _ _ _ _ ih => exact ih hinvalid

/-- Validation complains about the signature alone. -/
theorem isDefect_of_validate {s : Signature} {e : SignatureError}
    (hinvalid : s.validate = .error e) : e.isDefect = true := by
  unfold validate at hinvalid
  split at hinvalid
  · exact Except.error.inj hinvalid ▸ rfl
  split at hinvalid
  · next hinputs => exact isDefect_of_validateInputs (Except.error.inj hinvalid ▸ hinputs)
  · exact isDefect_of_validateOutputs hinvalid

end Signature

end OpSchema
