import OpSchema.Proofs.Signature.Documents

/-!
# How deep signatures nest

The only part of a signature without a bound on its depth is what an aliasing
contains.  Each level of containment costs two brackets of the document, one for
the list and one for the record in it:

```text
written:   2 * levels + 2  for the aliasing, the last two for its own empty lists
read:      2 * levels + 1  at least, as lists that are empty may be left out
```

Around the aliasing stand three more brackets: slot, list of slots, signature.
So a written signature keeps to `2 * n + 5` brackets exactly if nothing lies
more than `n` levels deep (`Signature.nesting_toDocument_le_iff`).  A document
within the same number of brackets describes a signature with that property
(`Signature.not_nestsBeyond_ofDocument`): the bracket that writing may add is
the odd one.
-/

namespace OpSchema

open Json (Document Matches)

/-! ## Levels of containment -/

namespace Aliasing

/-- The second aliasing lies a number of levels of containment below the first. -/
inductive LiesBelow : Nat → Aliasing → Aliasing → Prop
  | top (a : Aliasing) : LiesBelow 0 a a
  | inside {levels : Nat} {a b c : Aliasing} (hb : b ∈ a.contained)
      (hc : LiesBelow levels b c) : LiesBelow (levels + 1) a c

/-- Nothing lies more than `n` levels below the aliasing. -/
def WithinLevels (n : Nat) (a : Aliasing) : Prop :=
  ∀ levels b, LiesBelow levels a b → levels ≤ n

theorem withinLevels_zero {a : Aliasing} : a.WithinLevels 0 ↔ a.contained = [] := by
  constructor
  · intro hwithin
    rw [List.eq_nil_iff_forall_not_mem]
    intro b hb
    exact Nat.not_succ_le_zero 0 (hwithin 1 b (.inside hb (.top b)))
  · intro hnil levels b hbelow
    cases hbelow with
    | top => exact Nat.le_refl 0
    | inside hb _ =>
        rw [hnil] at hb
        exact absurd hb List.not_mem_nil

theorem withinLevels_succ {n : Nat} {a : Aliasing} :
    a.WithinLevels (n + 1) ↔ ∀ b ∈ a.contained, b.WithinLevels n := by
  constructor
  · intro hwithin b hb levels c hc
    exact Nat.le_of_succ_le_succ (hwithin (levels + 1) c (.inside hb hc))
  · intro hwithin levels c hc
    cases hc with
    | top => exact Nat.zero_le _
    | inside hb hc => exact Nat.succ_le_succ (hwithin _ hb _ _ hc)

/-! ## What is written -/

theorem nesting_texts (values : List String) : (Document.texts values).nesting = 1 := by
  refine Nat.le_antisymm (Document.nesting_list_le.2 fun d hd => ?_) (Nat.le_add_left 1 _)
  obtain ⟨value, -, rfl⟩ := List.mem_map.1 hd
  exact Nat.le_refl 0

/-- An aliasing is written with two brackets around those of its elements. -/
theorem nesting_toDocument_le_add_two {n : Nat} {a : Aliasing} :
    a.toDocument.nesting ≤ n + 2 ↔ ∀ b ∈ a.contained, b.toDocument.nesting ≤ n := by
  have hlist : (Document.list (a.contained.map toDocument)).nesting ≤ n + 1 ↔
      ∀ b ∈ a.contained, b.toDocument.nesting ≤ n := by
    rw [Document.nesting_list_le, List.forall_mem_map]
  rw [toDocument_eq, Document.nesting_object_le]
  simp [nesting_texts, hlist]

/-- A written aliasing keeps to its brackets exactly if it keeps to the levels. -/
theorem nesting_toDocument_le {n : Nat} {a : Aliasing} :
    a.toDocument.nesting ≤ 2 * n + 2 ↔ a.WithinLevels n := by
  induction n generalizing a with
  | zero =>
      -- No bracket is left for an element, and every element needs one.
      have hbracket : ∀ b : Aliasing, ¬b.toDocument.nesting ≤ 0 := by
        intro b
        rw [toDocument_eq]
        exact Nat.not_succ_le_zero _
      rw [Nat.mul_zero, nesting_toDocument_le_add_two, withinLevels_zero,
        List.eq_nil_iff_forall_not_mem]
      exact forall₂_congr fun b _ => iff_false_intro (hbracket b)
  | succ n ih =>
      rw [Nat.mul_succ, nesting_toDocument_le_add_two, withinLevels_succ]
      exact forall₂_congr fun b _ => ih

/-! ## What is read -/

/-- A document has two brackets for each level below the aliasing that it
describes, and one for the last. -/
theorem LiesBelow.nesting_le {levels : Nat} {a b : Aliasing} (hbelow : LiesBelow levels a b)
    {d : Document} (hmatch : Matches signatureGrammar (.record .aliasing) d)
    (hdescribes : ofDocument d = a) : 2 * levels + 1 ≤ d.nesting := by
  induction hbelow generalizing d with
  | top a =>
      cases hmatch with
      | fields _ _ _ _ => exact Nat.le_add_left 1 _
      | places _ _ _ => exact Nat.le_add_left 1 _
  | @inside levels a b c hb _ ih =>
      -- The element is an item of the list of elements, two brackets deep.
      rw [← hdescribes, contained_ofDocument, List.mem_map] at hb
      obtain ⟨e, he, hdescribed⟩ := hb
      obtain ⟨hshape, hnesting⟩ := hmatch.item_of_field rfl he
      have hinside := ih hshape hdescribed
      omega

end Aliasing

/-! ## Slots and signatures -/

theorem Slot.nesting_toDocument_le {n : Nat} {slot : Slot} :
    slot.toDocument.nesting ≤ 2 * n + 3 ↔
      ∀ top, slot.aliasing = some top → top.WithinLevels n := by
  rw [toDocument, Document.nesting_object_le]
  cases slot.aliasing with
  | none => simp
  | some top => simp [Aliasing.nesting_toDocument_le]

namespace Signature

/-- In some slot, an aliasing lies more than `limit` levels of containment below
the one at the top. -/
def NestsBeyond (limit : Nat) (s : Signature) : Prop :=
  ∃ slot ∈ s.inputs ++ s.outputs, ∃ top, slot.aliasing = some top ∧
    ∃ levels a, Aliasing.LiesBelow levels top a ∧ limit < levels

theorem not_nestsBeyond {limit : Nat} {s : Signature} :
    ¬s.NestsBeyond limit ↔ ∀ slot ∈ s.inputs ++ s.outputs, ∀ top, slot.aliasing = some top →
      top.WithinLevels limit := by
  simp only [NestsBeyond, Aliasing.WithinLevels, not_exists, not_and, Nat.not_lt]

/-- **A written signature keeps to its brackets exactly if it keeps to the
levels.** -/
theorem nesting_toDocument_le_iff {n : Nat} {s : Signature} :
    s.toDocument.nesting ≤ 2 * n + 5 ↔ ¬s.NestsBeyond n := by
  have hslots : ∀ slots : List Slot,
      (Document.list (slots.map Slot.toDocument)).nesting ≤ 2 * n + 4 ↔
        ∀ slot ∈ slots, ∀ top, slot.aliasing = some top → top.WithinLevels n := by
    intro slots
    rw [Document.nesting_list_le, List.forall_mem_map]
    exact forall₂_congr fun slot _ => Slot.nesting_toDocument_le
  rw [toDocument, Document.nesting_object_le, not_nestsBeyond, List.forall_mem_append]
  simp [hslots]

/-- The slots of a signature that is read are described two brackets deep. -/
theorem exists_document_of_slot {d : Document}
    (hmatch : Matches signatureGrammar (.record .signature) d) {slot : Slot}
    (hslot : slot ∈ (ofDocument d).inputs ++ (ofDocument d).outputs) :
    ∃ e, Matches signatureGrammar (.record .slot) e ∧ Slot.ofDocument e = slot ∧
      e.nesting + 2 ≤ d.nesting := by
  rcases List.mem_append.1 hslot with hslot | hslot
  all_goals
    obtain ⟨e, he, hdescribed⟩ := List.mem_map.1 hslot
    obtain ⟨hshape, hnesting⟩ := hmatch.item_of_field rfl he
    exact ⟨e, hshape, hdescribed, hnesting⟩

end Signature

/-- The aliasing of a slot that is read is described one bracket deep. -/
theorem Slot.exists_document_of_aliasing {d : Document}
    (hmatch : Matches signatureGrammar (.record .slot) d) {top : Aliasing}
    (htop : (Slot.ofDocument d).aliasing = some top) :
    ∃ e, Matches signatureGrammar (.record .aliasing) e ∧ Aliasing.ofDocument e = top ∧
      e.nesting < d.nesting := by
  obtain ⟨e, hsome, hdescribed⟩ := Option.map_eq_some_iff.1 htop
  have hfield : (signatureGrammar .slot).field? "alias_info" =
      some ⟨"alias_info", .defaulted, .nullable (.record .aliasing)⟩ := rfl
  change (SignatureRecord.get .slot "alias_info" d).asOption = some e at hsome
  rcases hmatch.field hfield with habsent | ⟨hshape, hnesting⟩
  · rw [SignatureRecord.get, habsent] at hsome
    simp [Document.asOption] at hsome
  · rw [SignatureRecord.get] at hsome
    generalize d.field (signatureGrammar .slot).names "alias_info" = value at hsome hshape hnesting
    cases hshape with
    | null => simp [Document.asOption] at hsome
    | some hrecord =>
        -- A record is not `null`, so the view as an option is the document itself.
        have hsame : value = e := by
          cases hrecord <;> exact Option.some.inj hsome
        exact ⟨e, hsame ▸ hrecord, hdescribed, hsame ▸ hnesting⟩

/-- **A signature that is read keeps to the levels if its document keeps to the
brackets**, in whichever of its forms each record was written. -/
theorem Signature.not_nestsBeyond_ofDocument {d : Document} {n : Nat}
    (hmatch : Matches signatureGrammar (.record .signature) d)
    (hnesting : d.nesting ≤ 2 * n + 5) : ¬(ofDocument d).NestsBeyond n := by
  rw [not_nestsBeyond]
  intro slot hslot top htop levels a hbelow
  obtain ⟨e, hslotShape, rfl, hslotNesting⟩ := exists_document_of_slot hmatch hslot
  obtain ⟨f, hshape, hdescribed, htopNesting⟩ := Slot.exists_document_of_aliasing hslotShape htop
  have hlevels := hbelow.nesting_le hshape hdescribed
  omega

end OpSchema
