import OpSchema.Proofs.Json.Matching
import OpSchema.Signature.Codec

/-!
# The documents of signatures

A signature is written as a document with every field present.  That document
has the shape that is read (`Signature.matches_toDocument`), and what it
describes is the signature (`Signature.ofDocument_toDocument`).  Both hold of
every signature, valid or not.

## Strategy

Slots and signatures are flat, so each is one step over the lemma for what it
holds.  Aliasings are trees, and there the step is `Aliasing.induction`.
-/

namespace OpSchema

open Json (Document Matches)

/-! ## Aliasings -/

namespace Aliasing

theorem toDocuments_eq_map (as : List Aliasing) : toDocuments as = as.map toDocument := by
  induction as with
  | nil => rfl
  | cons a as ih => rw [toDocuments, ih, List.map_cons]

theorem ofDocuments_eq_map (ds : List Document) : ofDocuments ds = ds.map ofDocument := by
  induction ds with
  | nil => rfl
  | cons d ds ih => rw [ofDocuments, ih, List.map_cons]

theorem ofList_eq_map (d : Document) : ofList d = d.asList.map ofDocument := by
  cases d with
  | list items => rw [ofList, ofDocuments_eq_map, Document.asList]
  | _ => rfl

theorem toDocument_eq (a : Aliasing) :
    a.toDocument = .object [("sets", .texts a.sets.symbols), ("is_write", .flag a.isWrite),
      ("contained", .list (a.contained.map toDocument))] := by
  obtain ⟨sets, isWrite, contained⟩ := a
  rw [toDocument, toDocuments_eq_map]

/-- The elements are described by the field for them, whatever form the record
has. -/
theorem contained_ofDocument (d : Document) :
    (ofDocument d).contained =
      (SignatureRecord.get .aliasing "contained" d).asList.map ofDocument := by
  cases d with
  | object members =>
      -- By key, the first member of the name counts.
      rw [ofDocument]
      show containedInMembers members = _
      induction members with
      | nil => rfl
      | cons m members ih =>
          obtain ⟨key, value⟩ := m
          by_cases hkey : key = "contained"
          · simp [containedInMembers, hkey, ofList_eq_map, SignatureRecord.get, Document.field]
          · have hother : ("contained" == key) = false := beq_false_of_ne (Ne.symm hkey)
            rw [containedInMembers, if_neg hkey, ih]
            simp only [SignatureRecord.get, Document.field, List.lookup_cons, hother]
  | list items =>
      -- By place, the third item counts.
      rw [ofDocument]
      show containedInItems items = _
      rcases items with _ | ⟨_, _ | ⟨_, _ | ⟨d, _⟩⟩⟩
      · rfl
      · rfl
      · rfl
      · exact ofList_eq_map d
  | _ => rfl

/-- **An aliasing is what its document describes.** -/
theorem ofDocument_toDocument (a : Aliasing) : ofDocument a.toDocument = a := by
  induction a using Aliasing.induction with
  | hstep a ih =>
      have hsets : (ofDocument a.toDocument).sets = a.sets := by
        rw [toDocument_eq, ofDocument]
        show SymbolSet.ofList ((a.sets.symbols.map Document.text).map Document.asText) = a.sets
        rw [List.map_map, show Document.asText ∘ Document.text = id from rfl, List.map_id,
          SymbolSet.ofList_symbols]
      have hwrite : (ofDocument a.toDocument).isWrite = a.isWrite := by
        rw [toDocument_eq, ofDocument]
        rfl
      have hcontained : (ofDocument a.toDocument).contained = a.contained := by
        rw [contained_ofDocument, toDocument_eq]
        show (a.contained.map toDocument).map ofDocument = a.contained
        rw [List.map_map]
        exact (List.map_congr_left ih).trans (List.map_id _)
      exact ext_fields hsets hwrite hcontained

theorem matches_toDocument (a : Aliasing) :
    Matches signatureGrammar (.record .aliasing) a.toDocument := by
  induction a using Aliasing.induction with
  | hstep a ih =>
      have hsets : Matches signatureGrammar (.list .text) (.texts a.sets.symbols) := by
        refine .list fun d hd => ?_
        obtain ⟨symbol, -, rfl⟩ := List.mem_map.1 hd
        exact .text symbol
      have hcontained : Matches signatureGrammar (.list (.record .aliasing))
          (.list (a.contained.map toDocument)) := by
        refine .list fun d hd => ?_
        obtain ⟨b, hb, rfl⟩ := List.mem_map.1 hd
        exact ih b hb
      rw [toDocument_eq]
      apply Matches.of_allFields rfl (by decide)
      simpa [signatureGrammar] using ⟨hsets, .flag a.isWrite, hcontained⟩

end Aliasing

/-! ## Slots -/

namespace Slot

theorem ofDocument_toDocument (slot : Slot) : ofDocument slot.toDocument = slot := by
  obtain ⟨name, type, aliasing, keywordOnly⟩ := slot
  have htype : SlotType.ofDocument (.text type.name) = type := by
    rw [SlotType.ofDocument, SlotType.ofName?_name, Option.getD_some]
  have haliasing : ((aliasing.map Aliasing.toDocument).getD .null).asOption.map
      Aliasing.ofDocument = aliasing := by
    cases aliasing with
    | none => rfl
    | some a =>
        rw [Option.map_some, Option.getD_some]
        conv => rhs; rw [← Aliasing.ofDocument_toDocument a]
        rw [Aliasing.toDocument_eq]
        rfl
  calc ofDocument (toDocument ⟨name, type, aliasing, keywordOnly⟩)
      = ⟨name, .ofDocument (.text type.name), ((aliasing.map Aliasing.toDocument).getD
          .null).asOption.map Aliasing.ofDocument, keywordOnly⟩ := rfl
    _ = ⟨name, type, aliasing, keywordOnly⟩ := by rw [htype, haliasing]

theorem matches_toDocument (slot : Slot) :
    Matches signatureGrammar (.record .slot) slot.toDocument := by
  have htype : slot.type.name ∈ SlotType.names := by
    cases slot.type <;> decide
  have haliasing : Matches signatureGrammar (.nullable (.record .aliasing))
      ((slot.aliasing.map Aliasing.toDocument).getD .null) := by
    cases slot.aliasing with
    | none => exact .null _
    | some a => exact .some a.matches_toDocument
  rw [toDocument]
  apply Matches.of_allFields rfl (by decide)
  simpa [signatureGrammar] using
    ⟨.text slot.name, .name htype, haliasing, .flag slot.keywordOnly⟩

end Slot

/-! ## Signatures -/

namespace Signature

/-- **A signature is what its document describes.** -/
theorem ofDocument_toDocument (s : Signature) : ofDocument s.toDocument = s := by
  have hslots : ∀ slots : List Slot, (slots.map Slot.toDocument).map Slot.ofDocument = slots := by
    intro slots
    rw [List.map_map]
    exact (List.map_congr_left fun slot _ => slot.ofDocument_toDocument).trans (List.map_id _)
  calc ofDocument s.toDocument
      = ⟨s.name, s.overload, (s.inputs.map Slot.toDocument).map Slot.ofDocument,
          (s.outputs.map Slot.toDocument).map Slot.ofDocument⟩ := rfl
    _ = s := by rw [hslots, hslots]

/-- **What is written for a signature has the shape that is read.** -/
theorem matches_toDocument (s : Signature) :
    Matches signatureGrammar (.record .signature) s.toDocument := by
  have hslots : ∀ slots : List Slot,
      Matches signatureGrammar (.list (.record .slot)) (.list (slots.map Slot.toDocument)) := by
    intro slots
    refine .list fun d hd => ?_
    obtain ⟨slot, -, rfl⟩ := List.mem_map.1 hd
    exact slot.matches_toDocument
  rw [toDocument]
  apply Matches.of_allFields rfl (by decide)
  simpa [signatureGrammar] using
    ⟨.text s.name, .text s.overload, hslots s.inputs, hslots s.outputs⟩

/-- A document that has the shape of a signature has no numbers in it. -/
theorem numberFree_of_matches {d : Document}
    (hmatch : Matches signatureGrammar (.record .signature) d) : d.NumberFree := by
  refine hmatch.numberFree ?_ trivial
  intro record
  cases record <;> simp [signatureGrammar, Json.Shape.IsNumberFree]

/-- The encoded signature spells its document. -/
theorem spellsWhole_encode (s : Signature) : Json.SpellsWhole s.encode.toList s.toDocument :=
  Json.spellsWhole_compact (numberFree_of_matches s.matches_toDocument)

end Signature

end OpSchema
