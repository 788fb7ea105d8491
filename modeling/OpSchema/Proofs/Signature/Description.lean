import Mathlib.Data.List.Forall2
import OpSchema.Proofs.Signature.RoundTrip

/-!
# Which texts are decoded

A text is decoded as a signature exactly if it is short enough, spells a document
that does not nest too deep, the document describes the signature, and the
signature is valid.

What a document describes is said here once more, without a reader and without
the grammar of shapes: which fields each record has, which of them may be left
out, what stands for an absent one, and how each value is written.  A document
that describes something has no numbers in it, so that the one rule of `Spells`
that refers to a scanner plays no part.

## Main definitions

* `OrDefault`: a field that has a default.
* `Aliasing.Describes`, `Slot.Describes`, `Signature.Describes`: the three records.
-/

namespace OpSchema

open Json (Document Matches Shape)

/-! ## Values -/

/-- What is given for a field describes its value, or nothing is given and the
value is the default. -/
def OrDefault {α : Type} (describes : Document → α → Prop) (default : α) :
    Option Document → α → Prop
  | none, value => value = default
  | some d, value => describes d value

/-- A text. -/
def DescribesText (d : Document) (s : String) : Prop := d = .text s

/-- `true` or `false`. -/
def DescribesFlag (d : Document) (value : Bool) : Prop := d = .flag value

/-- A list of texts, whose order and repetitions do not matter. -/
def DescribesSet (d : Document) (set : SymbolSet) : Prop :=
  ∃ symbols : List String, d = .list (symbols.map .text) ∧
    ∀ symbol, symbol ∈ set ↔ symbol ∈ symbols

/-- The name of a type, alone or as the single key of an object that holds `null`. -/
def DescribesType (d : Document) (type : SlotType) : Prop :=
  d = .text type.name ∨ d = .object [(type.name, .null)]

/-- A list with one item for each value. -/
def DescribesEach {α : Type} (describes : Document → α → Prop) (d : Document) (values : List α) :
    Prop :=
  ∃ items, d = .list items ∧ List.Forall₂ describes items values

/-- `null` for no value, or what describes the value. -/
def DescribesOption {α : Type} (describes : Document → α → Prop) (d : Document) :
    Option α → Prop
  | none => d = .null
  | some value => describes d value

/-! ## Records -/

/-- The document describes the aliasing.  All fields have a default. -/
inductive Aliasing.Describes : Document → Aliasing → Prop
  | record {d : Document} {a : Aliasing} {given : String → Option Document}
      {elements : List Document}
      (hfields : d.GivesFields ["sets", "is_write", "contained"] [] given)
      (hsets : OrDefault DescribesSet ∅ (given "sets") a.sets)
      (hwrite : OrDefault DescribesFlag false (given "is_write") a.isWrite)
      (helements : OrDefault (fun e items => e = .list items) [] (given "contained") elements)
      (hlength : elements.length = a.contained.length)
      (hcontained : ∀ p ∈ elements.zip a.contained, Aliasing.Describes p.1 p.2) :
      Aliasing.Describes d a

/-- The document describes the slot.  The type has to be given. -/
def Slot.Describes (d : Document) (slot : Slot) : Prop :=
  ∃ given, d.GivesFields ["name", "ty", "alias_info", "kwarg_only"] ["ty"] given ∧
    OrDefault DescribesText "" (given "name") slot.name ∧
    (∃ e, given "ty" = some e ∧ DescribesType e slot.type) ∧
    OrDefault (DescribesOption Aliasing.Describes) none (given "alias_info") slot.aliasing ∧
    OrDefault DescribesFlag false (given "kwarg_only") slot.keywordOnly

/-- The document describes the signature.  The name has to be given. -/
def Signature.Describes (d : Document) (s : Signature) : Prop :=
  ∃ given, d.GivesFields ["name", "overload_name", "arguments", "returns"] ["name"] given ∧
    (∃ e, given "name" = some e ∧ DescribesText e s.name) ∧
    OrDefault DescribesText "" (given "overload_name") s.overload ∧
    OrDefault (DescribesEach Slot.Describes) [] (given "arguments") s.inputs ∧
    OrDefault (DescribesEach Slot.Describes) [] (given "returns") s.outputs

/-! ## Values of a shape

Each of the descriptions is a shape together with the view that decoding takes of
it. -/

/-- A field with a default has its shape if it is given, and is viewed as `null`
if it is not. -/
theorem orDefault_iff {α : Type} {shape : Shape SignatureRecord} {view : Document → α}
    {describes : Document → α → Prop} {default value : α} (hdefault : view .null = default)
    (hdescribes : ∀ e, Matches signatureGrammar shape e ∧ view e = value ↔ describes e value)
    {given : Option Document} :
    (∀ e, given = some e → Matches signatureGrammar shape e) ∧ view (given.getD .null) = value ↔
      OrDefault describes default given value := by
  cases given with
  | none => simp [OrDefault, hdefault, eq_comm]
  | some e => simp [OrDefault, ← hdescribes]

/-- A field that has to be given. -/
theorem required_iff {α : Type} {shape : Shape SignatureRecord} {view : Document → α}
    {describes : Document → α → Prop} {value : α}
    (hdescribes : ∀ e, Matches signatureGrammar shape e ∧ view e = value ↔ describes e value)
    {given : Option Document} (hgiven : given ≠ none) :
    (∀ e, given = some e → Matches signatureGrammar shape e) ∧ view (given.getD .null) = value ↔
      ∃ e, given = some e ∧ describes e value := by
  cases given with
  | none => exact absurd rfl hgiven
  | some e => simp [← hdescribes]

theorem describesText_iff {e : Document} {s : String} :
    Matches signatureGrammar .text e ∧ e.asText = s ↔ DescribesText e s := by
  constructor
  · rintro ⟨⟨value⟩, rfl⟩
    rfl
  · rintro rfl
    exact ⟨.text s, rfl⟩

theorem describesFlag_iff {e : Document} {value : Bool} :
    Matches signatureGrammar .flag e ∧ e.asFlag = value ↔ DescribesFlag e value := by
  constructor
  · rintro ⟨⟨value⟩, rfl⟩
    rfl
  · rintro rfl
    exact ⟨.flag value, rfl⟩

theorem describesSet_iff {e : Document} {set : SymbolSet} :
    Matches signatureGrammar (.list .text) e ∧
      SymbolSet.ofList (e.asList.map Document.asText) = set ↔ DescribesSet e set := by
  constructor
  · rintro ⟨hmatch, rfl⟩
    cases hmatch with
    | @list _ items hitems =>
        refine ⟨items.map Document.asText, ?_, fun symbol => SymbolSet.mem_ofList⟩
        have htext : ∀ item ∈ items, id item = (Document.text ∘ Document.asText) item := by
          intro item hitem
          cases hitems item hitem
          rfl
        rw [List.map_map, ← List.map_congr_left htext, List.map_id]
  · rintro ⟨symbols, rfl, hset⟩
    refine ⟨.list fun d hd => ?_, SymbolSet.ext_mem fun symbol => ?_⟩
    · obtain ⟨symbol, -, rfl⟩ := List.mem_map.1 hd
      exact .text symbol
    · rw [hset, SymbolSet.mem_ofList, Document.asList, List.map_map]
      exact iff_of_eq (congrArg (symbol ∈ ·) (List.map_id symbols))

theorem describesType_iff {e : Document} {type : SlotType} :
    Matches signatureGrammar (.choice SlotType.names) e ∧ SlotType.ofDocument e = type ↔
      DescribesType e type := by
  have hnamed : ∀ name ∈ SlotType.names, ((SlotType.ofName? name).getD .tensor).name = name := by
    decide
  have hname : type.name ∈ SlotType.names := by
    cases type <;> decide
  constructor
  · rintro ⟨hmatch, rfl⟩
    cases hmatch with
    | name hmem => exact .inl (congrArg Document.text (hnamed _ hmem).symm)
    | key hmem =>
        refine .inr ?_
        rw [SlotType.ofDocument, hnamed _ hmem]
  · rintro (rfl | rfl)
    · exact ⟨.name hname, by simp [SlotType.ofDocument]⟩
    · exact ⟨.key hname, by simp [SlotType.ofDocument]⟩

theorem describesEach_iff {α : Type} {item : Shape SignatureRecord} {view : Document → α}
    {describes : Document → α → Prop} {values : List α}
    (hdescribes : ∀ e, ∀ value ∈ values,
      Matches signatureGrammar item e ∧ view e = value ↔ describes e value) {e : Document} :
    Matches signatureGrammar (.list item) e ∧ e.asList.map view = values ↔
      DescribesEach describes e values := by
  have hitems : ∀ items : List Document,
      (∀ d ∈ items, Matches signatureGrammar item d) ∧ items.map view = values ↔
        List.Forall₂ describes items values := by
    intro items
    induction items generalizing values with
    | nil => cases values <;> simp
    | cons d items ih =>
        cases values with
        | nil => simp
        | cons value values =>
            rw [List.forall₂_cons, List.forall_mem_cons, List.map_cons, List.cons.injEq,
              and_and_and_comm, hdescribes d value List.mem_cons_self,
              ih fun e other hother => hdescribes e other (List.mem_cons_of_mem _ hother)]
  constructor
  · rintro ⟨hmatch, hvalues⟩
    cases hmatch with
    | list hmatch => exact ⟨_, rfl, (hitems _).1 ⟨hmatch, hvalues⟩⟩
  · rintro ⟨items, rfl, heach⟩
    obtain ⟨hmatch, hvalues⟩ := (hitems items).2 heach
    exact ⟨.list hmatch, hvalues⟩

/-- A record is never `null`, so `null` can stand for no record. -/
theorem describesOption_iff {α : Type} {record : SignatureRecord} {view : Document → α}
    {describes : Document → α → Prop} {value : Option α}
    (hdescribes : ∀ e, ∀ v, value = some v →
      (Matches signatureGrammar (.record record) e ∧ view e = v ↔ describes e v)) {e : Document} :
    Matches signatureGrammar (.nullable (.record record)) e ∧ e.asOption.map view = value ↔
      DescribesOption describes e value := by
  have hpresent : ∀ {e}, Matches signatureGrammar (.record record) e → e.asOption = some e := by
    rintro e (_ | _) <;> rfl
  constructor
  · rintro ⟨hmatch, rfl⟩
    cases hmatch with
    | null => rfl
    | some hrecord =>
        rw [hpresent hrecord, Option.map_some]
        rw [hpresent hrecord] at hdescribes
        exact (hdescribes e (view e) rfl).1 ⟨hrecord, rfl⟩
  · intro hdescribed
    cases value with
    | none =>
        obtain rfl : e = .null := hdescribed
        exact ⟨.null _, rfl⟩
    | some v =>
        obtain ⟨hrecord, hview⟩ := (hdescribes e v rfl).2 hdescribed
        exact ⟨.some hrecord, by rw [hpresent hrecord, Option.map_some, hview]⟩

/-! ## Records of the grammar -/

namespace Aliasing

theorem sets_ofDocument (d : Document) :
    (ofDocument d).sets =
      .ofList ((SignatureRecord.get .aliasing "sets" d).asList.map Document.asText) := by
  cases d <;> rfl

theorem isWrite_ofDocument (d : Document) :
    (ofDocument d).isWrite = (SignatureRecord.get .aliasing "is_write" d).asFlag := by
  cases d <;> rfl

/-- The description of an aliasing, in the form of the other records. -/
theorem describes_iff {d : Document} {a : Aliasing} :
    Describes d a ↔ ∃ given, d.GivesFields ["sets", "is_write", "contained"] [] given ∧
      OrDefault DescribesSet ∅ (given "sets") a.sets ∧
      OrDefault DescribesFlag false (given "is_write") a.isWrite ∧
      OrDefault (DescribesEach Describes) [] (given "contained") a.contained := by
  constructor
  · rintro ⟨hfields, hsets, hwrite, helements, hlength, hcontained⟩
    rename_i given elements
    refine ⟨given, hfields, hsets, hwrite, ?_⟩
    have heach : List.Forall₂ Describes elements a.contained :=
      List.forall₂_iff_zip.2 ⟨hlength, fun {e b} hp => hcontained (e, b) hp⟩
    cases hgiven : given "contained" with
    | none =>
        rw [hgiven] at helements
        obtain rfl : elements = [] := helements
        exact List.eq_nil_of_length_eq_zero hlength.symm
    | some e =>
        rw [hgiven] at helements
        exact ⟨elements, helements, heach⟩
  · rintro ⟨given, hfields, hsets, hwrite, hcontained⟩
    obtain ⟨elements, helements, heach⟩ : ∃ elements,
        OrDefault (fun e items => e = .list items) [] (given "contained") elements ∧
          List.Forall₂ Describes elements a.contained := by
      cases hgiven : given "contained" with
      | none =>
          rw [hgiven] at hcontained
          refine ⟨[], rfl, ?_⟩
          rw [show a.contained = [] from hcontained]
          exact .nil
      | some e =>
          rw [hgiven] at hcontained
          exact hcontained
    obtain ⟨hlength, hzip⟩ := List.forall₂_iff_zip.1 heach
    exact .record hfields hsets hwrite helements hlength fun p hp => hzip hp

/-- **An aliasing is read from the documents that describe it.** -/
theorem matches_and_ofDocument_iff {d : Document} {a : Aliasing} :
    Matches signatureGrammar (.record .aliasing) d ∧ ofDocument d = a ↔ Describes d a := by
  induction a using Aliasing.induction generalizing d with
  | hstep a ih =>
      rw [describes_iff, Json.matches_record_iff (by decide) (by decide), ← exists_and_right]
      refine exists_congr fun given => ?_
      rw [and_assoc]
      refine and_congr_right fun hgives => ?_
      have hview : ofDocument d = a ↔
          SymbolSet.ofList (((given "sets").getD .null).asList.map Document.asText) = a.sets ∧
          ((given "is_write").getD .null).asFlag = a.isWrite ∧
          ((given "contained").getD .null).asList.map ofDocument = a.contained := by
        rw [← hgives.field_eq, ← hgives.field_eq, ← hgives.field_eq]
        constructor
        · rintro rfl
          exact ⟨(sets_ofDocument d).symm, (isWrite_ofDocument d).symm,
            (contained_ofDocument d).symm⟩
        · rintro ⟨hsets, hwrite, hcontained⟩
          exact ext_fields ((sets_ofDocument d).trans hsets) ((isWrite_ofDocument d).trans hwrite)
            ((contained_ofDocument d).trans hcontained)
      have hsets : _ ↔ OrDefault DescribesSet ∅ (given "sets") a.sets :=
        orDefault_iff rfl fun _ => describesSet_iff
      have hwrite : _ ↔ OrDefault DescribesFlag false (given "is_write") a.isWrite :=
        orDefault_iff rfl fun _ => describesFlag_iff
      have hcontained : _ ↔
          OrDefault (DescribesEach Describes) [] (given "contained") a.contained :=
        orDefault_iff rfl fun _ => describesEach_iff fun _ b hb => ih b hb
      rw [hview, ← hsets, ← hwrite, ← hcontained]
      simp only [signatureGrammar, List.forall_mem_cons, List.not_mem_nil, false_imp_iff,
        implies_true, and_true]
      rw [and_and_and_comm, @and_and_and_comm (∀ e, given "is_write" = some e → _)]

end Aliasing

/-- **A slot is read from the documents that describe it.** -/
theorem Slot.matches_and_ofDocument_iff {d : Document} {slot : Slot} :
    Matches signatureGrammar (.record .slot) d ∧ ofDocument d = slot ↔ Describes d slot := by
  rw [Describes, Json.matches_record_iff (by decide) (by decide), ← exists_and_right]
  refine exists_congr fun given => ?_
  rw [and_assoc]
  refine and_congr_right fun hgives => ?_
  have hview : ofDocument d = slot ↔
      ((given "name").getD .null).asText = slot.name ∧
      SlotType.ofDocument ((given "ty").getD .null) = slot.type ∧
      ((given "alias_info").getD .null).asOption.map Aliasing.ofDocument = slot.aliasing ∧
      ((given "kwarg_only").getD .null).asFlag = slot.keywordOnly := by
    rw [← hgives.field_eq, ← hgives.field_eq, ← hgives.field_eq, ← hgives.field_eq]
    obtain ⟨name, type, aliasing, keywordOnly⟩ := slot
    exact iff_of_eq (mk.injEq ..)
  have hname : _ ↔ OrDefault DescribesText "" (given "name") slot.name :=
    orDefault_iff rfl fun _ => describesText_iff
  have hgiven : given "ty" ≠ none := hgives.ne_none (by decide) (by decide)
  have htype : _ ↔ ∃ e, given "ty" = some e ∧ DescribesType e slot.type :=
    required_iff (fun _ => describesType_iff) hgiven
  have haliasing : _ ↔ OrDefault (DescribesOption Aliasing.Describes) none (given "alias_info")
      slot.aliasing :=
    orDefault_iff rfl fun _ => describesOption_iff fun _ _ _ => Aliasing.matches_and_ofDocument_iff
  have hkeyword : _ ↔ OrDefault DescribesFlag false (given "kwarg_only") slot.keywordOnly :=
    orDefault_iff rfl fun _ => describesFlag_iff
  rw [hview, ← hname, ← htype, ← haliasing, ← hkeyword]
  simp only [signatureGrammar, List.forall_mem_cons, List.not_mem_nil, false_imp_iff, implies_true,
    and_true]
  rw [and_and_and_comm, @and_and_and_comm (∀ e, given "ty" = some e → _),
    @and_and_and_comm (∀ e, given "alias_info" = some e → _)]

namespace Signature

/-- **A signature is read from the documents that describe it.** -/
theorem matches_and_ofDocument_iff {d : Document} {s : Signature} :
    Matches signatureGrammar (.record .signature) d ∧ ofDocument d = s ↔ Describes d s := by
  rw [Describes, Json.matches_record_iff (by decide) (by decide), ← exists_and_right]
  refine exists_congr fun given => ?_
  rw [and_assoc]
  refine and_congr_right fun hgives => ?_
  have hview : ofDocument d = s ↔
      ((given "name").getD .null).asText = s.name ∧
      ((given "overload_name").getD .null).asText = s.overload ∧
      ((given "arguments").getD .null).asList.map Slot.ofDocument = s.inputs ∧
      ((given "returns").getD .null).asList.map Slot.ofDocument = s.outputs := by
    rw [← hgives.field_eq, ← hgives.field_eq, ← hgives.field_eq, ← hgives.field_eq]
    obtain ⟨name, overload, inputs, outputs⟩ := s
    exact iff_of_eq (mk.injEq ..)
  have hgiven : given "name" ≠ none := hgives.ne_none (by decide) (by decide)
  have hname : _ ↔ ∃ e, given "name" = some e ∧ DescribesText e s.name :=
    required_iff (fun _ => describesText_iff) hgiven
  have hoverload : _ ↔ OrDefault DescribesText "" (given "overload_name") s.overload :=
    orDefault_iff rfl fun _ => describesText_iff
  have hslots : ∀ {given : Option Document} {slots : List Slot},
      _ ↔ OrDefault (DescribesEach Slot.Describes) [] given slots :=
    orDefault_iff rfl fun _ => describesEach_iff fun _ _ _ => Slot.matches_and_ofDocument_iff
  rw [hview, ← hname, ← hoverload, ← hslots, ← hslots]
  simp only [signatureGrammar, List.forall_mem_cons, List.not_mem_nil, false_imp_iff, implies_true,
    and_true]
  rw [and_and_and_comm, @and_and_and_comm (∀ e, given "overload_name" = some e → _),
    @and_and_and_comm (∀ e, given "arguments" = some e → _)]

/-- What is read from a text, before validation. -/
theorem read_eq_ok_iff {source : String} {s : Signature} :
    read source = .ok s ↔
      ∃ d, Json.SpellsWhole source.toList d ∧ d.nesting ≤ 127 ∧ Describes d s := by
  constructor
  · intro hread
    unfold read at hread
    split at hread
    · simp at hread
    · next d hparse =>
      obtain ⟨hspelled, hmatch, hnesting⟩ := Json.parse_eq_ok_iff.1 hparse
      obtain rfl : ofDocument d = s := by simpa using hread
      exact ⟨d, hspelled, hnesting, matches_and_ofDocument_iff.1 ⟨hmatch, rfl⟩⟩
  · rintro ⟨d, hspelled, hnesting, hdescribes⟩
    obtain ⟨hmatch, rfl⟩ := matches_and_ofDocument_iff.2 hdescribes
    rw [read, Json.parse_eq_ok_iff.2 ⟨hspelled, hmatch, hnesting⟩]

/-- **The texts that are decoded, and as what.**  They are those of at most 65536
bytes that spell, with at most 127 brackets open at a time, a document that
describes a valid signature. -/
theorem decode_eq_ok_iff_describes (source : String) (s : Signature) :
    decode source = .ok s ↔
      source.utf8ByteSize ≤ 65536 ∧
        (∃ d, Json.SpellsWhole source.toList d ∧ d.nesting ≤ 127 ∧ Describes d s) ∧
        s.validate = .ok () := by
  rw [← read_eq_ok_iff]
  constructor
  · intro hdecode
    exact ⟨size_le_of_decode hdecode, read_of_decode hdecode⟩
  · rintro ⟨hsmall, hread, hvalid⟩
    rw [decode_of_read hsmall hread, hvalid]
    rfl

end Signature

end OpSchema
