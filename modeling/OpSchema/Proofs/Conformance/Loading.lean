import OpSchema.Conformance.CaseReport
import OpSchema.Proofs.Json.Compact
import OpSchema.Proofs.Json.Unambiguous
import OpSchema.Proofs.Signature.Description

/-!
# What a case loads

A case of a fixture holds its signature as a document.  To load it, the document is
brought into canonical form, written compactly, and decoded from there.  This file
compares that with decoding the text that the document was read from.

* What is decoded from the text is loaded: the detour gives the same signature, and it
  needs neither more bytes nor more brackets (`FixtureCase.load_of_decode`).
* What is refused in the text is refused in the case, unless the text repeats a key
  (`FixtureCase.load_of_decode_error`).  The canonical form keeps the last member of a
  key, and so it may hide what decoding would complain about.

## Strategy

A document describes the same signature in canonical form, which is shown record by
record (`Signature.Describes.canonical`).  For the way back,
`Json.Matches.of_canonical` gives the shape of the document from that of its canonical
form, and `Json.eq_of_spellsWhole_compact` says that nothing but the canonical form is
read from what was written.
-/

namespace OpSchema

open Json (Document Matches RepeatsKey)

/-! ## Values in canonical form -/

theorem OrDefault.canonical {α : Type} {describes : Document → α → Prop} {default value : α}
    {given : Option Document} (hgiven : OrDefault describes default given value)
    (hdescribes : ∀ e, describes e value → describes e.canonical value) :
    OrDefault describes default (given.map Document.canonical) value := by
  cases given with
  | none => exact hgiven
  | some e => exact hdescribes e hgiven

theorem DescribesText.canonical {d : Document} {s : String} (hdescribes : DescribesText d s) :
    DescribesText d.canonical s := by
  obtain rfl : d = .text s := hdescribes
  rfl

theorem DescribesFlag.canonical {d : Document} {value : Bool} (hdescribes : DescribesFlag d value) :
    DescribesFlag d.canonical value := by
  obtain rfl : d = .flag value := hdescribes
  rfl

theorem DescribesSet.canonical {d : Document} {set : SymbolSet} (hdescribes : DescribesSet d set) :
    DescribesSet d.canonical set := by
  obtain ⟨symbols, rfl, hset⟩ := hdescribes
  refine ⟨symbols, ?_, hset⟩
  rw [Document.canonical_list, List.map_map]
  rfl

theorem DescribesType.canonical {d : Document} {type : SlotType}
    (hdescribes : DescribesType d type) : DescribesType d.canonical type := by
  rcases hdescribes with rfl | rfl
  · exact .inl rfl
  · exact .inr rfl

theorem DescribesEach.canonical {α : Type} {describes : Document → α → Prop} {d : Document}
    {values : List α}
    (hdescribes : ∀ e, ∀ value ∈ values, describes e value → describes e.canonical value)
    (heach : DescribesEach describes d values) : DescribesEach describes d.canonical values := by
  obtain ⟨items, rfl, hitems⟩ := heach
  refine ⟨items.map Document.canonical, Document.canonical_list items, ?_⟩
  induction hitems with
  | nil => exact .nil
  | cons hhead _ ih =>
      rw [List.map_cons]
      refine .cons (hdescribes _ _ List.mem_cons_self hhead) (ih fun e value hvalue => ?_)
      exact hdescribes e value (List.mem_cons_of_mem _ hvalue)

theorem DescribesOption.canonical {α : Type} {describes : Document → α → Prop} {d : Document}
    {value : Option α} (hdescribes : ∀ e v, describes e v → describes e.canonical v)
    (hoption : DescribesOption describes d value) :
    DescribesOption describes d.canonical value := by
  cases value with
  | none =>
      obtain rfl : d = .null := hoption
      rfl
  | some v => exact hdescribes d v hoption

/-! ## Records in canonical form -/

theorem Aliasing.Describes.canonical {d : Document} {a : Aliasing} (hdescribes : Describes d a) :
    Describes d.canonical a := by
  induction a using Aliasing.induction generalizing d with
  | hstep a ih =>
      obtain ⟨given, hgives, hsets, hwrite, hcontained⟩ := describes_iff.1 hdescribes
      refine describes_iff.2 ⟨_, hgives.canonical, ?_, ?_, ?_⟩
      · exact hsets.canonical fun _ => DescribesSet.canonical
      · exact hwrite.canonical fun _ => DescribesFlag.canonical
      · exact hcontained.canonical fun _ => DescribesEach.canonical fun _ b hb => ih b hb

theorem Slot.Describes.canonical {d : Document} {slot : Slot} (hdescribes : Describes d slot) :
    Describes d.canonical slot := by
  obtain ⟨given, hgives, hname, ⟨type, htype, hdescribed⟩, haliasing, hkeyword⟩ := hdescribes
  refine ⟨_, hgives.canonical, ?_, ⟨type.canonical, ?_, hdescribed.canonical⟩, ?_, ?_⟩
  · exact hname.canonical fun _ => DescribesText.canonical
  · rw [htype, Option.map_some]
  · exact haliasing.canonical fun _ => DescribesOption.canonical fun _ _ =>
      Aliasing.Describes.canonical
  · exact hkeyword.canonical fun _ => DescribesFlag.canonical

namespace Signature

/-- **A signature is described by the canonical form too.** -/
theorem Describes.canonical {d : Document} {s : Signature} (hdescribes : Describes d s) :
    Describes d.canonical s := by
  obtain ⟨given, hgives, ⟨name, hname, hdescribed⟩, hoverload, hinputs, houtputs⟩ := hdescribes
  have hslots : ∀ {slots : List Slot} (e : Document), DescribesEach Slot.Describes e slots →
      DescribesEach Slot.Describes e.canonical slots :=
    fun _ => DescribesEach.canonical fun _ _ _ => Slot.Describes.canonical
  refine ⟨_, hgives.canonical, ⟨name.canonical, ?_, hdescribed.canonical⟩, ?_, ?_, ?_⟩
  · rw [hname, Option.map_some]
  · exact hoverload.canonical fun _ => DescribesText.canonical
  · exact hinputs.canonical hslots
  · exact houtputs.canonical hslots

theorem Describes.numberFree {d : Document} {s : Signature} (hdescribes : Describes d s) :
    d.NumberFree :=
  numberFree_of_matches (matches_and_ofDocument_iff.2 hdescribes).1

/-- What the canonical form describes, the document describes unless it repeats a key. -/
theorem Describes.of_canonical {d : Document} {s : Signature} (hdescribes : Describes d.canonical s)
    (honce : ¬RepeatsKey signatureGrammar (.record .signature) d) : Describes d s := by
  obtain ⟨hmatch, hview⟩ := matches_and_ofDocument_iff.2 hdescribes
  have hshape := hmatch.of_canonical honce
  have hdescribed : Describes d (ofDocument d) := matches_and_ofDocument_iff.1 ⟨hshape, rfl⟩
  obtain ⟨-, hsame⟩ := matches_and_ofDocument_iff.2 hdescribed.canonical
  rwa [← hsame, hview] at hdescribed

/-! ## Texts -/

/-- What is read from the compact form of a document is what the document describes. -/
theorem describes_of_read_compact {d : Document} {s : Signature}
    (hread : read d.compact = .ok s) : Describes d s := by
  obtain ⟨e, hspelled, -, hdescribes⟩ := read_eq_ok_iff.1 hread
  rwa [Json.eq_of_spellsWhole_compact hdescribes.numberFree hspelled]

/-- The compact form of a document that describes a signature is read as that. -/
theorem read_compact {d : Document} {s : Signature} (hdescribes : Describes d s)
    (hnesting : d.nesting ≤ Json.nestingBudget) : read d.compact = .ok s :=
  read_eq_ok_iff.2 ⟨d, Json.spellsWhole_compact hdescribes.numberFree, hnesting, hdescribes⟩

theorem decode_of_read_of_validate {source : String} {s : Signature}
    (hsmall : source.utf8ByteSize ≤ maxPayloadBytes) (hread : read source = .ok s)
    (hvalid : s.validate = .ok ()) : decode source = .ok s := by
  rw [decode_of_read hsmall hread, hvalid]
  rfl

end Signature

theorem Operator.exists_load {source : String} {s : Signature}
    (hdecode : Signature.decode source = .ok s) :
    ∃ op, load source = .ok op ∧ op.signature = s := by
  rw [load, hdecode]
  exact exists_ofSignature (Signature.read_of_decode hdecode).2

theorem Operator.decode_of_load {source : String} {op : Operator} (hload : load source = .ok op) :
    ∃ s, Signature.decode source = .ok s := by
  unfold load at hload
  split at hload
  · exact absurd hload nofun
  · next s hdecode => exact ⟨s, hdecode⟩

/-- An operator is determined by its signature. -/
theorem Operator.ext_signature {first second : Operator}
    (hsignature : first.signature = second.signature) : first = second := by
  obtain ⟨s, _, _, rfl, _, rfl, _, rfl⟩ := first
  obtain ⟨t, _, _, rfl, _, rfl, _, rfl⟩ := second
  obtain rfl : s = t := hsignature
  rfl

/-! ## Cases -/

namespace FixtureCase

open Signature (decode)

/-- A case that holds the document of an operator loads that operator. -/
theorem load_toDocument {c : FixtureCase} {op : Operator}
    (hschema : c.schema = op.signature.toDocument)
    (hsize : op.signature.toDocument.compactSize ≤ Signature.maxPayloadBytes)
    (hnesting : op.signature.toDocument.nesting ≤ Json.nestingBudget) : c.load = .ok op := by
  have hdescribes : Signature.Describes op.signature.toDocument op.signature :=
    Signature.matches_and_ofDocument_iff.1
      ⟨Signature.matches_toDocument _, Signature.ofDocument_toDocument _⟩
  have hdecode : decode c.schema.canonical.compact = .ok op.signature := by
    rw [hschema]
    refine Signature.decode_of_read_of_validate ?_ ?_ op.valid
    · rw [Document.utf8ByteSize_compact]
      exact Nat.le_trans (Document.compactSize_canonical_le _) hsize
    · exact Signature.read_compact hdescribes.canonical
        (Nat.le_trans (Document.nesting_canonical_le _) hnesting)
  obtain ⟨loaded, hload, hsame⟩ := Operator.exists_load hdecode
  rw [load, hload, Operator.ext_signature hsame]

/-- **What is decoded from a text is loaded from its document.**  The text can be read as
a document, whose canonical form has no more bytes than the text and keeps to the nesting
budget, and both are decoded as the same signature. -/
theorem load_of_decode {source : String} {s : Signature} (haccepted : decode source = .ok s) :
    ∃ d, Json.parseAny source = .ok d ∧
      d.canonical.compact.utf8ByteSize ≤ source.utf8ByteSize ∧
      d.canonical.nesting ≤ Json.nestingBudget ∧
      decode d.canonical.compact = .ok s ∧
      ∀ c : FixtureCase, c.schema = d → ∃ op, c.load = .ok op ∧ op.signature = s := by
  obtain ⟨hread, hvalid⟩ := Signature.read_of_decode haccepted
  obtain ⟨d, hspelled, hnesting, hdescribes⟩ := Signature.read_eq_ok_iff.1 hread
  have hsize := hspelled.utf8ByteSize_canonical_le hdescribes.numberFree
  have hdepth : d.canonical.nesting ≤ Json.nestingBudget :=
    Nat.le_trans d.nesting_canonical_le hnesting
  have hagain : decode d.canonical.compact = .ok s := by
    refine Signature.decode_of_read_of_validate ?_ ?_ hvalid
    · exact Nat.le_trans hsize (Signature.size_le_of_decode haccepted)
    · exact Signature.read_compact hdescribes.canonical hdepth
  refine ⟨d, ?_, hsize, hdepth, hagain, ?_⟩
  · exact Json.parse_eq_ok_iff.2 ⟨hspelled, .anything d, hnesting⟩
  · rintro c rfl
    exact Operator.exists_load hagain

/-- A signature with its keys in no order, an escape that is not needed and blanks. -/
def looseSource : String :=
  " \x7b\"returns\":[],\n \"arguments\" : [\x7b\"ty\":\"tensor\",\"alias_info\":" ++
    "[[\"b\",\"a\"]],\"name\":\"\\u0078\"\x7d], \"name\":\"add\" \x7d"

/-- The signature that `looseSource` describes. -/
def looseSignature : Signature :=
  { name := "add", inputs := [⟨"x", .tensor, some ⟨.ofList ["a", "b"], false, []⟩, false⟩] }

theorem load_looseSource :
    decode looseSource = .ok looseSignature ∧
      ∃ d, Json.parseAny looseSource = .ok d ∧ decode d.canonical.compact = .ok looseSignature := by
  have haccepted : decode looseSource = .ok looseSignature := by decide +kernel
  obtain ⟨d, hparse, -, -, hagain, -⟩ := load_of_decode haccepted
  exact ⟨haccepted, d, hparse, hagain⟩

/-- **What is refused in a text is refused in its document**, unless an object that is
read as a record or as a choice repeats a key. -/
theorem load_of_decode_error {source : String} {c : FixtureCase} {e : SignatureError}
    (hsmall : source.utf8ByteSize ≤ 65536) (hparse : Json.parseAny source = .ok c.schema)
    (hrejected : decode source = .error e)
    (honce : ¬RepeatsKey signatureGrammar (.record .signature) c.schema) :
    ∃ e', c.load = .error e' := by
  cases hload : c.load with
  | error e' => exact ⟨e', rfl⟩
  | ok op =>
      -- A signature that is loaded would have been decoded from the text.
      obtain ⟨s, hdecode⟩ := Operator.decode_of_load hload
      obtain ⟨hread, hvalid⟩ := Signature.read_of_decode hdecode
      have hdescribes := (Signature.describes_of_read_compact hread).of_canonical honce
      obtain ⟨hspelled, -, hnesting⟩ := Json.parse_eq_ok_iff.1 hparse
      have hsource : Signature.read source = .ok s :=
        Signature.read_eq_ok_iff.2 ⟨c.schema, hspelled, hnesting, hdescribes⟩
      rw [Signature.decode_of_read_of_validate hsmall hsource hvalid] at hrejected
      exact absurd hrejected nofun

/-- A case without questions. -/
def ofSchema (schema : Document) : FixtureCase :=
  { name := "case", schema, expectedError := none, mutationByIndex := [], mutationByName := []
    aliasing := [], inplace := none }

/-- A signature with a field that is not declared, in which a key is repeated. -/
def notedSource : String := "\x7b\"name\":\"f\",\"note\":\x7b\"a\":1,\"a\":2\x7d\x7d"

/-- The document of `notedSource`. -/
def notedDocument : Document :=
  .object [("name", .text "f"), ("note", .object [("a", .natural 1), ("a", .natural 2)])]

/-- A key that is repeated where no record is read does not count. -/
theorem load_notedSource :
    notedSource.utf8ByteSize ≤ 65536 ∧
      Json.parseAny notedSource = .ok (ofSchema notedDocument).schema ∧
      decode notedSource = .error (.unknownField "note") ∧
      ¬RepeatsKey signatureGrammar (.record .signature) notedDocument ∧
      ∃ e, (ofSchema notedDocument).load = .error e := by
  have hsmall : notedSource.utf8ByteSize ≤ 65536 := by decide +kernel
  have hparse : Json.parseAny notedSource = .ok (ofSchema notedDocument).schema := by cbv
  have hrejected : decode notedSource = .error (.unknownField "note") := by decide +kernel
  have hundeclared : "note" ∉ (signatureGrammar .signature).names := by decide
  have honce : ¬RepeatsKey signatureGrammar (.record .signature) notedDocument := by
    intro hrepeats
    cases hrepeats with
    | ofRecord hdeclared _ =>
        exact hundeclared (hdeclared _ (List.mem_cons_of_mem _ List.mem_cons_self))
    | inField hm hfield hinside =>
        rcases List.mem_cons.1 hm with rfl | hm
        · obtain rfl := Option.some.inj hfield
          cases hinside
        · obtain rfl := List.mem_singleton.1 hm
          exact hundeclared (Json.RecordShape.mem_names_of_field? hfield)
  exact ⟨hsmall, hparse, hrejected, honce, load_of_decode_error hsmall hparse hrejected honce⟩

/-- A signature that is given two names. -/
def renamedSource : String := "\x7b\"name\":\"a\",\"name\":\"b\"\x7d"

/-- The document of `renamedSource`. -/
def renamedDocument : Document := .object [("name", .text "a"), ("name", .text "b")]

/-- The text is refused, but the case of its document loads. -/
theorem load_renamedSource :
    renamedSource.utf8ByteSize ≤ 65536 ∧
      Json.parseAny renamedSource = .ok (ofSchema renamedDocument).schema ∧
      decode renamedSource = .error (.malformed "duplicate field `name` at line 1 column 18") ∧
      ∃ op, (ofSchema renamedDocument).load = .ok op := by
  have hdecode : decode "\x7b\"name\":\"b\"\x7d" = .ok { name := "b" } := by decide +kernel
  obtain ⟨op, hload, -⟩ := Operator.exists_load hdecode
  exact ⟨by decide +kernel, by cbv, by decide +kernel, op, hload⟩

end FixtureCase

end OpSchema
