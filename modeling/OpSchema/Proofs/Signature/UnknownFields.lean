import OpSchema.Proofs.Json.Undeclared
import OpSchema.Proofs.Signature.RoundTrip
import OpSchema.Proofs.Signature.WellFormed

/-!
# Fields that no record declares

A text that is decoded is refused for a field that its record does not declare, and
the error names the field.  That is decided by the wording of a diagnostic, so it
can be trusted only as long as the text does not bring the wording with it: a text
in quotes that has a grave accent, or that ends in the words in front of one, can
pass for the name of a field.  Without such a text the error is given exactly for
the texts that lead to an undeclared field.

Of an encoded signature it is known that it is read up to its end, so an undeclared
field is found wherever it is put.
-/

namespace OpSchema

open Json (Cause Document Fault Found Refuses Shape)

/-! ## Wordings -/

/-- The shapes of the parts of an encoded signature. -/
def signatureShapes : List (Shape SignatureRecord) :=
  [.record .signature, .record .slot, .record .aliasing, .text, .flag, .choice SlotType.names,
    .list .text, .list (.record .slot), .list (.record .aliasing), .nullable (.record .aliasing)]

theorem closedUnderParts_signatureShapes :
    Json.ClosedUnderParts signatureGrammar (· ∈ signatureShapes) where
  item := by
    intro shape hshape
    simp only [signatureShapes, List.mem_cons, List.not_mem_nil, Shape.list.injEq, reduceCtorEq,
      false_or, or_false] at hshape
    rcases hshape with rfl | rfl | rfl <;> decide
  inner := by
    intro shape hshape
    simp only [signatureShapes, List.mem_cons, List.not_mem_nil, Shape.nullable.injEq, reduceCtorEq,
      false_or, or_false] at hshape
    subst hshape
    decide
  field := by
    intro record _
    cases record <;> decide

/-- What messages expect at a place has no accents. -/
private theorem accent_notMem_expected {place : Shape SignatureRecord} {expected : String}
    (hplace : place ∈ signatureShapes) (hexpected : Json.Expects signatureGrammar place expected) :
    '\x60' ∉ expected.toList := by
  cases hexpected with
  | text => decide
  | flag => decide
  | count label => simp [signatureShapes] at hplace
  | choice names => decide
  | list item => decide
  | record name => cases name <;> decide

private theorem isInnocent_fieldName {record : SignatureRecord} {name : String}
    (hdeclared : name ∈ (signatureGrammar record).names) : IsInnocent name.toList := by
  have hall : ∀ name ∈ (signatureGrammar record).names, IsInnocent name.toList := by
    cases record <;> decide
  exact hall name hdeclared

private theorem isSilent_syntactic {cause : Cause} (hsyntactic : cause.isSyntactic = true) :
    IsSilent cause.message.toList := by
  cases cause <;> first | decide | simp [Cause.isSyntactic] at hsyntactic

/-- A number is quoted between accents. -/
private theorem exists_describe_number (n : Json.Number) :
    ∃ kind ∈ ["integer ", "floating point "], (Found.number n).describe.toList =
      kind.toList ++ '\x60' :: (n.write.toList ++ ['\x60']) := by
  have hinteger : ("integer \x60" ++ n.write ++ "\x60").toList =
      "integer ".toList ++ '\x60' :: (n.write.toList ++ ['\x60']) := by
    simp
  have hreal : ("floating point \x60" ++ n.write ++ "\x60").toList =
      "floating point ".toList ++ '\x60' :: (n.write.toList ++ ['\x60']) := by
    simp
  cases n with
  | natural _ => exact ⟨_, List.mem_cons_self, hinteger⟩
  | negative _ => exact ⟨_, List.mem_cons_self, hinteger⟩
  | real _ _ => exact ⟨_, List.mem_cons_of_mem _ List.mem_cons_self, hreal⟩

private theorem isSilent_wrongForm {found : Found} {expected : String}
    (hexpected : '\x60' ∉ expected.toList)
    (hfound : ∀ s, found = .text s → '\x60' ∉ s.toList) :
    IsSilent (Cause.wrongForm found expected).message.toList := by
  have hlast : '\x60' ∉ ", expected ".toList ++ expected.toList := by
    rw [List.mem_append, not_or]
    exact ⟨by decide, hexpected⟩
  have hwording : (Cause.wrongForm found expected).message.toList =
      ("invalid type: ".toList ++ found.describe.toList) ++
        (", expected ".toList ++ expected.toList) := by
    show ("invalid type: " ++ found.describe ++ ", expected " ++ expected).toList = _
    simp only [String.toList_append, List.append_assoc]
  rw [hwording]
  refine IsSilent.append ?_ hlast
  cases found with
  | null => decide
  | list => decide
  | object => decide
  | flag value => cases value <;> decide
  | number n =>
      obtain ⟨kind, hkind, hdescribe⟩ := exists_describe_number n
      have hfirst : ∀ kind ∈ ["integer ", "floating point "],
          IsInnocent ("invalid type: ".toList ++ kind.toList) := by
        decide
      rw [hdescribe, ← List.append_assoc]
      exact .named (hfirst kind hkind) (isNumeral_write n).isInnocent (by decide)
  | text s =>
      have hquoted := accent_notMem_quoted (hfound s rfl)
      have hfirst : '\x60' ∉ "invalid type: string ".toList := by decide
      have hdescribe : "invalid type: ".toList ++ (Found.text s).describe.toList =
          "invalid type: string ".toList ++ (Text.quoted s).toList := by
        show "invalid type: ".toList ++ ("string " ++ Text.quoted s).toList = _
        simp
      rw [hdescribe]
      exact isSilent_of_notMem (by simpa only [List.mem_append, not_or] using ⟨hfirst, hquoted⟩)

private theorem isSilent_unknownVariant {name : String} (hname : IsInnocent name.toList) :
    IsSilent (Cause.unknownVariant name SlotType.names).message.toList := by
  have hfirst : IsInnocent "unknown variant ".toList := by decide
  have hlast : IsSilent
      (", expected ".toList ++ (Json.listAlternatives SlotType.names).toList) := by
    decide +kernel
  have hwording : (Cause.unknownVariant name SlotType.names).message.toList =
      "unknown variant ".toList ++ '\x60' :: (name.toList ++ '\x60' ::
        (", expected ".toList ++ (Json.listAlternatives SlotType.names).toList)) := by
    show ("unknown variant \x60" ++ name ++ "\x60, expected " ++
      Json.listAlternatives SlotType.names).toList = _
    simp
  rw [hwording]
  exact .named hfirst hname hlast

/-- A message that ends in the name of a field. -/
private theorem isSilent_fieldName {first name : String} (words : List Char)
    (hfirst : first.toList = words ++ ['\x60']) (hwords : IsInnocent words)
    (hname : IsInnocent name.toList) : IsSilent (first ++ name ++ "\x60").toList := by
  have hwording : (first ++ name ++ "\x60").toList =
      words ++ '\x60' :: (name.toList ++ ['\x60']) := by
    simp [hfirst]
  rw [hwording]
  exact .named hwords hname (by decide)

private theorem isSilent_tooFewItems (count fields : Nat) {title : String}
    (htitle : '\x60' ∉ title.toList) :
    IsSilent (Cause.tooFewItems count title fields).message.toList := by
  have hnumber : ∀ n : Nat, '\x60' ∉ (toString n).toList :=
    fun n => (isNumeral_toString n).isInnocent.1
  have hend : '\x60' ∉ (if fields = 1 then " element" else " elements").toList := by
    split <;> decide
  have hwording : (Cause.tooFewItems count title fields).message.toList =
      "invalid length ".toList ++ ((toString count).toList ++ (", expected ".toList ++
        (title.toList ++ (" with ".toList ++ ((toString fields).toList ++
          (if fields = 1 then " element" else " elements").toList))))) := by
    show ("invalid length " ++ toString count ++ ", expected " ++ title ++ " with " ++
      toString fields ++ (if fields = 1 then " element" else " elements")).toList = _
    simp only [String.toList_append, List.append_assoc]
  refine isSilent_of_notMem ?_
  rw [hwording]
  simp only [List.mem_append, not_or]
  exact ⟨by decide, hnumber _, by decide, htitle, by decide, hnumber _, hend⟩

/-- **Only a report of an unknown field reads like one**, as long as no text that is
quoted does. -/
theorem isSilent_of_refuses {budget : Nat} {place : Shape SignatureRecord} {text : List Char}
    {cause : Cause} (hplace : place ∈ signatureShapes)
    (hquoted : ∀ value, Json.Quotes text value → IsInnocent value)
    (hother : ∀ key fields, cause ≠ .unknownField key fields)
    (hrefuses : Refuses signatureGrammar budget place text cause) :
    IsSilent cause.message.toList := by
  cases hrefuses with
  | malformed hsyntactic => exact isSilent_syntactic hsyntactic
  | wrongForm hexpected hquotes =>
      exact isSilent_wrongForm (accent_notMem_expected hplace hexpected)
        fun s hs => (hquoted _ (hquotes s hs)).1
  | negativeCount => simp [signatureShapes] at hplace
  | unknownVariant hquotes =>
      simp only [signatureShapes, List.mem_cons, List.not_mem_nil, Shape.choice.injEq, reduceCtorEq,
        false_or, or_false] at hplace
      rw [hplace]
      exact isSilent_unknownVariant (hquoted _ hquotes)
  | undeclared _ => exact absurd rfl (hother _ _)
  | duplicate hdeclared =>
      exact isSilent_fieldName "duplicate field ".toList (by decide) (by decide)
        (isInnocent_fieldName hdeclared)
  | missing hdeclared =>
      exact isSilent_fieldName "missing field ".toList (by decide) (by decide)
        (isInnocent_fieldName hdeclared)
  | @tooFew record _ count =>
      exact isSilent_tooFewItems _ _ (accent_notMem_expected hplace (.record record))

/-! ## Decoding -/

namespace Signature

/-- **A text that leads to an undeclared field is refused for it**, if the name of
the field has no accent. -/
theorem decode_of_leadsToUndeclared {source key : String}
    (hsmall : source.utf8ByteSize ≤ maxPayloadBytes) (haccent : '\x60' ∉ key.toList)
    (hleads : Json.LeadsToUndeclared signatureGrammar (.record .signature) source.toList key) :
    decode source = .error (.unknownField key) := by
  obtain ⟨fault, fields, hparse, hcause⟩ := Json.parseChars_unknownField_iff.2 hleads
  refine decode_of_read_error hsmall ?_
  rw [read, Json.parse, hparse]
  exact congrArg Except.error (errorOfDiagnostic_unknownField hcause haccent _)

/-- An error that does not come from validation comes from reading. -/
theorem exists_fault_of_decode {source : String} {e : SignatureError}
    (hdecode : decode source = .error e) (hsmall : source.utf8ByteSize ≤ maxPayloadBytes)
    (htext : e.isDefect = false) :
    ∃ fault, Json.parseChars signatureGrammar (.record .signature) source.toList = .error fault ∧
      errorOfDiagnostic (fault.describe source.toList) = e := by
  cases hparse : Json.parseChars signatureGrammar (.record .signature) source.toList with
  | error fault =>
      refine ⟨fault, rfl, ?_⟩
      have hread : read source = .error (errorOfDiagnostic (fault.describe source.toList)) := by
        rw [read, Json.parse, hparse]
      rw [decode_of_read_error hsmall hread] at hdecode
      exact Except.error.inj hdecode
  | ok d =>
      have hread : read source = .ok (ofDocument d) := by
        rw [read, Json.parse, hparse]
      rw [decode_of_read hsmall hread] at hdecode
      cases hvalid : (ofDocument d).validate with
      | error defect =>
          rw [hvalid] at hdecode
          obtain rfl : defect = e := by simpa [Except.map] using hdecode
          simp [isDefect_of_validate hvalid] at htext
      | ok _ => simp [hvalid, Except.map] at hdecode

/-- **The texts that are refused for an unknown field**, as long as no text in quotes
reads like the report of one: those that are not too long and lead to a field that
the record they are reading does not declare. -/
theorem decode_eq_unknownField_iff {source : String}
    (hquoted : ∀ value, Json.Quotes source.toList value →
      '\x60' ∉ value ∧ ¬"unknown field ".toList <:+ value) {field : String} :
    decode source = .error (.unknownField field) ↔
      source.utf8ByteSize ≤ 65536 ∧
        Json.LeadsToUndeclared signatureGrammar (.record .signature) source.toList field := by
  constructor
  · intro hdecode
    have hsmall : source.utf8ByteSize ≤ maxPayloadBytes := by
      apply Nat.not_lt.1
      intro hlarge
      simp [decode_of_large hlarge] at hdecode
    refine ⟨hsmall, ?_⟩
    obtain ⟨fault, hparse, herror⟩ := exists_fault_of_decode hdecode hsmall rfl
    by_cases hcause : ∃ key fields, fault.cause = .unknownField key fields
    · obtain ⟨key, fields, hcause⟩ := hcause
      have hleads := Json.parseChars_unknownField_iff.1 ⟨fault, fields, hparse, hcause⟩
      rw [errorOfDiagnostic_unknownField hcause (hquoted _ hleads.quotes).1] at herror
      exact SignatureError.unknownField.inj herror ▸ hleads
    · -- The report is about something else, so it is not taken for one of a field.
      obtain ⟨blanks, more, -, htext, hreaches⟩ := Json.parseChars_fault hparse
      obtain ⟨_, place, rest, hplace, hsuffix, hrefuses⟩ :=
        hreaches.exists_place closedUnderParts_signatureShapes (by decide)
      have hinside : ∀ value, Json.Quotes rest value → IsInnocent value := by
        intro value hquotes
        refine hquoted value (hquotes.of_isSuffix ?_)
        rw [htext]
        exact hsuffix.trans (List.suffix_append blanks more)
      have hsilent := isSilent_of_refuses hplace hinside
        (fun key fields hsame => hcause ⟨key, fields, hsame⟩) hrefuses
      rw [errorOfDiagnostic_of_isSilent hsilent] at herror
      simp at herror
  · rintro ⟨hsmall, hleads⟩
    exact decode_of_leadsToUndeclared hsmall (hquoted _ hleads.quotes).1 hleads

/-- A signature with a field that is not declared. -/
def taggedSource : String :=
  "\x7b\"name\":\"aten::neg\",\"arguments\":[],\"returns\":[],\"tags\":[]\x7d"

/-- Nothing in the text reads like a report, and the field is the one that is
reported. -/
theorem decode_taggedSource :
    (∀ value, Json.Quotes taggedSource.toList value →
      '\x60' ∉ value ∧ ¬"unknown field ".toList <:+ value) ∧
    decode taggedSource = .error (.unknownField "tags") ∧
    Json.LeadsToUndeclared signatureGrammar (.record .signature) taggedSource.toList "tags" := by
  have hquoted : ∀ value, Json.Quotes taggedSource.toList value →
      '\x60' ∉ value ∧ ¬"unknown field ".toList <:+ value := by
    intro value hquotes
    have hsubset := hquotes.subset (by decide)
    constructor
    · exact fun hmem => absurd (hsubset hmem) (by decide)
    · -- The words end in a blank, and the text has none.
      exact fun hsuffix => absurd (hsubset (hsuffix.subset (a := ' ') (by decide))) (by decide)
  have hdecode : decode taggedSource = .error (.unknownField "tags") := by decide +kernel
  exact ⟨hquoted, hdecode, ((decode_eq_unknownField_iff hquoted).1 hdecode).2⟩

/-- A text in quotes in place of a signature. -/
def quotedMark : String :=
  "\"unknown field \x60x\x60\""

/-- **The report of a wrong form can pass for that of an unknown field.**  The text has
no objects at all, and still it is refused for a field. -/
theorem decode_quotedMark :
    decode quotedMark = .error (.unknownField "x") ∧
    ∀ field, ¬Json.LeadsToUndeclared signatureGrammar (.record .signature) quotedMark.toList
      field := by
  refine ⟨by decide +kernel, ?_⟩
  rintro field ⟨blanks, more, -, htext, hreaches⟩
  obtain ⟨c, rest, rfl, hbracket⟩ := hreaches.exists_bracket
  have hmem : c ∈ quotedMark.toList := htext ▸ List.mem_append_right blanks List.mem_cons_self
  rcases hbracket with rfl | rfl
  · exact absurd hmem (by decide)
  · exact absurd hmem (by decide)

/-! ## Insertions -/

/-- **A field that is not declared is found wherever it is put.**  Whichever object of
an encoded signature gets a member more, at whichever place, and however the result
is spelled, decoding refuses it for that member. -/
theorem decode_of_inserts {s : Signature} (hencoded : decode s.encode = .ok s)
    {record : SignatureRecord} {key : String} {value d : Document}
    (hundeclared : key ∉ (signatureGrammar record).names) (haccent : '\x60' ∉ key.toList)
    (hinserts : Json.Inserts signatureGrammar record (key, value) (.record .signature)
      s.toDocument d)
    {source : String} (hspelled : Json.SpellsWhole source.toList d)
    (hsmall : source.utf8ByteSize ≤ 65536) : decode source = .error (.unknownField key) := by
  have hfits : Json.Fits signatureGrammar Json.nestingBudget (.record .signature) s.toDocument :=
    ⟨s.matches_toDocument,
      nesting_toDocument_le_iff.2 (not_nestsBeyond_of_read (read_of_decode hencoded).1)⟩
  obtain ⟨before, more, after, hbefore, -, htext, hspelled⟩ := hspelled
  exact decode_of_leadsToUndeclared hsmall haccent
    ⟨before, more, hbefore, htext, hinserts.reaches hundeclared hfits hspelled⟩

/-- A signature with an aliasing inside another one. -/
def nestedSignature : Signature :=
  { name := "f", inputs := [⟨"x", .tensorList, some (.containing (.write "b")), false⟩] }

/-- The encoded signature with a member more in the inner aliasing. -/
def nestedSource : String :=
  "\x7b\"name\":\"f\",\"overload_name\":\"\",\"arguments\":[" ++
    "\x7b\"name\":\"x\",\"ty\":\"tensor_list\"," ++
    "\"alias_info\":\x7b\"sets\":[],\"is_write\":false,\"contained\":[" ++
    "\x7b\"sets\":[\"b\"],\"unknown field \\\"\":[3],\"is_write\":true," ++
    "\"contained\":[]\x7d]\x7d," ++
    "\"kwarg_only\":false\x7d],\"returns\":[]\x7d"

/-- The document that the text spells. -/
def nestedDocument : Document :=
  .object [("name", .text "f"), ("overload_name", .text ""),
    ("arguments", .list [.object [("name", .text "x"), ("ty", .text "tensor_list"),
      ("alias_info", .object [("sets", .list []), ("is_write", .flag false),
        ("contained", .list [.object [("sets", .list [.text "b"]),
          ("unknown field \"", .list [.natural 3]), ("is_write", .flag true),
          ("contained", .list [])]])]),
      ("kwarg_only", .flag false)]]),
    ("returns", .list [])]

private theorem inserts_nestedDocument :
    Json.Inserts signatureGrammar .aliasing ("unknown field \"", .list [.natural 3])
      (.record .signature) nestedSignature.toDocument nestedDocument := by
  refine .value [("name", .text "f"), ("overload_name", .text "")] [("returns", .list [])] rfl
    (.item [] [] ?_)
  refine .value [("name", .text "x"), ("ty", .text "tensor_list")] [("kwarg_only", .flag false)] rfl
    (.present ?_)
  refine .value [("sets", .list []), ("is_write", .flag false)] [] rfl (.item [] [] ?_)
  exact .here [("sets", .list [.text "b"])] [("is_write", .flag true), ("contained", .list [])]

private theorem spellsWhole_nestedSource :
    Json.SpellsWhole nestedSource.toList nestedDocument := by
  have hparse : Json.parseAny nestedSource = .ok nestedDocument := by cbv
  exact (Json.parse_eq_ok_iff.1 hparse).1

/-- The member stands five brackets deep, and its key looks like a report. -/
theorem decode_nestedSource :
    decode nestedSignature.encode = .ok nestedSignature ∧
    "unknown field \"" ∉ (signatureGrammar .aliasing).names ∧
    '\x60' ∉ "unknown field \"".toList ∧
    Json.Inserts signatureGrammar .aliasing ("unknown field \"", .list [.natural 3])
      (.record .signature) nestedSignature.toDocument nestedDocument ∧
    Json.SpellsWhole nestedSource.toList nestedDocument ∧
    nestedSource.utf8ByteSize ≤ 65536 ∧
    decode nestedSource = .error (.unknownField "unknown field \"") := by
  have hencoded : decode nestedSignature.encode = .ok nestedSignature := by decide +kernel
  have hundeclared : "unknown field \"" ∉ (signatureGrammar .aliasing).names := by decide
  have haccent : '\x60' ∉ "unknown field \"".toList := by decide
  have hsmall : nestedSource.utf8ByteSize ≤ 65536 := by decide +kernel
  exact ⟨hencoded, hundeclared, haccent, inserts_nestedDocument, spellsWhole_nestedSource, hsmall,
    decode_of_inserts hencoded hundeclared haccent inserts_nestedDocument spellsWhole_nestedSource
      hsmall⟩

end Signature

end OpSchema
