import OpSchema.Operator.Basic
import OpSchema.Proofs.Json.Completeness
import OpSchema.Proofs.Signature.Diagnostics
import OpSchema.Proofs.Signature.Nesting

/-!
# Encoded signatures are decoded again

Decoding an encoded signature gives it back, up to the limits on length and
nesting and up to validation, which are checked in that order.

## Strategy

`Json.parse_eq_ok_iff` says which texts are read, so it remains to place an
encoded signature among them: it spells its document (`spellsWhole_encode`), the
document has the shape that is read, and whether it keeps to the nesting budget
was settled by counting levels (`nesting_toDocument_le_iff`).  With `2 * 61 + 5`
brackets the budget of `127` is met exactly.
-/

namespace OpSchema

open Json (Document Fault Matches)

namespace Signature

/-! ## Reading -/

/-- An encoded signature that keeps to the levels is read as itself. -/
theorem read_encode {s : Signature} (hlevels : ¬s.NestsBeyond 61) : read s.encode = .ok s := by
  have hfits : Json.Fits signatureGrammar Json.nestingBudget (.record .signature) s.toDocument :=
    ⟨s.matches_toDocument, nesting_toDocument_le_iff.2 hlevels⟩
  rw [read, Json.parse_eq_ok_iff.2 ⟨s.spellsWhole_encode, hfits⟩]
  exact congrArg Except.ok s.ofDocument_toDocument

/-- An encoded signature that does not keep to the levels is refused for its
nesting. -/
theorem read_encode_of_nestsBeyond {s : Signature} (hdeep : s.NestsBeyond 61) :
    ∃ place, read s.encode = .error (.malformed (Text.cut maxDiagnosticBytes
      ((Fault.facing .nestingLimit place).describe s.encode.toList))) := by
  have hnesting : Json.nestingBudget < s.toDocument.nesting := by
    rw [← Nat.not_le]
    exact fun hle => nesting_toDocument_le_iff.1 hle hdeep
  obtain ⟨place, hparse⟩ := Json.parse_of_deep s.spellsWhole_encode s.matches_toDocument hnesting
  -- The report of the nesting limit is not mistaken for one of an unknown field.
  have hsilent : IsSilent (Json.Cause.message .nestingLimit).toList := by decide
  refine ⟨place, ?_⟩
  rw [read, hparse]
  exact congrArg Except.error (errorOfDiagnostic_of_isSilent hsilent _)

/-- Whatever text a signature was read from, it keeps to the levels. -/
theorem not_nestsBeyond_of_read {source : String} {s : Signature} (hread : read source = .ok s) :
    ¬s.NestsBeyond 61 := by
  unfold read at hread
  split at hread
  · simp at hread
  · next d hparse =>
    obtain ⟨-, hmatch, hnesting⟩ := Json.parse_eq_ok_iff.1 hparse
    obtain rfl : ofDocument d = s := by simpa using hread
    exact not_nestsBeyond_ofDocument hmatch hnesting

/-! ## Decoding -/

theorem decode_of_large {source : String} (hlarge : maxPayloadBytes < source.utf8ByteSize) :
    decode source = .error (.tooLarge source.utf8ByteSize maxPayloadBytes) := by
  rw [decode, if_pos hlarge]

theorem decode_of_read_error {source : String} (hsmall : source.utf8ByteSize ≤ maxPayloadBytes)
    {e : SignatureError} (hread : read source = .error e) : decode source = .error e := by
  rw [decode, if_neg (Nat.not_lt.2 hsmall), hread]

theorem decode_of_read {source : String} (hsmall : source.utf8ByteSize ≤ maxPayloadBytes)
    {s : Signature} (hread : read source = .ok s) :
    decode source = s.validate.map fun _ => s := by
  rw [decode, if_neg (Nat.not_lt.2 hsmall), hread]
  cases hvalid : s.validate with
  | error e => simp only [hvalid, Except.map]
  | ok _ => simp only [hvalid, Except.map]

theorem size_le_of_decode {source : String} {s : Signature} (hdecode : decode source = .ok s) :
    source.utf8ByteSize ≤ maxPayloadBytes := by
  apply Nat.not_lt.1
  intro hlarge
  simp [decode_of_large hlarge] at hdecode

theorem read_of_decode {source : String} {s : Signature} (hdecode : decode source = .ok s) :
    read source = .ok s ∧ s.validate = .ok () := by
  have hsmall := size_le_of_decode hdecode
  cases hread : read source with
  | error e => simp [decode_of_read_error hsmall hread] at hdecode
  | ok found =>
      rw [decode_of_read hsmall hread] at hdecode
      cases hvalid : found.validate with
      | error e => simp [hvalid, Except.map] at hdecode
      | ok _ =>
          obtain rfl : found = s := by simpa [hvalid, Except.map] using hdecode
          exact ⟨rfl, hvalid⟩

/-! ## Round trips -/

/-- **Decoding undoes encoding, and where it does not it fails.**  Too long a
text is refused first, then too deep a nesting, then an invalid signature; in
every other case the signature comes back. -/
theorem decode_encode (s : Signature) :
    (65536 < s.encode.utf8ByteSize →
      decode s.encode = .error (.tooLarge s.encode.utf8ByteSize 65536)) ∧
    (s.encode.utf8ByteSize ≤ 65536 → s.NestsBeyond 61 →
      ∃ place, decode s.encode = .error (.malformed (Text.cut maxDiagnosticBytes
        ((Fault.facing .nestingLimit place).describe s.encode.toList)))) ∧
    (s.encode.utf8ByteSize ≤ 65536 → ¬s.NestsBeyond 61 →
      (∀ e, s.validate = .error e → decode s.encode = .error e) ∧
        (s.validate = .ok () → decode s.encode = .ok s)) := by
  refine ⟨decode_of_large, ?_, ?_⟩
  · intro hsmall hdeep
    obtain ⟨place, hread⟩ := read_encode_of_nestsBeyond hdeep
    exact ⟨place, decode_of_read_error hsmall hread⟩
  · intro hsmall hlevels
    rw [decode_of_read hsmall (read_encode hlevels)]
    constructor
    · intro e hinvalid
      rw [hinvalid]
      rfl
    · intro hvalid
      rw [hvalid]
      rfl

/-- **Encoding what was decoded loses nothing.**  In whichever form the text was
written, its signature is valid, and what is encoded for it keeps to the nesting
budget: only the length can keep it from being decoded again. -/
theorem decode_encode_of_decode {source : String} {s : Signature}
    (haccepted : decode source = .ok s) :
    s.validate = .ok () ∧
    (∃ op, Operator.ofSignature s = .ok op ∧ op.signature = s) ∧
    s.toDocument.nesting ≤ Json.nestingBudget ∧
    (s.encode.utf8ByteSize ≤ 65536 → decode s.encode = .ok s) ∧
    (65536 < s.encode.utf8ByteSize →
      decode s.encode = .error (.tooLarge s.encode.utf8ByteSize 65536)) := by
  obtain ⟨hread, hvalid⟩ := read_of_decode haccepted
  have hlevels := not_nestsBeyond_of_read hread
  refine ⟨hvalid, Operator.exists_ofSignature hvalid, nesting_toDocument_le_iff.2 hlevels, ?_,
    decode_of_large⟩
  intro hsmall
  rw [decode_of_read hsmall (read_encode hlevels), hvalid]
  rfl

/-- A signature by place, its last fields left out, with the type as a key, an
escape and a repeated symbol. -/
def placedSource : String :=
  "[\"fill_\",\"\",[[\"self\", \x7b\"tensor\": null\x7d,[[\"\\u0061\",\"a\"],true]]]]"

/-- The signature that `placedSource` describes. -/
def placedSignature : Signature :=
  { name := "fill_", inputs := [⟨"self", .tensor, some (.write "a"), false⟩] }

/-- The text by place is accepted, and its signature is decoded from its encoded
form as well. -/
theorem decode_encode_placedSignature :
    decode placedSource = .ok placedSignature ∧
      placedSignature.toDocument.nesting ≤ Json.nestingBudget ∧
      decode placedSignature.encode = .ok placedSignature := by
  have haccepted : decode placedSource = .ok placedSignature := by decide +kernel
  have hsmall : placedSignature.encode.utf8ByteSize ≤ 65536 := by decide +kernel
  obtain ⟨-, -, hnesting, hagain, -⟩ := decode_encode_of_decode haccepted
  exact ⟨haccepted, hnesting, hagain hsmall⟩

end Signature

end OpSchema
