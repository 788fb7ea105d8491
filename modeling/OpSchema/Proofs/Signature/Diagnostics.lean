import OpSchema.Signature.Codec

/-!
# What diagnostics are taken for

A diagnostic is sorted out by its wording: it names an unknown field if the words
`unknown field` with a blank and a grave accent stand somewhere in it.  Most
wordings cannot have them, whatever they quote, because the parts that are quoted
stand between accents or have none.

## Strategy

A wording is cut at its accents.  The mark is in it exactly if one of the pieces
before an accent ends in the words of the mark, so it is enough to look at the
pieces one by one (`IsSilent.accented`).  What follows the wording, the line and
the column, has no accents.
-/

namespace OpSchema

open Json (Cause Fault Found Number)
open Decimal (Scaled)

/-! ## Numbers -/

/-- All the characters may stand in a number. -/
def IsNumeral (cs : List Char) : Prop :=
  ∀ c ∈ cs, c.isDigit = true ∨ c ∈ ['-', '+', '.', 'e']

instance (cs : List Char) : Decidable (IsNumeral cs) :=
  decidable_of_iff ((cs.all fun c => c.isDigit || ['-', '+', '.', 'e'].contains c) = true) <| by
    simp [IsNumeral]

theorem IsNumeral.append {first second : List Char} (hfirst : IsNumeral first)
    (hsecond : IsNumeral second) : IsNumeral (first ++ second) :=
  List.forall_mem_append.2 ⟨hfirst, hsecond⟩

theorem IsNumeral.cons {c : Char} {cs : List Char}
    (hc : c.isDigit = true ∨ c ∈ ['-', '+', '.', 'e']) (hcs : IsNumeral cs) : IsNumeral (c :: cs) :=
  List.forall_mem_cons.2 ⟨hc, hcs⟩

theorem isNumeral_toDigits (n : Nat) : IsNumeral (Nat.toDigits 10 n) :=
  fun _ hc => .inl (Nat.isDigit_of_mem_toDigits (by decide) (by decide) hc)

theorem isNumeral_toString (n : Nat) : IsNumeral (toString n).toList := by
  rw [Nat.toString_eq_repr, Nat.toList_repr]
  exact isNumeral_toDigits n

private theorem isNumeral_zeros (count : Nat) : IsNumeral (List.replicate count '0') := by
  intro c hc
  rw [List.eq_of_mem_replicate hc]
  decide

private theorem isNumeral_plain (x : Scaled) : IsNumeral x.plain.toList := by
  have hdigits := isNumeral_toDigits x.digits
  have hpoint : IsNumeral ['.', '0'] := by decide
  unfold Scaled.plain
  dsimp only
  split
  · rw [String.toList_ofList]
    exact (hdigits.append (isNumeral_zeros _)).append hpoint
  · split
    · rw [String.toList_ofList]
      refine IsNumeral.append ?_ (.cons (by decide) ?_)
      · exact fun c hc => hdigits c (List.mem_of_mem_take hc)
      · exact fun c hc => hdigits c (List.mem_of_mem_drop hc)
    · rw [String.toList_ofList]
      exact .cons (by decide) (.cons (by decide) ((isNumeral_zeros _).append hdigits))

private theorem isNumeral_scientific (x : Scaled) : IsNumeral x.scientific.toList := by
  have hdigits := isNumeral_toDigits x.digits
  unfold Scaled.scientific
  simp only [String.toList_append, String.toList_ofList]
  refine IsNumeral.append (IsNumeral.append (IsNumeral.append ?_ ?_) ?_) (isNumeral_toString _)
  · split
    · next first second rest hsplit =>
      rw [hsplit] at hdigits
      obtain ⟨hfirst, hrest⟩ := List.forall_mem_cons.1 hdigits
      exact .cons hfirst (.cons (by decide) hrest)
    · exact hdigits
  · decide
  · split <;> decide

theorem isNumeral_write (n : Number) : IsNumeral n.write.toList := by
  cases n with
  | natural n => exact isNumeral_toString n
  | negative n =>
      have hsign : IsNumeral "-".toList := by decide
      rw [Number.write, String.toList_append]
      exact hsign.append (isNumeral_toString n)
  | real isNegative magnitude =>
      simp only [Number.write, Decimal.Magnitude.write, String.toList_append]
      refine IsNumeral.append ?_ ?_
      · split <;> decide
      · unfold Scaled.write
        split
        · decide
        · split
          · exact isNumeral_plain _
          · exact isNumeral_scientific _

/-! ## Marks -/

/-- The words in front of the accent that begins the name of an unknown field. -/
def unknownFieldWords : List Char := "unknown field ".toList

/-- The characters have no grave accent, and with one behind them they would not be
taken for the words that name an unknown field. -/
def IsInnocent (cs : List Char) : Prop :=
  '\x60' ∉ cs ∧ ¬unknownFieldWords <:+ cs

/-- Nowhere in the characters an unknown field is named. -/
def IsSilent (cs : List Char) : Prop :=
  ¬Signature.unknownFieldMark <:+: cs

instance (cs : List Char) : Decidable (IsInnocent cs) :=
  inferInstanceAs (Decidable ('\x60' ∉ cs ∧ ¬unknownFieldWords <:+ cs))

instance (cs : List Char) : Decidable (IsSilent cs) :=
  decidable_of_iff (Text.afterFirst? Signature.unknownFieldMark cs = none)
    Text.afterFirst?_eq_none_iff

theorem unknownFieldMark_eq : Signature.unknownFieldMark = unknownFieldWords ++ ['\x60'] := by
  decide

theorem IsNumeral.isInnocent {cs : List Char} (hnumeral : IsNumeral cs) : IsInnocent cs := by
  constructor
  · intro hmem
    exact absurd (hnumeral _ hmem) (by decide)
  · intro hsuffix
    -- The words end in a blank.
    exact absurd (hnumeral ' ' (hsuffix.subset (by decide))) (by decide)

theorem isSilent_of_notMem {cs : List Char} (habsent : '\x60' ∉ cs) : IsSilent cs :=
  fun hmark => habsent (hmark.subset (by decide))

/-- Without further accents nothing more is named. -/
theorem IsSilent.append {cs more : List Char} (hsilent : IsSilent cs) (hmore : '\x60' ∉ more) :
    IsSilent (cs ++ more) := by
  intro hmark
  obtain hfirst | hsecond | ⟨front, back, hsplit, hfront, hback⟩ := List.infix_append_iff.1 hmark
  · exact hsilent hfirst
  · exact isSilent_of_notMem hmore hsecond
  · -- The mark would end in `more`, and it ends in an accent.
    rcases List.eq_nil_or_concat back with rfl | ⟨init, last, rfl⟩
    · rw [List.append_nil] at hsplit
      exact hsilent (hsplit ▸ hfront.isInfix)
    · rw [unknownFieldMark_eq, List.concat_eq_append, ← List.append_assoc] at hsplit
      have hlast : '\x60' = last := by simpa using List.append_inj_right' hsplit rfl
      exact hmore (hback.subset (by simp [← hlast]))

/-- An accent behind innocent characters does not begin a name. -/
theorem IsSilent.accented {first cs : List Char} (hfirst : IsInnocent first)
    (hsilent : IsSilent cs) : IsSilent (first ++ '\x60' :: cs) := by
  intro hmark
  obtain hinside | hbehind | ⟨front, back, hsplit, hfront, hback⟩ := List.infix_append_iff.1 hmark
  · exact isSilent_of_notMem hfirst.1 hinside
  · rcases List.infix_cons_iff.1 hbehind with hstarts | hbehind
    · rw [show Signature.unknownFieldMark = 'u' :: "nknown field \x60".toList by decide,
        List.cons_prefix_cons] at hstarts
      exact absurd hstarts.1 (by decide)
    · exact hsilent hbehind
  · -- The accent of the mark would be the one behind `first`.
    have hplain : '\x60' ∉ front := fun hmem => hfirst.1 (hfront.subset hmem)
    rw [unknownFieldMark_eq] at hsplit
    cases back with
    | nil =>
        rw [List.append_nil] at hsplit
        exact hplain (hsplit ▸ List.mem_append_right _ List.mem_cons_self)
    | cons c back =>
        obtain ⟨rfl, -⟩ := List.cons_prefix_cons.1 hback
        have hwords := congrArg (Text.beforeFirst? '\x60') hsplit
        rw [Text.beforeFirst?_append_cons (by decide),
          Text.beforeFirst?_append_cons hplain] at hwords
        exact hfirst.2 (Option.some.inj hwords ▸ hfront)

/-- A name between accents. -/
theorem IsSilent.named {first name last : List Char} (hfirst : IsInnocent first)
    (hname : IsInnocent name) (hlast : IsSilent last) :
    IsSilent (first ++ '\x60' :: (name ++ '\x60' :: last)) :=
  .accented hfirst (.accented hname hlast)

/-! ## Quoted texts -/

private theorem accent_notMem_hexDigits (n : Nat) : '\x60' ∉ Nat.toDigits 16 n := by
  induction n using Nat.base_induction 16 (by decide) with
  | single m hm => simp [Nat.toDigits_of_lt_base hm]
  | digit m k hk hm ih =>
      rw [← Nat.toDigits_append_toDigits (by decide) hm hk, Nat.toDigits_of_lt_base hk]
      simp [ih]

private theorem accent_notMem_quotedChar {c : Char} (hc : c ≠ '\x60') :
    '\x60' ∉ Text.quotedChar c := by
  unfold Text.quotedChar
  repeat' split
  all_goals simp [accent_notMem_hexDigits, hc.symm]

theorem accent_notMem_quoted {s : String} (habsent : '\x60' ∉ s.toList) :
    '\x60' ∉ (Text.quoted s).toList := by
  simp only [Text.quoted, String.toList_append, String.toList_ofList, List.mem_append,
    List.mem_flatMap, not_or, not_exists, not_and]
  refine ⟨⟨by decide, fun c hc => accent_notMem_quotedChar ?_⟩, by decide⟩
  rintro rfl
  exact habsent hc

/-! ## Diagnostics -/

/-- Line and column have no accents. -/
theorem exists_describe_eq (fault : Fault) (source : List Char) :
    ∃ place, (fault.describe source).toList = fault.cause.message.toList ++ place ∧
      '\x60' ∉ place := by
  have hnumber : ∀ n : Nat, '\x60' ∉ (toString n).toList :=
    fun n => (isNumeral_toString n).isInnocent.1
  have hline : '\x60' ∉ " at line ".toList := by decide
  have hcolumn : '\x60' ∉ " column ".toList := by decide
  refine ⟨" at line ".toList ++ ((toString (fault.position source).line).toList ++
    (" column ".toList ++ (toString (fault.position source).column).toList)), ?_, ?_⟩
  · simp only [Fault.describe, String.toList_append, List.append_assoc]
  · simp only [List.mem_append, not_or]
    exact ⟨hline, hnumber _, hcolumn, hnumber _⟩

namespace Signature

/-- A diagnostic with a silent wording is kept. -/
theorem errorOfDiagnostic_of_isSilent {fault : Fault}
    (hsilent : IsSilent fault.cause.message.toList) (source : List Char) :
    errorOfDiagnostic (fault.describe source) =
      .malformed (Text.cut maxDiagnosticBytes (fault.describe source)) := by
  obtain ⟨place, htext, hplace⟩ := exists_describe_eq fault source
  have hnone : Text.afterFirst? unknownFieldMark (fault.describe source).toList = none := by
    rw [htext]
    exact Text.afterFirst?_eq_none_iff.2 (hsilent.append hplace)
  rw [errorOfDiagnostic, Text.between?, hnone, Option.bind_none]

/-- A diagnostic that names an unknown field stands for the field, up to the first
accent in its name. -/
theorem errorOfDiagnostic_unknownField {fault : Fault} {key : String} {fields : List String}
    (hcause : fault.cause = .unknownField key fields) (haccent : '\x60' ∉ key.toList)
    (source : List Char) : errorOfDiagnostic (fault.describe source) = .unknownField key := by
  obtain ⟨place, htext, -⟩ := exists_describe_eq fault source
  have hmessage : ∃ rest, (fault.describe source).toList =
      unknownFieldMark ++ (key.toList ++ '\x60' :: rest) := by
    refine ⟨", expected ".toList ++ (Json.listAlternatives fields).toList ++ place, ?_⟩
    have hclose : "\x60, expected ".toList = '\x60' :: ", expected ".toList := by decide
    have hwording : (Cause.unknownField key fields).message =
        "unknown field \x60" ++ key ++ "\x60, expected " ++ Json.listAlternatives fields := rfl
    unfold unknownFieldMark
    rw [htext, hcause, hwording]
    simp only [String.toList_append, List.append_assoc, hclose, List.cons_append]
  obtain ⟨rest, hmessage⟩ := hmessage
  have hmark : unknownFieldMark ≠ [] := by decide
  rw [errorOfDiagnostic, Text.between?, hmessage, Text.afterFirst?_append hmark, Option.bind_some,
    Text.beforeFirst?_append_cons haccent]
  exact congrArg SignatureError.unknownField String.ofList_toList

end Signature

end OpSchema
