import OpSchema.Proofs.Json.Compact
import OpSchema.Proofs.Signature.WellFormed

/-!
# Diagnostics are short

A diagnostic may quote any part of what was read, so it is cut to a number of bytes, and
the cut must not go through a character.  Here the cut is compared with a search for it:
from the limit backwards over the bytes of the text, up to the first place between two
characters (`Text.boundaryUpTo`).

## Strategy

* **The search.**  It always ends between two characters, and it passes over no such place
  (`Text.le_boundaryUpTo`).
* **What fits.**  `Text.fitting` takes characters from the front while they fit.  Every
  other front part that fits is a front part of this one (`Text.isPrefix_fitting`), and less
  than the size of one character is left of the limit.
* **Together.**  Both describe the longest front part that fits, so the slice up to the
  place that the search finds is what `Text.fitting` takes
  (`Text.copy_sliceTo_boundaryUpTo`).
-/

namespace OpSchema

namespace Text

/-! ## Searching for a place to cut -/

/-- The first place between two characters, from an offset in bytes backwards. -/
def boundaryUpTo (s : String) : Nat → Nat
  | 0 => 0
  | offset + 1 =>
    if String.Pos.Raw.isValid s ⟨offset + 1⟩ then offset + 1 else boundaryUpTo s offset

/-- The search ends between two characters. -/
theorem isValid_boundaryUpTo (s : String) (offset : Nat) :
    String.Pos.Raw.IsValid s ⟨boundaryUpTo s offset⟩ := by
  induction offset with
  | zero => exact String.Pos.Raw.isValid_zero
  | succ offset ih =>
      rw [boundaryUpTo]
      split
      · next hvalid => exact String.Pos.Raw.isValid_eq_true_iff.1 hvalid
      · exact ih

theorem boundaryUpTo_le (s : String) (offset : Nat) : boundaryUpTo s offset ≤ offset := by
  induction offset with
  | zero => exact Nat.le_refl 0
  | succ offset ih =>
      rw [boundaryUpTo]
      split
      · exact Nat.le_refl _
      · exact Nat.le_succ_of_le ih

/-- The search passes over no place between two characters. -/
theorem le_boundaryUpTo {s : String} {place offset : Nat}
    (hplace : String.Pos.Raw.IsValid s ⟨place⟩) (hle : place ≤ offset) :
    place ≤ boundaryUpTo s offset := by
  induction offset with
  | zero => exact hle
  | succ offset ih =>
      rw [boundaryUpTo]
      split
      · exact hle
      · next hinvalid =>
        have hne : place ≠ offset + 1 := by
          rintro rfl
          exact hinvalid (String.Pos.Raw.isValid_eq_true_iff.2 hplace)
        exact ih (by omega)

/-! ## What fits -/

theorem fitting_isPrefix (room : Nat) (cs : List Char) : fitting room cs <+: cs := by
  induction cs generalizing room with
  | nil => exact List.nil_prefix
  | cons c cs ih =>
      rw [fitting]
      split
      · exact (List.prefix_cons_inj c).2 (ih _)
      · exact List.nil_prefix

theorem byteCount_fitting_le (room : Nat) (cs : List Char) :
    byteCount (fitting room cs) ≤ room := by
  induction cs generalizing room with
  | nil => exact Nat.zero_le room
  | cons c cs ih =>
      rw [fitting]
      split
      · have hrest := ih (room - c.utf8Size)
        rw [byteCount_cons]
        omega
      · exact Nat.zero_le room

/-- What stands at the front and fits is a part of what is taken. -/
theorem isPrefix_fitting {front cs : List Char} (hfront : front <+: cs) {room : Nat}
    (hroom : byteCount front ≤ room) : front <+: fitting room cs := by
  induction cs generalizing front room with
  | nil =>
      rw [List.prefix_nil.1 hfront]
      exact List.nil_prefix
  | cons c cs ih =>
      cases front with
      | nil => exact List.nil_prefix
      | cons first front =>
          obtain ⟨rfl, hrest⟩ := List.cons_prefix_cons.1 hfront
          rw [byteCount_cons] at hroom
          rw [fitting, if_pos (by omega)]
          exact (List.prefix_cons_inj first).2 (ih hrest (by omega))

/-- What is taken of a text that does not fit leaves less room than the largest
character needs. -/
theorem lt_byteCount_fitting {room : Nat} {cs : List Char} (hlarge : room < byteCount cs) :
    room < byteCount (fitting room cs) + 4 := by
  induction cs generalizing room with
  | nil => exact absurd hlarge (Nat.not_lt_zero room)
  | cons c cs ih =>
      rw [byteCount_cons] at hlarge
      have hchar : c.utf8Size ≤ 4 := c.utf8Size_le_four
      rw [fitting]
      split
      · have hrest := @ih (room - c.utf8Size) (by omega)
        rw [byteCount_cons]
        omega
      · rw [byteCount_nil]
        omega

/-! ## The longest part that fits -/

/-- The second text stands at the front of the first, has at most `limit` bytes, and there
is no longer one. -/
structure IsLongestWithin (limit : Nat) (s kept : String) : Prop where
  front : kept.toList <+: s.toList
  size_le : kept.utf8ByteSize ≤ limit
  longest : ∀ other : String, other.toList <+: s.toList → other.utf8ByteSize ≤ limit →
    other.toList <+: kept.toList

theorem isLongestWithin_fitting (limit : Nat) (s : String) :
    IsLongestWithin limit s (String.ofList (fitting limit s.toList)) where
  front := by
    rw [String.toList_ofList]
    exact fitting_isPrefix limit s.toList
  size_le := by
    rw [utf8ByteSize_eq_byteCount, String.toList_ofList]
    exact byteCount_fitting_le limit s.toList
  longest other hother hsize := by
    rw [utf8ByteSize_eq_byteCount] at hsize
    rw [String.toList_ofList]
    exact isPrefix_fitting hother hsize

/-- The end of a text that stands at the front is a place between two characters. -/
theorem isValid_utf8ByteSize {s kept : String} (hfront : kept.toList <+: s.toList) :
    String.Pos.Raw.IsValid s ⟨kept.utf8ByteSize⟩ := by
  obtain ⟨rest, hrest⟩ := hfront
  have hsplit : s = kept ++ String.ofList rest := by
    rw [← String.toList_inj, String.toList_append, String.toList_ofList, hrest]
  rw [hsplit]
  exact String.Pos.Raw.isValid_rawEndPos.append_right (String.ofList rest)

/-- The search finds the end of the longest part that fits. -/
theorem boundaryUpTo_eq {limit : Nat} {s kept : String} (hkept : IsLongestWithin limit s kept) :
    boundaryUpTo s limit = kept.utf8ByteSize := by
  have hsplits := (s.pos ⟨boundaryUpTo s limit⟩ (isValid_boundaryUpTo s limit)).splits
  generalize (s.sliceTo _).copy = front at hsplits
  generalize (s.sliceFrom _).copy = rest at hsplits
  have hsize : front.utf8ByteSize = boundaryUpTo s limit := by
    have hoffset := hsplits.offset_eq_rawEndPos
    simpa [String.Pos.Raw.ext_iff, eq_comm] using hoffset
  have hfront : front.toList <+: s.toList := by
    rw [hsplits.eq_append, String.toList_append]
    exact List.prefix_append _ _
  apply Nat.le_antisymm
  · -- The part up to the place fits, so it is no longer than the longest one.
    have hle : front.utf8ByteSize ≤ limit := hsize ▸ boundaryUpTo_le s limit
    obtain ⟨more, hmore⟩ := hkept.longest front hfront hle
    rw [← hsize, utf8ByteSize_eq_byteCount, utf8ByteSize_eq_byteCount, ← hmore, byteCount_append]
    exact Nat.le_add_right _ _
  · exact le_boundaryUpTo (isValid_utf8ByteSize hkept.front) hkept.size_le

/-- **The longest part that fits is the slice up to the place that the search finds.** -/
theorem copy_sliceTo_boundaryUpTo {limit : Nat} {s kept : String}
    (hkept : IsLongestWithin limit s kept) :
    (s.sliceTo (s.pos ⟨boundaryUpTo s limit⟩ (isValid_boundaryUpTo s limit))).copy = kept := by
  obtain ⟨rest, hrest⟩ := hkept.front
  refine String.copy_sliceTo_eq_iff_exists_splits.2 ⟨String.ofList rest, ?_, ?_⟩
  · rw [← String.toList_inj, String.toList_append, String.toList_ofList, hrest]
  · simpa [String.Pos.Raw.ext_iff] using boundaryUpTo_eq hkept

/-! ## Cutting -/

theorem cut_of_le {limit : Nat} {s : String} (hsmall : s.utf8ByteSize ≤ limit) :
    cut limit s = s := by
  rw [cut, if_pos hsmall]

/-- A text that is too long is cut behind the longest part that fits. -/
theorem exists_cut_of_lt {limit : Nat} {s : String} (hlarge : limit < s.utf8ByteSize) :
    ∃ kept, cut limit s = kept ++ "..." ∧ IsLongestWithin limit s kept ∧
      limit < kept.utf8ByteSize + 4 := by
  refine ⟨String.ofList (fitting limit s.toList), ?_, isLongestWithin_fitting limit s, ?_⟩
  · rw [cut, if_neg (Nat.not_le.2 hlarge)]
  · rw [utf8ByteSize_eq_byteCount] at hlarge
    rw [utf8ByteSize_eq_byteCount, String.toList_ofList]
    exact lt_byteCount_fitting hlarge

theorem utf8ByteSize_cut_le (limit : Nat) (s : String) :
    (cut limit s).utf8ByteSize ≤ limit + 3 := by
  rcases Nat.lt_or_ge limit s.utf8ByteSize with hlarge | hsmall
  · obtain ⟨kept, hcut, hkept, -⟩ := exists_cut_of_lt hlarge
    rw [hcut, String.utf8ByteSize_append]
    exact Nat.add_le_add_right hkept.size_le 3
  · rw [cut_of_le hsmall]
    exact Nat.le_add_right_of_le hsmall

end Text

/-! ## Diagnostics -/

namespace Signature

/-- A malformed text is refused by the reader: validation complains about other things. -/
theorem read_of_decode_eq_malformed {source diagnostic : String}
    (hdecode : decode source = .error (.malformed diagnostic)) :
    read source = .error (.malformed diagnostic) := by
  unfold decode at hdecode
  split at hdecode
  · simp at hdecode
  · split at hdecode
    · next hread => exact hread.trans hdecode
    · split at hdecode
      · next hinvalid =>
        obtain rfl := Except.error.inj hdecode
        exact absurd (isDefect_of_validate hinvalid) Bool.false_ne_true
      · simp at hdecode

/-- What is reported of a malformed text is a diagnostic that has been cut. -/
theorem exists_eq_cut_of_decode {source diagnostic : String}
    (hdecode : decode source = .error (.malformed diagnostic)) :
    ∃ full, diagnostic = Text.cut maxDiagnosticBytes full := by
  have hread := read_of_decode_eq_malformed hdecode
  unfold read at hread
  split at hread
  · next full _ =>
    unfold errorOfDiagnostic at hread
    split at hread
    · simp at hread
    · injection hread with hsame
      injection hsame with hcut
      exact ⟨full, hcut.symm⟩
  · simp at hread

/-- **A diagnostic is cut between two characters, as late as the limit allows.**  The
search ends between two characters, so there is a slice up to its place, and that is what
is kept. -/
theorem cut_keeps_longest_part (s : String) (limit : Nat) :
    (s.utf8ByteSize ≤ limit → Text.cut limit s = s) ∧
    (limit < s.utf8ByteSize → ∃ kept, Text.cut limit s = kept ++ "..." ∧
      Text.IsLongestWithin limit s kept ∧ limit < kept.utf8ByteSize + 4 ∧
      ∃ hvalid : String.Pos.Raw.IsValid s ⟨Text.boundaryUpTo s limit⟩,
        (s.sliceTo (s.pos ⟨Text.boundaryUpTo s limit⟩ hvalid)).copy = kept) ∧
    (Text.cut limit s).utf8ByteSize ≤ limit + 3 ∧
    ∀ source diagnostic, decode source = .error (.malformed diagnostic) →
      diagnostic.utf8ByteSize ≤ 203 := by
  refine ⟨Text.cut_of_le, fun hlarge => ?_, Text.utf8ByteSize_cut_le limit s, ?_⟩
  · obtain ⟨kept, hcut, hkept, hroom⟩ := Text.exists_cut_of_lt hlarge
    exact ⟨kept, hcut, hkept, hroom, Text.isValid_boundaryUpTo s limit,
      Text.copy_sliceTo_boundaryUpTo hkept⟩
  · intro source diagnostic hdecode
    obtain ⟨full, rfl⟩ := exists_eq_cut_of_decode hdecode
    exact Text.utf8ByteSize_cut_le maxDiagnosticBytes full

/-- The limit falls inside a character of four bytes, and nearly all of it is left over. -/
theorem cut_powerSet :
    (5 < "ab𝒫".utf8ByteSize ∧ Text.cut 5 "ab𝒫" = "ab..." ∧ Text.boundaryUpTo "ab𝒫" 5 = 2 ∧
      Text.IsLongestWithin 5 "ab𝒫" "ab") ∧
    ∃ diagnostic, decode "\"𝒫\"" = .error (.malformed diagnostic) ∧
      diagnostic.utf8ByteSize ≤ 203 := by
  obtain ⟨-, hlarge, -, hshort⟩ := cut_keeps_longest_part "ab𝒫" 5
  have hcut : Text.cut 5 "ab𝒫" = "ab..." := by decide +kernel
  obtain ⟨kept, hkept, hlongest, -⟩ := hlarge (by decide)
  obtain rfl : kept = "ab" := by
    have hsame : kept ++ "..." = "ab" ++ "..." := hkept.symm.trans hcut
    exact (String.append_left_inj _).1 hsame
  have hdecode : decode "\"𝒫\"" = .error (.malformed
      "invalid type: string \"𝒫\", expected struct FunctionSchema at line 1 column 6") := by
    decide +kernel
  exact ⟨⟨by decide, hcut, by decide +kernel, hlongest⟩, _, hdecode, hshort _ _ hdecode⟩

end Signature

end OpSchema
