import Mathlib.Tactic.SplitIfs
import OpSchema.Order

/-!
# The order of texts and the order of their bytes

Texts are compared character by character, and a format that is written as UTF-8
is compared byte by byte.  The two orders are one (`Text.bytes_lt_bytes_iff`), so
what ascends by its keys ascends by the bytes of its keys.

## Strategy

UTF-8 keeps the order of two characters whatever follows them: the bytes of the
smaller one do not begin the bytes of the greater one, and where the two part, the
smaller one has the smaller byte (`Text.utf8EncodeChar_append_lt`).  If one of them
takes fewer bytes it is the first byte that tells, and otherwise the bytes are the
digits of the two codes.  Texts part at a character or one begins the other, and a
total order that is kept is also reflected.
-/

namespace OpSchema.Text

/-- The bytes of a text. -/
def bytes (s : String) : List UInt8 := s.toUTF8.data.toList

theorem bytes_eq_flatMap (s : String) : bytes s = s.toList.flatMap String.utf8EncodeChar := by
  rw [bytes, String.toUTF8_eq_toByteArray, ← String.utf8Encode_toList, List.utf8Encode,
    List.data_toByteArray]

/-! ## Characters -/

variable {m n : Nat} {rest others : List UInt8}

private theorem ofNat_cons_lt_of_lt (hn : n < 256) (hless : m < n) :
    UInt8.ofNat m :: rest < UInt8.ofNat n :: others := by
  refine List.cons_lt_cons_iff.2 (.inl ?_)
  rw [UInt8.lt_iff_toNat_lt, UInt8.toNat_ofNat', UInt8.toNat_ofNat']
  omega

private theorem ofNat_cons_lt_of_le (hn : n < 256) (hle : m ≤ n) (hrest : m = n → rest < others) :
    UInt8.ofNat m :: rest < UInt8.ofNat n :: others := by
  rcases Nat.lt_or_eq_of_le hle with hless | hsame
  · exact ofNat_cons_lt_of_lt hn hless
  · exact List.cons_lt_cons_iff.2 (.inr ⟨congrArg UInt8.ofNat hsame, hrest hsame⟩)

/-- Of two characters the smaller one has the smaller bytes, whatever follows them. -/
theorem utf8EncodeChar_append_lt {c d : Char} (hless : c < d) (rest others : List UInt8) :
    String.utf8EncodeChar c ++ rest < String.utf8EncodeChar d ++ others := by
  have hcodes : c.val.toNat < d.val.toNat := hless
  have hlimit : d.val.toNat < 0x110000 := by
    have hvalid := d.valid
    simp only [UInt32.isValidChar, Nat.isValidChar] at hvalid
    omega
  unfold String.utf8EncodeChar
  generalize c.val.toNat = m at *
  generalize d.val.toNat = n at *
  dsimp only
  -- The smaller code does not take more bytes, which leaves ten of the sixteen cases.
  split_ifs <;> try omega
  all_goals simp only [List.cons_append, List.nil_append]
  · exact ofNat_cons_lt_of_lt (by omega) (by omega)
  · exact ofNat_cons_lt_of_lt (by omega) (by omega)
  · exact ofNat_cons_lt_of_lt (by omega) (by omega)
  · exact ofNat_cons_lt_of_lt (by omega) (by omega)
  · refine ofNat_cons_lt_of_le (by omega) (by omega) fun _ => ?_
    exact ofNat_cons_lt_of_lt (by omega) (by omega)
  · exact ofNat_cons_lt_of_lt (by omega) (by omega)
  · exact ofNat_cons_lt_of_lt (by omega) (by omega)
  · refine ofNat_cons_lt_of_le (by omega) (by omega) fun _ => ?_
    refine ofNat_cons_lt_of_le (by omega) (by omega) fun _ => ?_
    exact ofNat_cons_lt_of_lt (by omega) (by omega)
  · exact ofNat_cons_lt_of_lt (by omega) (by omega)
  · refine ofNat_cons_lt_of_le (by omega) (by omega) fun _ => ?_
    refine ofNat_cons_lt_of_le (by omega) (by omega) fun _ => ?_
    refine ofNat_cons_lt_of_le (by omega) (by omega) fun _ => ?_
    exact ofNat_cons_lt_of_lt (by omega) (by omega)

/-! ## Texts -/

theorem flatMap_utf8EncodeChar_lt {cs ds : List Char} (hless : cs < ds) :
    cs.flatMap String.utf8EncodeChar < ds.flatMap String.utf8EncodeChar := by
  induction hless with
  | @nil d ds =>
      have hsize : 0 < (String.utf8EncodeChar d).length := by
        rw [String.length_utf8EncodeChar]
        exact d.utf8Size_pos
      rw [List.flatMap_nil, List.flatMap_cons]
      cases hbytes : String.utf8EncodeChar d with
      | nil => simp [hbytes] at hsize
      | cons byte more => exact List.nil_lt_cons _ _
  | rel hless => exact utf8EncodeChar_append_lt hless _ _
  | cons _ ih => exact List.append_left_lt ih

theorem bytes_lt_bytes {s t : String} (hless : s < t) : bytes s < bytes t := by
  rw [bytes_eq_flatMap, bytes_eq_flatMap]
  exact flatMap_utf8EncodeChar_lt hless

/-- **Texts are ordered as their bytes are.** -/
theorem bytes_lt_bytes_iff {s t : String} : bytes s < bytes t ↔ s < t := by
  refine ⟨fun hless => ?_, bytes_lt_bytes⟩
  rcases Std.lt_trichotomy s t with hsmaller | rfl | hgreater
  · exact hsmaller
  · exact absurd hless (List.lt_irrefl _)
  · exact absurd hless (List.lt_asymm (bytes_lt_bytes hgreater))

/-! ## Ascending lists -/

theorem pairwise_bytes_of_ascending {α : Type} {key : α → String} {l : List α}
    (hl : Order.Ascending key l) : l.Pairwise fun a b => bytes (key a) < bytes (key b) :=
  hl.imp fun hless => bytes_lt_bytes_iff.2 hless

/-- The texts in the order of their bytes. -/
def sortByBytes (l : List String) : List String :=
  l.mergeSort fun s t => decide (bytes s ≤ bytes t)

/-- Texts that ascend are in the order of their bytes. -/
theorem sortByBytes_of_ascending {l : List String} (hl : Order.Ascending id l) :
    sortByBytes l = l := by
  apply List.mergeSort_of_pairwise
  exact (pairwise_bytes_of_ascending hl).imp fun hless => decide_eq_true (List.le_of_lt hless)

end OpSchema.Text
