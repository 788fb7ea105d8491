import OpSchema.Proofs.Json.Canonical
import OpSchema.Proofs.Json.Scanning

/-!
# The compact form is the shortest

No spelling of a document without numbers has fewer bytes than its compact form
(`Spells.compactSize_le`), and the compact form of its canonical form has
no more (`Document.compactSize_canonical_le`).

## Strategy

Both go by the size of a bracketed sequence, `bracketedSize`: the sizes of its parts,
a comma between any two of them, and the brackets.  Blanks only add to it, and a part
that is left out, as the earlier members of a repeated key are, takes its comma with
it.

For texts, it counts how a character can be spelled.  One that is written as an escape
of two bytes has no spelling that is shorter, an escape by code has six bytes, which
is enough for whatever is written, and every other character stands for itself.
-/

namespace OpSchema

open Text (byteCount byteCount_cons byteCount_append byteCount_nil)

/-! ## Bytes -/

theorem Text.utf8ByteSize_eq_byteCount (s : String) : s.utf8ByteSize = byteCount s.toList := by
  have hchars : ∀ cs : List Char, (String.ofList cs).utf8ByteSize = byteCount cs := by
    intro cs
    induction cs with
    | nil => rfl
    | cons c cs ih =>
        rw [String.ofList_cons, String.utf8ByteSize_append, String.utf8ByteSize_singleton, ih,
          byteCount_cons]
  rw [← hchars, String.ofList_toList]

/-- A text has no more characters than bytes. -/
theorem Text.length_le_utf8ByteSize (s : String) : s.toList.length ≤ s.utf8ByteSize := by
  rw [Text.utf8ByteSize_eq_byteCount]
  induction s.toList with
  | nil => exact Nat.le_refl 0
  | cons c cs ih =>
      have hbyte := c.utf8Size_pos
      rw [List.length_cons, byteCount_cons]
      omega

/-- The punctuation of the format is ASCII, one byte each. -/
theorem Text.utf8Size_eq_one {c : Char} (hascii : c.toNat < 0x80) : c.utf8Size = 1 := by
  refine Char.utf8Size_eq_one_iff.2 (UInt32.le_iff_toNat_le.2 ?_)
  exact Nat.le_of_lt_succ hascii

open Text (utf8Size_eq_one)

namespace Json

/-! ## Texts -/

/-- No character takes more than the six bytes of an escape by code. -/
theorem byteCount_escapeChar_le (c : Char) : byteCount (escapeChar c) ≤ 6 := by
  have hcodes : ∀ n < 0x20, byteCount (List.replicate (4 - (Nat.toDigits 16 n).length) '0' ++
      Nat.toDigits 16 n) = 4 := by decide
  have hplain : c.utf8Size ≤ 4 := c.utf8Size_le_four
  unfold escapeChar
  split_ifs with _ _ _ _ _ _ _ hcontrol
  -- The seven escapes by a letter come first; an escape by code and a plain character remain.
  rotate_left 7
  · rw [codeEscape, List.cons_append, List.cons_append, byteCount_cons, byteCount_cons,
      hcodes _ hcontrol]
    decide
  · rw [byteCount_cons, byteCount_nil]
    omega
  all_goals decide

theorem SpellsCode.byteCount_add_four_le {text rest : List Char} {code : Nat}
    (hcode : SpellsCode text code rest) : byteCount rest + 4 ≤ byteCount text := by
  cases hcode with
  | @digits a b c d =>
      have ha := a.utf8Size_pos
      have hb := b.utf8Size_pos
      have hc := c.utf8Size_pos
      have hd := d.utf8Size_pos
      simp only [byteCount_cons]
      omega

/-- An escape has, with its backslash, no fewer bytes than what is written. -/
theorem SpellsEscape.byteCount_escapeChar_le {text rest : List Char} {c : Char}
    (hescape : SpellsEscape text c rest) :
    byteCount (escapeChar c) + byteCount rest ≤ byteCount text + 1 := by
  have hsize := Json.byteCount_escapeChar_le c
  have hmark : Char.utf8Size 'u' = 1 := utf8Size_eq_one (by decide)
  cases hescape with
  | @letter letter _ _ hletter =>
      have hshort : byteCount (escapeChar c) ≤ 2 := by
        unfold shortEscape? at hletter
        split_ifs at hletter
        all_goals
          obtain rfl := Option.some.inj hletter
          decide
      have hpos := letter.utf8Size_pos
      rw [byteCount_cons]
      omega
  | code hcode _ _ =>
      have hdigits := hcode.byteCount_add_four_le
      rw [byteCount_cons]
      omega
  | pair hfirst _ hsecond _ =>
      have hhigh := hfirst.byteCount_add_four_le
      have hlow := hsecond.byteCount_add_four_le
      simp only [byteCount_cons] at hhigh ⊢
      omega

/-- A text has no fewer bytes than what is written for it. -/
theorem SpellsText.byteCount_le {text value rest : List Char} (htext : SpellsText text value rest) :
    byteCount (value.flatMap escapeChar) + 1 + byteCount rest ≤ byteCount text := by
  induction htext with
  | close =>
      simp (disch := decide) only [List.flatMap_nil, byteCount_nil, byteCount_cons, utf8Size_eq_one]
      omega
  | @plain c text value rest hquote hslash hcontrol _ ih =>
      -- Such a character is written as it stands.
      have hescape : escapeChar c = [c] := by
        unfold escapeChar
        rw [if_neg hquote, if_neg hslash]
        repeat rw [if_neg (by rintro rfl; revert hcontrol; decide)]
        rw [if_neg (Nat.not_lt.2 hcontrol)]
      simp only [List.flatMap_cons, hescape, byteCount_append, byteCount_cons, byteCount_nil]
      omega
  | escape hescape _ ih =>
      have hwritten := hescape.byteCount_escapeChar_le
      simp (disch := decide) only [List.flatMap_cons, byteCount_append, byteCount_cons,
        utf8Size_eq_one]
      omega

theorem byteCount_writeText (s : String) :
    byteCount (writeText s) = byteCount (s.toList.flatMap escapeChar) + 2 := by
  simp (disch := decide) only [writeText, byteCount_cons, byteCount_append, byteCount_nil,
    utf8Size_eq_one]
  omega

/-! ## Brackets -/

/-- The bytes of parts of these sizes, each with a comma. -/
def commaSize : List Nat → Nat
  | [] => 0
  | size :: sizes => size + 1 + commaSize sizes

/-- The bytes of a bracketed sequence whose parts have these sizes, with a comma
between any two of them. -/
def bracketedSize (sizes : List Nat) : Nat := max 1 (commaSize sizes) + 1

/-- The first of several parts has a bracket instead of a comma. -/
theorem bracketedSize_cons (size : Nat) (sizes : List Nat) :
    bracketedSize (size :: sizes) = 1 + size + commaSize sizes + 1 := by
  rw [bracketedSize, commaSize]
  omega

theorem bracketedSize_mono {sizes others : List Nat} (hle : commaSize sizes ≤ commaSize others) :
    bracketedSize sizes ≤ bracketedSize others := by
  unfold bracketedSize
  omega

theorem commaSize_map_le {α : Type} {size other : α → Nat} {l : List α}
    (hle : ∀ a ∈ l, size a ≤ other a) : commaSize (l.map size) ≤ commaSize (l.map other) := by
  induction l with
  | nil => exact Nat.le_refl _
  | cons a l ih =>
      obtain ⟨hfirst, hothers⟩ := List.forall_mem_cons.1 hle
      have htail := ih hothers
      simp only [List.map_cons, commaSize]
      omega

/-- Collecting adds no part. -/
theorem commaSize_collect_le {α : Type} (key : α → String) (size : α → Nat) (l : List α) :
    commaSize ((Order.collect key l).map size) ≤ commaSize (l.map size) := by
  have hinsert : ∀ (a : α) (l : List α),
      commaSize ((Order.insertNew key a l).map size) ≤ size a + 1 + commaSize (l.map size) := by
    intro a l
    induction l with
    | nil => exact Nat.le_refl _
    | cons b l ih =>
        rw [Order.insertNew]
        split
        · exact Nat.le_refl _
        split
        · exact Nat.le_add_left _ _
        · simp only [List.map_cons, commaSize]
          omega
  induction l with
  | nil => exact Nat.le_refl _
  | cons a l ih =>
      have hfirst := hinsert a (Order.collect key l)
      rw [List.map_cons, commaSize]
      exact Nat.le_trans hfirst (Nat.add_le_add_left ih _)

namespace Document

/-- The bytes of the compact form. -/
def compactSize (d : Document) : Nat := byteCount d.compactChars

/-- The bytes of a member in the compact form. -/
def memberSize (m : String × Document) : Nat := byteCount (writeText m.1) + 1 + m.2.compactSize

theorem byteCount_compactItems (items : List Document) :
    byteCount (compactItems items) = commaSize (items.map compactSize) + 1 := by
  induction items with
  | nil => decide
  | cons d items ih =>
      simp (disch := decide) only [compactItems, byteCount_cons, byteCount_append, ih,
        utf8Size_eq_one, List.map_cons, commaSize, compactSize]
      omega

theorem byteCount_compactMembers (members : List (String × Document)) :
    byteCount (compactMembers members) = commaSize (members.map memberSize) + 1 := by
  induction members with
  | nil => decide
  | cons m members ih =>
      obtain ⟨key, d⟩ := m
      simp (disch := decide) only [compactMembers, byteCount_cons, byteCount_append, ih,
        utf8Size_eq_one, List.map_cons, commaSize, memberSize, compactSize]
      omega

theorem compactSize_list (items : List Document) :
    (list items).compactSize = bracketedSize (items.map compactSize) := by
  cases items with
  | nil => decide
  | cons d items =>
      simp (disch := decide) only [compactSize, compactChars, byteCount_cons, byteCount_append,
        byteCount_compactItems, utf8Size_eq_one, List.map_cons, bracketedSize_cons]
      omega

theorem compactSize_object (members : List (String × Document)) :
    (object members).compactSize = bracketedSize (members.map memberSize) := by
  cases members with
  | nil => decide
  | cons m members =>
      obtain ⟨key, d⟩ := m
      simp (disch := decide) only [compactSize, compactChars, byteCount_cons, byteCount_append,
        byteCount_compactMembers, utf8Size_eq_one, List.map_cons, bracketedSize_cons, memberSize]
      omega

end Document

open Document (compactSize memberSize)

/-! ## Spellings -/

theorem Lead.byteCount_le {isFirst : Bool} {text more : List Char}
    (hlead : Lead isFirst text more) :
    byteCount more + (if isFirst then 0 else 1) ≤ byteCount text := by
  cases hlead with
  | first _ => simp
  | next _ _ =>
      simp (disch := decide) only [byteCount_append, byteCount_cons, utf8Size_eq_one,
        Bool.false_eq_true, if_false]
      omega

/-- The items of a list have no fewer bytes than the parts of the compact form.  At the
beginning there is no comma yet, but a bracket before. -/
theorem SpellsItems.byteCount_le {value : Spelling} {isFirst : Bool} {text rest : List Char}
    {items : List Document}
    (hvalue : ∀ d ∈ items, ∀ text rest, value text d rest →
      d.compactSize + byteCount rest ≤ byteCount text)
    (hspelled : SpellsItems value isFirst text items rest) :
    (if isFirst then bracketedSize (items.map compactSize)
      else commaSize (items.map compactSize) + 2) + byteCount rest ≤ byteCount text + 1 := by
  induction items generalizing isFirst text with
  | nil =>
      cases hspelled with
      | stop _ =>
          simp (disch := decide) only [byteCount_append, byteCount_cons, utf8Size_eq_one]
          cases isFirst <;> simp [bracketedSize, commaSize] <;> omega
  | cons d items ih =>
      rw [List.forall_mem_cons] at hvalue
      cases hspelled with
      | item hlead hhead htail =>
          have hbefore := hlead.byteCount_le
          have hfirst := hvalue.1 _ _ hhead
          have hothers := ih hvalue.2 htail
          rw [List.map_cons, bracketedSize_cons, commaSize]
          cases isFirst <;> simp at hbefore hothers ⊢ <;> omega

theorem SpellsMember.byteCount_le {value : Spelling} {text rest : List Char} {m : String × Document}
    (hvalue : ∀ text rest, value text m.2 rest → m.2.compactSize + byteCount rest ≤ byteCount text)
    (hspelled : SpellsMember value text m rest) :
    memberSize m + byteCount rest ≤ byteCount text := by
  cases hspelled with
  | member hkey _ _ hspelled =>
      have hname := hkey.byteCount_le
      have hdocument := hvalue _ _ hspelled
      dsimp only at hdocument
      simp (disch := decide) only [byteCount_append, byteCount_cons, utf8Size_eq_one] at hname ⊢
      simp only [memberSize, byteCount_writeText, String.toList_ofList]
      omega

/-- The members of an object, in the same way. -/
theorem SpellsMembers.byteCount_le {value : Spelling} {isFirst : Bool} {text rest : List Char}
    {members : List (String × Document)}
    (hvalue : ∀ m ∈ members, ∀ text rest, value text m.2 rest →
      m.2.compactSize + byteCount rest ≤ byteCount text)
    (hspelled : SpellsMembers value isFirst text members rest) :
    (if isFirst then bracketedSize (members.map memberSize)
      else commaSize (members.map memberSize) + 2) + byteCount rest ≤ byteCount text + 1 := by
  induction members generalizing isFirst text with
  | nil =>
      cases hspelled with
      | stop _ =>
          simp (disch := decide) only [byteCount_append, byteCount_cons, utf8Size_eq_one]
          cases isFirst <;> simp [bracketedSize, commaSize] <;> omega
  | cons m members ih =>
      rw [List.forall_mem_cons] at hvalue
      cases hspelled with
      | member hlead hhead htail =>
          have hbefore := hlead.byteCount_le
          have hfirst := hhead.byteCount_le hvalue.1
          have hothers := ih hvalue.2 htail
          rw [List.map_cons, bracketedSize_cons, commaSize]
          cases isFirst <;> simp at hbefore hothers ⊢ <;> omega

/-- **No spelling of a document without numbers is shorter than its compact form.** -/
theorem Spells.compactSize_le {d : Document} (hfree : d.NumberFree) {text rest : List Char}
    (hspelled : Spells text d rest) : d.compactSize + byteCount rest ≤ byteCount text := by
  induction hfree generalizing text rest with
  | null =>
      cases hspelled
      simp [compactSize, Document.compactChars]
      omega
  | flag value =>
      cases hspelled <;> simp [compactSize, Document.compactChars] <;> omega
  | text value =>
      cases hspelled with
      | text htext =>
          have hwritten := htext.byteCount_le
          simp (disch := decide) only [compactSize, Document.compactChars, byteCount_writeText,
            String.toList_ofList, byteCount_cons, utf8Size_eq_one]
          omega
  | list _ ih =>
      cases hspelled with
      | list hitems =>
          have hinside := hitems.byteCount_le fun d hd _ _ => ih d hd
          simp (disch := decide) only [Document.compactSize_list, byteCount_cons, utf8Size_eq_one]
          rw [if_pos rfl] at hinside
          omega
  | object _ ih =>
      cases hspelled with
      | object hmembers =>
          have hinside := hmembers.byteCount_le fun m hm _ _ => ih m hm
          simp (disch := decide) only [Document.compactSize_object, byteCount_cons, utf8Size_eq_one]
          rw [if_pos rfl] at hinside
          omega

/-! ## Canonical documents -/

/-- **The canonical form is written in no more bytes than the document.** -/
theorem Document.compactSize_canonical_le (d : Document) :
    d.canonical.compactSize ≤ d.compactSize := by
  induction d using Document.induction with
  | null => exact Nat.le_refl _
  | flag value => exact Nat.le_refl _
  | number value => exact Nat.le_refl _
  | text value => exact Nat.le_refl _
  | list items ih =>
      rw [canonical_list, compactSize_list, compactSize_list]
      refine bracketedSize_mono ?_
      rw [List.map_map]
      exact commaSize_map_le ih
  | object members ih =>
      rw [canonical_object, compactSize_object, compactSize_object]
      refine bracketedSize_mono (Nat.le_trans (commaSize_collect_le _ _ _) ?_)
      rw [List.map_map]
      exact commaSize_map_le fun m hm => Nat.add_le_add_left (ih m hm) _

theorem Document.utf8ByteSize_compact (d : Document) :
    d.compact.utf8ByteSize = d.compactSize := by
  rw [Text.utf8ByteSize_eq_byteCount, compact, String.toList_ofList, compactSize]

/-- The compact form of the canonical form has no more bytes than any text of the
document. -/
theorem SpellsWhole.utf8ByteSize_canonical_le {source : String} {d : Document}
    (hspelled : SpellsWhole source.toList d) (hfree : d.NumberFree) :
    d.canonical.compact.utf8ByteSize ≤ source.utf8ByteSize := by
  obtain ⟨before, more, after, -, -, hsource, hspelled⟩ := hspelled
  calc d.canonical.compact.utf8ByteSize
      = d.canonical.compactSize := d.canonical.utf8ByteSize_compact
    _ ≤ d.compactSize := d.compactSize_canonical_le
    _ ≤ d.compactSize + byteCount after := Nat.le_add_right _ _
    _ ≤ byteCount more := Spells.compactSize_le hfree hspelled
    _ ≤ byteCount before + byteCount more := Nat.le_add_left _ _
    _ = source.utf8ByteSize := by
        rw [Text.utf8ByteSize_eq_byteCount, hsource, byteCount_append]

end Json

end OpSchema
