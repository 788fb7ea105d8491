import OpSchema.Json.Scanner
import OpSchema.Json.Writer

/-!
# How documents are spelled

The grammar of texts, as relations and without a reader.  `Spells text d rest`
says that `text` begins with a spelling of the document `d`, and that `rest`
follows it.  One document has many spellings: blanks may stand between the
pieces, and a character of a text may be escaped or not.

The grammar does not know shapes, and it does not limit the nesting.  It leaves
to the scanner which numbers a run of digits stands for; everything else is
spelled out.

## Main definitions

* `SpellsText`, `SpellsEscape`: the characters of a text and their escapes.
* `SpellsItems`, `SpellsMembers`: what is inside a bracket, up to and with the
  closing one.
* `Spells`: a document, from its first character on.
* `Document.NumberFree`: no number anywhere in the document.

The compact form of a document without numbers is one of its spellings
(`spells_compactChars`).
-/

namespace OpSchema.Json

/-! ## Texts -/

/-- A run of blanks. -/
def Blanks (cs : List Char) : Prop := ∀ c ∈ cs, isBlank c = true

theorem blanks_nil : Blanks [] := by
  simp [Blanks]

/-- Four hexadecimal digits for a code. -/
inductive SpellsCode : List Char → Nat → List Char → Prop
  | digits {a b c d : Char} {w x y z : Nat} {rest : List Char} (ha : hexValue? a = some w)
      (hb : hexValue? b = some x) (hc : hexValue? c = some y) (hd : hexValue? d = some z) :
      SpellsCode (a :: b :: c :: d :: rest) (((w * 16 + x) * 16 + y) * 16 + z) rest

/-- What follows the backslash of an escape: a letter, a code outside the
surrogates, or the codes of a surrogate pair. -/
inductive SpellsEscape : List Char → Char → List Char → Prop
  | letter {letter c : Char} {rest : List Char} (hletter : shortEscape? letter = some c) :
      SpellsEscape (letter :: rest) c rest
  | code {text rest : List Char} {code : Nat} (hcode : SpellsCode text code rest)
      (hlow : isLowSurrogate code = false) (hhigh : isHighSurrogate code = false) :
      SpellsEscape ('u' :: text) (Char.ofNat code) rest
  | pair {text more rest : List Char} {high low : Nat}
      (hfirst : SpellsCode text high ('\\' :: 'u' :: more)) (hhigh : isHighSurrogate high = true)
      (hsecond : SpellsCode more low rest) (hlow : isLowSurrogate low = true) :
      SpellsEscape ('u' :: text) (Char.ofNat (pairCode high low)) rest

/-- The characters of a text whose opening quote has been read. -/
inductive SpellsText : List Char → List Char → List Char → Prop
  | close {rest : List Char} : SpellsText ('"' :: rest) [] rest
  | plain {c : Char} {text value rest : List Char} (hquote : c ≠ '"') (hslash : c ≠ '\\')
      (hcontrol : 0x20 ≤ c.toNat) (htext : SpellsText text value rest) :
      SpellsText (c :: text) (c :: value) rest
  | escape {c : Char} {text after value rest : List Char} (hescape : SpellsEscape text c after)
      (htext : SpellsText after value rest) : SpellsText ('\\' :: text) (c :: value) rest

/-! ## Documents -/

/-- A relation between a text, the document at its front and what follows. -/
abbrev Spelling : Type := List Char → Document → List Char → Prop

/-- What stands in front of an item or a member: blanks and, unless it is the
first, a comma. -/
inductive Lead : Bool → List Char → List Char → Prop
  | first {blanks more : List Char} (hblanks : Blanks blanks) : Lead true (blanks ++ more) more
  | next {before blanks more : List Char} (hbefore : Blanks before) (hblanks : Blanks blanks) :
      Lead false (before ++ ',' :: (blanks ++ more)) more

/-- The items of a list after its opening bracket, or after an earlier item. -/
inductive SpellsItems (value : Spelling) : Bool → List Char → List Document → List Char → Prop
  | stop {isFirst : Bool} {blanks rest : List Char} (hblanks : Blanks blanks) :
      SpellsItems value isFirst (blanks ++ ']' :: rest) [] rest
  | item {isFirst : Bool} {text more after rest : List Char} {d : Document}
      {items : List Document} (hlead : Lead isFirst text more) (hvalue : value more d after)
      (hitems : SpellsItems value false after items rest) :
      SpellsItems value isFirst text (d :: items) rest

/-- A member of an object: its key, a colon and its value. -/
inductive SpellsMember (value : Spelling) : List Char → String × Document → List Char → Prop
  | member {key text before blanks more after : List Char} {d : Document}
      (hkey : SpellsText text key (before ++ ':' :: (blanks ++ more))) (hbefore : Blanks before)
      (hblanks : Blanks blanks) (hvalue : value more d after) :
      SpellsMember value ('"' :: text) (String.ofList key, d) after

/-- The members of an object after its opening bracket, or after an earlier
member. -/
inductive SpellsMembers (value : Spelling) :
    Bool → List Char → List (String × Document) → List Char → Prop
  | stop {isFirst : Bool} {blanks rest : List Char} (hblanks : Blanks blanks) :
      SpellsMembers value isFirst (blanks ++ '\x7d' :: rest) [] rest
  | member {isFirst : Bool} {text more after rest : List Char} {m : String × Document}
      {members : List (String × Document)} (hlead : Lead isFirst text more)
      (hmember : SpellsMember value more m after)
      (hmembers : SpellsMembers value false after members rest) :
      SpellsMembers value isFirst text (m :: members) rest

/-- A document, from its first character on. -/
inductive Spells : List Char → Document → List Char → Prop
  | null {rest : List Char} : Spells ('n' :: 'u' :: 'l' :: 'l' :: rest) .null rest
  | flagTrue {rest : List Char} : Spells ('t' :: 'r' :: 'u' :: 'e' :: rest) (.flag true) rest
  | flagFalse {rest : List Char} :
      Spells ('f' :: 'a' :: 'l' :: 's' :: 'e' :: rest) (.flag false) rest
  | number {c : Char} {more rest : List Char} {n : Number}
      (hstart : c = '-' ∨ isDigit c = true) (hscan : scanNumber (c :: more) = .ok (n, rest)) :
      Spells (c :: more) (.number n) rest
  | text {text value rest : List Char} (htext : SpellsText text value rest) :
      Spells ('"' :: text) (.text (String.ofList value)) rest
  | list {text rest : List Char} {items : List Document}
      (hitems : SpellsItems Spells true text items rest) :
      Spells ('[' :: text) (.list items) rest
  | object {text rest : List Char} {members : List (String × Document)}
      (hmembers : SpellsMembers Spells true text members rest) :
      Spells ('\x7b' :: text) (.object members) rest

/-- A whole text is a document with blanks around it. -/
def SpellsWhole (text : List Char) (d : Document) : Prop :=
  ∃ before more after, Blanks before ∧ Blanks after ∧ text = before ++ more ∧ Spells more d after

/-! ## The compact form -/

/-- No number stands anywhere in the document. -/
inductive Document.NumberFree : Document → Prop
  | null : NumberFree .null
  | flag (value : Bool) : NumberFree (.flag value)
  | text (value : String) : NumberFree (.text value)
  | list {items : List Document} (hitems : ∀ d ∈ items, NumberFree d) : NumberFree (.list items)
  | object {members : List (String × Document)} (hmembers : ∀ m ∈ members, NumberFree m.2) :
      NumberFree (.object members)

/-- The escape of a control character. -/
private theorem codeEscape_eq {c : Char} (hcontrol : c.toNat < 0x20) :
    codeEscape c = ['\\', 'u', '0', '0', Nat.digitChar (c.toNat / 16),
      Nat.digitChar (c.toNat % 16)] := by
  have hdigits : ∀ n < 0x20, List.replicate (4 - (Nat.toDigits 16 n).length) '0' ++
      Nat.toDigits 16 n = ['0', '0', Nat.digitChar (n / 16), Nat.digitChar (n % 16)] := by
    decide
  unfold codeEscape
  rw [List.cons_append, List.cons_append, hdigits _ hcontrol]

private theorem hexValue?_digitChar : ∀ n < 16, hexValue? (Nat.digitChar n) = some n := by
  decide

/-- A control character is spelled by its code. -/
private theorem spellsText_codeEscape {c : Char} (hcontrol : c.toNat < 0x20)
    {text value rest : List Char} (htext : SpellsText text value rest) :
    SpellsText (codeEscape c ++ text) (c :: value) rest := by
  have hdigits : SpellsCode ('0' :: '0' :: Nat.digitChar (c.toNat / 16) ::
      Nat.digitChar (c.toNat % 16) :: text)
      (((0 * 16 + 0) * 16 + c.toNat / 16) * 16 + c.toNat % 16) text :=
    .digits (by decide) (by decide) (hexValue?_digitChar _ (by omega))
      (hexValue?_digitChar _ (by omega))
  have hcode : ((0 * 16 + 0) * 16 + c.toNat / 16) * 16 + c.toNat % 16 = c.toNat := by omega
  rw [hcode] at hdigits
  have hescape : SpellsEscape _ (Char.ofNat c.toNat) text :=
    .code hdigits (by simp [isLowSurrogate]; omega) (by simp [isHighSurrogate]; omega)
  rw [Char.ofNat_toNat] at hescape
  rw [codeEscape_eq hcontrol]
  exact .escape hescape htext

/-- A character is spelled by what is written for it. -/
theorem spellsText_escapeChar (c : Char) {text value rest : List Char}
    (htext : SpellsText text value rest) :
    SpellsText (escapeChar c ++ text) (c :: value) rest := by
  have hletter : ∀ {letter c : Char}, shortEscape? letter = some c →
      SpellsText ('\\' :: letter :: text) (c :: value) rest :=
    fun hshort => .escape (.letter hshort) htext
  unfold escapeChar
  by_cases hquote : c = '"'
  · subst hquote
    exact hletter (by decide)
  by_cases hslash : c = '\\'
  · subst hslash
    exact hletter (by decide)
  rw [if_neg hquote, if_neg hslash]
  -- The five letters of the common control characters, then codes, then the rest.
  split
  · next hsame => exact hsame ▸ hletter (by decide)
  split
  · next hsame => exact hsame ▸ hletter (by decide)
  split
  · next hsame => exact hsame ▸ hletter (by decide)
  split
  · next hsame => exact hsame ▸ hletter (by decide)
  split
  · next hsame => exact hsame ▸ hletter (by decide)
  split
  · next hcontrol => exact spellsText_codeEscape hcontrol htext
  · next hcontrol => exact .plain hquote hslash (Nat.not_lt.1 hcontrol) htext

theorem spellsText_flatMap_escapeChar (value rest : List Char) :
    SpellsText (value.flatMap escapeChar ++ '"' :: rest) value rest := by
  induction value with
  | nil => exact .close
  | cons c value ih =>
      rw [List.flatMap_cons, List.append_assoc]
      exact spellsText_escapeChar c ih

/-- A written text is a quote and the characters of the text. -/
theorem writeText_append (s : String) (rest : List Char) :
    writeText s ++ rest = '"' :: (s.toList.flatMap escapeChar ++ '"' :: rest) := by
  simp [writeText]

theorem spells_writeText (s : String) (rest : List Char) :
    Spells (writeText s ++ rest) (.text s) rest := by
  have htext : Spells _ (.text (String.ofList s.toList)) rest :=
    .text (spellsText_flatMap_escapeChar s.toList rest)
  rwa [String.ofList_toList, ← writeText_append] at htext

/-- A member is spelled by its key, a colon, blanks and its value. -/
theorem spellsMember_writeText_blanks {value : Spelling} (key : String) {d : Document}
    {blanks text rest : List Char} (hblanks : Blanks blanks) (hvalue : value text d rest) :
    SpellsMember value (writeText key ++ ':' :: (blanks ++ text)) (key, d) rest := by
  have hmember : SpellsMember value _ (String.ofList key.toList, d) rest :=
    .member (spellsText_flatMap_escapeChar key.toList ([] ++ ':' :: (blanks ++ text))) blanks_nil
      hblanks hvalue
  rw [writeText_append]
  rwa [String.ofList_toList] at hmember

theorem spellsMember_writeText {value : Spelling} (key : String) {d : Document}
    {text rest : List Char} (hvalue : value text d rest) :
    SpellsMember value (writeText key ++ ':' :: text) (key, d) rest :=
  spellsMember_writeText_blanks key blanks_nil hvalue

/-- Nothing stands in front of the first item. -/
theorem lead_nothing (more : List Char) : Lead true more more :=
  .first blanks_nil

/-- A comma alone stands in front of the others. -/
theorem lead_comma (more : List Char) : Lead false (',' :: more) more :=
  .next blanks_nil blanks_nil

theorem spellsItems_compactItems {items : List Document}
    (hitems : ∀ d ∈ items, ∀ rest, Spells (d.compactChars ++ rest) d rest) (rest : List Char) :
    SpellsItems Spells false (Document.compactItems items ++ rest) items rest := by
  induction items with
  | nil => exact .stop blanks_nil
  | cons d items ih =>
      have htail := ih fun other hother => hitems other (List.mem_cons_of_mem d hother)
      have hhead := hitems d List.mem_cons_self (Document.compactItems items ++ rest)
      rw [Document.compactItems, List.cons_append, List.append_assoc]
      exact .item (lead_comma _) hhead htail

theorem spellsMembers_compactMembers {members : List (String × Document)}
    (hmembers : ∀ m ∈ members, ∀ rest, Spells (m.2.compactChars ++ rest) m.2 rest)
    (rest : List Char) :
    SpellsMembers Spells false (Document.compactMembers members ++ rest) members rest := by
  induction members with
  | nil => exact .stop blanks_nil
  | cons m members ih =>
      obtain ⟨key, d⟩ := m
      have htail := ih fun other hother => hmembers other (List.mem_cons_of_mem _ hother)
      have hhead := hmembers (key, d) List.mem_cons_self (Document.compactMembers members ++ rest)
      rw [Document.compactMembers, List.cons_append, List.append_assoc, List.cons_append,
        List.append_assoc]
      exact .member (lead_comma _) (spellsMember_writeText key hhead) htail

/-- **The compact form of a document without numbers spells it.** -/
theorem spells_compactChars {d : Document} (hfree : d.NumberFree) (rest : List Char) :
    Spells (d.compactChars ++ rest) d rest := by
  induction hfree generalizing rest with
  | null => exact .null
  | flag value =>
      cases value with
      | true => exact .flagTrue
      | false => exact .flagFalse
  | text value => exact spells_writeText value rest
  | @list items hitems ih =>
      cases items with
      | nil => exact .list (.stop blanks_nil)
      | cons d items =>
          have htail := spellsItems_compactItems
            (fun other hother => ih other (List.mem_cons_of_mem d hother)) rest
          have hhead := ih d List.mem_cons_self (Document.compactItems items ++ rest)
          rw [Document.compactChars, List.cons_append, List.append_assoc]
          exact .list (.item (lead_nothing _) hhead htail)
  | @object members hmembers ih =>
      cases members with
      | nil => exact .object (.stop blanks_nil)
      | cons m members =>
          obtain ⟨key, d⟩ := m
          have htail := spellsMembers_compactMembers
            (fun other hother => ih other (List.mem_cons_of_mem _ hother)) rest
          have hhead := ih (key, d) List.mem_cons_self (Document.compactMembers members ++ rest)
          rw [Document.compactChars, List.cons_append, List.append_assoc, List.cons_append,
            List.append_assoc]
          exact .object (.member (lead_nothing _) (spellsMember_writeText key hhead) htail)

theorem spellsWhole_compact {d : Document} (hfree : d.NumberFree) :
    SpellsWhole d.compact.toList d := by
  have hspelled := spells_compactChars hfree []
  rw [List.append_nil] at hspelled
  refine ⟨[], _, [], blanks_nil, blanks_nil, ?_, hspelled⟩
  rw [Document.compact, String.toList_ofList, List.nil_append]

end OpSchema.Json
