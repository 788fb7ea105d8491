import OpSchema.Proofs.Json.Completeness
import OpSchema.Proofs.Signature.Diagnostics

/-!
# The compact form spells one document

If the compact form of a document spells a document without numbers, then it is that
very document (`eq_of_spellsWhole_compact`).  The first may have numbers in it: what is
written for a number is not taken for anything else.

## Strategy

The first character of a compact form tells what kind of document it is
(`Document.StartsWith`), and it is never a blank.  So blanks, which a spelling may have
between any two pieces, are none in a compact form (`cons_inj_of_blanks`), and the two
documents are compared piece by piece, by induction on the one that is spelled.
-/

namespace OpSchema.Json

open Document (compactItems compactMembers)

/-! ## First characters -/

/-- The document is of a kind that starts with the character. -/
inductive Document.StartsWith : Document → Char → Prop
  | null : StartsWith .null 'n'
  | flagTrue : StartsWith (.flag true) 't'
  | flagFalse : StartsWith (.flag false) 'f'
  | number {n : Number} {c : Char} (hnumeral : c.isDigit = true ∨ c ∈ ['-', '+', '.', 'e']) :
      StartsWith (.number n) c
  | text {value : String} : StartsWith (.text value) '"'
  | list {items : List Document} : StartsWith (.list items) '['
  | object {members : List (String × Document)} : StartsWith (.object members) '\x7b'

/-- A written number has a character. -/
theorem Number.write_ne_nil (n : Number) : n.write.toList ≠ [] := by
  have hdigits : ∀ n : Nat, (toString n).toList ≠ [] := by
    intro n
    rw [Nat.toString_eq_repr, Nat.toList_repr]
    exact Nat.toDigits_ne_nil
  have hplain : ∀ x : Decimal.Scaled, x.plain.toList ≠ [] := by
    intro x
    unfold Decimal.Scaled.plain
    dsimp only
    split
    · simp
    · split <;> simp
  cases n with
  | natural n => exact hdigits n
  | negative n => simp [write]
  | real isNegative magnitude =>
      rw [write, String.toList_append, Decimal.Magnitude.write, Decimal.Scaled.write]
      refine List.append_ne_nil_of_right_ne_nil _ ?_
      split
      · decide
      split
      · exact hplain _
      · simp [Decimal.Scaled.scientific]

theorem Document.exists_compactChars_eq_cons (d : Document) :
    ∃ c more, d.compactChars = c :: more ∧ d.StartsWith c := by
  cases d with
  | null => exact ⟨_, _, rfl, .null⟩
  | flag value =>
      cases value with
      | true => exact ⟨_, _, rfl, .flagTrue⟩
      | false => exact ⟨_, _, rfl, .flagFalse⟩
  | number n =>
      obtain ⟨c, more, hwrite⟩ := List.exists_cons_of_ne_nil n.write_ne_nil
      refine ⟨c, more, hwrite, .number (isNumeral_write n c ?_)⟩
      rw [hwrite]
      exact List.mem_cons_self
  | text value => exact ⟨_, _, rfl, .text⟩
  | list items => cases items <;> exact ⟨_, _, rfl, .list⟩
  | object members =>
      cases members with
      | nil => exact ⟨_, _, rfl, .object⟩
      | cons m members => exact ⟨_, _, rfl, .object⟩

theorem Document.startsWith_of_compactChars {d : Document} {c : Char} {rest more : List Char}
    (hsame : d.compactChars ++ rest = c :: more) : d.StartsWith c := by
  obtain ⟨first, others, hcompact, hstarts⟩ := d.exists_compactChars_eq_cons
  rw [hcompact, List.cons_append] at hsame
  exact (List.cons.inj hsame).1 ▸ hstarts

/-- No document starts with a blank or with the end of a list. -/
theorem Document.StartsWith.not_end {d : Document} {c : Char} (hstarts : d.StartsWith c) :
    isBlank c = false ∧ c ≠ ']' := by
  cases hstarts with
  | number hnumeral =>
      refine ⟨eq_false_of_ne_true fun hblank => ?_, ?_⟩
      · simp only [isBlank, Bool.or_eq_true, decide_eq_true_eq] at hblank
        rcases hblank with ((rfl | rfl) | rfl) | rfl <;> exact absurd hnumeral (by decide)
      · rintro rfl
        exact absurd hnumeral (by decide)
  | _ => decide

/-! ## Pieces -/

/-- Nothing stands between two pieces of a compact form where blanks may stand. -/
theorem cons_inj_of_blanks {blanks text more : List Char} {c first : Char} (hblanks : Blanks blanks)
    (hc : isBlank c = false) (hfirst : isBlank first = false)
    (hsame : c :: text = blanks ++ first :: more) : c = first ∧ text = more :=
  blanks_append_cons_inj blanks_nil hblanks hc hfirst hsame

/-- A compact form begins where the spelling of a document begins. -/
theorem compactChars_eq_of_blanks {blanks more after rest : List Char} {d e : Document}
    (hblanks : Blanks blanks) (hspelled : Spells more e after)
    (hsame : d.compactChars ++ rest = blanks ++ more) : d.compactChars ++ rest = more := by
  obtain ⟨c, others, hcompact, hstarts⟩ := d.exists_compactChars_eq_cons
  obtain ⟨first, remaining, rfl, hfirst, -⟩ := hspelled.exists_head
  rw [hcompact, List.cons_append] at hsame ⊢
  obtain ⟨rfl, rfl⟩ := cons_inj_of_blanks hblanks hstarts.not_end.1 hfirst hsame
  rfl

/-- A written key begins where the spelling of a member begins. -/
theorem writeText_eq_of_blanks {blanks more after rest : List Char} {key : String}
    {m : String × Document} (hblanks : Blanks blanks) (hspelled : SpellsMember Spells more m after)
    (hsame : writeText key ++ rest = blanks ++ more) : writeText key ++ rest = more := by
  cases hspelled with
  | member _ _ _ _ =>
      rw [writeText_append] at hsame ⊢
      obtain ⟨-, rfl⟩ := cons_inj_of_blanks hblanks (by decide) (by decide) hsame
      rfl

theorem SpellsText.eq_of_writeText {value other rest after : List Char}
    (htext : SpellsText (value.flatMap escapeChar ++ '"' :: rest) other after) :
    value = other ∧ rest = after := by
  have hwritten := scanText_of_spellsText (spellsText_flatMap_escapeChar value rest) (Nat.le_refl _)
  have hscanned := scanText_of_spellsText htext (Nat.le_refl _)
  obtain ⟨hvalue, hrest⟩ := Prod.mk.inj (Except.ok.inj (hwritten.symm.trans hscanned))
  exact ⟨String.ofList_injective hvalue, hrest⟩

/-- The document is the only one whose compact form can spell it. -/
def Unambiguous (e : Document) : Prop :=
  ∀ (d : Document) (rest after : List Char), Spells (d.compactChars ++ rest) e after →
    d = e ∧ rest = after

/-! ## Lists and objects -/

/-- The items behind an earlier one. -/
theorem SpellsItems.eq_of_compactItems {items others : List Document} {rest after : List Char}
    (hothers : ∀ e ∈ others, Unambiguous e)
    (hspelled : SpellsItems Spells false (compactItems items ++ rest) others after) :
    items = others ∧ rest = after := by
  induction items generalizing others with
  | nil =>
      generalize htext : compactItems [] ++ rest = text at hspelled
      cases hspelled with
      | stop hblanks =>
          exact ⟨rfl, (cons_inj_of_blanks hblanks (by decide) (by decide) htext).2⟩
      | item hlead hvalue htail =>
          cases hlead with
          | next hbefore _ =>
              have hcomma := (cons_inj_of_blanks hbefore (by decide) (by decide) htext).1
              exact absurd hcomma (by decide)
  | cons d items ih =>
      generalize htext : compactItems (d :: items) ++ rest = text at hspelled
      rw [compactItems, List.cons_append, List.append_assoc] at htext
      cases hspelled with
      | stop hblanks =>
          have hbracket := (cons_inj_of_blanks hblanks (by decide) (by decide) htext).1
          exact absurd hbracket (by decide)
      | item hlead hvalue htail =>
          cases hlead with
          | next hbefore hblanks =>
              obtain ⟨-, hbehind⟩ := cons_inj_of_blanks hbefore (by decide) (by decide) htext
              rw [List.forall_mem_cons] at hothers
              rw [← compactChars_eq_of_blanks hblanks hvalue hbehind] at hvalue
              obtain ⟨rfl, rfl⟩ := hothers.1 _ _ _ hvalue
              obtain ⟨rfl, rfl⟩ := ih hothers.2 htail
              exact ⟨rfl, rfl⟩

/-- All items of a list. -/
theorem SpellsItems.eq_of_list {items others : List Document} {text rest after : List Char}
    (hothers : ∀ e ∈ others, Unambiguous e) (hspelled : SpellsItems Spells true text others after)
    (hwhole : (Document.list items).compactChars ++ rest = '[' :: text) :
    items = others ∧ rest = after := by
  cases items with
  | nil =>
      obtain ⟨-, htext⟩ := List.cons.inj hwhole
      cases hspelled with
      | stop hblanks =>
          exact ⟨rfl, (cons_inj_of_blanks hblanks (by decide) (by decide) htext).2⟩
      | item hlead hvalue _ =>
          cases hlead with
          | first hblanks =>
              obtain ⟨first, more, rfl, hfirst, hend⟩ := hvalue.exists_head
              have hbracket := (cons_inj_of_blanks hblanks (by decide) hfirst htext).1
              exact absurd hbracket.symm hend
  | cons d items =>
      rw [Document.compactChars, List.cons_append, List.append_assoc] at hwhole
      obtain ⟨-, htext⟩ := List.cons.inj hwhole
      cases hspelled with
      | stop hblanks =>
          obtain ⟨c, more, hcompact, hstarts⟩ := d.exists_compactChars_eq_cons
          rw [hcompact, List.cons_append] at htext
          have hbracket := (cons_inj_of_blanks hblanks hstarts.not_end.1 (by decide) htext).1
          exact absurd hbracket hstarts.not_end.2
      | item hlead hvalue htail =>
          cases hlead with
          | first hblanks =>
              rw [List.forall_mem_cons] at hothers
              rw [← compactChars_eq_of_blanks hblanks hvalue htext] at hvalue
              obtain ⟨rfl, rfl⟩ := hothers.1 _ _ _ hvalue
              obtain ⟨rfl, rfl⟩ := SpellsItems.eq_of_compactItems hothers.2 htail
              exact ⟨rfl, rfl⟩

theorem SpellsMember.eq_of_compact {key : String} {d : Document} {m : String × Document}
    {rest after : List Char} (hvalue : Unambiguous m.2)
    (hspelled : SpellsMember Spells (writeText key ++ ':' :: (d.compactChars ++ rest)) m after) :
    (key, d) = m ∧ rest = after := by
  rw [writeText_append] at hspelled
  generalize hwhole : '"' :: (key.toList.flatMap escapeChar ++ '"' :: ':' ::
    (d.compactChars ++ rest)) = whole at hspelled
  cases hspelled with
  | member hkey hbefore hblanks hdocument =>
      obtain ⟨-, rfl⟩ := List.cons.inj hwhole
      obtain ⟨rfl, hcolon⟩ := hkey.eq_of_writeText
      obtain ⟨-, hbehind⟩ := cons_inj_of_blanks hbefore (by decide) (by decide) hcolon
      rw [← compactChars_eq_of_blanks hblanks hdocument hbehind] at hdocument
      obtain ⟨rfl, rfl⟩ := hvalue _ _ _ hdocument
      rw [String.ofList_toList]
      exact ⟨rfl, rfl⟩

/-- The members behind an earlier one. -/
theorem SpellsMembers.eq_of_compactMembers {members others : List (String × Document)}
    {rest after : List Char} (hothers : ∀ m ∈ others, Unambiguous m.2)
    (hspelled : SpellsMembers Spells false (compactMembers members ++ rest) others after) :
    members = others ∧ rest = after := by
  induction members generalizing others with
  | nil =>
      generalize htext : compactMembers [] ++ rest = text at hspelled
      cases hspelled with
      | stop hblanks =>
          exact ⟨rfl, (cons_inj_of_blanks hblanks (by decide) (by decide) htext).2⟩
      | member hlead _ _ =>
          cases hlead with
          | next hbefore _ =>
              have hcomma := (cons_inj_of_blanks hbefore (by decide) (by decide) htext).1
              exact absurd hcomma (by decide)
  | cons m members ih =>
      obtain ⟨key, d⟩ := m
      generalize htext : compactMembers ((key, d) :: members) ++ rest = text at hspelled
      rw [compactMembers, List.cons_append, List.append_assoc, List.cons_append,
        List.append_assoc] at htext
      cases hspelled with
      | stop hblanks =>
          have hbracket := (cons_inj_of_blanks hblanks (by decide) (by decide) htext).1
          exact absurd hbracket (by decide)
      | member hlead hmember htail =>
          cases hlead with
          | next hbefore hblanks =>
              obtain ⟨-, hbehind⟩ := cons_inj_of_blanks hbefore (by decide) (by decide) htext
              rw [List.forall_mem_cons] at hothers
              rw [← writeText_eq_of_blanks hblanks hmember hbehind] at hmember
              obtain ⟨rfl, rfl⟩ := hmember.eq_of_compact hothers.1
              obtain ⟨rfl, rfl⟩ := ih hothers.2 htail
              exact ⟨rfl, rfl⟩

/-- All members of an object. -/
theorem SpellsMembers.eq_of_object {members others : List (String × Document)}
    {text rest after : List Char} (hothers : ∀ m ∈ others, Unambiguous m.2)
    (hspelled : SpellsMembers Spells true text others after)
    (hwhole : (Document.object members).compactChars ++ rest = '\x7b' :: text) :
    members = others ∧ rest = after := by
  cases members with
  | nil =>
      obtain ⟨-, htext⟩ := List.cons.inj hwhole
      cases hspelled with
      | stop hblanks =>
          exact ⟨rfl, (cons_inj_of_blanks hblanks (by decide) (by decide) htext).2⟩
      | member hlead hmember _ =>
          cases hlead with
          | first hblanks =>
              cases hmember with
              | member _ _ _ _ =>
                  have hquote := (cons_inj_of_blanks hblanks (by decide) (by decide) htext).1
                  exact absurd hquote (by decide)
  | cons m members =>
      obtain ⟨key, d⟩ := m
      rw [Document.compactChars, List.cons_append, List.append_assoc, List.cons_append,
        List.append_assoc] at hwhole
      obtain ⟨-, htext⟩ := List.cons.inj hwhole
      cases hspelled with
      | stop hblanks =>
          have hbracket := (cons_inj_of_blanks hblanks (by decide) (by decide) htext).1
          exact absurd hbracket (by decide)
      | member hlead hmember htail =>
          cases hlead with
          | first hblanks =>
              rw [List.forall_mem_cons] at hothers
              rw [← writeText_eq_of_blanks hblanks hmember htext] at hmember
              obtain ⟨rfl, rfl⟩ := hmember.eq_of_compact hothers.1
              obtain ⟨rfl, rfl⟩ := SpellsMembers.eq_of_compactMembers hothers.2 htail
              exact ⟨rfl, rfl⟩

/-! ## Documents -/

/-- **The compact form of a document spells no other document without numbers.** -/
theorem unambiguous_of_numberFree {e : Document} (hfree : e.NumberFree) : Unambiguous e := by
  induction hfree with
  | null =>
      intro d rest after hspelled
      generalize hwhole : d.compactChars ++ rest = whole at hspelled
      cases hspelled with
      | null =>
          cases Document.startsWith_of_compactChars hwhole with
          | null => exact ⟨rfl, by simpa [Document.compactChars] using hwhole⟩
          | number hnumeral => exact absurd hnumeral (by decide)
  | flag value =>
      intro d rest after hspelled
      generalize hwhole : d.compactChars ++ rest = whole at hspelled
      cases hspelled with
      | flagTrue =>
          cases Document.startsWith_of_compactChars hwhole with
          | flagTrue => exact ⟨rfl, by simpa [Document.compactChars] using hwhole⟩
          | number hnumeral => exact absurd hnumeral (by decide)
      | flagFalse =>
          cases Document.startsWith_of_compactChars hwhole with
          | flagFalse => exact ⟨rfl, by simpa [Document.compactChars] using hwhole⟩
          | number hnumeral => exact absurd hnumeral (by decide)
  | text value =>
      intro d rest after hspelled
      generalize hwhole : d.compactChars ++ rest = whole at hspelled
      cases hspelled with
      | text htext =>
          cases Document.startsWith_of_compactChars hwhole with
          | number hnumeral => exact absurd hnumeral (by decide)
          | text =>
              rw [Document.compactChars, writeText_append] at hwhole
              obtain ⟨-, rfl⟩ := List.cons.inj hwhole
              obtain ⟨rfl, rfl⟩ := htext.eq_of_writeText
              rw [String.ofList_toList]
              exact ⟨rfl, rfl⟩
  | list _ ih =>
      intro d rest after hspelled
      generalize hwhole : d.compactChars ++ rest = whole at hspelled
      cases hspelled with
      | list hitems =>
          cases Document.startsWith_of_compactChars hwhole with
          | number hnumeral => exact absurd hnumeral (by decide)
          | list =>
              obtain ⟨rfl, rfl⟩ := hitems.eq_of_list ih hwhole
              exact ⟨rfl, rfl⟩
  | object _ ih =>
      intro d rest after hspelled
      generalize hwhole : d.compactChars ++ rest = whole at hspelled
      cases hspelled with
      | object hmembers =>
          cases Document.startsWith_of_compactChars hwhole with
          | number hnumeral => exact absurd hnumeral (by decide)
          | object =>
              obtain ⟨rfl, rfl⟩ := hmembers.eq_of_object ih hwhole
              exact ⟨rfl, rfl⟩

/-- A text that is a compact form spells no other document without numbers. -/
theorem eq_of_spellsWhole_compact {d e : Document} (hfree : e.NumberFree)
    (hspelled : SpellsWhole d.compact.toList e) : d = e := by
  obtain ⟨before, more, after, hbefore, -, hsource, hspelled⟩ := hspelled
  rw [Document.compact, String.toList_ofList, ← List.append_nil d.compactChars] at hsource
  rw [← compactChars_eq_of_blanks hbefore hspelled hsource] at hspelled
  exact (unambiguous_of_numberFree hfree d [] after hspelled).1

end OpSchema.Json
