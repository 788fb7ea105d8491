import OpSchema.Proofs.Json.Completeness
import OpSchema.Proofs.Json.Numerals

/-!
# Indented documents are read back

The indented layout differs from the compact one in blanks alone: a new line and some
spaces behind a bracket or a comma, and a space behind a colon.  So it spells the document
that was written (`Document.spells_indentedChars`), and a reader gets the document back,
with blanks behind it or without (`Document.parseAny_indented`).

Of the numbers only the short ones are followed: natural numbers of 64 bits, which the
scanner reads as they are.  A number ends at the comma or the new line behind it, so what
comes after a value is carried along in the induction.
-/

namespace OpSchema.Json.Document

/-- All numbers in the document are natural, and of 64 bits. -/
inductive HasShortNumbers : Document → Prop
  | null : HasShortNumbers .null
  | flag (value : Bool) : HasShortNumbers (.flag value)
  | natural {n : Nat} (hshort : n < 2 ^ 64) : HasShortNumbers (.natural n)
  | text (value : String) : HasShortNumbers (.text value)
  | list {items : List Document} (hitems : ∀ d ∈ items, HasShortNumbers d) :
      HasShortNumbers (.list items)
  | object {members : List (String × Document)} (hmembers : ∀ m ∈ members, HasShortNumbers m.2) :
      HasShortNumbers (.object members)

theorem hasShortNumbers_texts (values : List String) : (texts values).HasShortNumbers := by
  refine .list fun d hd => ?_
  obtain ⟨value, -, rfl⟩ := List.mem_map.1 hd
  exact .text value

/-! ## The blanks of the layout -/

theorem blanks_newLine (depth : Nat) : Blanks (newLine depth) := by
  intro c hc
  rcases List.mem_cons.1 hc with rfl | hc
  · decide
  · rw [List.eq_of_mem_replicate hc]
    decide

theorem blanks_space : Blanks [' '] := by
  simp [Blanks, isBlank]

/-- A new line stands in front of the first item. -/
theorem lead_newLine (depth : Nat) (more : List Char) : Lead true (newLine depth ++ more) more :=
  .first (blanks_newLine depth)

/-- A comma and a new line stand in front of the others. -/
theorem lead_comma_newLine (depth : Nat) (more : List Char) :
    Lead false (',' :: (newLine depth ++ more)) more :=
  .next blanks_nil (blanks_newLine depth)

/-! ## What follows a value -/

theorem endsNumber_newLine (depth : Nat) (more : List Char) :
    EndsNumber (newLine depth ++ more) :=
  endsNumber_cons (by decide) _

theorem endsNumber_indentedItems (depth : Nat) (items : List Document) (rest : List Char) :
    EndsNumber (indentedItems depth items ++ rest) := by
  cases items with
  | nil =>
      rw [indentedItems, List.append_assoc]
      exact endsNumber_newLine depth _
  | cons d items => exact endsNumber_cons (by decide) _

theorem endsNumber_indentedMembers (depth : Nat) (members : List (String × Document))
    (rest : List Char) : EndsNumber (indentedMembers depth members ++ rest) := by
  cases members with
  | nil =>
      rw [indentedMembers, List.append_assoc]
      exact endsNumber_newLine depth _
  | cons m members => exact endsNumber_cons (by decide) _

/-! ## What is inside a bracket -/

/-- The indented form spells the document at every depth, wherever a number may end. -/
def SpelledIndented (d : Document) : Prop :=
  ∀ depth rest, EndsNumber rest → Spells (d.indentedChars depth ++ rest) d rest

theorem spellsItems_indentedItems {items : List Document} (hitems : ∀ d ∈ items, d.SpelledIndented)
    (depth : Nat) (rest : List Char) :
    SpellsItems Spells false (indentedItems depth items ++ rest) items rest := by
  induction items with
  | nil =>
      rw [indentedItems, List.append_assoc]
      exact .stop (blanks_newLine depth)
  | cons d items ih =>
      rw [List.forall_mem_cons] at hitems
      have hhead := hitems.1 (depth + 1) _ (endsNumber_indentedItems depth items rest)
      rw [indentedItems, List.cons_append, List.append_assoc, List.append_assoc]
      exact .item (lead_comma_newLine _ _) hhead (ih hitems.2)

theorem spellsMembers_indentedMembers {members : List (String × Document)}
    (hmembers : ∀ m ∈ members, m.2.SpelledIndented) (depth : Nat) (rest : List Char) :
    SpellsMembers Spells false (indentedMembers depth members ++ rest) members rest := by
  induction members with
  | nil =>
      rw [indentedMembers, List.append_assoc]
      exact .stop (blanks_newLine depth)
  | cons m members ih =>
      obtain ⟨key, d⟩ := m
      rw [List.forall_mem_cons] at hmembers
      have hhead := hmembers.1 (depth + 1) _ (endsNumber_indentedMembers depth members rest)
      rw [indentedMembers, List.cons_append, List.append_assoc, List.append_assoc,
        List.cons_append, List.cons_append, List.append_assoc]
      exact .member (lead_comma_newLine _ _) (spellsMember_writeText_blanks key blanks_space hhead)
        (ih hmembers.2)

/-! ## Whole documents -/

/-- **The indented form of a document with short numbers spells it.** -/
theorem spells_indentedChars {d : Document} (hshort : d.HasShortNumbers) : d.SpelledIndented := by
  induction hshort with
  | null => exact fun _ _ _ => .null
  | flag value =>
      cases value with
      | true => exact fun _ _ _ => .flagTrue
      | false => exact fun _ _ _ => .flagFalse
  | @natural n hshort =>
      intro depth rest hrest
      have hdigits : (Document.natural n).indentedChars depth = Nat.toDigits 10 n :=
        Nat.toList_repr
      rw [hdigits]
      exact spells_toDigits hshort hrest
  | text value => exact fun _ rest _ => spells_writeText value rest
  | @list items _ ih =>
      intro depth rest _
      cases items with
      | nil => exact .list (.stop blanks_nil)
      | cons d items =>
          rw [List.forall_mem_cons] at ih
          have hhead := ih.1 (depth + 1) _ (endsNumber_indentedItems depth items rest)
          rw [indentedChars, List.cons_append, List.append_assoc, List.append_assoc]
          exact .list (.item (lead_newLine _ _) hhead (spellsItems_indentedItems ih.2 depth rest))
  | @object members _ ih =>
      intro depth rest _
      cases members with
      | nil => exact .object (.stop blanks_nil)
      | cons m members =>
          obtain ⟨key, d⟩ := m
          rw [List.forall_mem_cons] at ih
          have hhead := ih.1 (depth + 1) _ (endsNumber_indentedMembers depth members rest)
          rw [indentedChars, List.cons_append, List.append_assoc, List.append_assoc,
            List.cons_append, List.cons_append, List.append_assoc]
          exact .object (.member (lead_newLine _ _)
            (spellsMember_writeText_blanks key blanks_space hhead)
            (spellsMembers_indentedMembers ih.2 depth rest))

/-- **An indented document is read back**, with blanks behind it or without. -/
theorem parseAny_indented {d : Document} (hshort : d.HasShortNumbers)
    (hnesting : d.nesting ≤ nestingBudget) {after : String} (hafter : Blanks after.toList) :
    parseAny (d.indented ++ after) = .ok d := by
  have hends : EndsNumber after.toList := by
    have hnothing : EndsNumber [] := nofun
    simpa using hafter.endsNumber_append hnothing
  have hspelled := spells_indentedChars hshort 0 after.toList hends
  refine parse_eq_ok_iff.2 ⟨⟨[], _, _, blanks_nil, hafter, ?_, hspelled⟩, .anything d, hnesting⟩
  rw [indented, String.toList_append, String.toList_ofList, List.nil_append]

end OpSchema.Json.Document
