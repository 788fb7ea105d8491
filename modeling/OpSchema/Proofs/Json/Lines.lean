import Mathlib.Data.List.Forall2
import OpSchema.Proofs.Json.Canonical
import OpSchema.Proofs.Json.Completeness
import OpSchema.Proofs.Json.Numerals
import OpSchema.Proofs.Signature.Diagnostics

/-!
# Documents on lines of their own

A compact document stands on one line, whatever its texts contain: all control
characters are escaped (`Document.controlFree_compactChars`).  So the lines of a text
that puts each document on a line are the documents (`Text.lines_join`), and each line
can be read by itself.

What is read from a line is the document with its numbers as the reader takes them
(`Document.ReadsAs`); keys and texts come back as they were.
-/

namespace OpSchema

/-! ## Lines of a text -/

namespace Text

/-- The lines of a text.  What follows the last new line is a line too, unless it is
empty. -/
def lines (text : String) : List String :=
  let pieces := (text.toList.splitOn '\n').map String.ofList
  if pieces.getLast? = some "" then pieces.dropLast else pieces

theorem splitOn_newLine (pieces : List String) (hpieces : ∀ piece ∈ pieces, '\n' ∉ piece.toList) :
    (String.join (pieces.map (· ++ "\n"))).toList.splitOn '\n' =
      pieces.map String.toList ++ [[]] := by
  induction pieces with
  | nil => rfl
  | cons piece pieces ih =>
      rw [List.forall_mem_cons] at hpieces
      have hfirst : (String.join ((piece :: pieces).map (· ++ "\n"))).toList =
          piece.toList ++ '\n' :: (String.join (pieces.map (· ++ "\n"))).toList := by
        simp [String.join_cons]
      rw [hfirst, List.splitOn_append_cons_self_of_not_mem hpieces.1, ih hpieces.2, List.map_cons,
        List.cons_append]

/-- **Pieces that are written on lines of their own are the lines.** -/
theorem lines_join {pieces : List String} (hpieces : ∀ piece ∈ pieces, '\n' ∉ piece.toList) :
    lines (String.join (pieces.map (· ++ "\n"))) = pieces := by
  have hsplit : ((String.join (pieces.map (· ++ "\n"))).toList.splitOn '\n').map String.ofList =
      pieces ++ [""] := by
    rw [splitOn_newLine pieces hpieces]
    simp [Function.comp_def]
  simp only [lines, hsplit]
  rw [if_pos List.getLast?_concat, List.dropLast_concat]

end Text

namespace Json

/-! ## Control characters -/

/-- None of the characters is a control character below the space. -/
def ControlFree (cs : List Char) : Prop := ∀ c ∈ cs, 0x20 ≤ c.toNat

instance (cs : List Char) : Decidable (ControlFree cs) :=
  List.decidableBAll (fun c : Char => 0x20 ≤ c.toNat) cs

theorem ControlFree.cons {c : Char} {cs : List Char} (hc : 0x20 ≤ c.toNat) (hcs : ControlFree cs) :
    ControlFree (c :: cs) :=
  List.forall_mem_cons.2 ⟨hc, hcs⟩

theorem ControlFree.append {first second : List Char} (hfirst : ControlFree first)
    (hsecond : ControlFree second) : ControlFree (first ++ second) :=
  List.forall_mem_append.2 ⟨hfirst, hsecond⟩

theorem controlFree_escapeChar (c : Char) : ControlFree (escapeChar c) := by
  have hcodes : ∀ n < 0x20, ControlFree (escapeChar (Char.ofNat n)) := by decide
  by_cases hcontrol : c.toNat < 0x20
  · exact Char.ofNat_toNat c ▸ hcodes c.toNat hcontrol
  · unfold escapeChar
    rw [if_neg hcontrol]
    split_ifs
    case neg => exact .cons (Nat.not_lt.1 hcontrol) nofun
    all_goals decide

theorem controlFree_of_isNumeral {cs : List Char} (hnumeral : IsNumeral cs) : ControlFree cs := by
  have hsigns : ControlFree ['-', '+', '.', 'e'] := by decide
  intro c hc
  rcases hnumeral c hc with hdigit | hsign
  · simp only [Char.isDigit, Bool.and_eq_true, decide_eq_true_eq] at hdigit
    have hcode : 48 ≤ c.toNat := UInt32.le_iff_toNat_le.1 hdigit.1
    omega
  · exact hsigns c hsign

theorem controlFree_writeText (s : String) : ControlFree (writeText s) := by
  have htext : ControlFree (s.toList.flatMap escapeChar) := by
    intro x hx
    obtain ⟨c, -, hx⟩ := List.mem_flatMap.1 hx
    exact controlFree_escapeChar c x hx
  exact .cons (by decide) (htext.append (.cons (by decide) nofun))

namespace Document

theorem controlFree_compactItems {items : List Document}
    (hitems : ∀ d ∈ items, ControlFree d.compactChars) : ControlFree (compactItems items) := by
  induction items with
  | nil => exact .cons (by decide) nofun
  | cons d items ih =>
      rw [List.forall_mem_cons] at hitems
      exact .cons (by decide) (hitems.1.append (ih hitems.2))

theorem controlFree_compactMembers {members : List (String × Document)}
    (hmembers : ∀ m ∈ members, ControlFree m.2.compactChars) :
    ControlFree (compactMembers members) := by
  induction members with
  | nil => exact .cons (by decide) nofun
  | cons m members ih =>
      obtain ⟨key, d⟩ := m
      rw [List.forall_mem_cons] at hmembers
      refine .cons (by decide) ((controlFree_writeText key).append (.cons (by decide) ?_))
      exact hmembers.1.append (ih hmembers.2)

/-- **A compact document has no control characters.** -/
theorem controlFree_compactChars (d : Document) : ControlFree d.compactChars := by
  induction d using Document.induction with
  | null => decide
  | flag value => cases value <;> decide
  | number value => exact controlFree_of_isNumeral (isNumeral_write value)
  | text value => exact controlFree_writeText value
  | list items ih =>
      cases items with
      | nil => decide
      | cons d items =>
          rw [List.forall_mem_cons] at ih
          exact .cons (by decide) (ih.1.append (controlFree_compactItems ih.2))
  | object members ih =>
      cases members with
      | nil => decide
      | cons m members =>
          obtain ⟨key, d⟩ := m
          rw [List.forall_mem_cons] at ih
          refine .cons (by decide) ((controlFree_writeText key).append (.cons (by decide) ?_))
          exact ih.1.append (controlFree_compactMembers ih.2)

/-! ## Reading a line -/

/-- The compact form of the first document spells the second, wherever a value may end. -/
def ReadsAs (d e : Document) : Prop :=
  ∀ rest, EndsValue rest → Spells (d.compactChars ++ rest) e rest

theorem NumberFree.readsAs {d : Document} (hfree : d.NumberFree) : d.ReadsAs d :=
  fun rest _ => spells_compactChars hfree rest

theorem exists_readsAs_natural {n : Nat} (hn : n < 2 ^ 128) :
    ∃ number, (natural n).ReadsAs (.number number) :=
  exists_spells_natural hn

theorem endsValue_compactMembers (members : List (String × Document)) (rest : List Char) :
    EndsValue (compactMembers members ++ rest) := by
  cases members with
  | nil => exact fun c hc => Option.some.inj hc ▸ by decide
  | cons m members => exact fun c hc => Option.some.inj hc ▸ by decide

/-- The members have the same keys, and values that read so. -/
abbrev ReadsAsMember (m n : String × Document) : Prop := m.1 = n.1 ∧ m.2.ReadsAs n.2

theorem spellsMembers_of_readsAs {members others : List (String × Document)}
    (hmembers : List.Forall₂ ReadsAsMember members others) (rest : List Char) :
    SpellsMembers Spells false (compactMembers members ++ rest) others rest := by
  induction hmembers with
  | nil => exact .stop blanks_nil
  | @cons m n members others hfirst _ ih =>
      obtain ⟨key, d⟩ := m
      obtain ⟨_, e⟩ := n
      obtain ⟨rfl, hreads⟩ := hfirst
      have hvalue := hreads _ (endsValue_compactMembers members rest)
      rw [compactMembers, List.cons_append, List.append_assoc, List.cons_append,
        List.append_assoc]
      exact .member (lead_comma _) (spellsMember_writeText key hvalue) ih

/-- An object reads as the object of what its members read as. -/
theorem readsAs_object {members others : List (String × Document)}
    (hmembers : List.Forall₂ ReadsAsMember members others) :
    (object members).ReadsAs (object others) := by
  intro rest _
  cases hmembers with
  | nil => exact .object (.stop blanks_nil)
  | @cons m n members others hfirst hothers =>
      obtain ⟨key, d⟩ := m
      obtain ⟨_, e⟩ := n
      obtain ⟨rfl, hreads⟩ := hfirst
      have hvalue := hreads _ (endsValue_compactMembers members rest)
      rw [compactChars, List.cons_append, List.append_assoc, List.cons_append, List.append_assoc]
      exact .object (.member (lead_nothing _) (spellsMember_writeText key hvalue)
        (spellsMembers_of_readsAs hothers rest))

theorem ReadsAs.parseAny {d e : Document} (hreads : d.ReadsAs e)
    (hnesting : e.nesting ≤ nestingBudget) : parseAny d.compact = .ok e := by
  have hspelled := hreads [] nofun
  rw [List.append_nil] at hspelled
  refine parse_eq_ok_iff.2
    ⟨⟨[], _, [], blanks_nil, blanks_nil, ?_, hspelled⟩, .anything e, hnesting⟩
  rw [compact, String.toList_ofList, List.nil_append]

end Document

/-- The text that an object on a line has for a key, if one member alone has the key. -/
def textMember? (line key : String) : Option String :=
  match parseAny line with
  | .error _ => none
  | .ok d =>
    match d.asMembers.filter fun m => m.1 == key with
    | [(_, .text value)] => some value
    | _ => none

end Json

end OpSchema
