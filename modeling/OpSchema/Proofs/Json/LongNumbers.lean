import Mathlib.Data.List.Forall2
import OpSchema.Proofs.Json.Completeness
import OpSchema.Proofs.Json.Numerals

/-!
# Objects with numbers of any length

The grammar leaves numbers to the scanner, and the scanner takes a natural number of more
than 64 bits for a double or refuses it.  To say what becomes of such a text, it has to be
described without the scanner: as an object in which a member may be any natural number,
written out (`SpellsLong`).

If a text of this kind is read at all, its members are read one by one, with the keys that
they have, and only the long numbers have become doubles (`SpellsObject.takenAs`).  If no
number is too long, the text spells the object as it is (`SpellsObject.spellsWhole`).

## Strategy

The grammar is unambiguous, since a reader with enough brackets takes every document that
is spelled (`Spells.unique`).  So the two spellings of a text, with and without the
scanner, run in parallel: the steps between two members are decided by the text alone, and
a value ends where its digits or its document end.
-/

namespace OpSchema.Json

/-! ## A text spells one document -/

/-- **What stands at the front of a text is one document, and it ends at one place.** -/
theorem Spells.unique {text rest after : List Char} {d e : Document}
    (hfirst : Spells text d rest) (hsecond : Spells text e after) : d = e ∧ rest = after := by
  -- A reader of any document, with brackets enough for both.
  have hread : ∀ {f : Document} {others : List Char}, Spells text f others →
      f.nesting ≤ max d.nesting e.nesting →
      read noRecords text.length (max d.nesting e.nesting) .anything text = .ok (f, others) := by
    intro f others hspelled hnesting
    have hmatch : Matches noRecords .anything f := .anything f
    obtain ⟨-, hread⟩ | ⟨hdeep, -⟩ :=
      read_complete text.length _ hmatch [] text others blanks_nil hspelled (Nat.le_refl _)
    · exact hread
    · exact absurd hnesting hdeep
  have hsame := (hread hfirst (Nat.le_max_left _ _)).symm.trans
    (hread hsecond (Nat.le_max_right _ _))
  exact Prod.mk.inj (Except.ok.inj hsame)

/-- A text that starts with a digit spells a number. -/
theorem Spells.of_isDigit {c : Char} {more after : List Char} {d : Document}
    (hspelled : Spells (c :: more) d after) (hdigit : isDigit c = true) :
    ∃ number, d = .number number ∧ scanNumber (c :: more) = .ok (number, after) := by
  cases hspelled with
  | @number _ _ _ number _ hscan => exact ⟨number, rfl, hscan⟩
  | null => exact absurd hdigit (by decide)
  | flagTrue => exact absurd hdigit (by decide)
  | flagFalse => exact absurd hdigit (by decide)
  | text _ => exact absurd hdigit (by decide)
  | list _ => exact absurd hdigit (by decide)
  | object _ => exact absurd hdigit (by decide)

/-! ## Values -/

/-- A natural number by its digits, however many, and every other document as the grammar
has it. -/
inductive SpellsLong : Spelling
  | digits (n : Nat) (rest : List Char) :
      SpellsLong (Nat.toDigits 10 n ++ rest) (.natural n) rest
  | document {text rest : List Char} {d : Document} (hother : ∀ n, d ≠ .natural n)
      (hspelled : Spells text d rest) : SpellsLong text d rest

/-- What a written document is taken for: a natural number that is too long for a double,
and every other one for itself. -/
inductive Document.TakenAs : Document → Document → Prop
  | double {n : Nat} (hlong : 2 ^ 64 ≤ n) (magnitude : Decimal.Magnitude) :
      TakenAs (.natural n) (.number (.real false magnitude))
  | same {d : Document} (hshort : ∀ n, d = .natural n → n < 2 ^ 64) : TakenAs d d

/-- A value starts with a character that is no blank. -/
theorem SpellsLong.exists_head {text rest : List Char} {d : Document}
    (hlong : SpellsLong text d rest) : ∃ c more, text = c :: more ∧ isBlank c = false := by
  cases hlong with
  | digits n rest =>
      obtain ⟨c, more, hdigits, hfirst, -⟩ := exists_toDigits_eq_cons n
      refine ⟨c, more ++ rest, ?_, isBlank_eq_false_of_isDigit hfirst⟩
      rw [hdigits, List.cons_append]
  | document _ hspelled =>
      obtain ⟨c, more, htext, hblank, -⟩ := hspelled.exists_head
      exact ⟨c, more, htext, hblank⟩

/-- A value of short numbers is spelled as the grammar has it. -/
theorem SpellsLong.spells {text rest : List Char} {d : Document} (hlong : SpellsLong text d rest)
    (hshort : ∀ n, d = .natural n → n < 2 ^ 64) (hrest : EndsNumber rest) :
    Spells text d rest := by
  cases hlong with
  | digits n rest => exact spells_toDigits (hshort n rfl) hrest
  | document _ hspelled => exact hspelled

/-- A value that can be read is taken for a double if it is too long, and otherwise for
itself. -/
theorem SpellsLong.takenAs {text rest after : List Char} {d e : Document}
    (hlong : SpellsLong text d rest) (hrest : EndsNumber rest) (hspelled : Spells text e after) :
    d.TakenAs e ∧ rest = after := by
  by_cases hshort : ∀ n, d = .natural n → n < 2 ^ 64
  · obtain ⟨rfl, hsame⟩ := (hlong.spells hshort hrest).unique hspelled
    exact ⟨.same hshort, hsame⟩
  · cases hlong with
    | document hother _ => exact absurd (fun n hn => absurd hn (hother n)) hshort
    | digits n rest =>
        have hlarge : 2 ^ 64 ≤ n := by
          apply Nat.not_lt.1
          intro hless
          refine hshort fun m hm => ?_
          obtain rfl : n = m := by simpa [Document.natural] using hm
          exact hless
        obtain ⟨c, more, hdigits, hfirst, -⟩ := exists_toDigits_eq_cons n
        rw [hdigits, List.cons_append] at hspelled
        obtain ⟨number, rfl, hscan⟩ := hspelled.of_isDigit hfirst
        rw [← List.cons_append, ← hdigits] at hscan
        obtain ⟨rfl, magnitude, rfl⟩ := scanNumber_toDigits_of_le hlarge hrest hscan
        exact ⟨.double hlarge magnitude, rfl⟩

/-! ## Members -/

/-- What follows a member ends a number. -/
theorem SpellsMembers.endsNumber {value : Spelling} {text rest : List Char}
    {members : List (String × Document)} (hmembers : SpellsMembers value false text members rest) :
    EndsNumber text := by
  cases hmembers with
  | stop hblanks => exact hblanks.endsNumber_append (endsNumber_cons (by decide) _)
  | member hlead _ _ =>
      cases hlead with
      | next hbefore _ => exact hbefore.endsNumber_append (endsNumber_cons (by decide) _)

/-- Members with short numbers are spelled as the grammar has it. -/
theorem SpellsMembers.spells {isFirst : Bool} {text rest : List Char}
    {members : List (String × Document)}
    (hlong : SpellsMembers SpellsLong isFirst text members rest)
    (hshort : ∀ m ∈ members, ∀ n, m.2 = .natural n → n < 2 ^ 64) :
    SpellsMembers Spells isFirst text members rest := by
  induction hlong with
  | stop hblanks => exact .stop hblanks
  | member hlead hmember hmembers ih =>
      rw [List.forall_mem_cons] at hshort
      cases hmember with
      | member hkey hbefore hblanks hvalue =>
          have hspelled := hvalue.spells hshort.1 hmembers.endsNumber
          exact .member hlead (.member hkey hbefore hblanks hspelled) (ih hshort.2)

/-- The step to a member, whatever its value may be. -/
theorem SpellsMember.exists_nextMember {value : Spelling} {isFirst : Bool}
    {text more after : List Char} {m : String × Document} (hlead : Lead isFirst text more)
    (hmember : SpellsMember value more m after) :
    ∃ before blanks found, Blanks before ∧ Blanks blanks ∧ value found m.2 after ∧
      nextMember text.length isFirst text =
        .ok (.key m.1 (before ++ ':' :: (blanks ++ found))) := by
  cases hmember with
  | @member key more before blanks found after d hkey hbefore hblanks hvalue =>
      have hlength : more.length ≤ text.length := by
        have hle := hlead.length_le
        rw [List.length_cons] at hle
        omega
      exact ⟨before, blanks, found, hbefore, hblanks, hvalue, nextMember_of_lead hlead hkey hlength⟩

/-- The member is taken for the other one: the keys are the same. -/
def TakenAsMember (m other : String × Document) : Prop := m.1 = other.1 ∧ m.2.TakenAs other.2

theorem keys_eq_of_takenAs {members others : List (String × Document)}
    (htaken : List.Forall₂ TakenAsMember members others) :
    members.map Prod.fst = others.map Prod.fst := by
  induction htaken with
  | nil => rfl
  | cons hfirst _ ih => rw [List.map_cons, List.map_cons, hfirst.1, ih]

theorem exists_takenAs_of_mem {members others : List (String × Document)}
    (htaken : List.Forall₂ TakenAsMember members others) {m : String × Document}
    (hm : m ∈ members) : ∃ d, (m.1, d) ∈ others ∧ m.2.TakenAs d := by
  induction htaken with
  | nil => exact absurd hm List.not_mem_nil
  | @cons first other _ _ hfirst _ ih =>
      rcases List.mem_cons.1 hm with rfl | hm
      · exact ⟨other.2, hfirst.1 ▸ List.mem_cons_self, hfirst.2⟩
      · obtain ⟨d, hd, hdocument⟩ := ih hm
        exact ⟨d, List.mem_cons_of_mem _ hd, hdocument⟩

/-- Two spellings of a member at the front of a text, with and without the scanner. -/
theorem SpellsMember.takenAs {isFirst : Bool} {text more remaining rest after : List Char}
    {m other : String × Document} (hlead : Lead isFirst text more)
    (hlong : SpellsMember SpellsLong more m rest) (hrest : EndsNumber rest)
    (hleadOther : Lead isFirst text remaining)
    (hspelled : SpellsMember Spells remaining other after) :
    TakenAsMember m other ∧ rest = after := by
  obtain ⟨before, blanks, found, hbefore, hblanks, hvalue, hnext⟩ := hlong.exists_nextMember hlead
  obtain ⟨beforeOther, blanksOther, foundOther, hbeforeOther, hblanksOther, hvalueOther,
    hnextOther⟩ := hspelled.exists_nextMember hleadOther
  obtain ⟨hkey, hcolon⟩ : m.1 = other.1 ∧ before ++ ':' :: (blanks ++ found) =
      beforeOther ++ ':' :: (blanksOther ++ foundOther) := by
    simpa using hnext.symm.trans hnextOther
  obtain ⟨-, hbehind⟩ :=
    blanks_append_cons_inj hbefore hbeforeOther (by decide) (by decide) hcolon
  obtain ⟨c, tail, rfl, hc⟩ := hvalue.exists_head
  obtain ⟨d, tailOther, rfl, hd, -⟩ := hvalueOther.exists_head
  obtain ⟨rfl, rfl⟩ := blanks_append_cons_inj hblanks hblanksOther hc hd hbehind
  obtain ⟨htaken, hsame⟩ := hvalue.takenAs hrest hvalueOther
  exact ⟨⟨hkey, htaken⟩, hsame⟩

/-- **The members are taken one by one.** -/
theorem SpellsMembers.takenAs {isFirst : Bool} {text rest after : List Char}
    {members others : List (String × Document)}
    (hlong : SpellsMembers SpellsLong isFirst text members rest)
    (hspelled : SpellsMembers Spells isFirst text others after) :
    List.Forall₂ TakenAsMember members others ∧ rest = after := by
  -- The text alone decides whether another member follows.
  induction hlong generalizing others with
  | @stop isFirst blanks rest hblanks =>
      generalize htext : blanks ++ '\x7d' :: rest = text at hspelled
      have hend : nextMember text.length isFirst text = .ok (.stop rest) :=
        nextMember_eq_stop.2 ⟨blanks, hblanks, htext.symm⟩
      cases hspelled with
      | @stop _ blanksOther _ hothers =>
          have hsame := hend.symm.trans (nextMember_eq_stop.2 ⟨blanksOther, hothers, rfl⟩)
          exact ⟨.nil, by simpa using hsame⟩
      | member hlead hmember _ =>
          obtain ⟨_, _, _, -, -, -, hnext⟩ := hmember.exists_nextMember hlead
          exact absurd (hend.symm.trans hnext) (by simp)
  | @member isFirst text more following rest m members hlead hmember hmembers ih =>
      obtain ⟨_, _, _, -, -, -, hnext⟩ := hmember.exists_nextMember hlead
      cases hspelled with
      | @stop _ blanks _ hblanks =>
          have hsame := hnext.symm.trans (nextMember_eq_stop.2 ⟨blanks, hblanks, rfl⟩)
          exact absurd hsame (by simp)
      | member hleadOther hmemberOther hmembersOther =>
          obtain ⟨htaken, rfl⟩ :=
            hmember.takenAs hlead hmembers.endsNumber hleadOther hmemberOther
          obtain ⟨hothers, hsame⟩ := ih hmembersOther
          exact ⟨.cons htaken hothers, hsame⟩

/-! ## Objects -/

/-- A whole text is an object with blanks around it. -/
def SpellsObject (value : Spelling) (text : List Char) (members : List (String × Document)) :
    Prop :=
  ∃ before more after, Blanks before ∧ Blanks after ∧ text = before ++ '\x7b' :: more ∧
    SpellsMembers value true more members after

/-- **An object whose numbers are not too long is spelled as the grammar has it.** -/
theorem SpellsObject.spellsWhole {text : List Char} {members : List (String × Document)}
    (hlong : SpellsObject SpellsLong text members)
    (hshort : ∀ m ∈ members, ∀ n, m.2 = .natural n → n < 2 ^ 64) :
    SpellsWhole text (.object members) := by
  obtain ⟨before, more, after, hbefore, hafter, htext, hmembers⟩ := hlong
  exact ⟨before, _, after, hbefore, hafter, htext, .object (hmembers.spells hshort)⟩

/-- **If an object is read, then its members are taken one by one.** -/
theorem SpellsObject.takenAs {text : List Char} {members : List (String × Document)}
    {d : Document} (hlong : SpellsObject SpellsLong text members) (hspelled : SpellsWhole text d) :
    ∃ others, d = .object others ∧ List.Forall₂ TakenAsMember members others := by
  obtain ⟨before, more, after, hbefore, -, rfl, hmembers⟩ := hlong
  obtain ⟨beforeOther, moreOther, afterOther, hbeforeOther, -, htext, hspelled⟩ := hspelled
  obtain ⟨c, tail, rfl, hc, -⟩ := hspelled.exists_head
  obtain ⟨rfl, rfl⟩ := blanks_append_cons_inj hbefore hbeforeOther (by decide) hc htext
  cases hspelled with
  | number hstart _ => exact absurd hstart (by decide)
  | @object _ _ others hothers => exact ⟨others, rfl, (hmembers.takenAs hothers).1⟩

end OpSchema.Json
