import OpSchema.Proofs.Json.Completeness
import OpSchema.Proofs.Json.Refusal

/-!
# Undeclared keys

A key that a record does not declare is reported as soon as the reader comes to
it, whatever follows: the value of the key is not read, and neither is the rest of
the text.  So the texts that are refused for the key are those that lead to it
(`parseChars_unknownField_iff`).

To have a text that leads to a key it is enough to put the key somewhere into a
document that is read (`Inserts`): in every spelling of the new document the
reader passes what stands before the key, as it did without it
(`Inserts.reaches`).

## Strategy

`Refusal.lean` has one direction, from the fault to the way.  For the other, each
loop is shown to pass over the items or members before the place: after them it
goes on as if it began there.  The bound of the loop shrinks on the way but stays
above the length of what is left.
-/

namespace OpSchema.Json

variable {ρ : Type} {grammar : Grammar ρ}

/-! ## Passing over documents -/

/-- The reader takes the document from every text that spells it. -/
def Takes (bound : Nat) (reader : Reader) (d : Document) : Prop :=
  ∀ blanks text rest, Blanks blanks → Spells text d rest → (blanks ++ text).length ≤ bound →
    reader (blanks ++ text) = .ok (d, rest)

theorem takes_of_fits (bound : Nat) {budget : Nat} {shape : Shape ρ} {d : Document}
    (hfits : Fits grammar budget shape d) : Takes bound (read grammar bound budget shape) d := by
  intro blanks text rest hblanks hspelled hbound
  obtain ⟨-, hread⟩ | ⟨hdeep, -⟩ := read_complete bound budget hfits.1 blanks text rest hblanks
    hspelled hbound
  · exact hread
  · exact absurd hfits.2 hdeep

theorem readItems_pass {item : Reader} (hadvances : Advances item) {bound fuel : Nat}
    {isFirst isNext : Bool} {read items : List Document} {text more : List Char}
    (hpasses : PassesItems isFirst text items isNext more)
    (htakes : ∀ d ∈ items, Takes bound item d) (hbound : text.length ≤ bound)
    (hfuel : text.length ≤ fuel) :
    ∃ left, more.length ≤ left ∧
      readItems item fuel isFirst read text =
        readItems item left isNext (items.reverse ++ read) more := by
  induction hpasses generalizing read fuel with
  | done => exact ⟨fuel, hfuel, rfl⟩
  | @item isFirst isNext text inside after rest d items hlead hvalue _ ih =>
      obtain ⟨c, tail, rfl, hblank, hclose⟩ := hvalue.exists_head
      have hlength := hlead.length_le
      obtain ⟨fuel, rfl⟩ : ∃ n, fuel = n + 1 := ⟨fuel - 1, by simp at hlength; omega⟩
      have hread : item (c :: tail) = .ok (d, after) :=
        htakes d List.mem_cons_self [] _ _ blanks_nil hvalue (Nat.le_trans hlength hbound)
      have hshorter := hadvances _ _ _ hread
      obtain ⟨left, hleft, hrest⟩ := @ih fuel (d :: read)
        (fun e he => htakes e (List.mem_cons_of_mem d he)) (by omega) (by omega)
      refine ⟨left, hleft, ?_⟩
      simp only [readItems, nextItem_of_lead hlead hblank hclose, hread, hrest, List.reverse_cons,
        List.append_assoc, List.singleton_append]

theorem readMembers_pass {textBound : Nat}
    {accept : List (String × Document) → String → Except Cause Reader}
    {whole : List (String × Document)}
    (haccept : ∀ first m last, whole = first ++ m :: last →
      ∃ value, accept first.reverse m.1 = .ok value ∧ Advances value ∧ Takes textBound value m.2)
    {fuel : Nat} {isFirst isNext : Bool} {read members : List (String × Document)}
    {text more : List Char} (hpasses : PassesMembers isFirst text members isNext more)
    (hwhole : whole = read.reverse ++ members) (hbound : text.length ≤ textBound)
    (hfuel : text.length ≤ fuel) :
    ∃ left, more.length ≤ left ∧
      readMembers textBound accept fuel isFirst read text =
        readMembers textBound accept left isNext whole.reverse more := by
  induction hpasses generalizing read fuel with
  | done => exact ⟨fuel, hfuel, by simp [hwhole]⟩
  | @member isFirst isNext text inside after rest m members hlead hmember _ ih =>
      cases hmember with
      | @member key text before blanks value after d hkey hbefore hblanks hvalue =>
          have hlength := hlead.length_le
          have hkeyLength := hkey.length_lt
          simp only [List.length_cons, List.length_append] at hlength hkeyLength
          obtain ⟨fuel, rfl⟩ : ∃ n, fuel = n + 1 := ⟨fuel - 1, by omega⟩
          have hnext := nextMember_of_lead hlead hkey (by omega : text.length ≤ textBound)
          obtain ⟨reader, hreader, hadvances, htakes⟩ := haccept _ _ _ hwhole
          rw [List.reverse_reverse] at hreader
          have hread := htakes blanks value after hblanks hvalue (by simp; omega)
          have hshorter := hadvances _ _ _ hread
          rw [List.length_append] at hshorter
          obtain ⟨left, hleft, hrest⟩ := @ih fuel ((String.ofList key, d) :: read)
            (by simpa using hwhole) (by omega) (by omega)
          refine ⟨left, hleft, ?_⟩
          simp only [readMembers, hnext, hreader, readColon_append hbefore (blanks ++ value), hread,
            hrest]

theorem readFieldItems_pass {record : RecordShape ρ} {inner : Shape ρ → Reader}
    (hadvances : ∀ shape, Advances (inner shape)) {bound index : Nat} {first last : List (Field ρ)}
    {isNext : Bool} {read items : List Document} {text more : List Char}
    (hpasses : PassesItems (index == 0) text items isNext more)
    (hlength : items.length = first.length)
    (htakes : ∀ p ∈ items.zip first, Takes bound (inner p.2.shape) p.1)
    (hbound : text.length ≤ bound) :
    isNext = (index + items.length == 0) ∧
      readFieldItems record inner index (first ++ last) read text =
        readFieldItems record inner (index + items.length) last (items.reverse ++ read) more := by
  induction first generalizing index read items text with
  | nil =>
      obtain rfl := List.length_eq_zero_iff.1 hlength
      cases hpasses with
      | done => exact ⟨rfl, rfl⟩
  | cons field first ih =>
      cases hpasses with
      | done => simp at hlength
      | @item _ _ _ inside after _ d items hlead hvalue hitems =>
          obtain ⟨c, tail, rfl, hblank, hclose⟩ := hvalue.exists_head
          rw [List.zip_cons_cons, List.forall_mem_cons] at htakes
          have hshort := hlead.length_le
          have hread : inner field.shape (c :: tail) = .ok (d, after) :=
            htakes.1 [] _ _ blanks_nil hvalue (Nat.le_trans hshort hbound)
          have hshorter := hadvances _ _ _ _ hread
          obtain ⟨hnext, hrest⟩ := @ih (index + 1) (d :: read) items after hitems
            (by simpa using hlength) htakes.2 (by omega)
          have hcount : index + (d :: items).length = index + 1 + items.length := by
            rw [List.length_cons]
            omega
          rw [hcount]
          refine ⟨hnext, ?_⟩
          simp only [List.cons_append, readFieldItems, nextItem_of_lead hlead hblank hclose, hread,
            hrest, List.reverse_cons, List.append_assoc, List.nil_append]

theorem MembersFit.of_append {budget : Nat} {record : ρ} {first last : List (String × Document)}
    (hfit : MembersFit grammar budget record (first ++ last)) :
    MembersFit grammar budget record first where
  keys := (List.nodup_append.1 (List.map_append ▸ hfit.keys)).1
  declared := fun m hm => hfit.declared m (List.mem_append_left last hm)
  values := fun m hm => hfit.values m (List.mem_append_left last hm)

/-- The key of a member is not one of those before it. -/
theorem MembersFit.notMem_first {budget : Nat} {record : ρ} {m : String × Document}
    {first last : List (String × Document)}
    (hfit : MembersFit grammar budget record (first ++ m :: last)) :
    m.1 ∉ first.map Prod.fst := by
  have hkeys := hfit.keys
  rw [List.map_append, List.map_cons, List.nodup_middle, List.nodup_cons] at hkeys
  exact fun hmem => hkeys.1 (List.mem_append_left _ hmem)

/-- The members of a record are accepted one after the other. -/
private theorem accept_of_membersFit {bound budget : Nat} {record : ρ}
    {members : List (String × Document)} (hfit : MembersFit grammar budget record members)
    (first : List (String × Document)) (m : String × Document) (last : List (String × Document))
    (hsplit : members = first ++ m :: last) :
    ∃ value, acceptField (grammar record) (read grammar bound budget) first.reverse m.1 =
        .ok value ∧ Advances value ∧ Takes bound value m.2 := by
  subst hsplit
  obtain ⟨field, hfield⟩ := RecordShape.exists_field (hfit.declared m (by simp))
  have hnew : m.1 ∉ first.reverse.map Prod.fst := by simpa using hfit.notMem_first
  exact ⟨_, acceptField_of_notMem hfield hnew, (read_sound bound budget _).advances,
    takes_of_fits bound (hfit.values m (by simp) field hfield)⟩

/-- What is left when the reader of an object comes to a place among its members. -/
private theorem readMembers_at_place {bound budget : Nat} {record : ρ} {text more : List Char}
    {members : List (String × Document)} {isNext : Bool}
    (hbefore : PassesMembers true text members isNext more)
    (hmembers : MembersFit grammar budget record members) (hbound : text.length ≤ bound) :
    ∃ left, more.length ≤ left ∧
      readMembers bound (acceptField (grammar record) (read grammar bound budget)) bound true []
          text =
        readMembers bound (acceptField (grammar record) (read grammar bound budget)) left isNext
          members.reverse more :=
  readMembers_pass (accept_of_membersFit hmembers) hbefore rfl hbound hbound

/-! ## The report -/

/-- The answer is a report of the key. -/
def Reports (key : String) (answer : Scanned Document) : Prop :=
  ∃ fault fields, answer = .error fault ∧ fault.cause = .unknownField key fields

/-- What a text that leads to the key starts with. -/
theorem Reaches.exists_bracket {budget : Nat} {shape : Shape ρ} {key : String} {text : List Char}
    (hreaches : Reaches grammar (OpensUndeclared grammar key) budget shape text) :
    ∃ c more, text = c :: more ∧ (c = '\x7b' ∨ c = '[') := by
  induction hreaches with
  | here hstop =>
      cases hstop with
      | object _ _ _ _ _ => exact ⟨_, _, rfl, .inl rfl⟩
  | nullable _ ih => exact ih
  | item _ _ _ _ _ => exact ⟨_, _, rfl, .inr rfl⟩
  | member _ _ _ _ _ _ _ _ _ _ => exact ⟨_, _, rfl, .inl rfl⟩
  | place _ _ _ _ _ _ _ => exact ⟨_, _, rfl, .inr rfl⟩

private theorem Reaches.length_pos {budget : Nat} {shape : Shape ρ} {key : String}
    {text : List Char}
    (hreaches : Reaches grammar (OpensUndeclared grammar key) budget shape text) :
    0 < text.length := by
  obtain ⟨c, more, rfl, -⟩ := hreaches.exists_bracket
  exact Nat.succ_pos _

private theorem Reaches.nextItem_eq {budget : Nat} {shape : Shape ρ} {key : String}
    {isNext : Bool} {text inside : List Char}
    (hreaches : Reaches grammar (OpensUndeclared grammar key) budget shape inside)
    (hlead : Lead isNext text inside) : nextItem isNext text = .ok (.more inside) := by
  obtain ⟨c, more, rfl, rfl | rfl⟩ := hreaches.exists_bracket
  · exact nextItem_of_lead hlead (by decide) (by decide)
  · exact nextItem_of_lead hlead (by decide) (by decide)

section Inside

variable {bound budget : Nat} {key : String}

private theorem readRecordObject_undeclared {record : ρ} {text more spelled after : List Char}
    {members : List (String × Document)} {isNext : Bool}
    (hbefore : PassesMembers true text members isNext more)
    (hmembers : MembersFit grammar budget record members)
    (hlead : Lead isNext more ('"' :: spelled)) (hkey : SpellsText spelled key.toList after)
    (hundeclared : key ∉ (grammar record).names) (hbound : text.length ≤ bound) :
    Reports key (readRecordObject bound (grammar record) (read grammar bound budget) text) := by
  obtain ⟨left, hleft, hloop⟩ := readMembers_at_place hbefore hmembers hbound
  have hlength := hlead.length_le
  have hmore := hbefore.isSuffix.length_le
  rw [List.length_cons] at hlength
  obtain ⟨left, rfl⟩ : ∃ n, left = n + 1 := ⟨left - 1, by omega⟩
  have hnext := nextMember_of_lead hlead hkey (by omega : spelled.length ≤ bound)
  rw [String.ofList_toList] at hnext
  have hnone := RecordShape.field?_eq_none.2 hundeclared
  refine ⟨_, _, ?_, lateFault_cause '\x7d' (.unknownField key (grammar record).names) after⟩
  simp only [readRecordObject, hloop, readMembers, hnext, acceptField, hnone]

private theorem readRecordObject_member {record : ρ}
    {text more spelled between blanks inside : List Char} {members : List (String × Document)}
    {isNext : Bool} {name : String} {field : Field ρ}
    (hbefore : PassesMembers true text members isNext more)
    (hmembers : MembersFit grammar budget record members)
    (hlead : Lead isNext more ('"' :: spelled))
    (hname : SpellsText spelled name.toList (between ++ ':' :: (blanks ++ inside)))
    (hbetween : Blanks between) (hfield : (grammar record).field? name = some field)
    (hnew : name ∉ members.map Prod.fst) (hbound : text.length ≤ bound)
    (hinside : Reports key (read grammar bound budget field.shape (blanks ++ inside))) :
    Reports key (readRecordObject bound (grammar record) (read grammar bound budget) text) := by
  obtain ⟨left, hleft, hloop⟩ := readMembers_at_place hbefore hmembers hbound
  have hlength := hlead.length_le
  have hmore := hbefore.isSuffix.length_le
  rw [List.length_cons] at hlength
  obtain ⟨left, rfl⟩ : ∃ n, left = n + 1 := ⟨left - 1, by omega⟩
  have hnext := nextMember_of_lead hlead hname (by omega : spelled.length ≤ bound)
  rw [String.ofList_toList] at hnext
  have haccept : acceptField (grammar record) (read grammar bound budget) members.reverse name =
      .ok (read grammar bound budget field.shape) :=
    acceptField_of_notMem hfield (by simpa using hnew)
  obtain ⟨fault, fields, hread, hcause⟩ := hinside
  refine ⟨fault, fields, ?_, hcause⟩
  simp only [readRecordObject, hloop, readMembers, hnext, haccept,
    readColon_append hbetween (blanks ++ inside), hread]

private theorem readList_item {item : Shape ρ} {text more inside : List Char}
    {items : List Document} {isNext : Bool} (hbefore : PassesItems true text items isNext more)
    (hitems : ∀ d ∈ items, Fits grammar budget item d) (hlead : Lead isNext more inside)
    (hreaches : Reaches grammar (OpensUndeclared grammar key) budget item inside)
    (hbound : text.length ≤ bound)
    (hinside : Reports key (read grammar bound budget item inside)) :
    Reports key (readList bound (read grammar bound budget item) text) := by
  obtain ⟨left, hleft, hloop⟩ : ∃ left, more.length ≤ left ∧
      readItems (read grammar bound budget item) bound true [] text =
        readItems (read grammar bound budget item) left isNext (items.reverse ++ []) more :=
    readItems_pass (read_sound bound budget item).advances hbefore
      (fun d hd => takes_of_fits bound (hitems d hd)) hbound hbound
  have hlength := hlead.length_le
  have hpositive := hreaches.length_pos
  obtain ⟨left, rfl⟩ : ∃ n, left = n + 1 := ⟨left - 1, by omega⟩
  obtain ⟨fault, fields, hread, hcause⟩ := hinside
  refine ⟨fault, fields, ?_, hcause⟩
  simp only [readList, hloop, readItems, hreaches.nextItem_eq hlead, hread]

private theorem readRecordList_place {record : ρ} {text more inside : List Char}
    {items : List Document} {isNext : Bool} {first last : List (Field ρ)} {field : Field ρ}
    (hbefore : PassesItems true text items isNext more)
    (hfields : (grammar record).fields = first ++ field :: last)
    (hlength : items.length = first.length)
    (hitems : ∀ p ∈ items.zip first, Fits grammar budget p.2.shape p.1)
    (hlead : Lead isNext more inside)
    (hreaches : Reaches grammar (OpensUndeclared grammar key) budget field.shape inside)
    (hbound : text.length ≤ bound)
    (hinside : Reports key (read grammar bound budget field.shape inside)) :
    Reports key (readRecordList (grammar record) (read grammar bound budget) text) := by
  obtain ⟨hnext, hloop⟩ : isNext = (0 + items.length == 0) ∧
      readFieldItems (grammar record) (read grammar bound budget) 0 (first ++ field :: last) []
          text =
        readFieldItems (grammar record) (read grammar bound budget) (0 + items.length)
          (field :: last) (items.reverse ++ []) more :=
    readFieldItems_pass (fun shape => (read_sound bound budget shape).advances) hbefore hlength
      (fun p hp => takes_of_fits bound (hitems p hp)) hbound
  obtain ⟨fault, fields, hread, hcause⟩ := hinside
  refine ⟨fault, fields, ?_, hcause⟩
  simp only [readRecordList, hfields, hloop, readFieldItems, ← hnext, hreaches.nextItem_eq hlead,
    hread]

end Inside

/-- In front of a bracket, one level is read by the shape. -/
private theorem read_succ {bound budget : Nat} {shape : Shape ρ} {c : Char}
    {blanks more : List Char} (hblanks : Blanks blanks) (hblank : isBlank c = false) :
    read grammar bound (budget + 1) shape (blanks ++ c :: more) =
      readStarting grammar bound (some (read grammar bound budget)) c more shape := by
  simp only [read, readWith, skipBlanks_append_cons hblanks hblank]

/-- A bracket is no `null`, so the shape inside is asked. -/
private theorem read_nullable {bound budget : Nat} {shape : Shape ρ} {c : Char}
    {blanks more : List Char} (hblanks : Blanks blanks) (hbracket : c = '\x7b' ∨ c = '[') :
    read grammar bound budget (.nullable shape) (blanks ++ c :: more) =
      read grammar bound budget shape (blanks ++ c :: more) := by
  have hblank : isBlank c = false := by
    rcases hbracket with rfl | rfl <;> decide
  have hletter : c ≠ 'n' := by
    rcases hbracket with rfl | rfl <;> decide
  cases budget with
  | zero => simp only [read, readWith, skipBlanks_append_cons hblanks hblank, readStarting,
      if_neg hletter]
  | succ budget => rw [read_succ hblanks hblank, read_succ hblanks hblank, readStarting,
      if_neg hletter]

/-- **A text that leads to an undeclared key is refused for it.** -/
theorem read_of_reaches {bound budget : Nat} {shape : Shape ρ} {key : String} {text : List Char}
    (hreaches : Reaches grammar (OpensUndeclared grammar key) budget shape text)
    {blanks : List Char} (hblanks : Blanks blanks) (hbound : (blanks ++ text).length ≤ bound) :
    Reports key (read grammar bound budget shape (blanks ++ text)) := by
  have hbrace : isBlank '\x7b' = false := by decide
  have hbracket : isBlank '[' = false := by decide
  have hroom : text.length ≤ bound := by
    rw [List.length_append] at hbound
    omega
  induction hreaches generalizing blanks with
  | here hstop =>
      cases hstop with
      | object hbefore hmembers hlead hkey hundeclared =>
          rw [read_succ hblanks hbrace, readStarting, if_pos rfl]
          exact readRecordObject_undeclared hbefore hmembers hlead hkey hundeclared
            (Nat.le_of_succ_le hroom)
  | nullable hinside ih =>
      obtain ⟨c, more, rfl, hopen⟩ := hinside.exists_bracket
      rw [read_nullable hblanks hopen]
      exact ih hblanks hbound hroom
  | item hbefore hitems hlead hinside ih =>
      have hlength := hlead.length_le
      have hmore := hbefore.isSuffix.length_le
      rw [List.length_cons] at hroom
      rw [read_succ hblanks hbracket, readStarting, if_pos rfl]
      exact readList_item hbefore hitems hlead hinside (by omega)
        (ih blanks_nil (by simp; omega) (by omega))
  | @member budget record text more spelled between inner inside _ _ _ _ hbefore hmembers hlead
      hname hbetween hinner hfield hnew _ ih =>
      have hlength := hlead.length_le
      have hmore := hbefore.isSuffix.length_le
      have hkey := hname.length_lt
      simp only [List.length_cons, List.length_append] at hroom hlength hkey
      rw [read_succ hblanks hbrace, readStarting, if_pos rfl]
      exact readRecordObject_member hbefore hmembers hlead hname hbetween hfield hnew (by omega)
        (ih hinner (by simp; omega) (by omega))
  | place hbefore hfields hlength hitems hlead hinside ih =>
      have hshort := hlead.length_le
      have hmore := hbefore.isSuffix.length_le
      rw [List.length_cons] at hroom
      rw [read_succ hblanks hbracket, readStarting, if_neg (by decide), if_pos rfl]
      exact readRecordList_place hbefore hfields hlength hitems hlead hinside (by omega)
        (ih blanks_nil (by simp; omega) (by omega))

/-- A report of a key is explained by a place where the key is. -/
private theorem StopsFor.exists_undeclared {budget : Nat} {shape : Shape ρ} {text : List Char}
    {key : String} {fields : List String}
    (hstops : StopsFor grammar budget shape text (.unknownField key fields)) :
    ∃ blanks more, Blanks blanks ∧ text = blanks ++ more ∧
      Reaches grammar (OpensUndeclared grammar key) budget shape more := by
  obtain ⟨blanks, more, hblanks, htext, hreaches⟩ := hstops
  refine ⟨blanks, more, hblanks, htext, hreaches.mono ?_⟩
  intro budget shape text hrefuses
  cases hrefuses with
  | malformed hsyntactic => simp [Cause.isSyntactic] at hsyntactic
  | undeclared hopens => exact hopens

/-- The text leads to an undeclared key. -/
def LeadsToUndeclared (grammar : Grammar ρ) (shape : Shape ρ) (source : List Char) (key : String) :
    Prop :=
  ∃ blanks more, Blanks blanks ∧ source = blanks ++ more ∧
    Reaches grammar (OpensUndeclared grammar key) nestingBudget shape more

/-- **The texts that are refused for an undeclared key.** -/
theorem parseChars_unknownField_iff {shape : Shape ρ} {source : List Char} {key : String} :
    (∃ fault fields, parseChars grammar shape source = .error fault ∧
      fault.cause = .unknownField key fields) ↔ LeadsToUndeclared grammar shape source key := by
  constructor
  · rintro ⟨fault, fields, hparse, hcause⟩
    have hstops := parseChars_fault hparse
    rw [hcause] at hstops
    exact hstops.exists_undeclared
  · rintro ⟨blanks, more, hblanks, rfl, hreaches⟩
    obtain ⟨fault, fields, hread, hcause⟩ := read_of_reaches hreaches hblanks (Nat.le_refl _)
    exact ⟨fault, fields, by rw [parseChars, hread], hcause⟩

/-- The key stands in the text, between quotes. -/
theorem LeadsToUndeclared.quotes {shape : Shape ρ} {source : List Char} {key : String}
    (hleads : LeadsToUndeclared grammar shape source key) : Quotes source key.toList := by
  obtain ⟨blanks, more, -, rfl, hreaches⟩ := hleads
  have hparts : ClosedUnderParts grammar fun _ => True := ⟨by simp, by simp, by simp⟩
  obtain ⟨_, _, rest, -, hsuffix, hopens⟩ := hreaches.exists_place hparts trivial
  cases hopens with
  | object hbefore _ hlead hkey _ =>
      have hquote := hlead.isSuffix.trans (hbefore.isSuffix.trans (List.suffix_cons '\x7b' _))
      exact (quotes_cons_quote hkey).of_isSuffix
        (hquote.trans (hsuffix.trans (List.suffix_append blanks more)))

/-! ## Insertions -/

/-- A member is put among the members of an object, somewhere in a document of the
shape.  The object is one that is read as the record. -/
inductive Inserts (grammar : Grammar ρ) (record : ρ) (new : String × Document) :
    Shape ρ → Document → Document → Prop
  | here (first last : List (String × Document)) :
      Inserts grammar record new (.record record) (.object (first ++ last))
        (.object (first ++ new :: last))
  /-- Into the value of a field. -/
  | value {outer : ρ} {name : String} {field : Field ρ} {d e : Document}
      (first last : List (String × Document)) (hfield : (grammar outer).field? name = some field)
      (hinside : Inserts grammar record new field.shape d e) :
      Inserts grammar record new (.record outer) (.object (first ++ (name, d) :: last))
        (.object (first ++ (name, e) :: last))
  /-- Into an item of a list. -/
  | item {shape : Shape ρ} {d e : Document} (first last : List Document)
      (hinside : Inserts grammar record new shape d e) :
      Inserts grammar record new (.list shape) (.list (first ++ d :: last))
        (.list (first ++ e :: last))
  /-- Into a value that could have been `null`. -/
  | present {shape : Shape ρ} {d e : Document} (hinside : Inserts grammar record new shape d e) :
      Inserts grammar record new (.nullable shape) d e

theorem SpellsItems.exists_passes {isFirst : Bool} {text rest : List Char}
    {first last : List Document} (hspelled : SpellsItems Spells isFirst text (first ++ last) rest) :
    ∃ isNext more, PassesItems isFirst text first isNext more ∧
      SpellsItems Spells isNext more last rest := by
  induction first generalizing isFirst text with
  | nil => exact ⟨isFirst, text, .done, hspelled⟩
  | cons d first ih =>
      cases hspelled with
      | item hlead hvalue hitems =>
          obtain ⟨isNext, more, hpasses, hlast⟩ := ih hitems
          exact ⟨isNext, more, .item hlead hvalue hpasses, hlast⟩

theorem SpellsMembers.exists_passes {isFirst : Bool} {text rest : List Char}
    {first last : List (String × Document)}
    (hspelled : SpellsMembers Spells isFirst text (first ++ last) rest) :
    ∃ isNext more, PassesMembers isFirst text first isNext more ∧
      SpellsMembers Spells isNext more last rest := by
  induction first generalizing isFirst text with
  | nil => exact ⟨isFirst, text, .done, hspelled⟩
  | cons m first ih =>
      cases hspelled with
      | member hlead hmember hmembers =>
          obtain ⟨isNext, more, hpasses, hlast⟩ := ih hmembers
          exact ⟨isNext, more, .member hlead hmember hpasses, hlast⟩

private theorem Fits.exists_membersFit {limit : Nat} {record : ρ}
    {members : List (String × Document)}
    (hfits : Fits grammar limit (.record record) (.object members)) :
    ∃ budget, limit = budget + 1 ∧ MembersFit grammar budget record members := by
  obtain ⟨hmatch, hnesting⟩ := hfits
  obtain ⟨budget, rfl⟩ : ∃ n, limit = n + 1 :=
    Nat.exists_eq_succ_of_ne_zero (Nat.ne_of_gt (Nat.lt_of_lt_of_le (Nat.succ_pos _) hnesting))
  rw [Document.nesting_object_le] at hnesting
  cases hmatch with
  | fields hkeys hdeclared hvalues _ =>
      exact ⟨budget, rfl, hkeys, hdeclared,
        fun m hm field hfield => ⟨hvalues m hm field hfield, hnesting m hm⟩⟩

private theorem Fits.exists_itemsFit {limit : Nat} {item : Shape ρ} {items : List Document}
    (hfits : Fits grammar limit (.list item) (.list items)) :
    ∃ budget, limit = budget + 1 ∧ ∀ d ∈ items, Fits grammar budget item d := by
  obtain ⟨hmatch, hnesting⟩ := hfits
  obtain ⟨budget, rfl⟩ : ∃ n, limit = n + 1 :=
    Nat.exists_eq_succ_of_ne_zero (Nat.ne_of_gt (Nat.lt_of_lt_of_le (Nat.succ_pos _) hnesting))
  rw [Document.nesting_list_le] at hnesting
  cases hmatch with
  | list hitems => exact ⟨budget, rfl, fun d hd => ⟨hitems d hd, hnesting d hd⟩⟩

/-- A member is a key, a colon and a value. -/
private theorem SpellsMember.exists_key {spelling : Spelling} {text rest : List Char} {key : String}
    {d : Document} (hmember : SpellsMember spelling text (key, d) rest) :
    ∃ spelled between blanks more, text = '"' :: spelled ∧
      SpellsText spelled key.toList (between ++ ':' :: (blanks ++ more)) ∧ Blanks between ∧
      Blanks blanks ∧ spelling more d rest := by
  cases hmember with
  | @member _ spelled between blanks more _ _ hkey hbetween hblanks hvalue =>
      refine ⟨spelled, between, blanks, more, rfl, ?_, hbetween, hblanks, hvalue⟩
      rwa [String.toList_ofList]

/-- There is no object in `null`. -/
private theorem Inserts.ne_null {record : ρ} {new : String × Document} {shape : Shape ρ}
    {d e : Document} (hinserts : Inserts grammar record new shape d e) : d ≠ .null := by
  induction hinserts with
  | present _ ih => exact ih
  | here _ _ => exact nofun
  | value _ _ _ _ _ => exact nofun
  | item _ _ _ _ => exact nofun

/-- **Every spelling of a document with an undeclared key in it leads to the key**, if
the document without it is one that is read. -/
theorem Inserts.reaches {record : ρ} {key : String} {value : Document} {shape : Shape ρ}
    {d e : Document} (hinserts : Inserts grammar record (key, value) shape d e)
    (hundeclared : key ∉ (grammar record).names) {budget : Nat}
    (hfits : Fits grammar budget shape d) {text rest : List Char} (hspelled : Spells text e rest) :
    Reaches grammar (OpensUndeclared grammar key) budget shape text := by
  induction hinserts generalizing budget text rest with
  | here first last =>
      obtain ⟨budget, rfl, hmembers⟩ := hfits.exists_membersFit
      cases hspelled with
      | object hspelled =>
          obtain ⟨isNext, more, hpasses, hrest⟩ := hspelled.exists_passes
          cases hrest with
          | member hlead hmember _ =>
              obtain ⟨spelled, between, blanks, after, rfl, hkey, -, -, -⟩ := hmember.exists_key
              exact .here (.object hpasses hmembers.of_append hlead hkey hundeclared)
  | value first last hfield hinside ih =>
      obtain ⟨budget, rfl, hmembers⟩ := hfits.exists_membersFit
      cases hspelled with
      | object hspelled =>
          obtain ⟨isNext, more, hpasses, hrest⟩ := hspelled.exists_passes
          cases hrest with
          | member hlead hmember _ =>
              obtain ⟨spelled, between, blanks, after, rfl, hname, hbetween, hblanks, hvalue⟩ :=
                hmember.exists_key
              have hinner :=
                hmembers.values _ (List.mem_append_right first List.mem_cons_self) _ hfield
              exact .member hpasses hmembers.of_append hlead hname hbetween hblanks hfield
                hmembers.notMem_first (ih hinner hvalue)
  | item first last hinside ih =>
      obtain ⟨budget, rfl, hitems⟩ := hfits.exists_itemsFit
      cases hspelled with
      | list hspelled =>
          obtain ⟨isNext, more, hpasses, hrest⟩ := hspelled.exists_passes
          cases hrest with
          | item hlead hvalue _ =>
              have hinner := hitems _ (List.mem_append_right first List.mem_cons_self)
              exact .item hpasses (fun d hd => hitems d (List.mem_append_left _ hd)) hlead
                (ih hinner hvalue)
  | present hinside ih =>
      obtain ⟨hmatch, hnesting⟩ := hfits
      cases hmatch with
      | null => exact absurd rfl hinside.ne_null
      | some hmatch => exact .nullable (ih ⟨hmatch, hnesting⟩ hspelled)

end OpSchema.Json
