import OpSchema.Proofs.Json.Soundness

/-!
# The reader takes what the grammar spells

A spelled document of the right shape is taken as soon as the nesting budget
allows for it, and otherwise the nesting limit is what is reported
(`read_complete`): no other fault can come first.  With `read_sound` this says
exactly which texts are read, and as what (`parse_eq_ok_iff`).

## Strategy

As for soundness, the proof is an induction on the nesting budget, with one
lemma for each loop.  The two possible answers are kept together in `Settles`,
so a loop hands on whichever answer its first failing item gives.

The loops run up to a bound.  They never reach it, because every round advances;
that the reader of an item advances is known from soundness.
-/

namespace OpSchema.Json

variable {ρ : Type} {grammar : Grammar ρ}

/-- The answer is the value if it fits, and the nesting limit if it does not. -/
def Settles {α : Type} (fits : Prop) (value : α) (rest : List Char) (answer : Scanned α) : Prop :=
  (fits ∧ answer = .ok (value, rest)) ∨
    (¬fits ∧ ∃ place, answer = .error (.facing .nestingLimit place))

/-- Every document that the reader gives takes some characters. -/
def Advances (reader : Reader) : Prop :=
  ∀ text d rest, reader text = .ok (d, rest) → rest.length < text.length

/-- The reader settles every spelling of the document by its nesting. -/
def Handles (bound budget : Nat) (reader : Reader) (d : Document) : Prop :=
  ∀ blanks text rest, Blanks blanks → Spells text d rest → (blanks ++ text).length ≤ bound →
    Settles (d.nesting ≤ budget) d rest (reader (blanks ++ text))

theorem Delivers.advances {reader : Reader} {good : Document → Prop}
    (hdelivers : Delivers reader good) : Advances reader := by
  intro text d rest hread
  obtain ⟨blanks, more, -, rfl, -, hshorter, -⟩ := hdelivers text d rest hread
  rw [List.length_append]
  omega

/-- A document starts with a character that is neither a blank nor the end of a
list. -/
theorem Spells.exists_head {text rest : List Char} {d : Document} (hspelled : Spells text d rest) :
    ∃ c more, text = c :: more ∧ isBlank c = false ∧ c ≠ ']' := by
  cases hspelled with
  | null => exact ⟨_, _, rfl, by decide, by decide⟩
  | flagTrue => exact ⟨_, _, rfl, by decide, by decide⟩
  | flagFalse => exact ⟨_, _, rfl, by decide, by decide⟩
  | @number c more _ n hstart _ =>
      refine ⟨c, more, rfl, ?_, ?_⟩
      · rcases hstart with rfl | hdigit
        · decide
        · exact isBlank_eq_false_of_isDigit hdigit
      · rintro rfl
        simp [isDigit] at hstart
  | text _ => exact ⟨_, _, rfl, by decide, by decide⟩
  | list _ => exact ⟨_, _, rfl, by decide, by decide⟩
  | object _ => exact ⟨_, _, rfl, by decide, by decide⟩

/-! ## Loops -/

theorem readItems_complete {item : Reader} (hadvances : Advances item) {bound budget : Nat}
    {fuel : Nat} {isFirst : Bool} {read items : List Document} {text rest : List Char}
    (hspelled : SpellsItems Spells isFirst text items rest)
    (hitems : ∀ d ∈ items, Handles bound budget item d) (hbound : text.length ≤ bound)
    (hfuel : text.length ≤ fuel) :
    Settles (∀ d ∈ items, d.nesting ≤ budget) (read.reverse ++ items) rest
      (readItems item fuel isFirst read text) := by
  induction hspelled generalizing read fuel with
  | @stop isFirst blanks rest hblanks =>
      obtain ⟨fuel, rfl⟩ : ∃ n, fuel = n + 1 := ⟨fuel - 1, by simp at hfuel; omega⟩
      refine .inl ⟨by simp, ?_⟩
      simp [readItems, nextItem_eq_stop.2 ⟨blanks, hblanks, rfl⟩]
  | @item isFirst text more after rest d items hlead hvalue _ ih =>
      obtain ⟨c, tail, rfl, hblank, hclose⟩ := hvalue.exists_head
      have hlength := hlead.length_le
      obtain ⟨fuel, rfl⟩ : ∃ n, fuel = n + 1 := ⟨fuel - 1, by simp at hlength; omega⟩
      have hhandles := hitems d List.mem_cons_self [] (c :: tail) after blanks_nil hvalue
        (Nat.le_trans hlength hbound)
      rw [List.nil_append] at hhandles
      obtain ⟨hfits, hread⟩ | ⟨hdeep, place, hread⟩ := hhandles
      · -- The item is taken, and the rest of the list decides.
        have hshorter := hadvances _ _ _ hread
        have hrest := @ih fuel (d :: read)
          (fun e he => hitems e (List.mem_cons_of_mem d he)) (by omega) (by omega)
        simp only [readItems, nextItem_of_lead hlead hblank hclose, hread]
        simpa [Settles, hfits] using hrest
      · refine .inr ⟨fun hall => hdeep (hall d List.mem_cons_self), place, ?_⟩
        simp only [readItems, nextItem_of_lead hlead hblank hclose, hread]

theorem readMembers_complete {textBound budget : Nat}
    {accept : List (String × Document) → String → Except Cause Reader}
    {whole : List (String × Document)}
    (haccept : ∀ first m last, whole = first ++ m :: last →
      ∃ value, accept first.reverse m.1 = .ok value ∧ Advances value ∧
        Handles textBound budget value m.2)
    {fuel : Nat} {isFirst : Bool} {read members : List (String × Document)}
    {text rest : List Char} (hspelled : SpellsMembers Spells isFirst text members rest)
    (hwhole : whole = read.reverse ++ members) (hbound : text.length ≤ textBound)
    (hfuel : text.length ≤ fuel) :
    Settles (∀ m ∈ members, m.2.nesting ≤ budget) whole rest
      (readMembers textBound accept fuel isFirst read text) := by
  induction hspelled generalizing read fuel with
  | @stop isFirst blanks rest hblanks =>
      obtain ⟨fuel, rfl⟩ : ∃ n, fuel = n + 1 := ⟨fuel - 1, by simp at hfuel; omega⟩
      refine .inl ⟨by simp, ?_⟩
      simp [readMembers, nextMember_eq_stop.2 ⟨blanks, hblanks, rfl⟩, hwhole]
  | @member isFirst text more after rest m members hlead hmember _ ih =>
      cases hmember with
      | @member key text before blanks value after d hkey hbefore hblanks hvalue =>
          have hlength := hlead.length_le
          have hkeyLength := hkey.length_lt
          simp only [List.length_cons, List.length_append] at hlength hkeyLength
          obtain ⟨fuel, rfl⟩ : ∃ n, fuel = n + 1 := ⟨fuel - 1, by omega⟩
          have hnext := nextMember_of_lead hlead hkey (by omega : text.length ≤ textBound)
          -- The members read so far and this one are a part of `whole` in every round.
          obtain ⟨reader, hreader, hadvances, hhandles⟩ := haccept _ _ _ hwhole
          rw [List.reverse_reverse] at hreader
          have hcolon := readColon_append hbefore (blanks ++ value)
          obtain ⟨hfits, hread⟩ | ⟨hdeep, place, hread⟩ :=
            hhandles blanks value after hblanks hvalue (by simp; omega)
          · have hshorter := hadvances _ _ _ hread
            have hrest := @ih fuel ((String.ofList key, d) :: read) (by simpa using hwhole)
              (by simp at hshorter; omega) (by simp at hshorter; omega)
            simp only [readMembers, hnext, hreader, hcolon, hread]
            simpa [Settles, hfits] using hrest
          · refine .inr ⟨fun hall => hdeep (hall _ List.mem_cons_self), place, ?_⟩
            simp only [readMembers, hnext, hreader, hcolon, hread]

theorem readFieldItems_complete {record : RecordShape ρ} {inner : Shape ρ → Reader}
    (hadvances : ∀ shape, Advances (inner shape)) {bound budget : Nat} {index : Nat}
    {fields : List (Field ρ)} {read items : List Document} {text rest : List Char}
    (hspelled : SpellsItems Spells (index == 0) text items rest)
    (hlength : items.length ≤ fields.length)
    (hvalues : ∀ p ∈ items.zip fields, Handles bound budget (inner p.2.shape) p.1)
    (hdefaults : ∀ field ∈ fields.drop items.length, field.presence = .defaulted)
    (hbound : text.length ≤ bound) :
    Settles (∀ d ∈ items, d.nesting ≤ budget) (read.reverse ++ items) rest
      (readFieldItems record inner index fields read text) := by
  induction fields generalizing index read items text with
  | nil =>
      obtain rfl : items = [] := by simpa using hlength
      cases hspelled with
      | @stop _ blanks _ hblanks =>
          refine .inl ⟨by simp, ?_⟩
          simp [readFieldItems, closeList_eq_ok.2 ⟨blanks, hblanks, rfl⟩]
  | cons field fields ih =>
      cases hspelled with
      | @stop _ blanks _ hblanks =>
          refine .inl ⟨by simp, ?_⟩
          have hnone : firstWithoutDefault? index (field :: fields) = none :=
            firstWithoutDefault?_eq_none.2 hdefaults
          simp [readFieldItems, nextItem_eq_stop.2 ⟨blanks, hblanks, rfl⟩, hnone]
      | @item _ _ more after _ d items hlead hvalue hitems =>
          obtain ⟨c, tail, rfl, hblank, hclose⟩ := hvalue.exists_head
          rw [List.zip_cons_cons, List.forall_mem_cons] at hvalues
          have hshort := hlead.length_le
          have hhandles := hvalues.1 [] (c :: tail) after blanks_nil hvalue
            (Nat.le_trans hshort hbound)
          rw [List.nil_append] at hhandles
          obtain ⟨hfits, hread⟩ | ⟨hdeep, place, hread⟩ := hhandles
          · have hshorter := hadvances _ _ _ _ hread
            have hrest := @ih (index + 1) (d :: read) items after hitems
              (by simpa using hlength) hvalues.2 (by simpa using hdefaults) (by omega)
            simp only [readFieldItems, nextItem_of_lead hlead hblank hclose, hread]
            simpa [Settles, hfits] using hrest
          · refine .inr ⟨fun hall => hdeep (hall d List.mem_cons_self), place, ?_⟩
            simp only [readFieldItems, nextItem_of_lead hlead hblank hclose, hread]

/-! ## What is inside a bracket -/

private theorem readList_complete {item : Reader} (hadvances : Advances item) {bound budget : Nat}
    {items : List Document} {text rest : List Char}
    (hspelled : SpellsItems Spells true text items rest)
    (hitems : ∀ d ∈ items, Handles bound budget item d) (hbound : text.length ≤ bound) :
    Settles ((Document.list items).nesting ≤ budget + 1) (.list items) rest
      (readList bound item text) := by
  have hloop : Settles _ ([].reverse ++ items) rest (readItems item bound true [] text) :=
    readItems_complete hadvances hspelled hitems hbound hbound
  rw [Settles, Document.nesting_list_le]
  obtain ⟨hfits, hread⟩ | ⟨hdeep, place, hread⟩ := hloop
  · exact .inl ⟨hfits, by simp [readList, hread]⟩
  · exact .inr ⟨hdeep, place, by simp [readList, hread]⟩

private theorem readObject_complete {value : Reader} (hadvances : Advances value)
    {bound budget : Nat} {members : List (String × Document)} {text rest : List Char}
    (hspelled : SpellsMembers Spells true text members rest)
    (hmembers : ∀ m ∈ members, Handles bound budget value m.2) (hbound : text.length ≤ bound) :
    Settles ((Document.object members).nesting ≤ budget + 1) (.object members) rest
      (readObject bound value text) := by
  have haccept : ∀ first m last, members = first ++ m :: last →
      ∃ reader, (.ok value : Except Cause Reader) = .ok reader ∧ Advances reader ∧
        Handles bound budget reader m.2 := by
    rintro first m last rfl
    exact ⟨value, rfl, hadvances, hmembers m (by simp)⟩
  have hloop : Settles _ members rest
      (readMembers bound (fun _ _ => .ok value) bound true [] text) :=
    readMembers_complete haccept hspelled rfl hbound hbound
  rw [Settles, Document.nesting_object_le]
  obtain ⟨hfits, hread⟩ | ⟨hdeep, place, hread⟩ := hloop
  · exact .inl ⟨hfits, by simp [readObject, hread]⟩
  · exact .inr ⟨hdeep, place, by simp [readObject, hread]⟩

theorem acceptField_of_notMem {record : RecordShape ρ} {inner : Shape ρ → Reader}
    {read : List (String × Document)} {name : String} {field : Field ρ}
    (hfield : record.field? name = some field) (hnew : name ∉ read.map Prod.fst) :
    acceptField record inner read name = .ok (inner field.shape) := by
  have hany : (read.any fun member => member.1 == name) = false := by
    apply eq_false_of_ne_true
    intro hany
    obtain ⟨m, hm, hsame⟩ := List.any_eq_true.1 hany
    exact hnew (List.mem_map.2 ⟨m, hm, by simpa using hsame⟩)
  simp [acceptField, hfield, hany]

private theorem readRecordObject_complete {record : RecordShape ρ} {inner : Shape ρ → Reader}
    (hadvances : ∀ shape, Advances (inner shape)) {bound budget : Nat}
    {members : List (String × Document)} {text rest : List Char}
    (hspelled : SpellsMembers Spells true text members rest)
    (hkeys : (members.map Prod.fst).Nodup) (hdeclared : ∀ m ∈ members, m.1 ∈ record.names)
    (hvalues : ∀ m ∈ members, ∀ field, record.field? m.1 = some field →
      Handles bound budget (inner field.shape) m.2)
    (hrequired : ∀ field ∈ record.fields, field.presence = .required →
      field.name ∈ members.map Prod.fst) (hbound : text.length ≤ bound) :
    Settles ((Document.object members).nesting ≤ budget + 1) (.object members) rest
      (readRecordObject bound record inner text) := by
  have haccept : ∀ first m last, members = first ++ m :: last →
      ∃ value, acceptField record inner first.reverse m.1 = .ok value ∧ Advances value ∧
        Handles bound budget value m.2 := by
    rintro first m last rfl
    obtain ⟨field, hfield⟩ := RecordShape.exists_field (hdeclared m (by simp))
    have hnew : m.1 ∉ first.reverse.map Prod.fst := by
      rw [List.map_append, List.map_cons, List.nodup_middle, List.nodup_cons] at hkeys
      intro hmem
      exact hkeys.1 (List.mem_append_left _ (by simpa using hmem))
    exact ⟨_, acceptField_of_notMem hfield hnew, hadvances _, hvalues m (by simp) field hfield⟩
  have hloop : Settles _ members rest
      (readMembers bound (acceptField record inner) bound true [] text) :=
    readMembers_complete haccept hspelled rfl hbound hbound
  rw [Settles, Document.nesting_object_le]
  obtain ⟨hfits, hread⟩ | ⟨hdeep, place, hread⟩ := hloop
  · refine .inl ⟨hfits, ?_⟩
    simp [readRecordObject, hread, missingField?_eq_none.2 hrequired]
  · exact .inr ⟨hdeep, place, by simp [readRecordObject, hread]⟩

private theorem readRecordList_complete {record : RecordShape ρ} {inner : Shape ρ → Reader}
    (hadvances : ∀ shape, Advances (inner shape)) {bound budget : Nat} {items : List Document}
    {text rest : List Char} (hspelled : SpellsItems Spells true text items rest)
    (hlength : items.length ≤ record.fields.length)
    (hvalues : ∀ p ∈ items.zip record.fields, Handles bound budget (inner p.2.shape) p.1)
    (hdefaults : ∀ field ∈ record.fields.drop items.length, field.presence = .defaulted)
    (hbound : text.length ≤ bound) :
    Settles ((Document.list items).nesting ≤ budget + 1) (.list items) rest
      (readRecordList record inner text) := by
  have hloop : Settles _ ([].reverse ++ items) rest
      (readFieldItems record inner 0 record.fields [] text) :=
    readFieldItems_complete hadvances hspelled hlength hvalues hdefaults hbound
  rw [Settles, Document.nesting_list_le]
  obtain ⟨hfits, hread⟩ | ⟨hdeep, place, hread⟩ := hloop
  · exact .inl ⟨hfits, by simp [readRecordList, hread]⟩
  · exact .inr ⟨hdeep, place, by simp [readRecordList, hread]⟩

private theorem readChoiceObject_complete {bound : Nat} {names : List String} {name : String}
    (hname : name ∈ names) {text rest : List Char}
    (hspelled : SpellsMembers Spells true text [(name, .null)] rest)
    (hbound : text.length ≤ bound) :
    readChoiceObject bound names text = .ok (.object [(name, .null)], rest) := by
  cases hspelled with
  | @member _ _ more after _ _ _ hlead hmember hmembers =>
    cases hmember with
    | @member key text before blanks value _ _ hkey hbefore hblanks hvalue =>
      cases hvalue
      cases hmembers with
      | @stop _ last _ hlast =>
        cases hlead with
        | @first front _ hfront =>
          have hroom : text.length ≤ bound := by
            simp only [List.length_append, List.length_cons] at hbound
            omega
          have hquote : isBlank '"' = false := by decide
          have hbrace : isBlank '\x7d' = false := by decide
          simp [readChoiceObject, skipBlanks_append_cons hfront hquote,
            readName_of_spellsText hkey hroom hname,
            readColon_append hbefore, readUnit_append hblanks,
            skipBlanks_append_cons hlast hbrace]

/-! ## One level -/

/-- The reader for the inside of a bracket handles every document of its shape
within a budget that is smaller by one; without a budget there is no reader. -/
inductive HandlesInside (grammar : Grammar ρ) (bound : Nat) :
    Nat → Option (Shape ρ → Reader) → Prop
  | spent : HandlesInside grammar bound 0 none
  | within {budget : Nat} {read : Shape ρ → Reader} (hadvances : ∀ shape, Advances (read shape))
      (hhandles : ∀ shape d, Matches grammar shape d → Handles bound budget (read shape) d) :
      HandlesInside grammar bound (budget + 1) (some read)

section Level

variable {bound limit : Nat} {inner : Option (Shape ρ → Reader)}
  (hinside : HandlesInside grammar bound limit inner)

include hinside

/-- A document with brackets needs a budget, and is settled by what is inside. -/
private theorem nested_complete {d : Document} (hbracket : 0 < d.nesting) {text rest : List Char}
    {body : (Shape ρ → Reader) → Scanned Document}
    (hbody : ∀ budget read, (∀ shape, Advances (read shape)) →
      (∀ shape d, Matches grammar shape d → Handles bound budget (read shape) d) →
      Settles (d.nesting ≤ budget + 1) d rest (body read)) :
    Settles (d.nesting ≤ limit) d rest (nested inner text body) := by
  cases hinside with
  | spent => exact .inr ⟨Nat.not_le.2 hbracket, text, rfl⟩
  | within hadvances hhandles => exact hbody _ _ hadvances hhandles

private theorem readAnything_complete {c : Char} {more rest : List Char} {d : Document}
    (hspelled : Spells (c :: more) d rest) (hbound : (c :: more).length ≤ bound) :
    Settles (d.nesting ≤ limit) d rest (readAnything bound inner c more) := by
  have hroom : more.length ≤ bound := Nat.le_of_succ_le hbound
  cases hspelled with
  | null => exact .inl ⟨Nat.zero_le _, by simp [readAnything, readWord, scanNull, scanWord]⟩
  | flagTrue => exact .inl ⟨Nat.zero_le _, by simp [readAnything, readWord, scanTrue, scanWord]⟩
  | flagFalse => exact .inl ⟨Nat.zero_le _, by simp [readAnything, readWord, scanFalse, scanWord]⟩
  | number hstart hscan =>
      -- No other document starts with a sign or a digit.
      have hother : ∀ {mark : Char}, mark ≠ '-' → isDigit mark = false → c ≠ mark := by
        rintro mark hsign hdigit rfl
        rcases hstart with rfl | hstart
        · exact hsign rfl
        · rw [hdigit] at hstart
          exact Bool.false_ne_true hstart
      refine .inl ⟨Nat.zero_le _, ?_⟩
      unfold readAnything
      iterate 6 rw [if_neg (hother (by decide) (by decide))]
      rw [if_pos hstart, readNumber, hscan]
  | text htext =>
      refine .inl ⟨Nat.zero_le _, ?_⟩
      simp [readAnything, readText, scanText_of_spellsText htext hroom]
  | list hitems =>
      refine nested_complete hinside (by simp [Document.nesting]) ?_
      intro budget read hadvances hhandles
      exact readList_complete (hadvances _) hitems
        (fun d _ => hhandles .anything d (.anything d)) hroom
  | object hmembers =>
      refine nested_complete hinside (by simp [Document.nesting]) ?_
      intro budget read hadvances hhandles
      exact readObject_complete (hadvances _) hmembers
        (fun m _ => hhandles .anything m.2 (.anything m.2)) hroom

/-- A spelled document of the shape is settled by its nesting. -/
theorem readStarting_complete {shape : Shape ρ} {d : Document} (hmatch : Matches grammar shape d)
    {c : Char} {more rest : List Char} (hspelled : Spells (c :: more) d rest)
    (hbound : (c :: more).length ≤ bound) :
    Settles (d.nesting ≤ limit) d rest (readStarting grammar bound inner c more shape) := by
  have hroom : more.length ≤ bound := Nat.le_of_succ_le hbound
  induction hmatch with
  | text value =>
      cases hspelled with
      | text htext =>
          refine .inl ⟨Nat.zero_le _, ?_⟩
          simp [readStarting, readText, scanText_of_spellsText htext hroom]
  | flag value =>
      cases hspelled with
      | flagTrue =>
          exact .inl ⟨Nat.zero_le _, by simp [readStarting, readWord, scanTrue, scanWord]⟩
      | flagFalse =>
          exact .inl ⟨Nat.zero_le _, by simp [readStarting, readWord, scanFalse, scanWord]⟩
  | count label n =>
      cases hspelled with
      | number hstart hscan =>
          refine .inl ⟨Nat.zero_le _, ?_⟩
          simp [readStarting, hstart, readCount, hscan, countOf]
  | name hname =>
      cases hspelled with
      | text htext =>
          refine .inl ⟨Nat.zero_le _, ?_⟩
          simp [readStarting, readChoiceName, readName_of_spellsText htext hroom hname]
  | key hname =>
      cases hspelled with
      | object hmembers =>
          refine nested_complete hinside (by simp [Document.nesting]) ?_
          intro budget read _ _
          refine .inl ⟨by simp [Document.nesting, Document.nestingMembers], ?_⟩
          exact readChoiceObject_complete hname hmembers hroom
  | anything d => exact readAnything_complete hinside hspelled hbound
  | list hitems _ =>
      cases hspelled with
      | list hspelledItems =>
          refine nested_complete hinside (by simp [Document.nesting]) ?_
          intro budget read hadvances hhandles
          exact readList_complete (hadvances _) hspelledItems
            (fun d hd => hhandles _ d (hitems d hd)) hroom
  | null shape =>
      cases hspelled
      exact .inl ⟨Nat.zero_le _, by simp [readStarting, readWord, scanNull, scanWord]⟩
  | @some shape d hd ih =>
      -- Only `null` starts with an `n`, and then the shape inside is not asked.
      by_cases hletter : c = 'n'
      · subst hletter
        cases hspelled with
        | null => exact .inl ⟨Nat.zero_le _, by simp [readStarting, readWord, scanNull, scanWord]⟩
        | number hstart _ => simp [isDigit] at hstart
      · rw [readStarting, if_neg hletter]
        exact ih hspelled
  | fields hkeys hdeclared hvalues hrequired _ =>
      cases hspelled with
      | object hmembers =>
          refine nested_complete hinside (by simp [Document.nesting]) ?_
          intro budget read hadvances hhandles
          refine readRecordObject_complete hadvances hmembers hkeys hdeclared ?_ hrequired hroom
          intro m hm field hfield
          exact hhandles _ _ (hvalues m hm field hfield)
  | places hlength hvalues hdefaults _ =>
      cases hspelled with
      | list hitems =>
          refine nested_complete hinside (by simp [Document.nesting]) ?_
          intro budget read hadvances hhandles
          refine readRecordList_complete hadvances hitems hlength ?_ hdefaults hroom
          intro p hp
          exact hhandles _ _ (hvalues p hp)

end Level

/-! ## Whole documents -/

/-- **A spelled document of the shape is taken if it keeps to the budget, and
otherwise the nesting limit is reported.** -/
theorem read_complete (bound budget : Nat) {shape : Shape ρ} {d : Document}
    (hmatch : Matches grammar shape d) :
    Handles bound budget (read grammar bound budget shape) d := by
  have hlevel : ∀ {limit inner}, HandlesInside grammar bound limit inner →
      ∀ {shape d}, Matches grammar shape d →
        Handles bound limit (readWith grammar bound inner shape) d := by
    intro limit inner hinside shape d hmatch blanks text rest hblanks hspelled hbound
    obtain ⟨c, more, rfl, hblank, -⟩ := hspelled.exists_head
    rw [readWith, skipBlanks_append_cons hblanks hblank]
    rw [List.length_append] at hbound
    exact readStarting_complete hinside hmatch hspelled (Nat.le_of_add_left_le hbound)
  induction budget generalizing shape d with
  | zero => exact hlevel .spent hmatch
  | succ budget ih =>
      -- Inside a bracket the budget is smaller by one; that the reader advances is soundness.
      refine hlevel (.within ?_ fun _ _ hmatch => ih hmatch) hmatch
      intro shape
      exact (read_sound bound budget shape).advances

/-- A whole text of a document of the shape, settled by the nesting. -/
private theorem read_of_spellsWhole {shape : Shape ρ} {source : List Char} {d : Document}
    (hmatch : Matches grammar shape d) (hspelled : SpellsWhole source d) :
    ∃ after, Blanks after ∧ Settles (d.nesting ≤ nestingBudget) d after
      (read grammar source.length nestingBudget shape source) := by
  obtain ⟨before, more, after, hbefore, hafter, rfl, hspelled⟩ := hspelled
  exact ⟨after, hafter, read_complete _ _ hmatch before more after hbefore hspelled
    (Nat.le_refl _)⟩

/-- **The texts that are read, and as what.** -/
theorem parse_eq_ok_iff {shape : Shape ρ} {source : String} {d : Document} :
    parse grammar shape source = .ok d ↔
      SpellsWhole source.toList d ∧ Fits grammar nestingBudget shape d := by
  constructor
  · intro hparse
    unfold parse parseChars at hparse
    cases hread : read grammar source.toList.length nestingBudget shape source.toList with
    | error fault => simp [hread] at hparse
    | ok result =>
        obtain ⟨found, rest⟩ := result
        obtain ⟨blanks, more, hblanks, htext, hspelled, -, hfits⟩ := read_sound _ _ _ _ _ _ hread
        cases hskip : skipBlanks rest with
        | nil =>
            obtain rfl : found = d := by simpa [hread, hskip] using hparse
            exact ⟨⟨blanks, more, rest, hblanks, skipBlanks_eq_nil.1 hskip, htext, hspelled⟩, hfits⟩
        | cons c more => simp [hread, hskip] at hparse
  · rintro ⟨hspelled, hmatch, hnesting⟩
    obtain ⟨after, hafter, ⟨-, hread⟩ | ⟨hdeep, -⟩⟩ := read_of_spellsWhole hmatch hspelled
    · simp [parse, parseChars, hread, skipBlanks_eq_nil.2 hafter]
    · exact absurd hnesting hdeep

/-- A document of the shape that nests too deep is refused for that. -/
theorem parse_of_deep {shape : Shape ρ} {source : String} {d : Document}
    (hspelled : SpellsWhole source.toList d) (hmatch : Matches grammar shape d)
    (hdeep : nestingBudget < d.nesting) :
    ∃ place, parse grammar shape source =
      .error ((Fault.facing .nestingLimit place).describe source.toList) := by
  obtain ⟨after, -, ⟨hfits, -⟩ | ⟨-, place, hread⟩⟩ := read_of_spellsWhole hmatch hspelled
  · exact absurd hfits (Nat.not_le.2 hdeep)
  · exact ⟨place, by simp [parse, parseChars, hread]⟩

end OpSchema.Json
