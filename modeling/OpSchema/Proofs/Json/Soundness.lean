import Mathlib.Data.List.Nodup
import OpSchema.Proofs.Json.Steps

/-!
# What the reader takes

Whatever a reader for a shape gives was spelled in front of what it leaves, has
the shape, and nests no deeper than the budget (`read_sound`).

## Strategy

`read` is defined by recursion on the nesting budget, and so is the proof:
`readStarting_sound` is about one level and is handed what is known of the
reader for the inside of a bracket.  The loops inside a bracket are inductions
on their bounds (`readItems_sound`, `readMembers_sound`) or on the fields of a
record (`readFieldItems_sound`).  What the members of an object have to satisfy
depends on the members before them, so that loop carries an invariant.
-/

namespace OpSchema.Json

variable {ρ : Type} {grammar : Grammar ρ}

/-- Whatever the reader gives is spelled after blanks and is good, and the reader
has advanced. -/
def Delivers (reader : Reader) (good : Document → Prop) : Prop :=
  ∀ text d rest, reader text = .ok (d, rest) →
    ∃ blanks more, Blanks blanks ∧ text = blanks ++ more ∧ Spells more d rest ∧
      rest.length < more.length ∧ good d

/-- The document has the shape and nests no deeper than the budget. -/
def Fits (grammar : Grammar ρ) (budget : Nat) (shape : Shape ρ) (d : Document) : Prop :=
  Matches grammar shape d ∧ d.nesting ≤ budget

/-! ## Loops -/

theorem readItems_sound {item : Reader} {good : Document → Prop} (hitem : Delivers item good)
    {bound : Nat} {isFirst : Bool} {read result : List Document} {text rest : List Char}
    (hread : readItems item bound isFirst read text = .ok (result, rest)) :
    ∃ items, result = read.reverse ++ items ∧ SpellsItems Spells isFirst text items rest ∧
      rest.length < text.length ∧ ∀ d ∈ items, good d := by
  induction bound generalizing isFirst read text with
  | zero => simp [readItems] at hread
  | succ bound ih =>
      unfold readItems at hread
      split at hread
      · simp at hread
      · next after hstop =>
        obtain ⟨rfl, rfl⟩ : read.reverse = result ∧ after = rest := by simpa using hread
        obtain ⟨blanks, hblanks, rfl⟩ := nextItem_eq_stop.1 hstop
        exact ⟨[], by simp, .stop hblanks, by simp; omega, by simp⟩
      · next after hmore =>
        -- An item is spelled, and the rest of the list by induction.
        have hlead := lead_of_nextItem hmore
        split at hread
        · simp at hread
        · next d following hvalue =>
          obtain ⟨blanks, more, hblanks, rfl, hspelled, hshorter, hgood⟩ := hitem _ _ _ hvalue
          obtain ⟨items, rfl, hitems, hrest, hall⟩ := ih hread
          have hlead' := hlead.append_blanks hblanks
          have hlength := hlead'.length_le
          refine ⟨d :: items, by simp, .item hlead' hspelled hitems, by omega, ?_⟩
          exact List.forall_mem_cons.2 ⟨hgood, hall⟩

theorem readMembers_sound {textBound : Nat}
    {accept : List (String × Document) → String → Except Cause Reader}
    {invariant : List (String × Document) → Prop}
    (hstep : ∀ read name value, invariant read → accept read name = .ok value →
      Delivers value fun d => invariant ((name, d) :: read))
    {bound : Nat} {isFirst : Bool} {read result : List (String × Document)}
    {text rest : List Char} (hinvariant : invariant read)
    (hread : readMembers textBound accept bound isFirst read text = .ok (result, rest)) :
    ∃ members, result = read.reverse ++ members ∧ SpellsMembers Spells isFirst text members rest ∧
      rest.length < text.length ∧ invariant (members.reverse ++ read) := by
  induction bound generalizing isFirst read text with
  | zero => simp [readMembers] at hread
  | succ bound ih =>
      unfold readMembers at hread
      split at hread
      · simp at hread
      · next after hstop =>
        obtain ⟨rfl, rfl⟩ : read.reverse = result ∧ after = rest := by simpa using hread
        obtain ⟨blanks, hblanks, rfl⟩ := nextMember_eq_stop.1 hstop
        exact ⟨[], by simp, .stop hblanks, by simp; omega, by simpa using hinvariant⟩
      · next name afterKey hkey =>
        obtain ⟨more, key, hlead, hspelledKey, rfl⟩ := lead_of_nextMember hkey
        split at hread
        · simp at hread
        · next value haccept =>
          split at hread
          · simp at hread
          · next afterColon hcolon =>
            obtain ⟨before, hbefore, rfl⟩ := readColon_eq_ok.1 hcolon
            split at hread
            · simp at hread
            · next d following hvalue =>
              -- The step carries the invariant over to the members with this one.
              obtain ⟨blanks, more', hblanks, rfl, hspelled, hshorter, hgood⟩ :=
                hstep _ _ _ hinvariant haccept _ _ _ hvalue
              obtain ⟨members, rfl, hmembers, hrest, hall⟩ := ih hgood hread
              have hlength := hlead.length_le
              have hkeyLength := hspelledKey.length_lt
              simp only [List.length_append, List.length_cons] at hlength hkeyLength
              refine ⟨_ :: members, by simp, .member hlead
                (.member hspelledKey hbefore hblanks hspelled) hmembers, by omega, ?_⟩
              simpa using hall

theorem readFieldItems_sound {record : RecordShape ρ} {inner : Shape ρ → Reader}
    {good : Shape ρ → Document → Prop} (hinner : ∀ shape, Delivers (inner shape) (good shape))
    {index : Nat} {fields : List (Field ρ)} {read result : List Document} {text rest : List Char}
    (hread : readFieldItems record inner index fields read text = .ok (result, rest)) :
    ∃ items, result = read.reverse ++ items ∧ SpellsItems Spells (index == 0) text items rest ∧
      rest.length < text.length ∧ items.length ≤ fields.length ∧
      (∀ p ∈ items.zip fields, good p.2.shape p.1) ∧
      ∀ field ∈ fields.drop items.length, field.presence = .defaulted := by
  induction fields generalizing index read text with
  | nil =>
      unfold readFieldItems at hread
      split at hread
      · simp at hread
      · next after hclose =>
        obtain ⟨rfl, rfl⟩ : read.reverse = result ∧ after = rest := by simpa using hread
        obtain ⟨blanks, hblanks, rfl⟩ := closeList_eq_ok.1 hclose
        exact ⟨[], by simp, .stop hblanks, by simp; omega, by simp⟩
  | cons field fields ih =>
      unfold readFieldItems at hread
      split at hread
      · simp at hread
      · next after hstop =>
        obtain ⟨blanks, hblanks, rfl⟩ := nextItem_eq_stop.1 hstop
        split at hread
        · simp at hread
        · next hdefaults =>
          -- A list that stops early leaves out fields with a default only.
          obtain ⟨rfl, rfl⟩ : read.reverse = result ∧ after = rest := by simpa using hread
          exact ⟨[], by simp, .stop hblanks, by simp; omega, by simp, by simp,
            by simpa using firstWithoutDefault?_eq_none.1 hdefaults⟩
      · next after hmore =>
        have hlead := lead_of_nextItem hmore
        split at hread
        · simp at hread
        · next d following hvalue =>
          obtain ⟨blanks, more, hblanks, rfl, hspelled, hshorter, hgood⟩ := hinner _ _ _ _ hvalue
          obtain ⟨items, rfl, hitems, hrest, hlength, hall, hdefaults⟩ := ih hread
          have hlead' := hlead.append_blanks hblanks
          have hless := hlead'.length_le
          refine ⟨d :: items, by simp, .item hlead' hspelled hitems, by omega,
            by simpa using hlength, ?_, by simpa using hdefaults⟩
          rw [List.zip_cons_cons, List.forall_mem_cons]
          exact ⟨hgood, hall⟩

/-! ## Records -/

/-- What is known of the members of a record that have been read. -/
structure MembersFit (grammar : Grammar ρ) (budget : Nat) (record : ρ)
    (read : List (String × Document)) : Prop where
  keys : (read.map Prod.fst).Nodup
  declared : ∀ m ∈ read, m.1 ∈ (grammar record).names
  values : ∀ m ∈ read, ∀ field, (grammar record).field? m.1 = some field →
    Fits grammar budget field.shape m.2

theorem acceptField_sound {budget : Nat} {record : ρ} {inner : Shape ρ → Reader}
    (hinner : ∀ shape, Delivers (inner shape) (Fits grammar budget shape))
    (read : List (String × Document)) (name : String) (value : Reader)
    (hread : MembersFit grammar budget record read)
    (haccept : acceptField (grammar record) inner read name = .ok value) :
    Delivers value fun d => MembersFit grammar budget record ((name, d) :: read) := by
  unfold acceptField at haccept
  split at haccept
  · simp at haccept
  · next field hfield =>
    split at haccept
    · simp at haccept
    · next hnew =>
      obtain rfl : inner field.shape = value := by simpa using haccept
      intro text d rest hvalue
      obtain ⟨blanks, more, hblanks, htext, hspelled, hshorter, hfits⟩ := hinner _ _ _ _ hvalue
      refine ⟨blanks, more, hblanks, htext, hspelled, hshorter, ?_, ?_, ?_⟩
      · simp only [List.any_eq_true, beq_iff_eq, not_exists, not_and] at hnew
        rw [List.map_cons, List.nodup_cons, List.mem_map]
        exact ⟨fun ⟨m, hm, hsame⟩ => hnew m hm hsame, hread.keys⟩
      · have hname := RecordShape.mem_names_of_field? hfield
        simpa using ⟨hname, fun key value hm => hread.declared (key, value) hm⟩
      · intro m hm other hother
        rcases List.mem_cons.1 hm with rfl | hm
        · obtain rfl : field = other := by simpa [hfield] using hother
          exact hfits
        · exact hread.values m hm other hother

private theorem readRecordObject_sound {bound budget : Nat} {record : ρ} {inner : Shape ρ → Reader}
    (hinner : ∀ shape, Delivers (inner shape) (Fits grammar budget shape)) {text rest : List Char}
    {d : Document}
    (hread : readRecordObject bound (grammar record) inner text = .ok (d, rest)) :
    Spells ('\x7b' :: text) d rest ∧ rest.length < text.length ∧
      Fits grammar (budget + 1) (.record record) d := by
  unfold readRecordObject at hread
  split at hread
  · simp at hread
  · next members after hmembers =>
    have hstart : MembersFit grammar budget record [] :=
      ⟨by simp, by simp, by simp⟩
    obtain ⟨read, hread', hspelled, hshorter, hfit⟩ :=
      readMembers_sound (acceptField_sound hinner) hstart hmembers
    obtain rfl : members = read := by simpa using hread'
    -- The loop keeps the members in reverse, which makes no difference to any field.
    rw [List.append_nil] at hfit
    split at hread
    · simp at hread
    · next hmissing =>
      obtain ⟨rfl, rfl⟩ : Document.object members = d ∧ after = rest := by simpa using hread
      have hdeclared : ∀ m ∈ members, m.1 ∈ (grammar record).names :=
        fun m hm => hfit.declared m (List.mem_reverse.2 hm)
      have hvalues : ∀ m ∈ members, ∀ field, (grammar record).field? m.1 = some field →
          Fits grammar budget field.shape m.2 :=
        fun m hm => hfit.values m (List.mem_reverse.2 hm)
      refine ⟨.object hspelled, hshorter, .fields ?_ hdeclared ?_ ?_, ?_⟩
      · have hkeys := hfit.keys
        rwa [List.map_reverse, List.nodup_reverse] at hkeys
      · exact fun m hm field hfield => (hvalues m hm field hfield).1
      · exact missingField?_eq_none.1 hmissing
      · refine Document.nesting_object_le.2 fun m hm => ?_
        obtain ⟨field, hfield⟩ := RecordShape.exists_field (hdeclared m hm)
        exact (hvalues m hm field hfield).2

private theorem readRecordList_sound {budget : Nat} {record : ρ} {inner : Shape ρ → Reader}
    (hinner : ∀ shape, Delivers (inner shape) (Fits grammar budget shape)) {text rest : List Char}
    {d : Document} (hread : readRecordList (grammar record) inner text = .ok (d, rest)) :
    Spells ('[' :: text) d rest ∧ rest.length < text.length ∧
      Fits grammar (budget + 1) (.record record) d := by
  unfold readRecordList at hread
  split at hread
  · simp at hread
  · next items after hitems =>
    obtain ⟨rfl, rfl⟩ : Document.list items = d ∧ after = rest := by simpa using hread
    obtain ⟨read, hread', hspelled, hshorter, hlength, hfits, hdefaults⟩ :=
      readFieldItems_sound hinner hitems
    obtain rfl : items = read := by simpa using hread'
    refine ⟨.list hspelled, hshorter, .places hlength (fun p hp => (hfits p hp).1) hdefaults, ?_⟩
    refine Document.nesting_list_le.2 fun d hd => ?_
    obtain ⟨field, -, hpair⟩ := exists_mem_zip hlength hd
    exact (hfits _ hpair).2

/-! ## Choices -/

private theorem readChoiceObject_sound {bound : Nat} {names : List String} {text rest : List Char}
    {d : Document} (hread : readChoiceObject bound names text = .ok (d, rest)) :
    Spells ('\x7b' :: text) d rest ∧ rest.length < text.length ∧
      ∃ name ∈ names, d = .object [(name, .null)] := by
  obtain ⟨blanks, hblanks, htext⟩ := exists_blanks_append text
  unfold readChoiceObject at hread
  split at hread
  · simp at hread
  · next c more hskip =>
    split at hread
    · next hquote =>
      rw [hskip, hquote] at htext
      split at hread
      · simp at hread
      · next name afterName hname =>
        obtain ⟨hmem, value, hvalue, rfl⟩ := readName_eq_ok hname
        split at hread
        · simp at hread
        · next afterColon hcolon =>
          obtain ⟨before, hbefore, rfl⟩ := readColon_eq_ok.1 hcolon
          split at hread
          · simp at hread
          · next afterUnit hunit =>
            obtain ⟨between, hbetween, rfl⟩ := readUnit_eq_ok.1 hunit
            obtain ⟨final, hfinal, hlast⟩ := exists_blanks_append afterUnit
            split at hread
            · simp at hread
            · next e last hskip =>
              split at hread
              · next hclose =>
                obtain ⟨rfl, rfl⟩ := Prod.mk.inj (Except.ok.inj hread)
                rw [hskip, hclose] at hlast
                have hlength := hvalue.length_lt
                rw [hlast] at hvalue hlength
                simp only [List.length_append, List.length_cons] at hlength
                refine ⟨?_, by simp [htext]; omega, _, hmem, rfl⟩
                rw [htext]
                exact .object (.member (.first hblanks)
                  (.member hvalue hbefore hbetween .null) (.stop hfinal))
              · simp at hread
    · split at hread <;> simp at hread

/-! ## Documents by their first character -/

private theorem readText_sound {bound : Nat} {more rest : List Char} {d : Document}
    (hread : readText bound more = .ok (d, rest)) :
    Spells ('"' :: more) d rest ∧ rest.length < more.length ∧ ∃ s, d = .text s := by
  unfold readText at hread
  split at hread
  · simp at hread
  · next s after hscan =>
    obtain ⟨rfl, rfl⟩ := Prod.mk.inj (Except.ok.inj hread)
    obtain ⟨value, hvalue, rfl⟩ := spellsText_of_scanText hscan
    exact ⟨.text hvalue, hvalue.length_lt, _, rfl⟩

private theorem readWord_sound {word more rest : List Char} {named d : Document}
    (hread : readWord (scanWord word) named more = .ok (d, rest)) :
    d = named ∧ more = word ++ rest := by
  unfold readWord at hread
  split at hread
  · simp at hread
  · next after hscan =>
    obtain ⟨rfl, rfl⟩ := Prod.mk.inj (Except.ok.inj hread)
    exact ⟨rfl, scanWord_eq_ok.1 hscan⟩

private theorem readNull_sound {more rest : List Char} {d : Document}
    (hread : readWord scanNull .null more = .ok (d, rest)) :
    Spells ('n' :: more) d rest ∧ rest.length < more.length ∧ d = .null := by
  obtain ⟨rfl, rfl⟩ := readWord_sound hread
  exact ⟨.null, by simp; omega, rfl⟩

private theorem readTrue_sound {more rest : List Char} {d : Document}
    (hread : readWord scanTrue (.flag true) more = .ok (d, rest)) :
    Spells ('t' :: more) d rest ∧ rest.length < more.length ∧ d = .flag true := by
  obtain ⟨rfl, rfl⟩ := readWord_sound hread
  exact ⟨.flagTrue, by simp; omega, rfl⟩

private theorem readFalse_sound {more rest : List Char} {d : Document}
    (hread : readWord scanFalse (.flag false) more = .ok (d, rest)) :
    Spells ('f' :: more) d rest ∧ rest.length < more.length ∧ d = .flag false := by
  obtain ⟨rfl, rfl⟩ := readWord_sound hread
  exact ⟨.flagFalse, by simp; omega, rfl⟩

private theorem readNumber_sound {c : Char} {more rest : List Char} {d : Document}
    (hstart : c = '-' ∨ isDigit c = true) (hread : readNumber (c :: more) = .ok (d, rest)) :
    Spells (c :: more) d rest ∧ rest.length < (c :: more).length ∧ ∃ n, d = .number n := by
  unfold readNumber at hread
  split at hread
  · simp at hread
  · next n after hscan =>
    obtain ⟨rfl, rfl⟩ := Prod.mk.inj (Except.ok.inj hread)
    exact ⟨.number hstart hscan, length_lt_of_scanNumber hscan, n, rfl⟩

private theorem readCount_sound {label : String} {c : Char} {more rest : List Char} {d : Document}
    (hstart : c = '-' ∨ isDigit c = true) (hread : readCount label (c :: more) = .ok (d, rest)) :
    Spells (c :: more) d rest ∧ rest.length < (c :: more).length ∧
      ∃ n, d = .number (.natural n) := by
  unfold readCount at hread
  split at hread
  · simp at hread
  · next n after hscan =>
    unfold countOf at hread
    split at hread
    · next value =>
      obtain ⟨rfl, rfl⟩ := Prod.mk.inj (Except.ok.inj hread)
      exact ⟨.number hstart hscan, length_lt_of_scanNumber hscan, value, rfl⟩
    · simp at hread
    · simp at hread

private theorem readChoiceName_sound {bound : Nat} {names : List String} {more rest : List Char}
    {d : Document} (hread : readChoiceName bound names more = .ok (d, rest)) :
    Spells ('"' :: more) d rest ∧ rest.length < more.length ∧ ∃ name ∈ names, d = .text name := by
  unfold readChoiceName at hread
  split at hread
  · simp at hread
  · next name after hname =>
    obtain ⟨rfl, rfl⟩ := Prod.mk.inj (Except.ok.inj hread)
    obtain ⟨hmem, value, hvalue, rfl⟩ := readName_eq_ok hname
    exact ⟨.text hvalue, hvalue.length_lt, _, hmem, rfl⟩

private theorem readList_sound {bound : Nat} {item : Reader} {good : Document → Prop}
    (hitem : Delivers item good) {more rest : List Char} {d : Document}
    (hread : readList bound item more = .ok (d, rest)) :
    Spells ('[' :: more) d rest ∧ rest.length < more.length ∧
      ∃ items, d = .list items ∧ ∀ e ∈ items, good e := by
  unfold readList at hread
  split at hread
  · simp at hread
  · next items after hitems =>
    obtain ⟨rfl, rfl⟩ := Prod.mk.inj (Except.ok.inj hread)
    obtain ⟨found, hfound, hspelled, hshorter, hgood⟩ := readItems_sound hitem hitems
    obtain rfl : items = found := by simpa using hfound
    exact ⟨.list hspelled, hshorter, items, rfl, hgood⟩

private theorem readObject_sound {bound : Nat} {value : Reader} {good : Document → Prop}
    (hvalue : Delivers value good) {more rest : List Char} {d : Document}
    (hread : readObject bound value more = .ok (d, rest)) :
    Spells ('\x7b' :: more) d rest ∧ rest.length < more.length ∧
      ∃ members, d = .object members ∧ ∀ m ∈ members, good m.2 := by
  unfold readObject at hread
  split at hread
  · simp at hread
  · next members after hmembers =>
    obtain ⟨rfl, rfl⟩ := Prod.mk.inj (Except.ok.inj hread)
    have hstep : ∀ (read : List (String × Document)) (name : String) (reader : Reader),
        (∀ m ∈ read, good m.2) → Except.ok value = (.ok reader : Except Cause Reader) →
        Delivers reader fun d => ∀ m ∈ (name, d) :: read, good m.2 := by
      intro read name reader hall hsame text d rest hread
      obtain rfl := Except.ok.inj hsame
      obtain ⟨blanks, more, hblanks, htext, hspelled, hshorter, hgood⟩ := hvalue _ _ _ hread
      exact ⟨blanks, more, hblanks, htext, hspelled, hshorter,
        List.forall_mem_cons.2 ⟨hgood, hall⟩⟩
    obtain ⟨found, hfound, hspelled, hshorter, hgood⟩ :=
      readMembers_sound hstep (by simp) hmembers
    obtain rfl : members = found := by simpa using hfound
    refine ⟨.object hspelled, hshorter, members, rfl, fun m hm => hgood m ?_⟩
    simpa using hm

/-! ## One level -/

section Level

variable {bound limit : Nat} {inner : Option (Shape ρ → Reader)}
  (hinner : ∀ read, inner = some read → ∃ budget, limit = budget + 1 ∧
    ∀ shape, Delivers (read shape) (Fits grammar budget shape))

include hinner

private theorem readAnything_sound {c : Char} {more rest : List Char} {d : Document}
    (hread : readAnything bound inner c more = .ok (d, rest)) :
    Spells (c :: more) d rest ∧ rest.length < (c :: more).length ∧ d.nesting ≤ limit := by
  unfold readAnything at hread
  split at hread
  · next hquote =>
    obtain ⟨hspelled, hshorter, s, rfl⟩ := readText_sound hread
    exact ⟨hquote ▸ hspelled, Nat.lt_succ_of_lt hshorter, Nat.zero_le _⟩
  split at hread
  · next hopen =>
    obtain ⟨read, hsome, hbody⟩ := nested_eq_ok hread
    obtain ⟨budget, rfl, hdelivers⟩ := hinner read hsome
    obtain ⟨hspelled, hshorter, items, rfl, hfits⟩ := readList_sound (hdelivers .anything) hbody
    exact ⟨hopen ▸ hspelled, Nat.lt_succ_of_lt hshorter,
      Document.nesting_list_le.2 fun d hd => (hfits d hd).2⟩
  split at hread
  · next hopen =>
    obtain ⟨read, hsome, hbody⟩ := nested_eq_ok hread
    obtain ⟨budget, rfl, hdelivers⟩ := hinner read hsome
    obtain ⟨hspelled, hshorter, members, rfl, hfits⟩ :=
      readObject_sound (hdelivers .anything) hbody
    exact ⟨hopen ▸ hspelled, Nat.lt_succ_of_lt hshorter,
      Document.nesting_object_le.2 fun m hm => (hfits m hm).2⟩
  split at hread
  · next hletter =>
    obtain ⟨hspelled, hshorter, rfl⟩ := readNull_sound hread
    exact ⟨hletter ▸ hspelled, Nat.lt_succ_of_lt hshorter, Nat.zero_le _⟩
  split at hread
  · next hletter =>
    obtain ⟨hspelled, hshorter, rfl⟩ := readTrue_sound hread
    exact ⟨hletter ▸ hspelled, Nat.lt_succ_of_lt hshorter, Nat.zero_le _⟩
  split at hread
  · next hletter =>
    obtain ⟨hspelled, hshorter, rfl⟩ := readFalse_sound hread
    exact ⟨hletter ▸ hspelled, Nat.lt_succ_of_lt hshorter, Nat.zero_le _⟩
  split at hread
  · next hstart =>
    obtain ⟨hspelled, hshorter, n, rfl⟩ := readNumber_sound hstart hread
    exact ⟨hspelled, hshorter, Nat.zero_le _⟩
  · simp at hread

/-- A document by its first character and its shape. -/
theorem readStarting_sound {c : Char} {more rest : List Char} {shape : Shape ρ} {d : Document}
    (hread : readStarting grammar bound inner c more shape = .ok (d, rest)) :
    Spells (c :: more) d rest ∧ rest.length < (c :: more).length ∧
      Fits grammar limit shape d := by
  induction shape with
  | nullable shape ih =>
      unfold readStarting at hread
      split at hread
      · next hletter =>
        obtain ⟨hspelled, hshorter, rfl⟩ := readNull_sound hread
        exact ⟨hletter ▸ hspelled, Nat.lt_succ_of_lt hshorter, .null shape, Nat.zero_le _⟩
      · obtain ⟨hspelled, hshorter, hmatch, hnesting⟩ := ih hread
        exact ⟨hspelled, hshorter, .some hmatch, hnesting⟩
  | text =>
      unfold readStarting at hread
      split at hread
      · next hquote =>
        obtain ⟨hspelled, hshorter, s, rfl⟩ := readText_sound hread
        exact ⟨hquote ▸ hspelled, Nat.lt_succ_of_lt hshorter, .text s, Nat.zero_le _⟩
      · simp at hread
  | flag =>
      unfold readStarting at hread
      split at hread
      · next hletter =>
        obtain ⟨hspelled, hshorter, rfl⟩ := readTrue_sound hread
        exact ⟨hletter ▸ hspelled, Nat.lt_succ_of_lt hshorter, .flag true, Nat.zero_le _⟩
      split at hread
      · next hletter =>
        obtain ⟨hspelled, hshorter, rfl⟩ := readFalse_sound hread
        exact ⟨hletter ▸ hspelled, Nat.lt_succ_of_lt hshorter, .flag false, Nat.zero_le _⟩
      · simp at hread
  | count label =>
      unfold readStarting at hread
      split at hread
      · next hstart =>
        obtain ⟨hspelled, hshorter, n, rfl⟩ := readCount_sound hstart hread
        exact ⟨hspelled, hshorter, .count label n, Nat.zero_le _⟩
      · simp at hread
  | choice names =>
      unfold readStarting at hread
      split at hread
      · next hquote =>
        obtain ⟨hspelled, hshorter, name, hname, rfl⟩ := readChoiceName_sound hread
        exact ⟨hquote ▸ hspelled, Nat.lt_succ_of_lt hshorter, .name hname, Nat.zero_le _⟩
      split at hread
      · next hopen =>
        obtain ⟨read, hsome, hbody⟩ := nested_eq_ok hread
        obtain ⟨budget, rfl, -⟩ := hinner read hsome
        obtain ⟨hspelled, hshorter, name, hname, rfl⟩ := readChoiceObject_sound hbody
        refine ⟨hopen ▸ hspelled, Nat.lt_succ_of_lt hshorter, .key hname, ?_⟩
        simp [Document.nesting, Document.nestingMembers]
      · simp at hread
  | anything =>
      obtain ⟨hspelled, hshorter, hnesting⟩ := readAnything_sound hinner hread
      exact ⟨hspelled, hshorter, .anything d, hnesting⟩
  | list item _ =>
      unfold readStarting at hread
      split at hread
      · next hopen =>
        obtain ⟨read, hsome, hbody⟩ := nested_eq_ok hread
        obtain ⟨budget, rfl, hdelivers⟩ := hinner read hsome
        obtain ⟨hspelled, hshorter, items, rfl, hfits⟩ := readList_sound (hdelivers item) hbody
        exact ⟨hopen ▸ hspelled, Nat.lt_succ_of_lt hshorter, .list fun d hd => (hfits d hd).1,
          Document.nesting_list_le.2 fun d hd => (hfits d hd).2⟩
      · simp at hread
  | record name =>
      unfold readStarting at hread
      split at hread
      · next hopen =>
        obtain ⟨read, hsome, hbody⟩ := nested_eq_ok hread
        obtain ⟨budget, rfl, hdelivers⟩ := hinner read hsome
        obtain ⟨hspelled, hshorter, hfits⟩ := readRecordObject_sound hdelivers hbody
        exact ⟨hopen ▸ hspelled, Nat.lt_succ_of_lt hshorter, hfits⟩
      split at hread
      · next hopen =>
        obtain ⟨read, hsome, hbody⟩ := nested_eq_ok hread
        obtain ⟨budget, rfl, hdelivers⟩ := hinner read hsome
        obtain ⟨hspelled, hshorter, hfits⟩ := readRecordList_sound hdelivers hbody
        exact ⟨hopen ▸ hspelled, Nat.lt_succ_of_lt hshorter, hfits⟩
      · simp at hread

private theorem readWith_sound (shape : Shape ρ) :
    Delivers (readWith grammar bound inner shape) (Fits grammar limit shape) := by
  intro text d rest hread
  obtain ⟨blanks, hblanks, htext⟩ := exists_blanks_append text
  unfold readWith at hread
  split at hread
  · simp at hread
  · next c more hskip =>
    rw [hskip] at htext
    obtain ⟨hspelled, hshorter, hfits⟩ := readStarting_sound hinner hread
    exact ⟨blanks, c :: more, hblanks, htext, hspelled, hshorter, hfits⟩

end Level

/-! ## Whole documents -/

/-- **What a reader gives is spelled, has the shape and keeps to the budget.** -/
theorem read_sound (bound budget : Nat) (shape : Shape ρ) :
    Delivers (read grammar bound budget shape) (Fits grammar budget shape) := by
  induction budget generalizing shape with
  | zero => exact readWith_sound (by simp) shape
  | succ budget ih =>
      refine readWith_sound ?_ shape
      intro inner hsame
      obtain rfl : read grammar bound budget = inner := by simpa using hsame
      exact ⟨budget, rfl, ih⟩

end OpSchema.Json
