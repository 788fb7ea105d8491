import OpSchema.Proofs.Json.Faults
import OpSchema.Proofs.Json.Places

/-!
# Where the reader stops

A refused text is read up to a place, and there something is wrong.  `Refuses` says
what can be wrong at a place, for each cause that is not one of syntax.  Every fault
of the reader is explained by a place that the text leads to (`read_fault`).

## Strategy

As in `Soundness.lean`, the induction is on the nesting budget, with one lemma for
each loop.  A loop that fails has passed some items or members, and then failed in
a step between two of them, which is a fault of syntax, or inside the next one.
-/

namespace OpSchema.Json

variable {ρ : Type} {grammar : Grammar ρ}

/-! ## What is wrong at a place -/

/-- What messages call the values of a shape. -/
inductive Expects (grammar : Grammar ρ) : Shape ρ → String → Prop
  | text : Expects grammar .text "a string"
  | flag : Expects grammar .flag "a boolean"
  | count (label : String) : Expects grammar (.count label) label
  | choice (names : List String) : Expects grammar (.choice names) "unit"
  | list (item : Shape ρ) : Expects grammar (.list item) "a sequence"
  | record (name : ρ) : Expects grammar (.record name) (grammar name).title

/-- The text opens an object for a record, and past members of the record it has a
member with a key that the record does not declare. -/
inductive OpensUndeclared (grammar : Grammar ρ) (key : String) : Nat → Shape ρ → List Char → Prop
  | object {budget : Nat} {record : ρ} {text more spelled after : List Char}
      {members : List (String × Document)} {isNext : Bool}
      (hbefore : PassesMembers true text members isNext more)
      (hmembers : MembersFit grammar budget record members)
      (hlead : Lead isNext more ('"' :: spelled)) (hkey : SpellsText spelled key.toList after)
      (hundeclared : key ∉ (grammar record).names) :
      OpensUndeclared grammar key (budget + 1) (.record record) ('\x7b' :: text)

/-- At a place of the shape in front of the text, the cause can be complained
about. -/
inductive Refuses (grammar : Grammar ρ) (budget : Nat) : Shape ρ → List Char → Cause → Prop
  | malformed {shape : Shape ρ} {text : List Char} {cause : Cause}
      (hsyntactic : cause.isSyntactic = true) : Refuses grammar budget shape text cause
  | wrongForm {shape : Shape ρ} {text : List Char} {found : Found} {expected : String}
      (hexpected : Expects grammar shape expected)
      (hquotes : ∀ s, found = .text s → Quotes text s.toList) :
      Refuses grammar budget shape text (.wrongForm found expected)
  | negativeCount {label : String} {text : List Char} {n : Number} :
      Refuses grammar budget (.count label) text (.negativeCount n label)
  | unknownVariant {names : List String} {text : List Char} {name : String}
      (hquotes : Quotes text name.toList) :
      Refuses grammar budget (.choice names) text (.unknownVariant name names)
  | undeclared {record : ρ} {text : List Char} {key : String}
      (hopens : OpensUndeclared grammar key budget (.record record) text) :
      Refuses grammar budget (.record record) text (.unknownField key (grammar record).names)
  | duplicate {record : ρ} {text : List Char} {name : String}
      (hdeclared : name ∈ (grammar record).names) :
      Refuses grammar budget (.record record) text (.duplicateField name)
  | missing {record : ρ} {text : List Char} {name : String}
      (hdeclared : name ∈ (grammar record).names) :
      Refuses grammar budget (.record record) text (.missingField name)
  | tooFew {record : ρ} {text : List Char} {count : Nat} :
      Refuses grammar budget (.record record) text
        (.tooFewItems count (grammar record).title (grammar record).fields.length)

/-- After blanks, reading comes to a place where the cause can be complained
about. -/
def StopsFor (grammar : Grammar ρ) (budget : Nat) (shape : Shape ρ) (text : List Char)
    (cause : Cause) : Prop :=
  ∃ blanks more, Blanks blanks ∧ text = blanks ++ more ∧
    Reaches grammar (fun budget shape text => Refuses grammar budget shape text cause)
      budget shape more

/-! ## Loops -/

theorem readItems_fault {item : Reader} {good : Document → Prop} (hitem : Delivers item good)
    {bound : Nat} {isFirst : Bool} {read : List Document} {text : List Char} {fault : Fault}
    (hread : readItems item bound isFirst read text = .error fault) :
    fault.cause.isSyntactic = true ∨ ∃ items isNext more inside,
      PassesItems isFirst text items isNext more ∧ (∀ d ∈ items, good d) ∧
        Lead isNext more inside ∧ item inside = .error fault := by
  induction bound generalizing isFirst read text with
  | zero => exact .inl (Except.error.inj hread ▸ rfl)
  | succ bound ih =>
      unfold readItems at hread
      split at hread
      · next hnext =>
        obtain rfl := Except.error.inj hread
        exact .inl ((clean_nextItem _ _).of_eq hnext)
      · simp at hread
      · next after hmore =>
        have hlead := lead_of_nextItem hmore
        split at hread
        · next hvalue =>
          obtain rfl := Except.error.inj hread
          exact .inr ⟨[], isFirst, text, after, .done, by simp, hlead, hvalue⟩
        · next d following hvalue =>
          obtain ⟨blanks, more, hblanks, rfl, hspelled, -, hgood⟩ := hitem _ _ _ hvalue
          refine (ih hread).imp_right ?_
          rintro ⟨items, isNext, place, inside, hpasses, hall, hnext, hfault⟩
          exact ⟨d :: items, isNext, place, inside,
            .item (hlead.append_blanks hblanks) hspelled hpasses,
            List.forall_mem_cons.2 ⟨hgood, hall⟩, hnext, hfault⟩

@[simp] theorem lateFault_cause (bracket : Char) (cause : Cause) (text : List Char) :
    (lateFault bracket cause text).cause = cause := by
  unfold lateFault
  split
  · rfl
  · split <;> rfl

theorem readMembers_fault {textBound : Nat}
    {accept : List (String × Document) → String → Except Cause Reader}
    {invariant : List (String × Document) → Prop}
    (hstep : ∀ read name value, invariant read → accept read name = .ok value →
      Delivers value fun d => invariant ((name, d) :: read))
    {bound : Nat} {isFirst : Bool} {read : List (String × Document)} {text : List Char}
    {fault : Fault} (hinvariant : invariant read)
    (hread : readMembers textBound accept bound isFirst read text = .error fault) :
    fault.cause.isSyntactic = true ∨ ∃ members isNext more spelled name after,
      PassesMembers isFirst text members isNext more ∧ invariant (members.reverse ++ read) ∧
        Lead isNext more ('"' :: spelled) ∧ SpellsText spelled name.toList after ∧
        (accept (members.reverse ++ read) name = .error fault.cause ∨
          ∃ value between inside, accept (members.reverse ++ read) name = .ok value ∧
            Blanks between ∧ after = between ++ ':' :: inside ∧ value inside = .error fault) := by
  induction bound generalizing isFirst read text with
  | zero => exact .inl (Except.error.inj hread ▸ rfl)
  | succ bound ih =>
      unfold readMembers at hread
      split at hread
      · next hnext =>
        obtain rfl := Except.error.inj hread
        exact .inl ((clean_nextMember _ _ _).of_eq hnext)
      · simp at hread
      · next name afterKey hkey =>
        obtain ⟨spelled, key, hlead, hspelledKey, rfl⟩ := lead_of_nextMember hkey
        have hname : SpellsText spelled (String.ofList key).toList afterKey := by
          rwa [String.toList_ofList]
        split at hread
        · next cause haccept =>
          obtain rfl := Except.error.inj hread
          refine .inr ⟨[], isFirst, text, spelled, _, afterKey, .done, hinvariant, hlead, hname,
            .inl ?_⟩
          rw [lateFault_cause]
          exact haccept
        · next value haccept =>
          split at hread
          · next hcolon =>
            obtain rfl := Except.error.inj hread
            exact .inl ((clean_readColon _).of_eq hcolon)
          · next inside hcolon =>
            obtain ⟨between, hbetween, rfl⟩ := readColon_eq_ok.1 hcolon
            split at hread
            · next hvalue =>
              obtain rfl := Except.error.inj hread
              exact .inr ⟨[], isFirst, text, spelled, _, _, .done, hinvariant, hlead, hname,
                .inr ⟨value, between, inside, haccept, hbetween, rfl, hvalue⟩⟩
            · next d following hvalue =>
              -- The member is passed, and the invariant goes over to those with it.
              obtain ⟨blanks, more, hblanks, rfl, hspelled, -, hgood⟩ :=
                hstep _ _ _ hinvariant haccept _ _ _ hvalue
              refine (ih hgood hread).imp_right ?_
              rintro ⟨members, isNext, place, spelled', name, after, hpasses, hall, hrest⟩
              refine ⟨(String.ofList key, d) :: members, isNext, place, spelled', name, after,
                .member hlead (.member hspelledKey hbetween hblanks hspelled) hpasses, ?_⟩
              rw [List.reverse_cons, List.append_assoc, List.singleton_append]
              exact ⟨hall, hrest⟩

theorem readFieldItems_fault {record : RecordShape ρ} {inner : Shape ρ → Reader}
    {good : Shape ρ → Document → Prop} (hinner : ∀ shape, Delivers (inner shape) (good shape))
    {index : Nat} {fields : List (Field ρ)} {read : List Document} {text : List Char}
    {fault : Fault}
    (hread : readFieldItems record inner index fields read text = .error fault) :
    fault.cause.isSyntactic = true ∨
      (∃ count, fault.cause = .tooFewItems count record.title record.fields.length) ∨
      ∃ first field last items isNext more inside, fields = first ++ field :: last ∧
        items.length = first.length ∧ PassesItems (index == 0) text items isNext more ∧
        (∀ p ∈ items.zip first, good p.2.shape p.1) ∧ Lead isNext more inside ∧
        inner field.shape inside = .error fault := by
  induction fields generalizing index read text with
  | nil =>
      unfold readFieldItems at hread
      split at hread
      · next hclose =>
        obtain rfl := Except.error.inj hread
        exact .inl ((clean_closeList _).of_eq hclose)
      · simp at hread
  | cons field fields ih =>
      unfold readFieldItems at hread
      split at hread
      · next hnext =>
        obtain rfl := Except.error.inj hread
        exact .inl ((clean_nextItem _ _).of_eq hnext)
      · split at hread
        · obtain rfl := Except.error.inj hread
          exact .inr (.inl ⟨_, rfl⟩)
        · simp at hread
      · next after hmore =>
        have hlead := lead_of_nextItem hmore
        split at hread
        · next hvalue =>
          obtain rfl := Except.error.inj hread
          exact .inr (.inr ⟨[], field, fields, [], _, text, after, rfl, rfl, .done, by simp, hlead,
            hvalue⟩)
        · next d following hvalue =>
          obtain ⟨blanks, more, hblanks, rfl, hspelled, -, hgood⟩ := hinner _ _ _ _ hvalue
          refine (ih hread).imp_right (Or.imp_right ?_)
          rintro ⟨first, next, last, items, isNext, place, inside, rfl, hlength, hpasses, hall,
            hnext, hfault⟩
          refine ⟨field :: first, next, last, d :: items, isNext, place, inside, rfl,
            by simpa using hlength, .item (hlead.append_blanks hblanks) hspelled hpasses, ?_, hnext,
            hfault⟩
          rw [List.zip_cons_cons, List.forall_mem_cons]
          exact ⟨hgood, hall⟩

/-! ## Records -/

theorem acceptField_eq_ok {record : RecordShape ρ} {inner : Shape ρ → Reader}
    {read : List (String × Document)} {name : String} {value : Reader}
    (haccept : acceptField record inner read name = .ok value) :
    ∃ field, record.field? name = some field ∧ name ∉ read.map Prod.fst ∧
      value = inner field.shape := by
  unfold acceptField at haccept
  split at haccept
  · simp at haccept
  · next field hfield =>
    split at haccept
    · simp at haccept
    · next hnew =>
      refine ⟨field, hfield, ?_, (Except.ok.inj haccept).symm⟩
      intro hmem
      obtain ⟨m, hm, hsame⟩ := List.mem_map.1 hmem
      exact hnew (List.any_eq_true.2 ⟨m, hm, by simpa using hsame⟩)

/-- A key is rejected because it is not declared or because it was there before. -/
theorem acceptField_eq_error {record : RecordShape ρ} {inner : Shape ρ → Reader}
    {read : List (String × Document)} {name : String} {cause : Cause}
    (haccept : acceptField record inner read name = .error cause) :
    name ∉ record.names ∧ cause = .unknownField name record.names ∨
      name ∈ record.names ∧ cause = .duplicateField name := by
  unfold acceptField at haccept
  split at haccept
  · next hnone =>
    exact .inl ⟨RecordShape.field?_eq_none.1 hnone, (Except.error.inj haccept).symm⟩
  · next field hfield =>
    split at haccept
    · exact .inr ⟨RecordShape.mem_names_of_field? hfield, (Except.error.inj haccept).symm⟩
    · simp at haccept

theorem missingField?_eq_some {record : RecordShape ρ} {members : List (String × Document)}
    {name : String} (hmissing : missingField? record members = some name) :
    name ∈ record.names := by
  obtain ⟨field, hfield, rfl⟩ := Option.map_eq_some_iff.1 hmissing
  exact List.mem_map_of_mem (List.mem_of_find?_eq_some hfield)

/-- The order of the members makes no difference to their fitting a record. -/
theorem MembersFit.of_reverse {budget : Nat} {record : ρ} {members : List (String × Document)}
    (hfit : MembersFit grammar budget record members.reverse) :
    MembersFit grammar budget record members where
  keys := by
    have hkeys := hfit.keys
    rwa [List.map_reverse, List.nodup_reverse] at hkeys
  declared := fun m hm => hfit.declared m (List.mem_reverse.2 hm)
  values := fun m hm => hfit.values m (List.mem_reverse.2 hm)

section Record

variable {budget : Nat} {inner : Shape ρ → Reader}
  (hinner : ∀ shape, Delivers (inner shape) (Fits grammar budget shape))
  (hfaults : ∀ shape text fault, inner shape text = .error fault →
    StopsFor grammar budget shape text fault.cause)

include hinner hfaults

private theorem readRecordObject_fault {bound : Nat} {record : ρ} {text : List Char} {fault : Fault}
    (hread : readRecordObject bound (grammar record) inner text = .error fault) :
    Reaches grammar (fun budget shape text => Refuses grammar budget shape text fault.cause)
      (budget + 1) (.record record) ('\x7b' :: text) := by
  unfold readRecordObject at hread
  split at hread
  · next hmembers =>
    obtain rfl := Except.error.inj hread
    have hstart : MembersFit grammar budget record [] := ⟨by simp, by simp, by simp⟩
    obtain hsyntactic | ⟨members, isNext, more, spelled, name, after, hpasses, hfit, hlead, hname,
      hstop⟩ := readMembers_fault (acceptField_sound hinner) hstart hmembers
    · exact .here (.malformed hsyntactic)
    rw [List.append_nil] at hfit hstop
    obtain hrejected | ⟨value, between, inside, haccept, hbetween, rfl, hvalue⟩ := hstop
    · -- The key is not a field of the record, or not a new one.
      obtain ⟨hundeclared, hcause⟩ | ⟨hdeclared, hcause⟩ := acceptField_eq_error hrejected
      · rw [hcause]
        exact .here (.undeclared (.object hpasses hfit.of_reverse hlead hname hundeclared))
      · rw [hcause]
        exact .here (.duplicate hdeclared)
    · -- The fault is inside the value of the key.
      obtain ⟨field, hfield, hnew, rfl⟩ := acceptField_eq_ok haccept
      obtain ⟨blanks, place, hblanks, rfl, hreaches⟩ := hfaults _ _ _ hvalue
      rw [List.map_reverse, List.mem_reverse] at hnew
      exact .member hpasses hfit.of_reverse hlead hname hbetween hblanks hfield hnew hreaches
  · split at hread
    · next hmissing =>
      obtain rfl := Except.error.inj hread
      exact .here (.missing (missingField?_eq_some hmissing))
    · simp at hread

private theorem readRecordList_fault {record : ρ} {text : List Char} {fault : Fault}
    (hread : readRecordList (grammar record) inner text = .error fault) :
    Reaches grammar (fun budget shape text => Refuses grammar budget shape text fault.cause)
      (budget + 1) (.record record) ('[' :: text) := by
  unfold readRecordList at hread
  split at hread
  · next hitems =>
    obtain rfl := Except.error.inj hread
    obtain hsyntactic | ⟨count, hcause⟩ | ⟨first, field, last, items, isNext, more, inside, hfields,
      hlength, hpasses, hfits, hlead, hvalue⟩ := readFieldItems_fault hinner hitems
    · exact .here (.malformed hsyntactic)
    · rw [hcause]
      exact .here .tooFew
    · obtain ⟨blanks, place, hblanks, rfl, hreaches⟩ := hfaults _ _ _ hvalue
      exact .place hpasses hfields hlength hfits (hlead.append_blanks hblanks) hreaches
  · simp at hread

private theorem readList_fault {bound : Nat} {item : Shape ρ} {text : List Char} {fault : Fault}
    (hread : readList bound (inner item) text = .error fault) :
    Reaches grammar (fun budget shape text => Refuses grammar budget shape text fault.cause)
      (budget + 1) (.list item) ('[' :: text) := by
  unfold readList at hread
  split at hread
  · next hitems =>
    obtain rfl := Except.error.inj hread
    obtain hsyntactic | ⟨items, isNext, more, inside, hpasses, hfits, hlead, hvalue⟩ :=
      readItems_fault (hinner item) hitems
    · exact .here (.malformed hsyntactic)
    · obtain ⟨blanks, place, hblanks, rfl, hreaches⟩ := hfaults _ _ _ hvalue
      exact .item hpasses hfits (hlead.append_blanks hblanks) hreaches
  · simp at hread

end Record

/-! ## Values of the wrong form -/

/-- A value in place of another is read, which may fail, and then reported. -/
theorem mismatch_cause (bound : Nat) (expected : String) (text : List Char) :
    (mismatch bound expected text).cause.isSyntactic = true ∨
      ∃ found, (mismatch bound expected text).cause = .wrongForm found expected ∧
        ∀ s, found = .text s → Quotes text s.toList := by
  unfold mismatch
  split
  · split
    · next hscan => exact .inl ((clean_scanWord _ _).of_eq hscan)
    · exact .inr ⟨_, rfl, nofun⟩
  · split
    · next hscan => exact .inl ((clean_scanWord _ _).of_eq hscan)
    · exact .inr ⟨_, rfl, nofun⟩
  · split
    · next hscan => exact .inl ((clean_scanWord _ _).of_eq hscan)
    · exact .inr ⟨_, rfl, nofun⟩
  · split
    · next hscan => exact .inl ((clean_scanText _ _).of_eq hscan)
    · next s after hscan =>
      obtain ⟨value, hspelled, rfl⟩ := spellsText_of_scanText hscan
      refine .inr ⟨_, rfl, fun t ht => ?_⟩
      obtain rfl := Found.text.inj ht
      rw [String.toList_ofList]
      exact quotes_cons_quote hspelled
  · exact .inr ⟨_, rfl, nofun⟩
  · exact .inr ⟨_, rfl, nofun⟩
  · split
    · split
      · next hscan => exact .inl ((clean_scanNumber _).of_eq hscan)
      · exact .inr ⟨_, rfl, nofun⟩
    · exact .inl rfl
  · exact .inl rfl

/-- A value of the wrong form in place of one of the shape. -/
theorem refuses_mismatch {shape : Shape ρ} {expected : String}
    (hexpected : Expects grammar shape expected) (budget bound : Nat) {text source : List Char}
    (hsuffix : text <:+ source) :
    Refuses grammar budget shape source (mismatch bound expected text).cause := by
  obtain hsyntactic | ⟨found, hcause, hquotes⟩ := mismatch_cause bound expected text
  · exact .malformed hsyntactic
  · rw [hcause]
    exact .wrongForm hexpected fun s hs => (hquotes s hs).of_isSuffix hsuffix

/-! ## Choices -/

private theorem refuses_readName {bound budget : Nat} {names : List String}
    {text source : List Char} {fault : Fault} (hread : readName bound names text = .error fault)
    (hsuffix : '"' :: text <:+ source) :
    Refuses grammar budget (.choice names) source fault.cause := by
  unfold readName at hread
  split at hread
  · next hscan =>
    obtain rfl := Except.error.inj hread
    exact .malformed ((clean_scanText _ _).of_eq hscan)
  · next name after hscan =>
    split at hread
    · simp at hread
    · obtain rfl := Except.error.inj hread
      obtain ⟨value, hspelled, rfl⟩ := spellsText_of_scanText hscan
      refine .unknownVariant ?_
      rw [String.toList_ofList]
      exact (quotes_cons_quote hspelled).of_isSuffix hsuffix

private theorem refuses_readUnit {bound budget : Nat} {names : List String}
    {text source : List Char} {fault : Fault} (hread : readUnit bound text = .error fault)
    (hsuffix : text <:+ source) :
    Refuses grammar budget (.choice names) source fault.cause := by
  unfold readUnit at hread
  split at hread
  · exact .malformed ((clean_scanWord _ _).of_eq hread)
  · obtain rfl := Except.error.inj hread
    exact .malformed rfl
  · obtain rfl := Except.error.inj hread
    exact refuses_mismatch (.choice names) _ _ ((List.dropWhile_suffix _).trans hsuffix)

private theorem refuses_readChoiceObject {bound budget : Nat} {names : List String}
    {text : List Char} {fault : Fault} (hread : readChoiceObject bound names text = .error fault) :
    Refuses grammar budget (.choice names) ('\x7b' :: text) fault.cause := by
  have hskipped : skipBlanks text <:+ '\x7b' :: text :=
    (List.dropWhile_suffix _).trans (List.suffix_cons _ _)
  unfold readChoiceObject at hread
  split at hread
  · obtain rfl := Except.error.inj hread
    exact .malformed rfl
  · next c more hskip =>
    rw [hskip] at hskipped
    split at hread
    · next hquote =>
      subst hquote
      split at hread
      · next hname =>
        obtain rfl := Except.error.inj hread
        exact refuses_readName hname hskipped
      · next name afterName hname =>
        split at hread
        · next hcolon =>
          obtain rfl := Except.error.inj hread
          exact .malformed ((clean_readColon _).of_eq hcolon)
        · next afterColon hcolon =>
          split at hread
          · next hunit =>
            obtain rfl := Except.error.inj hread
            -- What follows the colon is still a part of the object.
            obtain ⟨-, value, hspelled, -⟩ := readName_eq_ok hname
            obtain ⟨between, -, rfl⟩ := readColon_eq_ok.1 hcolon
            have hafter : afterColon <:+ '"' :: more := by
              refine List.IsSuffix.trans ?_ (hspelled.isSuffix.trans (List.suffix_cons _ _))
              exact (List.suffix_cons _ _).trans (List.suffix_append _ _)
            exact refuses_readUnit hunit (hafter.trans hskipped)
          · split at hread
            · obtain rfl := Except.error.inj hread
              exact .malformed rfl
            · split at hread
              · simp at hread
              · obtain rfl := Except.error.inj hread
                exact .malformed rfl
    · split at hread
      all_goals
        obtain rfl := Except.error.inj hread
        exact .malformed rfl

private theorem refuses_readChoiceName {bound budget : Nat} {names : List String}
    {text : List Char} {fault : Fault} (hread : readChoiceName bound names text = .error fault) :
    Refuses grammar budget (.choice names) ('"' :: text) fault.cause := by
  unfold readChoiceName at hread
  split at hread
  · next hname =>
    obtain rfl := Except.error.inj hread
    exact refuses_readName hname (List.suffix_refl _)
  · simp at hread

private theorem refuses_readCount {budget : Nat} {label : String} {text : List Char} {fault : Fault}
    (hread : readCount label text = .error fault) :
    Refuses grammar budget (.count label) text fault.cause := by
  unfold readCount at hread
  split at hread
  · next hscan =>
    obtain rfl := Except.error.inj hread
    exact .malformed ((clean_scanNumber _).of_eq hscan)
  · unfold countOf at hread
    split at hread
    · simp at hread
    · obtain rfl := Except.error.inj hread
      exact .negativeCount
    · obtain rfl := Except.error.inj hread
      exact .wrongForm (.count label) nofun

/-! ## One level -/

/-- Where any document is taken, only the syntax is complained about. -/
private theorem StopsFor.isSyntactic {budget : Nat} {text : List Char} {cause : Cause}
    (hstops : StopsFor grammar budget .anything text cause) : cause.isSyntactic = true := by
  obtain ⟨blanks, more, -, -, hreaches⟩ := hstops
  cases hreaches with
  | here hrefuses =>
      cases hrefuses with
      | malformed hsyntactic => exact hsyntactic
      | wrongForm hexpected _ => cases hexpected

section Level

variable {bound limit : Nat} {inner : Option (Shape ρ → Reader)}
  (hinner : ∀ read, inner = some read → ∃ budget, limit = budget + 1 ∧
    (∀ shape, Delivers (read shape) (Fits grammar budget shape)) ∧
    ∀ shape text fault, read shape text = .error fault →
      StopsFor grammar budget shape text fault.cause)

include hinner

/-- Inside a bracket the budget is smaller by one, and without a budget the limit is
reported. -/
private theorem nested_fault {text : List Char} {body : (Shape ρ → Reader) → Scanned Document}
    {shape : Shape ρ} {fault : Fault}
    (hbody : ∀ budget read, (∀ shape, Delivers (read shape) (Fits grammar budget shape)) →
      (∀ shape text fault, read shape text = .error fault →
        StopsFor grammar budget shape text fault.cause) → body read = .error fault →
      Reaches grammar (fun budget shape text => Refuses grammar budget shape text fault.cause)
        (budget + 1) shape text)
    (hread : nested inner text body = .error fault) :
    Reaches grammar (fun budget shape text => Refuses grammar budget shape text fault.cause)
      limit shape text := by
  cases inner with
  | none =>
      obtain rfl := Except.error.inj hread
      exact .here (.malformed rfl)
  | some read =>
      obtain ⟨budget, rfl, hdelivers, hfaults⟩ := hinner read rfl
      exact hbody budget read hdelivers hfaults hread

/-- So it is inside a bracket, if the loop there stops only for what its values stop
for. -/
private theorem isSyntactic_of_nested {text : List Char}
    {body : (Shape ρ → Reader) → Scanned Document} {fault : Fault}
    (hbody : ∀ read good, Delivers (read .anything) good →
      (∀ text fault, read .anything text = .error fault → fault.cause.isSyntactic = true) →
      body read = .error fault → fault.cause.isSyntactic = true)
    (hread : nested inner text body = .error fault) : fault.cause.isSyntactic = true := by
  cases inner with
  | none =>
      obtain rfl := Except.error.inj hread
      rfl
  | some read =>
      obtain ⟨budget, -, hdelivers, hfaults⟩ := hinner read rfl
      exact hbody read _ (hdelivers .anything)
        (fun text fault hvalue => (hfaults .anything text fault hvalue).isSyntactic) hread

private theorem readAnything_fault {c : Char} {more : List Char} {fault : Fault}
    (hread : readAnything bound inner c more = .error fault) : fault.cause.isSyntactic = true := by
  unfold readAnything at hread
  split at hread
  · exact (clean_readText _ _).of_eq hread
  split at hread
  · refine isSyntactic_of_nested hinner ?_ hread
    intro read good hdelivers hfaults hbody
    unfold readList at hbody
    split at hbody
    · next hitems =>
      obtain rfl := Except.error.inj hbody
      obtain hsyntactic | ⟨_, _, _, _, -, -, -, hvalue⟩ := readItems_fault hdelivers hitems
      · exact hsyntactic
      · exact hfaults _ _ hvalue
    · simp at hbody
  split at hread
  · refine isSyntactic_of_nested hinner ?_ hread
    intro read good hdelivers hfaults hbody
    unfold readObject at hbody
    split at hbody
    · next hmembers =>
      obtain rfl := Except.error.inj hbody
      -- Every key is taken, so nothing has to be known of the members before it.
      have hstep : ∀ (found : List (String × Document)) (name : String) (value : Reader),
          True → Except.ok (read .anything) = (.ok value : Except Cause Reader) →
          Delivers value fun _ => True := by
        intro found name value _ hsame text d rest hvalue
        obtain rfl := Except.ok.inj hsame
        obtain ⟨blanks, more, hblanks, htext, hspelled, hshorter, -⟩ := hdelivers _ _ _ hvalue
        exact ⟨blanks, more, hblanks, htext, hspelled, hshorter, trivial⟩
      obtain hsyntactic | ⟨_, _, _, _, _, _, -, -, -, -, hrejected | hstop⟩ :=
        readMembers_fault hstep trivial hmembers
      · exact hsyntactic
      · simp at hrejected
      · obtain ⟨value, _, inside, haccept, -, -, hvalue⟩ := hstop
        obtain rfl := Except.ok.inj haccept
        exact hfaults _ _ hvalue
    · simp at hbody
  split at hread
  · exact (clean_readWord _ _ _).of_eq hread
  split at hread
  · exact (clean_readWord _ _ _).of_eq hread
  split at hread
  · exact (clean_readWord _ _ _).of_eq hread
  split at hread
  · exact (clean_readNumber _).of_eq hread
  · obtain rfl := Except.error.inj hread
    rfl

/-- A document by its first character and its shape. -/
theorem readStarting_fault {c : Char} {more : List Char} {shape : Shape ρ} {fault : Fault}
    (hread : readStarting grammar bound inner c more shape = .error fault) :
    Reaches grammar (fun budget shape text => Refuses grammar budget shape text fault.cause)
      limit shape (c :: more) := by
  have hself : c :: more <:+ c :: more := List.suffix_refl _
  induction shape with
  | nullable shape ih =>
      unfold readStarting at hread
      split at hread
      · exact .here (.malformed ((clean_readWord _ _ _).of_eq hread))
      · exact .nullable (ih hread)
  | text =>
      unfold readStarting at hread
      split at hread
      · exact .here (.malformed ((clean_readText _ _).of_eq hread))
      · obtain rfl := Except.error.inj hread
        exact .here (refuses_mismatch .text _ _ hself)
  | flag =>
      unfold readStarting at hread
      split at hread
      · exact .here (.malformed ((clean_readWord _ _ _).of_eq hread))
      split at hread
      · exact .here (.malformed ((clean_readWord _ _ _).of_eq hread))
      · obtain rfl := Except.error.inj hread
        exact .here (refuses_mismatch .flag _ _ hself)
  | count label =>
      unfold readStarting at hread
      split at hread
      · exact .here (refuses_readCount hread)
      · obtain rfl := Except.error.inj hread
        exact .here (refuses_mismatch (.count label) _ _ hself)
  | choice names =>
      unfold readStarting at hread
      split at hread
      · next hquote =>
        subst hquote
        exact .here (refuses_readChoiceName hread)
      split at hread
      · next hopen =>
        subst hopen
        refine nested_fault hinner ?_ hread
        intro budget read _ _ hbody
        exact .here (refuses_readChoiceObject hbody)
      · obtain rfl := Except.error.inj hread
        exact .here (.malformed rfl)
  | anything => exact .here (.malformed (readAnything_fault hinner hread))
  | list item _ =>
      unfold readStarting at hread
      split at hread
      · next hopen =>
        subst hopen
        refine nested_fault hinner ?_ hread
        intro budget read hdelivers hfaults hbody
        exact readList_fault hdelivers hfaults hbody
      · obtain rfl := Except.error.inj hread
        exact .here (refuses_mismatch (.list item) _ _ hself)
  | record name =>
      unfold readStarting at hread
      split at hread
      · next hopen =>
        subst hopen
        refine nested_fault hinner ?_ hread
        intro budget read hdelivers hfaults hbody
        exact readRecordObject_fault hdelivers hfaults hbody
      split at hread
      · next hopen =>
        subst hopen
        refine nested_fault hinner ?_ hread
        intro budget read hdelivers hfaults hbody
        exact readRecordList_fault hdelivers hfaults hbody
      · obtain rfl := Except.error.inj hread
        exact .here (refuses_mismatch (.record name) _ _ hself)

private theorem readWith_fault {shape : Shape ρ} {text : List Char} {fault : Fault}
    (hread : readWith grammar bound inner shape text = .error fault) :
    StopsFor grammar limit shape text fault.cause := by
  obtain ⟨blanks, hblanks, htext⟩ := exists_blanks_append text
  refine ⟨blanks, skipBlanks text, hblanks, htext, ?_⟩
  unfold readWith at hread
  split at hread
  · obtain rfl := Except.error.inj hread
    exact .here (.malformed rfl)
  · next c more hskip =>
    rw [hskip]
    exact readStarting_fault hinner hread

end Level

/-! ## Whole documents -/

/-- **Every fault of the reader is explained by a place that it has come to.** -/
theorem read_fault {bound budget : Nat} {shape : Shape ρ} {text : List Char} {fault : Fault}
    (hread : read grammar bound budget shape text = .error fault) :
    StopsFor grammar budget shape text fault.cause := by
  induction budget generalizing shape text fault with
  | zero => exact readWith_fault (by simp) hread
  | succ budget ih =>
      refine readWith_fault ?_ hread
      intro inner hsame
      obtain rfl : read grammar bound budget = inner := by simpa using hsame
      exact ⟨budget, rfl, read_sound bound budget, fun shape text fault => ih⟩

/-- So is every fault of a whole text. -/
theorem parseChars_fault {shape : Shape ρ} {source : List Char} {fault : Fault}
    (hparse : parseChars grammar shape source = .error fault) :
    StopsFor grammar nestingBudget shape source fault.cause := by
  unfold parseChars at hparse
  split at hparse
  · next hread => exact read_fault (Except.error.inj hparse ▸ hread)
  · split at hparse
    · simp at hparse
    · obtain rfl := Except.error.inj hparse
      exact ⟨[], source, blanks_nil, rfl, .here (.malformed rfl)⟩

end OpSchema.Json
