import OpSchema.Proofs.Json.Soundness

/-!
# Places in a text

A reader that has not come to the end of a text stands at a place of it: past items
and members that have their shapes, inside the brackets that are still open.
`Reaches` says how it comes to a place, without the reader.  What is left to read
at the place plays no part in that, so a text may lead to a place and go wrong
behind it.

## Main definitions

* `Document.Holds`: the parts of a document, each spelled at a place of its text.
* `PassesItems`, `PassesMembers`: items and members at the front of a text.
* `Reaches`: the ways to a place.
* `Quotes`: what stands between quotes in a text.
-/

namespace OpSchema.Json

variable {ρ : Type} {grammar : Grammar ρ}

/-! ## What is left -/

theorem SpellsItems.isSuffix {value : Spelling} {isFirst : Bool} {text rest : List Char}
    {items : List Document} (hspelled : SpellsItems value isFirst text items rest)
    (hvalues : ∀ d ∈ items, ∀ text rest, value text d rest → rest <:+ text) : rest <:+ text := by
  induction hspelled with
  | @stop _ blanks rest _ => exact (List.suffix_cons _ _).trans (List.suffix_append blanks _)
  | item hlead hvalue _ ih =>
      rw [List.forall_mem_cons] at hvalues
      exact (ih hvalues.2).trans ((hvalues.1 _ _ hvalue).trans hlead.isSuffix)

/-- A member ends with its value. -/
theorem SpellsMember.exists_value {value : Spelling} {text rest : List Char}
    {m : String × Document} (hspelled : SpellsMember value text m rest) :
    ∃ inside, value inside m.2 rest ∧ inside <:+ text := by
  cases hspelled with
  | @member key text before blanks more _ d hkey _ _ hvalue =>
      have hmore : more <:+ before ++ ':' :: (blanks ++ more) :=
        (List.suffix_append blanks more).trans
          ((List.suffix_cons _ _).trans (List.suffix_append before _))
      exact ⟨more, hvalue, hmore.trans (hkey.isSuffix.trans (List.suffix_cons _ _))⟩

theorem SpellsMember.isSuffix {value : Spelling} {text rest : List Char} {m : String × Document}
    (hspelled : SpellsMember value text m rest)
    (hvalues : ∀ text rest, value text m.2 rest → rest <:+ text) : rest <:+ text := by
  obtain ⟨inside, hvalue, hinside⟩ := hspelled.exists_value
  exact (hvalues _ _ hvalue).trans hinside

theorem SpellsMembers.isSuffix {value : Spelling} {isFirst : Bool} {text rest : List Char}
    {members : List (String × Document)} (hspelled : SpellsMembers value isFirst text members rest)
    (hvalues : ∀ m ∈ members, ∀ text rest, value text m.2 rest → rest <:+ text) :
    rest <:+ text := by
  induction hspelled with
  | @stop _ blanks rest _ => exact (List.suffix_cons _ _).trans (List.suffix_append blanks _)
  | member hlead hmember _ ih =>
      rw [List.forall_mem_cons] at hvalues
      exact (ih hvalues.2).trans ((hmember.isSuffix hvalues.1).trans hlead.isSuffix)

/-- What follows a document is a part of the text. -/
theorem Spells.isSuffix {text rest : List Char} {d : Document} (hspelled : Spells text d rest) :
    rest <:+ text := by
  induction hdepth : d.nesting using Nat.strong_induction_on generalizing text d rest with
  | _ depth ih =>
      subst hdepth
      cases hspelled with
      | null => exact List.suffix_append ['n', 'u', 'l', 'l'] rest
      | flagTrue => exact List.suffix_append ['t', 'r', 'u', 'e'] rest
      | flagFalse => exact List.suffix_append ['f', 'a', 'l', 's', 'e'] rest
      | number _ hscan =>
          obtain ⟨c, more, htext, hsuffix⟩ := isSuffix_of_scanNumber hscan
          rw [htext]
          exact hsuffix.trans (List.suffix_cons c more)
      | text htext => exact htext.isSuffix.trans (List.suffix_cons _ _)
      | list hitems =>
          refine (hitems.isSuffix ?_).trans (List.suffix_cons _ _)
          intro d hd text rest hvalue
          exact ih _ (Document.nesting_lt_list hd) hvalue rfl
      | object hmembers =>
          refine (hmembers.isSuffix ?_).trans (List.suffix_cons _ _)
          intro m hm text rest hvalue
          exact ih _ (Document.nesting_lt_object hm) hvalue rfl

/-! ## Parts of a document -/

/-- The other document is an item of this one, or the value of a member. -/
def Document.Holds (d part : Document) : Prop :=
  part ∈ d.asList ∨ ∃ key, (key, part) ∈ d.asMembers

theorem Document.field_eq_null_or_holds (names : List String) (name : String) (d : Document) :
    d.field names name = .null ∨ d.Holds (d.field names name) := by
  cases d with
  | object members =>
      cases hlookup : members.lookup name with
      | none => exact .inl (by rw [field, hlookup, Option.getD_none])
      | some value =>
          rw [field, hlookup, Option.getD_some]
          exact .inr (.inr ⟨name, mem_of_lookup hlookup⟩)
  | list items =>
      cases hlookup : (names.zip items).lookup name with
      | none => exact .inl (by rw [field, hlookup, Option.getD_none])
      | some value =>
          rw [field, hlookup, Option.getD_some]
          exact .inr (.inl (List.of_mem_zip (mem_of_lookup hlookup)).2)
  | null => exact .inl rfl
  | flag value => exact .inl rfl
  | number value => exact .inl rfl
  | text value => exact .inl rfl

theorem SpellsItems.exists_item {isFirst : Bool} {text rest : List Char} {items : List Document}
    (hspelled : SpellsItems Spells isFirst text items rest) {d : Document} (hd : d ∈ items) :
    ∃ inside after, Spells inside d after ∧ inside <:+ text := by
  induction hspelled with
  | stop => exact absurd hd List.not_mem_nil
  | @item _ _ more after _ _ _ hlead hvalue _ ih =>
      rcases List.mem_cons.1 hd with rfl | hd
      · exact ⟨more, after, hvalue, hlead.isSuffix⟩
      · obtain ⟨inside, behind, hinside, hsuffix⟩ := ih hd
        exact ⟨inside, behind, hinside, hsuffix.trans (hvalue.isSuffix.trans hlead.isSuffix)⟩

theorem SpellsMembers.exists_member {isFirst : Bool} {text rest : List Char}
    {members : List (String × Document)} (hspelled : SpellsMembers Spells isFirst text members rest)
    {m : String × Document} (hm : m ∈ members) :
    ∃ inside after, Spells inside m.2 after ∧ inside <:+ text := by
  induction hspelled with
  | stop => exact absurd hm List.not_mem_nil
  | member hlead hmember _ ih =>
      rcases List.mem_cons.1 hm with rfl | hm
      · obtain ⟨inside, hvalue, hinside⟩ := hmember.exists_value
        exact ⟨inside, _, hvalue, hinside.trans hlead.isSuffix⟩
      · obtain ⟨inside, behind, hinside, hsuffix⟩ := ih hm
        have hbehind := hmember.isSuffix fun _ _ hvalue => hvalue.isSuffix
        exact ⟨inside, behind, hinside, hsuffix.trans (hbehind.trans hlead.isSuffix)⟩

/-- **A part of a document is spelled at a place of its text.** -/
theorem Spells.exists_part {text rest : List Char} {d part : Document}
    (hspelled : Spells text d rest) (hpart : d.Holds part) :
    ∃ inside after, Spells inside part after ∧ inside <:+ text := by
  cases hspelled with
  | list hitems =>
      obtain hitem | ⟨_, hmember⟩ := hpart
      · obtain ⟨inside, after, hinside, hsuffix⟩ := hitems.exists_item hitem
        exact ⟨inside, after, hinside, hsuffix.trans (List.suffix_cons _ _)⟩
      · exact absurd hmember List.not_mem_nil
  | object hmembers =>
      obtain hitem | ⟨key, hmember⟩ := hpart
      · exact absurd hitem List.not_mem_nil
      · obtain ⟨inside, after, hinside, hsuffix⟩ := hmembers.exists_member hmember
        exact ⟨inside, after, hinside, hsuffix.trans (List.suffix_cons _ _)⟩
  | null | flagTrue | flagFalse | number | text =>
      obtain hitem | ⟨_, hmember⟩ := hpart
      · exact absurd hitem List.not_mem_nil
      · exact absurd hmember List.not_mem_nil

/-- A document takes at least one character. -/
theorem Spells.length_lt {text rest : List Char} {d : Document} (hspelled : Spells text d rest) :
    rest.length < text.length := by
  cases hspelled with
  | null | flagTrue | flagFalse =>
      simp only [List.length_cons]
      omega
  | number _ hscan => exact length_lt_of_scanNumber hscan
  | text htext => exact Nat.lt_succ_of_le htext.isSuffix.length_le
  | list hitems =>
      exact Nat.lt_succ_of_le (hitems.isSuffix fun _ _ _ _ hd => hd.isSuffix).length_le
  | object hmembers =>
      exact Nat.lt_succ_of_le (hmembers.isSuffix fun _ _ _ _ hd => hd.isSuffix).length_le

/-- Every item takes at least one character. -/
theorem SpellsItems.length_lt {isFirst : Bool} {text rest : List Char} {items : List Document}
    (hspelled : SpellsItems Spells isFirst text items rest) :
    items.length + rest.length < text.length := by
  induction hspelled with
  | stop =>
      simp only [List.length_nil, List.length_append, List.length_cons]
      omega
  | item hlead hvalue _ ih =>
      have hmore := hlead.isSuffix.length_le
      have hafter := hvalue.length_lt
      rw [List.length_cons]
      omega

/-- A list has no more items than its text has characters. -/
theorem Spells.length_asList_le {text rest : List Char} {d : Document}
    (hspelled : Spells text d rest) : d.asList.length ≤ text.length := by
  cases hspelled with
  | list hitems =>
      have hless := hitems.length_lt
      rw [Document.asList, List.length_cons]
      omega
  | null | flagTrue | flagFalse | number | text | object => exact Nat.zero_le _

/-! ## Items and members -/

/-- The text begins with items, and more may follow.  The flags say whether an item
that comes next is the first of its list. -/
inductive PassesItems : Bool → List Char → List Document → Bool → List Char → Prop
  | done {isFirst : Bool} {text : List Char} : PassesItems isFirst text [] isFirst text
  | item {isFirst isNext : Bool} {text more after rest : List Char} {d : Document}
      {items : List Document} (hlead : Lead isFirst text more) (hvalue : Spells more d after)
      (hitems : PassesItems false after items isNext rest) :
      PassesItems isFirst text (d :: items) isNext rest

/-- The text begins with members, and more may follow. -/
inductive PassesMembers : Bool → List Char → List (String × Document) → Bool → List Char → Prop
  | done {isFirst : Bool} {text : List Char} : PassesMembers isFirst text [] isFirst text
  | member {isFirst isNext : Bool} {text more after rest : List Char} {m : String × Document}
      {members : List (String × Document)} (hlead : Lead isFirst text more)
      (hmember : SpellsMember Spells more m after)
      (hmembers : PassesMembers false after members isNext rest) :
      PassesMembers isFirst text (m :: members) isNext rest

theorem PassesItems.isSuffix {isFirst isNext : Bool} {text more : List Char} {items : List Document}
    (hpasses : PassesItems isFirst text items isNext more) : more <:+ text := by
  induction hpasses with
  | done => exact List.suffix_rfl
  | item hlead hvalue _ ih => exact ih.trans (hvalue.isSuffix.trans hlead.isSuffix)

theorem PassesMembers.isSuffix {isFirst isNext : Bool} {text more : List Char}
    {members : List (String × Document)}
    (hpasses : PassesMembers isFirst text members isNext more) : more <:+ text := by
  induction hpasses with
  | done => exact List.suffix_rfl
  | member hlead hmember _ ih =>
      exact ih.trans ((hmember.isSuffix fun _ _ hvalue => hvalue.isSuffix).trans hlead.isSuffix)

/-! ## The way to a place -/

/-- Reading the text as a document of the shape comes to a place where `stop`
holds of the budget, the shape and the text that the reader has then. -/
inductive Reaches (grammar : Grammar ρ) (stop : Nat → Shape ρ → List Char → Prop) :
    Nat → Shape ρ → List Char → Prop
  | here {budget : Nat} {shape : Shape ρ} {text : List Char} (hstop : stop budget shape text) :
      Reaches grammar stop budget shape text
  | nullable {budget : Nat} {shape : Shape ρ} {text : List Char}
      (hinside : Reaches grammar stop budget shape text) :
      Reaches grammar stop budget (.nullable shape) text
  /-- Into the item of a list. -/
  | item {budget : Nat} {item : Shape ρ} {text more inside : List Char} {items : List Document}
      {isNext : Bool} (hbefore : PassesItems true text items isNext more)
      (hitems : ∀ d ∈ items, Fits grammar budget item d) (hlead : Lead isNext more inside)
      (hinside : Reaches grammar stop budget item inside) :
      Reaches grammar stop (budget + 1) (.list item) ('[' :: text)
  /-- Into the value of a member of a record that is written as an object. -/
  | member {budget : Nat} {record : ρ} {text more spelled between blanks inside : List Char}
      {members : List (String × Document)} {isNext : Bool} {name : String} {field : Field ρ}
      (hbefore : PassesMembers true text members isNext more)
      (hmembers : MembersFit grammar budget record members)
      (hlead : Lead isNext more ('"' :: spelled))
      (hname : SpellsText spelled name.toList (between ++ ':' :: (blanks ++ inside)))
      (hbetween : Blanks between) (hblanks : Blanks blanks)
      (hfield : (grammar record).field? name = some field)
      (hnew : name ∉ members.map Prod.fst)
      (hinside : Reaches grammar stop budget field.shape inside) :
      Reaches grammar stop (budget + 1) (.record record) ('\x7b' :: text)
  /-- Into the value at a place of a record that is written as a list. -/
  | place {budget : Nat} {record : ρ} {text more inside : List Char} {items : List Document}
      {isNext : Bool} {first last : List (Field ρ)} {field : Field ρ}
      (hbefore : PassesItems true text items isNext more)
      (hfields : (grammar record).fields = first ++ field :: last)
      (hlength : items.length = first.length)
      (hitems : ∀ p ∈ items.zip first, Fits grammar budget p.2.shape p.1)
      (hlead : Lead isNext more inside)
      (hinside : Reaches grammar stop budget field.shape inside) :
      Reaches grammar stop (budget + 1) (.record record) ('[' :: text)

theorem Reaches.mono {first second : Nat → Shape ρ → List Char → Prop}
    (hweaker : ∀ budget shape text, first budget shape text → second budget shape text)
    {budget : Nat} {shape : Shape ρ} {text : List Char}
    (hreaches : Reaches grammar first budget shape text) :
    Reaches grammar second budget shape text := by
  induction hreaches with
  | here hstop => exact .here (hweaker _ _ _ hstop)
  | nullable _ ih => exact .nullable ih
  | item hbefore hitems hlead _ ih => exact .item hbefore hitems hlead ih
  | member hbefore hmembers hlead hname hbetween hblanks hfield hnew _ ih =>
      exact .member hbefore hmembers hlead hname hbetween hblanks hfield hnew ih
  | place hbefore hfields hlength hitems hlead _ ih =>
      exact .place hbefore hfields hlength hitems hlead ih

/-- A class of shapes that has with each shape those of its parts. -/
structure ClosedUnderParts (grammar : Grammar ρ) (good : Shape ρ → Prop) : Prop where
  item : ∀ shape, good (.list shape) → good shape
  inner : ∀ shape, good (.nullable shape) → good shape
  field : ∀ record, good (.record record) → ∀ field ∈ (grammar record).fields, good field.shape

/-- The place is one in the text, and its shape is one of those that a part can
have. -/
theorem Reaches.exists_place {good : Shape ρ → Prop} (hparts : ClosedUnderParts grammar good)
    {stop : Nat → Shape ρ → List Char → Prop} {budget : Nat} {shape : Shape ρ} {text : List Char}
    (hshape : good shape) (hreaches : Reaches grammar stop budget shape text) :
    ∃ left place rest, good place ∧ rest <:+ text ∧ stop left place rest := by
  induction hreaches with
  | @here budget shape text hstop => exact ⟨budget, shape, text, hshape, List.suffix_rfl, hstop⟩
  | nullable _ ih => exact ih (hparts.inner _ hshape)
  | item hbefore _ hlead _ ih =>
      obtain ⟨left, place, rest, hgood, hsuffix, hstop⟩ := ih (hparts.item _ hshape)
      exact ⟨left, place, rest, hgood, hsuffix.trans (hlead.isSuffix.trans
        (hbefore.isSuffix.trans (List.suffix_cons _ _))), hstop⟩
  | @member _ _ text more spelled between blanks inside _ _ _ _ hbefore _ hlead hname _ _ hfield _
      _ ih =>
      obtain ⟨left, place, rest, hgood, hsuffix, hstop⟩ :=
        ih (hparts.field _ hshape _ (List.mem_of_find?_eq_some hfield))
      have hinside : inside <:+ between ++ ':' :: (blanks ++ inside) :=
        (List.suffix_append blanks inside).trans
          ((List.suffix_cons _ _).trans (List.suffix_append between _))
      have hmember : inside <:+ '"' :: spelled :=
        hinside.trans (hname.isSuffix.trans (List.suffix_cons _ _))
      exact ⟨left, place, rest, hgood, hsuffix.trans (hmember.trans (hlead.isSuffix.trans
        (hbefore.isSuffix.trans (List.suffix_cons _ _)))), hstop⟩
  | place hbefore hfields _ _ hlead _ ih =>
      obtain ⟨left, place, rest, hgood, hsuffix, hstop⟩ :=
        ih (hparts.field _ hshape _ (by simp [hfields]))
      exact ⟨left, place, rest, hgood, hsuffix.trans (hlead.isSuffix.trans
        (hbefore.isSuffix.trans (List.suffix_cons _ _))), hstop⟩

/-! ## Quoted characters -/

/-- The characters stand between quotes somewhere in the text. -/
def Quotes (text value : List Char) : Prop :=
  ∃ before more rest, text = before ++ '"' :: more ∧ SpellsText more value rest

theorem quotes_cons_quote {text value rest : List Char} (htext : SpellsText text value rest) :
    Quotes ('"' :: text) value :=
  ⟨[], text, rest, rfl, htext⟩

theorem Quotes.of_isSuffix {text source value : List Char} (hsuffix : text <:+ source)
    (hquotes : Quotes text value) : Quotes source value := by
  obtain ⟨front, rfl⟩ := hsuffix
  obtain ⟨before, more, rest, rfl, hspelled⟩ := hquotes
  exact ⟨front ++ before, more, rest, by rw [List.append_assoc], hspelled⟩

private theorem SpellsText.isPrefix_of_notMem {text value rest : List Char}
    (hspelled : SpellsText text value rest) (hplain : '\\' ∉ text) : value <+: text := by
  induction hspelled with
  | close => exact List.nil_prefix
  | @plain c _ _ _ _ _ _ _ ih =>
      exact List.cons_prefix_cons.2 ⟨rfl, ih fun hmem => hplain (List.mem_cons_of_mem c hmem)⟩
  | escape _ _ _ => exact absurd List.mem_cons_self hplain

/-- Without escapes, what is quoted is a part of the text. -/
theorem Quotes.subset {text value : List Char} (hquotes : Quotes text value)
    (hplain : '\\' ∉ text) : value ⊆ text := by
  obtain ⟨before, more, rest, rfl, hspelled⟩ := hquotes
  rw [List.mem_append, List.mem_cons, not_or, not_or] at hplain
  intro c hc
  exact List.mem_append_right _ (List.mem_cons_of_mem _
    ((hspelled.isPrefix_of_notMem hplain.2.2).subset hc))

end OpSchema.Json
