import Mathlib.Data.List.Nodup
import OpSchema.Json.Shape
import OpSchema.Proofs.Json.Spelling

/-!
# Which documents have a shape

`Matches grammar shape d` says that the document `d` is one that a reader for
the shape gives: without a text, without faults, and without a limit on the
nesting, which `Document.nesting` measures.
-/

namespace OpSchema.Json

/-! ## Nesting -/

namespace Document

mutual

/-- The greatest number of brackets that are open at a time. -/
def nesting : Document → Nat
  | list items => nestingItems items + 1
  | object members => nestingMembers members + 1
  | _ => 0

/-- The nesting inside the items of a list. -/
def nestingItems : List Document → Nat
  | [] => 0
  | d :: ds => max (nesting d) (nestingItems ds)

/-- The nesting inside the members of an object. -/
def nestingMembers : List (String × Document) → Nat
  | [] => 0
  | (_, d) :: ms => max (nesting d) (nestingMembers ms)

end

@[simp] theorem nesting_null : null.nesting = 0 := rfl

@[simp] theorem nesting_flag (value : Bool) : (flag value).nesting = 0 := rfl

@[simp] theorem nesting_text (value : String) : (text value).nesting = 0 := rfl

theorem nestingItems_le {items : List Document} {n : Nat} :
    nestingItems items ≤ n ↔ ∀ d ∈ items, d.nesting ≤ n := by
  induction items with
  | nil => simp [nestingItems]
  | cons d items ih => rw [nestingItems, Nat.max_le, ih, List.forall_mem_cons]

theorem nestingMembers_le {members : List (String × Document)} {n : Nat} :
    nestingMembers members ≤ n ↔ ∀ m ∈ members, m.2.nesting ≤ n := by
  induction members with
  | nil => simp [nestingMembers]
  | cons m members ih =>
      obtain ⟨key, d⟩ := m
      rw [nestingMembers, Nat.max_le, ih, List.forall_mem_cons]

theorem nesting_list_le {items : List Document} {n : Nat} :
    (list items).nesting ≤ n + 1 ↔ ∀ d ∈ items, d.nesting ≤ n := by
  rw [nesting, Nat.add_le_add_iff_right, nestingItems_le]

theorem nesting_object_le {members : List (String × Document)} {n : Nat} :
    (object members).nesting ≤ n + 1 ↔ ∀ m ∈ members, m.2.nesting ≤ n := by
  rw [nesting, Nat.add_le_add_iff_right, nestingMembers_le]

end Document

/-! ## Shapes -/

variable {ρ : Type}

/-- The document has the shape.  A record is an object with some of its fields,
each once and every required one among them, or the list of its first fields,
where those that are left out have a default. -/
inductive Matches (grammar : Grammar ρ) : Shape ρ → Document → Prop
  | text (value : String) : Matches grammar .text (.text value)
  | flag (value : Bool) : Matches grammar .flag (.flag value)
  | count (label : String) (n : Nat) : Matches grammar (.count label) (.number (.natural n))
  | name {names : List String} {name : String} (hname : name ∈ names) :
      Matches grammar (.choice names) (.text name)
  | key {names : List String} {name : String} (hname : name ∈ names) :
      Matches grammar (.choice names) (.object [(name, .null)])
  | anything (d : Document) : Matches grammar .anything d
  | list {item : Shape ρ} {items : List Document} (hitems : ∀ d ∈ items, Matches grammar item d) :
      Matches grammar (.list item) (.list items)
  | null (shape : Shape ρ) : Matches grammar (.nullable shape) .null
  | some {shape : Shape ρ} {d : Document} (hd : Matches grammar shape d) :
      Matches grammar (.nullable shape) d
  | fields {record : ρ} {members : List (String × Document)}
      (hkeys : (members.map Prod.fst).Nodup)
      (hdeclared : ∀ m ∈ members, m.1 ∈ (grammar record).names)
      (hvalues : ∀ m ∈ members, ∀ field, (grammar record).field? m.1 = Option.some field →
        Matches grammar field.shape m.2)
      (hrequired : ∀ field ∈ (grammar record).fields, field.presence = .required →
        field.name ∈ members.map Prod.fst) :
      Matches grammar (.record record) (.object members)
  | places {record : ρ} {items : List Document}
      (hlength : items.length ≤ (grammar record).fields.length)
      (hvalues : ∀ p ∈ items.zip (grammar record).fields, Matches grammar p.2.shape p.1)
      (hrest : ∀ field ∈ (grammar record).fields.drop items.length, field.presence = .defaulted) :
      Matches grammar (.record record) (.list items)

theorem RecordShape.exists_field {record : RecordShape ρ} {name : String}
    (hname : name ∈ record.names) : ∃ field, record.field? name = some field := by
  obtain ⟨field, hfield, rfl⟩ := List.mem_map.1 hname
  refine Option.isSome_iff_exists.1 (List.find?_isSome.2 ⟨field, hfield, ?_⟩)
  simp

theorem RecordShape.mem_names_of_field? {record : RecordShape ρ} {name : String} {field : Field ρ}
    (hfield : record.field? name = some field) : name ∈ record.names := by
  have hsame : field.name = name := by simpa using List.find?_some hfield
  exact hsame ▸ List.mem_map_of_mem (List.mem_of_find?_eq_some hfield)

theorem RecordShape.field?_eq_none {record : RecordShape ρ} {name : String} :
    record.field? name = none ↔ name ∉ record.names := by
  simp [field?, names]

/-- Items that are no more than the fields go with some of them. -/
theorem exists_mem_zip {items : List Document} {fields : List (Field ρ)}
    (hlength : items.length ≤ fields.length) {d : Document} (hd : d ∈ items) :
    ∃ field ∈ fields, (d, field) ∈ items.zip fields := by
  obtain ⟨index, hindex, rfl⟩ := List.getElem_of_mem hd
  have hfield : index < fields.length := by omega
  refine ⟨fields[index], List.getElem_mem hfield, ?_⟩
  exact List.mem_iff_getElem.2 ⟨index, by simp; omega, by simp⟩

/-! ## The fields of a record -/

theorem Document.nesting_lt_list {items : List Document} {d : Document} (hd : d ∈ items) :
    d.nesting < (list items).nesting :=
  Nat.lt_succ_of_le (nestingItems_le.1 (Nat.le_refl _) d hd)

theorem Document.nesting_lt_object {members : List (String × Document)} {m : String × Document}
    (hm : m ∈ members) : m.2.nesting < (object members).nesting :=
  Nat.lt_succ_of_le (nestingMembers_le.1 (Nat.le_refl _) m hm)

theorem mem_of_lookup {members : List (String × Document)} {name : String} {d : Document}
    (hlookup : members.lookup name = some d) : (name, d) ∈ members := by
  induction members with
  | nil => simp at hlookup
  | cons m members ih =>
      obtain ⟨key, value⟩ := m
      by_cases hsame : name = key
      · subst hsame
        obtain rfl : value = d := by simpa using hlookup
        exact List.mem_cons_self
      · rw [List.lookup_cons, beq_false_of_ne hsame] at hlookup
        exact List.mem_cons_of_mem _ (ih hlookup)

/-- A field that is looked up by place comes with the item at its place. -/
private theorem mem_zip_of_lookup {fields : List (Field ρ)} {items : List Document} {name : String}
    {field : Field ρ} {d : Document}
    (hfield : fields.find? (fun field => field.name == name) = some field)
    (hlookup : ((fields.map Field.name).zip items).lookup name = some d) :
    (d, field) ∈ items.zip fields := by
  induction fields generalizing items with
  | nil => simp at hfield
  | cons other fields ih =>
      cases items with
      | nil => simp at hlookup
      | cons item items =>
          -- Both searches stop at the first field of the name.
          by_cases hsame : name = other.name
          · subst hsame
            obtain rfl : other = field := by simpa using hfield
            obtain rfl : item = d := by simpa using hlookup
            exact List.mem_cons_self
          · rw [List.map_cons, List.zip_cons_cons, List.lookup_cons,
              beq_false_of_ne hsame] at hlookup
            rw [List.find?_cons_of_neg (by simpa using Ne.symm hsame)] at hfield
            exact List.mem_cons_of_mem _ (ih hfield hlookup)

/-- A field of a record is absent, or it has its shape and nests less deep than
the record. -/
theorem Matches.field {grammar : Grammar ρ} {record : ρ} {d : Document}
    (hmatch : Matches grammar (.record record) d) {name : String} {field : Field ρ}
    (hfield : (grammar record).field? name = Option.some field) :
    d.field (grammar record).names name = .null ∨
      Matches grammar field.shape (d.field (grammar record).names name) ∧
        (d.field (grammar record).names name).nesting < d.nesting := by
  cases hmatch with
  | @fields _ members _ _ hvalues _ =>
      cases hlookup : members.lookup name with
      | none => exact .inl (by rw [Document.field, hlookup, Option.getD_none])
      | some value =>
          have hmem := mem_of_lookup hlookup
          rw [Document.field, hlookup, Option.getD_some]
          exact .inr ⟨hvalues _ hmem field hfield, Document.nesting_lt_object hmem⟩
  | @places _ items _ hvalues _ =>
      cases hlookup : ((grammar record).names.zip items).lookup name with
      | none => exact .inl (by rw [Document.field, hlookup, Option.getD_none])
      | some value =>
          have hmem := mem_zip_of_lookup hfield hlookup
          rw [Document.field, hlookup, Option.getD_some]
          exact .inr ⟨hvalues _ hmem, Document.nesting_lt_list (List.of_mem_zip hmem).1⟩

/-- The document gives fields of a record with these names, by key or by place, and
`given` says what it gives for each.  By key, no name is given twice and none that
is not declared; by place, only fields at the end are left out. -/
inductive Document.GivesFields (names required : List String) :
    Document → (String → Option Document) → Prop
  | byKey {members : List (String × Document)} (hkeys : (members.map Prod.fst).Nodup)
      (hdeclared : ∀ m ∈ members, m.1 ∈ names)
      (hrequired : ∀ name ∈ required, name ∈ members.map Prod.fst) :
      GivesFields names required (.object members) fun name => members.lookup name
  | byPlace {items : List Document} (hlength : items.length ≤ names.length)
      (hrequired : ∀ name ∈ required, name ∉ names.drop items.length) :
      GivesFields names required (.list items) fun name => (names.zip items).lookup name

theorem Document.GivesFields.field_eq {names required : List String} {d : Document}
    {given : String → Option Document} (hgives : d.GivesFields names required given)
    (name : String) : d.field names name = (given name).getD .null := by
  cases hgives <;> rfl

/-- A field that has to be given is given. -/
theorem Document.GivesFields.ne_none {names required : List String} {d : Document}
    {given : String → Option Document} (hgives : d.GivesFields names required given)
    {name : String} (hname : name ∈ required) (hdeclared : name ∈ names) : given name ≠ none := by
  cases hgives with
  | byKey _ _ hrequired =>
      obtain ⟨m, hm, hkey⟩ := List.mem_map.1 (hrequired name hname)
      intro hnone
      simpa [hkey] using List.lookup_eq_none_iff.1 hnone m hm
  | @byPlace items _ hrequired =>
      have htaken : name ∈ names.take items.length := by
        have hsplit : name ∈ names.take items.length ++ names.drop items.length := by
          rwa [List.take_append_drop]
        exact (List.mem_append.1 hsplit).resolve_right (hrequired name hname)
      obtain ⟨index, hindex, hsame⟩ := List.mem_take_iff_getElem.1 htaken
      have hpair : (name, items[index]) ∈ names.zip items :=
        List.mem_iff_getElem.2 ⟨index, by simp; omega, by simp [hsame]⟩
      intro hnone
      simpa using List.lookup_eq_none_iff.1 hnone _ hpair

/-- The names of the fields that have to be given. -/
def RecordShape.required (record : RecordShape ρ) : List String :=
  (record.fields.filter fun field => field.presence == .required).map Field.name

theorem RecordShape.mem_required {record : RecordShape ρ} {name : String} :
    name ∈ record.required ↔
      ∃ field ∈ record.fields, field.presence = .required ∧ field.name = name := by
  simp [required, and_assoc]

/-- With distinct names, a field is the field of its name. -/
theorem RecordShape.field?_name {record : RecordShape ρ} (hdistinct : record.names.Nodup)
    {field : Field ρ} (hfield : field ∈ record.fields) : record.field? field.name = some field := by
  obtain ⟨found, hfound⟩ := record.exists_field (List.mem_map_of_mem hfield)
  have hsame : found.name = field.name := by simpa using List.find?_some hfound
  have hmem : found ∈ record.fields := List.mem_of_find?_eq_some hfound
  rw [hfound, List.inj_on_of_nodup_map hdistinct hmem hfield hsame]

/-- With distinct keys, every member is the one that is looked up. -/
theorem lookup_of_mem {members : List (String × Document)}
    (hkeys : (members.map Prod.fst).Nodup) {m : String × Document} (hm : m ∈ members) :
    members.lookup m.1 = some m.2 := by
  induction members with
  | nil => exact absurd hm List.not_mem_nil
  | cons first members ih =>
      rw [List.map_cons, List.nodup_cons] at hkeys
      rcases List.mem_cons.1 hm with rfl | hm
      · exact List.lookup_cons_self
      · have hother : m.1 ≠ first.1 := by
          intro hsame
          exact hkeys.1 (hsame ▸ List.mem_map_of_mem hm)
        rw [List.lookup_cons, beq_false_of_ne hother]
        exact ih hkeys.2 hm

/-- With distinct names, every item is looked up by the name of its field. -/
private theorem lookup_of_mem_zip {fields : List (Field ρ)} {items : List Document}
    (hdistinct : (fields.map Field.name).Nodup) {p : Document × Field ρ}
    (hp : p ∈ items.zip fields) :
    ((fields.map Field.name).zip items).lookup p.2.name = some p.1 := by
  induction fields generalizing items with
  | nil => simp at hp
  | cons other fields ih =>
      cases items with
      | nil => simp at hp
      | cons item items =>
          rw [List.map_cons, List.nodup_cons] at hdistinct
          rw [List.map_cons, List.zip_cons_cons]
          rcases List.mem_cons.1 hp with rfl | hp
          · rw [List.lookup_cons_self]
          · have hother : p.2.name ≠ other.name := by
              intro hsame
              exact hdistinct.1 (hsame ▸ List.mem_map_of_mem (List.of_mem_zip hp).2)
            rw [List.lookup_cons, beq_false_of_ne hother]
            exact ih hdistinct.2 hp

/-- **A record is described by what it gives for its fields.** -/
theorem matches_record_iff {grammar : Grammar ρ} {record : ρ}
    (hdistinct : (grammar record).names.Nodup)
    (hpresence : ∀ field ∈ (grammar record).fields, field.presence ≠ .optional) {d : Document} :
    Matches grammar (.record record) d ↔
      ∃ given, d.GivesFields (grammar record).names (grammar record).required given ∧
        ∀ field ∈ (grammar record).fields, ∀ e, given field.name = Option.some e →
          Matches grammar field.shape e := by
  constructor
  · intro hmatch
    cases hmatch with
    | fields hkeys hdeclared hvalues hrequired =>
        refine ⟨_, .byKey hkeys hdeclared ?_, ?_⟩
        · intro name hname
          obtain ⟨field, hfield, hpresent, rfl⟩ := RecordShape.mem_required.1 hname
          exact hrequired field hfield hpresent
        · intro field hfield e he
          exact hvalues _ (mem_of_lookup he) field (RecordShape.field?_name hdistinct hfield)
    | @places _ items hlength hvalues hrest =>
        refine ⟨_, .byPlace (by simpa [RecordShape.names] using hlength) ?_, ?_⟩
        · intro name hname hdropped
          rw [RecordShape.names, ← List.map_drop] at hdropped
          obtain ⟨field, hfield, hpresent, hsame⟩ := RecordShape.mem_required.1 hname
          obtain ⟨other, hother, rfl⟩ := List.mem_map.1 hdropped
          obtain rfl :=
            List.inj_on_of_nodup_map hdistinct hfield (List.mem_of_mem_drop hother) hsame
          rw [hrest field hother] at hpresent
          exact Presence.noConfusion hpresent
        · intro field hfield e he
          exact hvalues _ (mem_zip_of_lookup (RecordShape.field?_name hdistinct hfield) he)
  · rintro ⟨given, hgives, hvalues⟩
    cases hgives with
    | byKey hkeys hdeclared hrequired =>
        refine .fields hkeys hdeclared ?_ ?_
        · intro m hm field hfield
          have hname : field.name = m.1 := by simpa using List.find?_some hfield
          exact hvalues field (List.mem_of_find?_eq_some hfield) m.2
            (hname ▸ lookup_of_mem hkeys hm)
        · intro field hfield hpresent
          exact hrequired _ (RecordShape.mem_required.2 ⟨field, hfield, hpresent, rfl⟩)
    | byPlace hlength hrequired =>
        refine .places (by simpa [RecordShape.names] using hlength) ?_ ?_
        · intro p hp
          exact hvalues p.2 (List.of_mem_zip hp).2 p.1 (lookup_of_mem_zip hdistinct hp)
        · intro field hfield
          have hmem : field ∈ (grammar record).fields := List.mem_of_mem_drop hfield
          cases hpresent : field.presence with
          | defaulted => rfl
          | optional => exact absurd hpresent (hpresence field hmem)
          | required =>
              refine absurd ?_
                (hrequired _ (RecordShape.mem_required.2 ⟨field, hmem, hpresent, rfl⟩))
              rw [RecordShape.names, ← List.map_drop]
              exact List.mem_map_of_mem hfield

/-- The items of a field that holds a list have their shape, two brackets deep in
the record. -/
theorem Matches.item_of_field {grammar : Grammar ρ} {record : ρ} {d : Document}
    (hmatch : Matches grammar (.record record) d) {name : String} {presence : Presence}
    {item : Shape ρ}
    (hfield : (grammar record).field? name = Option.some ⟨name, presence, .list item⟩)
    {e : Document} (he : e ∈ (d.field (grammar record).names name).asList) :
    Matches grammar item e ∧ e.nesting + 2 ≤ d.nesting := by
  rcases hmatch.field hfield with habsent | ⟨hlist, hnesting⟩
  · rw [habsent] at he
    exact absurd he List.not_mem_nil
  · generalize d.field (grammar record).names name = value at he hlist hnesting
    cases hlist with
    | @list _ items hitems =>
        have hinside : e.nesting < (Document.list items).nesting := Document.nesting_lt_list he
        exact ⟨hitems e he, by omega⟩

/-- With every field present and in order, a member goes with the field of its
name. -/
private theorem mem_zip_of_field {fields : List (Field ρ)} {members : List (String × Document)}
    (hnames : members.map Prod.fst = fields.map Field.name)
    (hdistinct : (fields.map Field.name).Nodup) {m : String × Document} (hm : m ∈ members)
    {field : Field ρ} (hfield : fields.find? (fun field => field.name == m.1) = some field) :
    (m, field) ∈ members.zip fields := by
  induction fields generalizing members with
  | nil => simp at hfield
  | cons other fields ih =>
      cases members with
      | nil => exact absurd hm List.not_mem_nil
      | cons first members =>
          rw [List.map_cons, List.map_cons] at hnames
          obtain ⟨hfirst, hnames⟩ := List.cons.inj hnames
          rw [List.map_cons, List.nodup_cons] at hdistinct
          rcases List.mem_cons.1 hm with rfl | hm
          · obtain rfl : other = field := by simpa [hfirst] using hfield
            exact List.mem_cons_self
          · -- A later member has another name, as the names are distinct.
            have hother : other.name ≠ m.1 := by
              intro hsame
              have hkey : m.1 ∈ members.map Prod.fst := List.mem_map_of_mem hm
              rw [hnames, ← hsame] at hkey
              exact hdistinct.1 hkey
            rw [List.find?_cons_of_neg (by simpa using hother)] at hfield
            exact List.mem_cons_of_mem _ (ih hnames hdistinct.2 hm hfield)

/-- An object with every field of a record, in order, has the shape of the record
if the values have the shapes of the fields. -/
theorem Matches.of_allFields {grammar : Grammar ρ} {record : ρ}
    {members : List (String × Document)}
    (hnames : members.map Prod.fst = (grammar record).names)
    (hdistinct : (grammar record).names.Nodup)
    (hvalues : ∀ p ∈ members.zip (grammar record).fields, Matches grammar p.2.shape p.1.2) :
    Matches grammar (.record record) (.object members) := by
  refine .fields (hnames ▸ hdistinct) ?_ ?_ ?_
  · intro m hm
    exact hnames ▸ List.mem_map_of_mem hm
  · intro m hm field hfield
    exact hvalues _ (mem_zip_of_field hnames hdistinct hm hfield)
  · intro field hfield _
    rw [hnames]
    exact List.mem_map_of_mem hfield

/-! ## Shapes without numbers -/

/-- No shape in it is a number or takes any document. -/
def Shape.IsNumberFree : Shape ρ → Prop
  | .count _ => False
  | .anything => False
  | .list item => item.IsNumberFree
  | .nullable inner => inner.IsNumberFree
  | _ => True

/-- A document has no numbers if neither its shape nor the grammar has. -/
theorem Matches.numberFree {grammar : Grammar ρ}
    (hgrammar : ∀ record, ∀ field ∈ (grammar record).fields, field.shape.IsNumberFree)
    {shape : Shape ρ} {d : Document} (hmatch : Matches grammar shape d)
    (hshape : shape.IsNumberFree) : d.NumberFree := by
  induction hmatch with
  | text value => exact .text value
  | flag value => exact .flag value
  | count label n => exact hshape.elim
  | name hname => exact .text _
  | key hname => exact .object (by simpa using .null)
  | anything d => exact hshape.elim
  | list hitems ih => exact .list fun d hd => ih d hd hshape
  | null shape => exact .null
  | some hd ih => exact ih hshape
  | @fields record members hkeys hdeclared hvalues hrequired ih =>
      refine .object fun m hm => ?_
      obtain ⟨field, hfield⟩ := RecordShape.exists_field (hdeclared m hm)
      exact ih m hm field hfield (hgrammar record field (List.mem_of_find?_eq_some hfield))
  | @places record items hlength hvalues hrest ih =>
      refine .list fun d hd => ?_
      obtain ⟨field, hfield, hpair⟩ := exists_mem_zip hlength hd
      exact ih _ hpair (hgrammar record field hfield)

end OpSchema.Json
