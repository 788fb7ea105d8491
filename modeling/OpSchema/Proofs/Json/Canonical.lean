import Mathlib.Data.List.Perm.Basic
import OpSchema.Proofs.Json.Matching

/-!
# Canonical documents

The canonical form of a document has the members of every object in ascending key
order, and of several members with one key only the last.  It keeps all that a
reader of records looks at, as long as no key is repeated: the fields that are
given, by key or by place, and what each of them gives
(`Document.GivesFields.canonical`).

In general it forgets the earlier members of a key.  So it nests no deeper than the
document and has no more numbers in it, but a document whose canonical form has a
shape need not have it.  `Matches.of_canonical` says that repeated keys are the
only reason, and where they have to stand: in an object that is read as a record, all
its keys being names of fields, or in one that is read as a choice, all its keys being
the one name.
-/

namespace OpSchema

/-! ## Collecting -/

namespace Order

variable {α : Type} {key : α → String} {a : α} {l : List α}

/-- A new key only adds its element. -/
theorem insertNew_perm (hnew : key a ∉ l.map key) : (insertNew key a l).Perm (a :: l) := by
  induction l with
  | nil => exact .refl _
  | cons b l ih =>
      rw [List.map_cons, List.mem_cons, not_or] at hnew
      rw [insertNew]
      split
      · exact .refl _
      · rw [if_neg hnew.1]
        exact ((ih hnew.2).cons b).trans (.swap a b l)

/-- Elements with distinct keys are only put in order. -/
theorem collect_perm (hkeys : (l.map key).Nodup) : (collect key l).Perm l := by
  induction l with
  | nil => exact .refl _
  | cons a l ih =>
      rw [List.map_cons, List.nodup_cons] at hkeys
      rw [collect, List.foldr_cons]
      refine (insertNew_perm ?_).trans ((ih hkeys.2).cons a)
      exact fun hmem => hkeys.1 (mem_keys_collect.1 hmem)

/-- Every collected element was there. -/
theorem mem_of_mem_collect (hmem : a ∈ collect key l) : a ∈ l := by
  induction l with
  | nil => exact absurd hmem List.not_mem_nil
  | cons b l ih =>
      rcases mem_of_mem_insertNew hmem with rfl | hmem
      · exact List.mem_cons_self
      · exact List.mem_cons_of_mem b (ih hmem)

theorem nodup_keys_collect (key : α → String) (l : List α) : ((collect key l).map key).Nodup := by
  rw [List.Nodup, List.pairwise_map]
  refine (ascending_collect key l).imp fun {a b} (hless : key a < key b) hsame => ?_
  rw [hsame] at hless
  exact String.lt_irrefl _ hless

end Order

namespace Json

namespace Document

/-! ## The form of a canonical document -/

/-- What holds of a document as soon as it holds of all that it holds directly holds
of every document. -/
@[elab_as_elim]
theorem induction {motive : Document → Prop} (null : motive .null)
    (flag : ∀ value, motive (.flag value)) (number : ∀ value, motive (.number value))
    (text : ∀ value, motive (.text value))
    (list : ∀ items, (∀ d ∈ items, motive d) → motive (.list items))
    (object : ∀ members, (∀ m ∈ members, motive m.2) → motive (.object members))
    (d : Document) : motive d :=
  match d with
  | .null => null
  | .flag value => flag value
  | .number value => number value
  | .text value => text value
  | .list items =>
      list items fun d _ => induction null flag number text list object d
  | .object members =>
      object members fun m _ => induction null flag number text list object m.2
termination_by sizeOf d
decreasing_by
  · have hsmaller := List.sizeOf_lt_of_mem ‹d ∈ items›
    simp only [Document.list.sizeOf_spec]
    omega
  · have hsmaller := List.sizeOf_lt_of_mem ‹m ∈ members›
    obtain ⟨key, value⟩ := m
    simp only [Document.object.sizeOf_spec, Prod.mk.sizeOf_spec] at hsmaller ⊢
    omega

theorem canonical_list (items : List Document) :
    (list items).canonical = list (items.map canonical) := by
  have hitems : canonicalItems items = items.map canonical := by
    induction items with
    | nil => rfl
    | cons d items ih => rw [canonicalItems, ih, List.map_cons]
  rw [canonical, hitems]

/-- The member with its value in canonical form. -/
def canonicalMember (m : String × Document) : String × Document := (m.1, m.2.canonical)

theorem canonical_object (members : List (String × Document)) :
    (object members).canonical = object (Order.collect Prod.fst (members.map canonicalMember)) := by
  have hmembers : canonicalMembers members = members.map canonicalMember := by
    induction members with
    | nil => rfl
    | cons m members ih =>
        obtain ⟨key, d⟩ := m
        rw [canonicalMembers, ih, List.map_cons]
        rfl
  rw [canonical, hmembers]

/-- Members keep their keys. -/
theorem keys_canonicalMember (members : List (String × Document)) :
    (members.map canonicalMember).map Prod.fst = members.map Prod.fst := by
  rw [List.map_map]
  rfl

theorem mem_keys_canonical {members : List (String × Document)} {key : String} :
    key ∈ (Order.collect Prod.fst (members.map canonicalMember)).map Prod.fst ↔
      key ∈ members.map Prod.fst := by
  rw [Order.mem_keys_collect, keys_canonicalMember]

/-- Every member of a canonical object is the canonical form of one that was there. -/
theorem exists_of_mem_canonical {members : List (String × Document)} {m : String × Document}
    (hm : m ∈ Order.collect Prod.fst (members.map canonicalMember)) :
    ∃ old ∈ members, canonicalMember old = m :=
  List.mem_map.1 (Order.mem_of_mem_collect hm)

/-- With distinct keys, no member is lost. -/
theorem mem_canonical {members : List (String × Document)}
    (hkeys : (members.map Prod.fst).Nodup) {m : String × Document} (hm : m ∈ members) :
    canonicalMember m ∈ Order.collect Prod.fst (members.map canonicalMember) := by
  rw [← keys_canonicalMember] at hkeys
  exact (Order.collect_perm hkeys).mem_iff.2 (List.mem_map_of_mem hm)

/-! ## What gets no greater -/

theorem nesting_canonical_le (d : Document) : d.canonical.nesting ≤ d.nesting := by
  induction d using Document.induction with
  | null => exact Nat.le_refl _
  | flag value => exact Nat.le_refl _
  | number value => exact Nat.le_refl _
  | text value => exact Nat.le_refl _
  | list items ih =>
      rw [canonical_list]
      refine nesting_list_le.2 ?_
      rw [List.forall_mem_map]
      intro d hd
      exact Nat.le_trans (ih d hd) (nestingItems_le.1 (Nat.le_refl _) d hd)
  | object members ih =>
      rw [canonical_object]
      refine nesting_object_le.2 fun m hm => ?_
      obtain ⟨old, hold, rfl⟩ := exists_of_mem_canonical hm
      exact Nat.le_trans (ih old hold) (nestingMembers_le.1 (Nat.le_refl _) old hold)

theorem NumberFree.canonical {d : Document} (hfree : d.NumberFree) : d.canonical.NumberFree := by
  induction hfree with
  | null => exact .null
  | flag value => exact .flag value
  | text value => exact .text value
  | list _ ih =>
      rw [canonical_list]
      refine .list ?_
      rw [List.forall_mem_map]
      exact ih
  | object _ ih =>
      rw [canonical_object]
      refine .object fun m hm => ?_
      obtain ⟨old, hold, rfl⟩ := exists_of_mem_canonical hm
      exact ih old hold

/-! ## Fields -/

/-- With distinct keys, a look-up finds the canonical form of what it found. -/
theorem lookup_canonical {members : List (String × Document)}
    (hkeys : (members.map Prod.fst).Nodup) (name : String) :
    (Order.collect Prod.fst (members.map canonicalMember)).lookup name =
      (members.lookup name).map canonical := by
  cases hlookup : members.lookup name with
  | none =>
      rw [List.lookup_eq_none_iff] at hlookup
      refine List.lookup_eq_none_iff.2 fun m hm => ?_
      obtain ⟨old, hold, rfl⟩ := exists_of_mem_canonical hm
      exact hlookup old hold
  | some d =>
      exact lookup_of_mem (Order.nodup_keys_collect _ _)
        (mem_canonical hkeys (mem_of_lookup hlookup))

theorem lookup_zip_canonical (names : List String) (items : List Document) (name : String) :
    (names.zip (items.map canonical)).lookup name =
      ((names.zip items).lookup name).map canonical := by
  induction names generalizing items with
  | nil => rfl
  | cons other names ih =>
      cases items with
      | nil => rfl
      | cons d items =>
          rw [List.map_cons, List.zip_cons_cons, List.zip_cons_cons, List.lookup_cons,
            List.lookup_cons]
          cases name == other with
          | true => rfl
          | false => exact ih items

/-- **The canonical form gives the same fields**, each in its canonical form. -/
theorem GivesFields.canonical {names required : List String} {d : Document}
    {given : String → Option Document} (hgives : d.GivesFields names required given) :
    d.canonical.GivesFields names required fun name => (given name).map canonical := by
  cases hgives with
  | @byKey members hkeys hdeclared hrequired =>
      rw [canonical_object, ← funext (lookup_canonical hkeys)]
      refine .byKey (Order.nodup_keys_collect _ _) ?_ ?_
      · intro m hm
        obtain ⟨old, hold, rfl⟩ := exists_of_mem_canonical hm
        exact hdeclared old hold
      · intro name hname
        exact mem_keys_canonical.2 (hrequired name hname)
  | @byPlace items hlength hrequired =>
      rw [canonical_list, ← funext (lookup_zip_canonical names items)]
      exact .byPlace (by rwa [List.length_map]) (by rwa [List.length_map])

/-! ## What a document was -/

theorem eq_of_canonical_eq_null {d : Document} (hcanonical : d.canonical = null) : d = null := by
  cases d <;> simp_all [canonical]

theorem eq_of_canonical_eq_flag {d : Document} {value : Bool}
    (hcanonical : d.canonical = flag value) : d = flag value := by
  cases d <;> simp_all [canonical]

theorem eq_of_canonical_eq_number {d : Document} {value : Number}
    (hcanonical : d.canonical = number value) : d = number value := by
  cases d <;> simp_all [canonical]

theorem eq_of_canonical_eq_text {d : Document} {value : String}
    (hcanonical : d.canonical = text value) : d = text value := by
  cases d <;> simp_all [canonical]

theorem exists_of_canonical_eq_list {d : Document} {items : List Document}
    (hcanonical : d.canonical = list items) :
    ∃ old, d = list old ∧ old.map canonical = items := by
  cases d with
  | list old =>
      rw [canonical_list] at hcanonical
      exact ⟨old, rfl, list.inj hcanonical⟩
  | _ => simp [canonical] at hcanonical

theorem exists_of_canonical_eq_object {d : Document} {members : List (String × Document)}
    (hcanonical : d.canonical = object members) :
    ∃ old, d = object old ∧ Order.collect Prod.fst (old.map canonicalMember) = members := by
  cases d with
  | object old =>
      rw [canonical_object] at hcanonical
      exact ⟨old, rfl, object.inj hcanonical⟩
  | _ => simp [canonical] at hcanonical

end Document

/-! ## Repeated keys -/

open Document (canonicalMember)

variable {ρ : Type} {grammar : Grammar ρ}

/-- Where the shape has a reader look, the document repeats a key: the name of a
field in an object whose keys all are names of fields, or the name of a choice in an
object that has no other keys. -/
inductive RepeatsKey (grammar : Grammar ρ) : Shape ρ → Document → Prop
  | ofRecord {record : ρ} {members : List (String × Document)}
      (hdeclared : ∀ m ∈ members, m.1 ∈ (grammar record).names)
      (hrepeated : ¬(members.map Prod.fst).Nodup) :
      RepeatsKey grammar (.record record) (.object members)
  | ofChoice {names : List String} {name : String} {members : List (String × Document)}
      (hname : name ∈ names) (hsame : ∀ m ∈ members, m.1 = name) (hseveral : 2 ≤ members.length) :
      RepeatsKey grammar (.choice names) (.object members)
  | inItem {item : Shape ρ} {items : List Document} {d : Document} (hd : d ∈ items)
      (hinside : RepeatsKey grammar item d) : RepeatsKey grammar (.list item) (.list items)
  | inNullable {shape : Shape ρ} {d : Document} (hinside : RepeatsKey grammar shape d) :
      RepeatsKey grammar (.nullable shape) d
  | inField {record : ρ} {members : List (String × Document)} {m : String × Document}
      {field : Field ρ} (hm : m ∈ members)
      (hfield : (grammar record).field? m.1 = Option.some field)
      (hinside : RepeatsKey grammar field.shape m.2) :
      RepeatsKey grammar (.record record) (.object members)
  | inPlace {record : ρ} {items : List Document} {p : Document × Field ρ}
      (hp : p ∈ items.zip (grammar record).fields)
      (hinside : RepeatsKey grammar p.2.shape p.1) :
      RepeatsKey grammar (.record record) (.list items)

/-- An object whose canonical form is a choice is one, unless it repeats its key. -/
private theorem Matches.choice_of_canonical {names : List String} {name : String}
    (hname : name ∈ names) {members : List (String × Document)}
    (hcanonical : Order.collect Prod.fst (members.map canonicalMember) = [(name, .null)])
    (honce : ¬RepeatsKey grammar (.choice names) (.object members)) :
    Matches grammar (.choice names) (.object members) := by
  have hkeys : ∀ m ∈ members, m.1 = name := by
    intro m hm
    have hkey := Document.mem_keys_canonical.2 (List.mem_map_of_mem (f := Prod.fst) hm)
    rw [hcanonical] at hkey
    exact List.mem_singleton.1 hkey
  rcases members with _ | ⟨m, _ | ⟨second, others⟩⟩
  · exact absurd hcanonical nofun
  · obtain ⟨key, d⟩ := m
    have hmember : (key, d.canonical) = (name, Document.null) := List.head_eq_of_cons_eq hcanonical
    obtain ⟨rfl, hnull⟩ := Prod.mk.inj hmember
    rw [Document.eq_of_canonical_eq_null hnull]
    exact .key hname
  · exact absurd (.ofChoice hname hkeys (by simp)) honce

/-- **If the canonical form has a shape, the document has it too unless it repeats a
key.** -/
theorem Matches.of_canonical {shape : Shape ρ} {d : Document}
    (hmatch : Matches grammar shape d.canonical) (honce : ¬RepeatsKey grammar shape d) :
    Matches grammar shape d := by
  generalize hcanonical : d.canonical = form at hmatch
  induction hmatch generalizing d with
  | text value =>
      rw [Document.eq_of_canonical_eq_text hcanonical]
      exact .text value
  | flag value =>
      rw [Document.eq_of_canonical_eq_flag hcanonical]
      exact .flag value
  | count label n =>
      rw [Document.eq_of_canonical_eq_number hcanonical]
      exact .count label n
  | name hname =>
      rw [Document.eq_of_canonical_eq_text hcanonical]
      exact .name hname
  | key hname =>
      obtain ⟨members, rfl, hmembers⟩ := Document.exists_of_canonical_eq_object hcanonical
      exact Matches.choice_of_canonical hname hmembers honce
  | anything => exact .anything d
  | list _ ih =>
      obtain ⟨items, rfl, rfl⟩ := Document.exists_of_canonical_eq_list hcanonical
      refine .list fun e he => ih e.canonical (List.mem_map_of_mem he) ?_ rfl
      exact fun hinside => honce (.inItem he hinside)
  | null shape =>
      rw [Document.eq_of_canonical_eq_null hcanonical]
      exact .null shape
  | some _ ih => exact .some (ih (fun hinside => honce (.inNullable hinside)) hcanonical)
  | @fields record _ _ hdeclared _ hrequired ih =>
      obtain ⟨members, rfl, rfl⟩ := Document.exists_of_canonical_eq_object hcanonical
      have hnames : ∀ m ∈ members, m.1 ∈ (grammar record).names := by
        intro m hm
        obtain ⟨found, hfound, hsame⟩ := List.mem_map.1
          (Document.mem_keys_canonical.2 (List.mem_map_of_mem (f := Prod.fst) hm))
        exact hsame ▸ hdeclared found hfound
      -- All keys are names of fields, so none is repeated, and no member was lost.
      have hkeys : (members.map Prod.fst).Nodup := by
        by_contra hrepeated
        exact honce (.ofRecord hnames hrepeated)
      refine .fields hkeys hnames ?_ ?_
      · intro m hm field hfield
        refine ih _ (Document.mem_canonical hkeys hm) field hfield ?_ rfl
        exact fun hinside => honce (.inField hm hfield hinside)
      · intro field hfield hpresent
        exact Document.mem_keys_canonical.1 (hrequired field hfield hpresent)
  | @places record _ hlength _ hrest ih =>
      obtain ⟨items, rfl, rfl⟩ := Document.exists_of_canonical_eq_list hcanonical
      rw [List.length_map] at hlength hrest
      refine .places hlength ?_ hrest
      intro p hp
      have hpair : (p.1.canonical, p.2) ∈
          (items.map Document.canonical).zip (grammar record).fields := by
        rw [List.zip_map_left]
        exact List.mem_map_of_mem hp
      refine ih _ hpair ?_ rfl
      exact fun hinside => honce (.inPlace hp hinside)

end Json

end OpSchema
