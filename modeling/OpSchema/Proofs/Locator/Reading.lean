import OpSchema.Locator
import OpSchema.Proofs.Json.LongNumbers

/-!
# Reading locators

A locator counts positions below `2 ^ 64`, and the text of a locator can have any number
for its index.  Reading such a text gives the locator with this very index, or nothing: an
index that is too large is not cut down to 64 bits (`decode_eq_ok_iff_of_spellsLocator`).
What is written for a locator is one of these texts, whatever its index
(`spellsLocator_encode`), so a locator survives being written and read.

An object has to have the two keys and no others, each once
(`exists_diagnostic_of_keysAmiss`).
-/

namespace OpSchema

open Json

/-- The document names the list of slots, alone or as the key of an object. -/
def SlotKind.IsNamedBy (kind : SlotKind) (d : Document) : Prop :=
  d = .text kind.label ∨ d = .object [(kind.label, .null)]

namespace SlotKind.IsNamedBy

variable {kind : SlotKind} {d : Document}

theorem matches_choice {ρ : Type} {grammar : Grammar ρ} (hnamed : kind.IsNamedBy d) :
    Matches grammar (.choice ["input", "output"]) d := by
  have hlabel : kind.label ∈ ["input", "output"] := by cases kind <;> decide
  rcases hnamed with rfl | rfl
  · exact .name hlabel
  · exact .key hlabel

theorem kindOfDocument (hnamed : kind.IsNamedBy d) : Locator.kindOfDocument d = kind := by
  rcases hnamed with rfl | rfl <;> simp [Locator.kindOfDocument]

theorem nesting_le (hnamed : kind.IsNamedBy d) : d.nesting ≤ 1 := by
  rcases hnamed with rfl | rfl <;> simp [Document.nesting, Document.nestingMembers]

theorem ne_natural (hnamed : kind.IsNamedBy d) (n : Nat) : d ≠ .natural n := by
  rcases hnamed with rfl | rfl <;> simp [Document.natural]

end SlotKind.IsNamedBy

namespace Locator

/-- A text of a locator with a kind and an index, in either order and with any blanks.  The
index is written by its digits, however many. -/
def SpellsLocator (source : String) (kind : SlotKind) (n : Nat) : Prop :=
  ∃ named members, kind.IsNamedBy named ∧
    members.Perm [("kind", named), ("index", .natural n)] ∧
    SpellsObject SpellsLong source.toList members

/-- What can be wrong with the keys of an object that should be a locator. -/
inductive KeysAmiss (keys : List String) : Prop
  | repeated (hkeys : ¬keys.Nodup)
  | missing {name : String} (hname : name ∈ ["kind", "index"]) (habsent : name ∉ keys)
  | undeclared {key : String} (hkey : key ∈ keys) (hother : key ∉ ["kind", "index"])

/-! ## Documents of locators -/

theorem decode_eq_ok_iff {source : String} {l : Locator} :
    decode source = .ok l ↔
      ∃ d, SpellsWhole source.toList d ∧ Fits grammar nestingBudget (.record ()) d ∧
        ofDocument d = l := by
  unfold decode
  cases hparse : parse grammar (.record ()) source with
  | error diagnostic =>
      refine ⟨nofun, ?_⟩
      rintro ⟨d, hspelled, hfits, -⟩
      exact absurd (hparse.symm.trans (parse_eq_ok_iff.2 ⟨hspelled, hfits⟩)) (by simp)
  | ok d =>
      constructor
      · intro hread
        obtain ⟨hspelled, hfits⟩ := parse_eq_ok_iff.1 hparse
        exact ⟨d, hspelled, hfits, Except.ok.inj hread⟩
      · rintro ⟨e, hspelled, hfits, rfl⟩
        have hsame := hparse.symm.trans (parse_eq_ok_iff.2 ⟨hspelled, hfits⟩)
        rw [Except.ok.inj hsame]

/-- An object with a kind and an index is a document of the locator. -/
theorem fits_object {kind : SlotKind} {n : Nat} {named : Document}
    {members : List (String × Document)} (hnamed : kind.IsNamedBy named)
    (hmembers : members.Perm [("kind", named), ("index", .natural n)]) :
    Fits grammar nestingBudget (.record ()) (.object members) ∧
      ofDocument (.object members) = ⟨kind, n⟩ := by
  have hmem : ∀ m, m ∈ members ↔ m = ("kind", named) ∨ m = ("index", .natural n) := by
    intro m
    rw [hmembers.mem_iff]
    simp
  have hkeys : (members.map Prod.fst).Perm ["kind", "index"] := hmembers.map Prod.fst
  have hdistinct : (members.map Prod.fst).Nodup := hkeys.nodup_iff.2 (by decide)
  refine ⟨⟨.fields hdistinct ?_ ?_ ?_, ?_⟩, ?_⟩
  · intro m hm
    exact hkeys.mem_iff.1 (List.mem_map_of_mem hm)
  · intro m hm field hfield
    rcases (hmem m).1 hm with rfl | rfl
    · obtain rfl := Option.some.inj hfield
      exact hnamed.matches_choice
    · obtain rfl := Option.some.inj hfield
      exact .count "usize" n
  · intro field hfield _
    exact hkeys.mem_iff.2 (List.mem_map_of_mem hfield)
  · refine Document.nesting_object_le.2 fun m hm => ?_
    rcases (hmem m).1 hm with rfl | rfl
    · exact Nat.le_trans hnamed.nesting_le (by decide)
    · exact Nat.zero_le _
  · have hkind : members.lookup "kind" = some named :=
      lookup_of_mem hdistinct ((hmem _).2 (.inl rfl))
    have hindex : members.lookup "index" = some (.natural n) :=
      lookup_of_mem hdistinct ((hmem _).2 (.inr rfl))
    simp [ofDocument, Document.field, hkind, hindex, hnamed.kindOfDocument, Document.asNatural,
      Document.natural]

/-- The index in a document of a locator is a natural number. -/
theorem exists_natural_of_matches {members : List (String × Document)} {d : Document}
    (hmatch : Matches grammar (.record ()) (.object members)) (hd : ("index", d) ∈ members) :
    ∃ n, d = .natural n := by
  cases hmatch with
  | fields _ _ hvalues _ =>
      cases hvalues _ hd _ rfl with
      | count _ n => exact ⟨n, rfl⟩

theorem not_keysAmiss_of_matches {members : List (String × Document)}
    (hmatch : Matches grammar (.record ()) (.object members)) :
    ¬KeysAmiss (members.map Prod.fst) := by
  intro hamiss
  cases hmatch with
  | fields hkeys hdeclared _ hrequired =>
      cases hamiss with
      | repeated hrepeated => exact hrepeated hkeys
      | missing hname habsent =>
          have hboth : ∀ field ∈ (grammar ()).fields, field.presence = .required := by decide
          obtain ⟨field, hfield, rfl⟩ := List.mem_map.1 (show _ ∈ (grammar ()).names from hname)
          exact habsent (hrequired field hfield (hboth field hfield))
      | undeclared hkey hother =>
          obtain ⟨m, hm, rfl⟩ := List.mem_map.1 hkey
          exact hother (hdeclared m hm)

/-! ## Texts of locators -/

/-- **A text of a locator is read if its index is below `2 ^ 64`, and then as what it
says.** -/
theorem decode_eq_ok_iff_of_spellsLocator {source : String} {kind : SlotKind} {n : Nat}
    (hsource : SpellsLocator source kind n) {l : Locator} :
    decode source = .ok l ↔ n < 2 ^ 64 ∧ l = ⟨kind, n⟩ := by
  obtain ⟨named, members, hnamed, hmembers, hlong⟩ := hsource
  have hread : n < 2 ^ 64 → decode source = .ok ⟨kind, n⟩ := by
    intro hn
    obtain ⟨hfits, hsame⟩ := fits_object hnamed hmembers
    refine decode_eq_ok_iff.2 ⟨.object members, hlong.spellsWhole ?_, hfits, hsame⟩
    intro m hm k hk
    rw [hmembers.mem_iff] at hm
    rcases List.mem_pair.1 hm with rfl | rfl
    · exact absurd hk (hnamed.ne_natural k)
    · obtain rfl : n = k := by simpa [Document.natural] using hk
      exact hn
  constructor
  · intro hdecode
    have hn : n < 2 ^ 64 := by
      obtain ⟨d, hspelled, ⟨hmatch, -⟩, -⟩ := decode_eq_ok_iff.1 hdecode
      obtain ⟨others, rfl, htaken⟩ := hlong.takenAs hspelled
      have hindex : ("index", Document.natural n) ∈ members := hmembers.mem_iff.2 (by simp)
      obtain ⟨d, hd, hdocument⟩ := exists_takenAs_of_mem htaken hindex
      -- A double is no index.
      obtain ⟨k, rfl⟩ := exists_natural_of_matches hmatch hd
      cases hdocument with
      | same hshort => exact hshort n rfl
    exact ⟨hn, Except.ok.inj (hdecode.symm.trans (hread hn))⟩
  · rintro ⟨hn, rfl⟩
    exact hread hn

theorem spellsLong_label (kind : SlotKind) (rest : List Char) :
    SpellsLong (writeText kind.label ++ rest) (.text kind.label) rest := by
  have hnamed : kind.IsNamedBy (.text kind.label) := .inl rfl
  exact .document hnamed.ne_natural (spells_writeText kind.label rest)

/-- What is written for a locator spells it, whatever the index. -/
theorem spellsLocator_encode (l : Locator) : SpellsLocator l.encode l.kind l.index := by
  have hindex : ∀ rest, SpellsLong ((toString l.index).toList ++ rest) (.natural l.index) rest := by
    intro rest
    rw [Nat.toString_eq_repr, Nat.toList_repr]
    exact .digits l.index rest
  refine ⟨_, _, .inl rfl, .refl _, [], _, [], blanks_nil, blanks_nil, String.toList_ofList, ?_⟩
  exact .member (lead_nothing _) (spellsMember_writeText "kind" (spellsLong_label l.kind _))
    (.member (lead_comma _) (spellsMember_writeText "index" (hindex _)) (.stop blanks_nil))

/-- **An object with a key too many or too few is refused.** -/
theorem exists_diagnostic_of_keysAmiss {source : String} {members : List (String × Document)}
    (hlong : SpellsObject SpellsLong source.toList members)
    (hamiss : KeysAmiss (members.map Prod.fst)) :
    ∃ diagnostic, decode source = .error diagnostic := by
  cases hdecode : decode source with
  | error diagnostic => exact ⟨diagnostic, rfl⟩
  | ok l =>
      obtain ⟨d, hspelled, ⟨hmatch, -⟩, -⟩ := decode_eq_ok_iff.1 hdecode
      obtain ⟨others, rfl, htaken⟩ := hlong.takenAs hspelled
      rw [keys_eq_of_takenAs htaken] at hamiss
      exact absurd hamiss (not_keysAmiss_of_matches hmatch)

/-- **The index of a locator is kept or refused, and never changed.** -/
theorem decode_keeps_index :
    (∀ l : Locator, l.index < 2 ^ 64 → decode l.encode = .ok l) ∧
    (∀ source kind n, SpellsLocator source kind n →
      ∀ l, decode source = .ok l ↔ n < 2 ^ 64 ∧ l = ⟨kind, n⟩) ∧
    ∀ source members, SpellsObject SpellsLong source.toList members →
      KeysAmiss (members.map Prod.fst) → ∃ diagnostic, decode source = .error diagnostic := by
  refine ⟨?_, ?_, ?_⟩
  · intro l hindex
    exact (decode_eq_ok_iff_of_spellsLocator (spellsLocator_encode l)).2 ⟨hindex, rfl⟩
  · intro source kind n hsource l
    exact decode_eq_ok_iff_of_spellsLocator hsource
  · intro source members hlong hamiss
    exact exists_diagnostic_of_keysAmiss hlong hamiss

/-- The greatest index, before the kind, which is the key of an object. -/
def lastOutputSource : String :=
  " \x7b\"index\":18446744073709551615,\"kind\":\x7b\"output\":null\x7d\x7d\n"

/-- An index that is given twice. -/
def repeatedIndexSource : String :=
  "\x7b\"kind\":\"input\",\"index\":0,\"index\":0\x7d"

private theorem spellsLocator_lastOutputSource :
    SpellsLocator lastOutputSource .output 18446744073709551615 := by
  have hindex : ∀ rest, SpellsLong ("18446744073709551615".toList ++ rest)
      (.natural 18446744073709551615) rest := .digits 18446744073709551615
  have hnamed : SlotKind.output.IsNamedBy (.object [("output", .null)]) := .inr rfl
  have hkind : ∀ rest, Spells ('\x7b' :: (writeText "output" ++ ':' :: 'n' :: 'u' :: 'l' :: 'l' ::
      '\x7d' :: rest)) (.object [("output", .null)]) rest :=
    fun rest => .object (.member (lead_nothing _) (spellsMember_writeText "output" .null)
      (.stop blanks_nil))
  refine ⟨_, _, hnamed, .swap _ _ [], [' '], _, ['\n'], by simp [Blanks, isBlank],
    by simp [Blanks, isBlank], rfl, ?_⟩
  exact .member (lead_nothing _) (spellsMember_writeText "index" (hindex _))
    (.member (lead_comma _) (spellsMember_writeText "kind" (.document hnamed.ne_natural (hkind _)))
      (.stop blanks_nil))

private theorem spellsObject_repeatedIndexSource :
    SpellsObject SpellsLong repeatedIndexSource.toList
      [("kind", .text "input"), ("index", .natural 0), ("index", .natural 0)] := by
  refine ⟨[], _, [], blanks_nil, blanks_nil, rfl, ?_⟩
  exact .member (lead_nothing _) (spellsMember_writeText "kind" (spellsLong_label .input _))
    (.member (lead_comma _) (spellsMember_writeText "index" (.digits 0 _))
      (.member (lead_comma _) (spellsMember_writeText "index" (.digits 0 _)) (.stop blanks_nil)))

/-- The greatest index is kept, the next one is refused, and so is an index that is given
twice. -/
theorem decode_lastOutputSource :
    decode (output 18446744073709551615).encode = .ok (output 18446744073709551615) ∧
    (SpellsLocator lastOutputSource .output 18446744073709551615 ∧
      decode lastOutputSource = .ok (output 18446744073709551615)) ∧
    (SpellsLocator (output 18446744073709551616).encode .output 18446744073709551616 ∧
      ∀ l, decode (output 18446744073709551616).encode ≠ .ok l) ∧
    KeysAmiss ["kind", "index", "index"] ∧
    ∃ diagnostic, decode repeatedIndexSource = .error diagnostic := by
  obtain ⟨hencoded, hspelled, hamiss⟩ := decode_keeps_index
  have hlast := spellsLocator_lastOutputSource
  have hnext := spellsLocator_encode (output 18446744073709551616)
  have hkeys : KeysAmiss ["kind", "index", "index"] := .repeated (by decide)
  refine ⟨hencoded _ (by decide), ⟨hlast, ?_⟩, ⟨hnext, fun l hdecode => ?_⟩, hkeys, ?_⟩
  · exact (hspelled _ _ _ hlast _).2 ⟨by decide, rfl⟩
  · exact absurd ((hspelled _ _ _ hnext l).1 hdecode).1 (by decide)
  · exact hamiss _ _ spellsObject_repeatedIndexSource hkeys

end Locator

end OpSchema
