import OpSchema.Operator.Overlap
import OpSchema.Proofs.Alias.Reach
import OpSchema.Proofs.Signature.WellFormed

/-!
# Renaming the symbols of alias sets

The symbols of alias sets are names: all that counts is which of them are equal
and which of them is the wildcard.  A `Renaming` keeps both.  It may well change
the order of the symbols of a set, and with it the order in which they are
visited.

## Main statements

* `Aliasing.IsSound.rename`: what is sound stays sound.
* `Aliasing.overlaps_rename`: overlapping is kept.
* `Aliasing.flatten_rename`: the levels of an aliasing are renamed one by one.
* `Aliasing.slotsOverlap_rename`, `Aliasing.slotsMayOverlap_rename`: two slots are
  judged as before, at the top level and at all levels.

The symbols have to be ones that validation allows.  Another string might be
taken for the wildcard after a renaming, or two of them might be taken for one.
-/

namespace OpSchema

/-! ## Symbols -/

/-- The wildcard or an identifier. -/
def IsSymbol (s : String) : Prop := s = "*" ∨ IsIdentifier s

theorem not_isIdentifier_wildcard : ¬IsIdentifier "*" := by
  rw [← isIdentifier_iff]
  decide

/-- Another name for every identifier, and different names for different ones.
The wildcard keeps its name. -/
structure Renaming where
  toFun : String → String
  wildcard : toFun "*" = "*"
  identifier : ∀ s, IsIdentifier s → IsIdentifier (toFun s)
  injective : ∀ s t, IsIdentifier s → IsIdentifier t → toFun s = toFun t → s = t

namespace Renaming

instance : CoeFun Renaming fun _ => String → String := ⟨toFun⟩

variable (r : Renaming)

theorem isSymbol {s : String} (hs : IsSymbol s) : IsSymbol (r s) := by
  rcases hs with rfl | hs
  · exact .inl r.wildcard
  · exact .inr (r.identifier s hs)

/-- No identifier becomes the wildcard. -/
theorem eq_wildcard_iff {s : String} (hs : IsSymbol s) : r s = "*" ↔ s = "*" := by
  rcases hs with rfl | hs
  · exact iff_of_true r.wildcard rfl
  · refine iff_of_false ?_ ?_
    · intro hsame
      exact not_isIdentifier_wildcard (hsame ▸ r.identifier s hs)
    · rintro rfl
      exact not_isIdentifier_wildcard hs

theorem eq_iff {s t : String} (hs : IsSymbol s) (ht : IsSymbol t) : r s = r t ↔ s = t := by
  constructor
  · intro hsame
    rcases hs with rfl | hs
    · rw [r.wildcard] at hsame
      exact ((r.eq_wildcard_iff ht).1 hsame.symm).symm
    · rcases ht with rfl | ht
      · rw [r.wildcard] at hsame
        exact (r.eq_wildcard_iff (.inr hs)).1 hsame
      · exact r.injective s t hs ht hsame
  · rintro rfl
    rfl

end Renaming

/-- The renamed symbols of a set. -/
def SymbolSet.rename (r : Renaming) (s : SymbolSet) : SymbolSet :=
  .ofList (s.symbols.map r)

@[simp] theorem SymbolSet.mem_rename {r : Renaming} {s : SymbolSet} {symbol : String} :
    symbol ∈ s.rename r ↔ ∃ old ∈ s, r old = symbol := by
  rw [rename, mem_ofList, List.mem_map]
  rfl

/-! ## Aliasings -/

namespace Aliasing

mutual

/-- The aliasing with other names for its symbols, at all levels. -/
def rename (r : Renaming) : Aliasing → Aliasing
  | ⟨sets, isWrite, contained⟩ => ⟨sets.rename r, isWrite, renameList r contained⟩

/-- A list of aliasings with other names for their symbols. -/
def renameList (r : Renaming) : List Aliasing → List Aliasing
  | [] => []
  | a :: as => rename r a :: renameList r as

end

theorem renameList_eq_map (r : Renaming) (as : List Aliasing) :
    renameList r as = as.map (rename r) := by
  induction as with
  | nil => rfl
  | cons a as ih => rw [renameList, ih, List.map_cons]

variable {r : Renaming} {a b : Aliasing}

@[simp] theorem sets_rename : (a.rename r).sets = a.sets.rename r := by
  cases a
  rfl

@[simp] theorem isWrite_rename : (a.rename r).isWrite = a.isWrite := by
  cases a
  rfl

@[simp] theorem contained_rename : (a.rename r).contained = a.contained.map (rename r) := by
  cases a
  exact renameList_eq_map r _

/-! ## Soundness -/

/-- What is sound stays sound. -/
theorem IsSound.rename (hsound : a.IsSound) : (a.rename r).IsSound := by
  refine ⟨?_, ?_, ?_⟩
  · intro symbol hmem
    rw [sets_rename, SymbolSet.mem_rename] at hmem
    obtain ⟨old, hold, rfl⟩ := hmem
    exact r.isSymbol (hsound.symbols old hold)
  · intro hwildcard symbol hmem
    rw [sets_rename, SymbolSet.mem_rename] at hwildcard hmem
    obtain ⟨star, hstar, hsame⟩ := hwildcard
    obtain ⟨old, hold, rfl⟩ := hmem
    -- The wildcard comes from the wildcard, so it stood alone before.
    obtain rfl := (r.eq_wildcard_iff (hsound.symbols star hstar)).1 hsame
    rw [hsound.wildcard hstar old hold, r.wildcard]
  · intro hwrite
    rw [isWrite_rename] at hwrite
    obtain ⟨symbol, hsymbol⟩ := hsound.write hwrite
    refine ⟨r symbol, ?_⟩
    rw [sets_rename, SymbolSet.mem_rename]
    exact ⟨symbol, hsymbol, rfl⟩

/-- What lies below a renamed aliasing is what lay below the old one, renamed. -/
theorem LiesBelow.exists_of_rename {levels : Nat} (hbelow : LiesBelow levels (a.rename r) b) :
    ∃ old, LiesBelow levels a old ∧ b = old.rename r := by
  induction levels generalizing a with
  | zero =>
      cases hbelow
      exact ⟨a, .top a, rfl⟩
  | succ levels ih =>
      cases hbelow with
      | inside hinside hbelow =>
          rw [contained_rename, List.mem_map] at hinside
          obtain ⟨element, helement, rfl⟩ := hinside
          obtain ⟨old, hold, hsame⟩ := ih hbelow
          exact ⟨old, .inside helement hold, hsame⟩

/-! ## The top level -/

/-- All symbols of the aliasing are ones that validation allows. -/
def HasSymbols (a : Aliasing) : Prop := ∀ symbol ∈ a.sets, IsSymbol symbol

theorem isWildcard_rename (ha : a.HasSymbols) : (a.rename r).isWildcard = a.isWildcard := by
  rw [Bool.eq_iff_iff, isWildcard, isWildcard, SymbolSet.contains_iff, SymbolSet.contains_iff,
    sets_rename, SymbolSet.mem_rename, wildcardSymbol]
  constructor
  · rintro ⟨old, hold, hsame⟩
    rwa [← (r.eq_wildcard_iff (ha old hold)).1 hsame]
  · intro hmem
    exact ⟨"*", hmem, r.wildcard⟩

theorem intersects_rename (ha : a.HasSymbols) (hb : b.HasSymbols) :
    (a.rename r).intersects (b.rename r) = a.intersects b := by
  rw [Bool.eq_iff_iff, intersects, intersects, SymbolSet.intersects_iff, SymbolSet.intersects_iff]
  simp only [sets_rename, SymbolSet.mem_rename]
  constructor
  · rintro ⟨symbol, ⟨left, hleft, rfl⟩, ⟨right, hright, hsame⟩⟩
    obtain rfl := (r.eq_iff (hb right hright) (ha left hleft)).1 hsame
    exact ⟨right, hleft, hright⟩
  · rintro ⟨symbol, hleft, hright⟩
    exact ⟨r symbol, ⟨symbol, hleft, rfl⟩, ⟨symbol, hright, rfl⟩⟩

theorem overlaps_rename (ha : a.HasSymbols) (hb : b.HasSymbols) :
    (a.rename r).overlaps (b.rename r) = a.overlaps b := by
  simp only [overlaps, isWildcard_rename ha, isWildcard_rename hb, intersects_rename ha hb]

/-! ## All levels -/

theorem count_rename : (a.rename r).count = a.count := by
  have hlist : ∀ as : List Aliasing, (∀ b ∈ as, (b.rename r).count = b.count) →
      countList (as.map (rename r)) = countList as := by
    intro as has
    induction as with
    | nil => rfl
    | cons b as ih =>
        obtain ⟨hfirst, hothers⟩ := List.forall_mem_cons.1 has
        rw [List.map_cons, countList, countList, hfirst, ih hothers]
  induction a using Aliasing.induction with
  | hstep a ih => rw [count_eq, count_eq, contained_rename, hlist a.contained ih]

/-- Renamed aliasings are visited in the order of the old ones. -/
theorem walk_rename (steps : Nat) (queue : List Aliasing) :
    walk steps (queue.map (rename r)) [] = (walk steps queue []).map (rename r) := by
  induction steps generalizing queue with
  | zero => rfl
  | succ steps ih =>
      cases queue with
      | nil => simp only [List.map_nil, walk_nil]
      | cons a queue =>
          rw [List.map_cons, walk_cons, walk_cons, List.map_cons, contained_rename,
            ← List.map_append, ih]

theorem flatten_rename : (a.rename r).flatten = a.flatten.map (rename r) := by
  rw [flatten, flatten, count_rename]
  exact walk_rename a.count [a]

/-! ## Two slots -/

/-- All symbols of the slot's aliasing, at any depth, are ones that validation
allows. -/
def SlotHasSymbols (aliasing : Option Aliasing) : Prop :=
  ∀ top ∈ aliasing, ∀ b ∈ top.flatten, b.HasSymbols

theorem hasSymbols_of_slot {aliasing : Option Aliasing} (hslot : SlotHasSymbols aliasing)
    (ha : a ∈ aliasing) : a.HasSymbols := by
  refine hslot a ha a ?_
  rw [flatten_eq_cons]
  exact List.mem_cons_self

theorem any_isWildcard_rename {as : List Aliasing} (has : ∀ a ∈ as, a.HasSymbols) :
    (as.map (rename r)).any isWildcard = as.any isWildcard := by
  rw [Bool.eq_iff_iff, List.any_eq_true, List.any_eq_true]
  constructor
  · rintro ⟨_, hmem, hwildcard⟩
    obtain ⟨a, ha, rfl⟩ := List.mem_map.1 hmem
    exact ⟨a, ha, isWildcard_rename (has a ha) ▸ hwildcard⟩
  · rintro ⟨a, ha, hwildcard⟩
    exact ⟨a.rename r, List.mem_map_of_mem ha, (isWildcard_rename (has a ha)).trans hwildcard⟩

theorem listsOverlap_rename {left right : List Aliasing} (hleft : left ≠ []) (hright : right ≠ [])
    (hleftSymbols : ∀ a ∈ left, a.HasSymbols) (hrightSymbols : ∀ b ∈ right, b.HasSymbols) :
    listsOverlap (left.map (rename r)) (right.map (rename r)) = listsOverlap left right := by
  rw [Bool.eq_iff_iff, listsOverlap_iff hleft hright,
    listsOverlap_iff (by simpa using hleft) (by simpa using hright)]
  constructor
  · rintro ⟨_, hleftMem, _, hrightMem, hoverlaps⟩
    obtain ⟨a, ha, rfl⟩ := List.mem_map.1 hleftMem
    obtain ⟨b, hb, rfl⟩ := List.mem_map.1 hrightMem
    rw [overlaps_rename (hleftSymbols a ha) (hrightSymbols b hb)] at hoverlaps
    exact ⟨a, ha, b, hb, hoverlaps⟩
  · rintro ⟨a, ha, b, hb, hoverlaps⟩
    refine ⟨a.rename r, List.mem_map_of_mem ha, b.rename r, List.mem_map_of_mem hb, ?_⟩
    rw [overlaps_rename (hleftSymbols a ha) (hrightSymbols b hb), hoverlaps]

variable {left right : Option Aliasing}

/-- **Two slots alias as before.** -/
theorem slotsOverlap_rename (hleft : SlotHasSymbols left) (hright : SlotHasSymbols right) :
    slotsOverlap (left.map (rename r)) (right.map (rename r)) = slotsOverlap left right := by
  cases left with
  | none =>
      cases right with
      | none => rfl
      | some b => exact isWildcard_rename (hasSymbols_of_slot hright rfl)
  | some a =>
      have ha : a.HasSymbols := hasSymbols_of_slot hleft rfl
      cases right with
      | none => exact isWildcard_rename ha
      | some b => exact overlaps_rename ha (hasSymbols_of_slot hright rfl)

/-- **Two slots may contain an alias as before.** -/
theorem slotsMayOverlap_rename (hleft : SlotHasSymbols left) (hright : SlotHasSymbols right) :
    slotsMayOverlap (left.map (rename r)) (right.map (rename r)) = slotsMayOverlap left right := by
  cases left with
  | none =>
      cases right with
      | none => rfl
      | some b =>
          simp only [Option.map_some, Option.map_none, slotsMayOverlap, flatten_rename]
          exact any_isWildcard_rename (hright b rfl)
  | some a =>
      cases right with
      | none =>
          simp only [Option.map_some, Option.map_none, slotsMayOverlap, flatten_rename]
          exact any_isWildcard_rename (hleft a rfl)
      | some b =>
          simp only [Option.map_some, slotsMayOverlap, flatten_rename]
          exact listsOverlap_rename a.flatten_ne_nil b.flatten_ne_nil (hleft a rfl) (hright b rfl)

end Aliasing

end OpSchema
