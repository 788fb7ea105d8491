import OpSchema.Order

/-!
# Sets of alias symbols

An alias symbol names a group of slots that may share storage.  A set of symbols
is the ascending list of its elements, so equal sets are equal values.
-/

namespace OpSchema

/-- The symbol of the set that may alias anything. -/
def wildcardSymbol : String := "*"

/-- A finite set of symbols: its elements in ascending order. -/
structure SymbolSet where
  symbols : List String
  ascending : Order.Ascending id symbols

namespace SymbolSet

instance : DecidableEq SymbolSet := fun s t =>
  decidable_of_iff (s.symbols = t.symbols) (by cases s; cases t; simp)

instance : Membership String SymbolSet := ⟨fun s symbol => symbol ∈ s.symbols⟩

instance (symbol : String) (s : SymbolSet) : Decidable (symbol ∈ s) :=
  inferInstanceAs (Decidable (symbol ∈ s.symbols))

/-- The set without elements. -/
def empty : SymbolSet := ⟨[], Order.ascending_nil id⟩

instance : EmptyCollection SymbolSet := ⟨empty⟩

instance : Inhabited SymbolSet := ⟨empty⟩

/-- The elements of a list. -/
def ofList (symbols : List String) : SymbolSet :=
  ⟨Order.collect id symbols, Order.ascending_collect id symbols⟩

/-- The set of one symbol. -/
def singleton (symbol : String) : SymbolSet :=
  ⟨[symbol], List.pairwise_singleton _ symbol⟩

/-- The number of elements. -/
def size (s : SymbolSet) : Nat := s.symbols.length

/-- The set has no element. -/
def isEmpty (s : SymbolSet) : Bool := s.symbols.isEmpty

/-- The symbol is an element. -/
def contains (s : SymbolSet) (symbol : String) : Bool := s.symbols.contains symbol

/-- The two sets share a symbol. -/
def intersects (s t : SymbolSet) : Bool := s.symbols.any t.contains

theorem ext_symbols {s t : SymbolSet} (h : s.symbols = t.symbols) : s = t := by
  cases s; cases t; simp_all

theorem nodup_symbols (s : SymbolSet) : s.symbols.Nodup :=
  s.ascending.imp fun hless => String.ne_of_lt hless

/-- Two sets with the same elements are equal. -/
theorem ext_mem {s t : SymbolSet} (h : ∀ symbol, symbol ∈ s ↔ symbol ∈ t) : s = t := by
  have hperm : s.symbols.Perm t.symbols :=
    (List.perm_ext_iff_of_nodup s.nodup_symbols t.nodup_symbols).2 h
  refine ext_symbols (hperm.eq_of_pairwise ?_ s.ascending t.ascending)
  intro first second _ _ hless hgreater
  exact absurd hgreater (String.lt_asymm hless)

@[simp] theorem mem_ofList {l : List String} {symbol : String} :
    symbol ∈ ofList l ↔ symbol ∈ l := by
  have hkeys := @Order.mem_keys_collect String id l symbol
  simpa [ofList, Membership.mem] using hkeys

@[simp] theorem mem_singleton {symbol other : String} : other ∈ singleton symbol ↔ other = symbol :=
  List.mem_singleton

/-- A set is the set of its elements. -/
@[simp] theorem ofList_symbols (s : SymbolSet) : ofList s.symbols = s :=
  ext_symbols s.ascending.collect_eq_self

@[simp] theorem contains_iff {s : SymbolSet} {symbol : String} :
    s.contains symbol = true ↔ symbol ∈ s :=
  List.contains_iff_mem

@[simp] theorem intersects_iff {s t : SymbolSet} :
    s.intersects t = true ↔ ∃ symbol, symbol ∈ s ∧ symbol ∈ t := by
  simp [intersects, List.any_eq_true, Membership.mem]

/-- Sharing a symbol is symmetric. -/
theorem intersects_comm (s t : SymbolSet) : s.intersects t = t.intersects s := by
  rw [Bool.eq_iff_iff, intersects_iff, intersects_iff]
  exact exists_congr fun _ => And.comm

end SymbolSet

end OpSchema
