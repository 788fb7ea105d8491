import OpSchema.Alias.SymbolSet

/-!
# What a slot says about aliasing

The aliasing of a slot names the alias sets that it belongs to, says whether the
operator writes through it, and describes the elements of a container, which
again have an aliasing of their own.

## Main definitions

* `Aliasing`, with builders `read`, `write`, `wildcard`, `containing` and
  `withContained`.
* `Aliasing.render`: the mark of a slot in a signature, such as `(a!)`.
* `Aliasing.overlaps`: two aliasings may share storage at the top level.
* `Aliasing.flatten`: the aliasing and everything that it contains, level by
  level.
-/

namespace OpSchema

/-- The alias sets of a slot, whether it is written through, and the aliasing of
its elements. -/
structure Aliasing where
  sets : SymbolSet
  isWrite : Bool
  contained : List Aliasing

namespace Aliasing

/-! ## Equality -/

mutual

/-- Equality of two aliasings can be decided. -/
def decideEq : (a b : Aliasing) → Decidable (a = b)
  | ⟨sets, isWrite, contained⟩, ⟨sets', isWrite', contained'⟩ =>
    match decEq sets sets', decEq isWrite isWrite', decideEqList contained contained' with
    | .isTrue hsets, .isTrue hwrite, .isTrue hcontained =>
      .isTrue (by rw [hsets, hwrite, hcontained])
    | .isFalse hsets, _, _ => .isFalse fun h => hsets (congrArg Aliasing.sets h)
    | _, .isFalse hwrite, _ => .isFalse fun h => hwrite (congrArg Aliasing.isWrite h)
    | _, _, .isFalse hcontained => .isFalse fun h => hcontained (congrArg Aliasing.contained h)

/-- Equality of two lists of aliasings can be decided. -/
def decideEqList : (as bs : List Aliasing) → Decidable (as = bs)
  | [], [] => .isTrue rfl
  | [], _ :: _ => .isFalse nofun
  | _ :: _, [] => .isFalse nofun
  | a :: as, b :: bs =>
    match decideEq a b, decideEqList as bs with
    | .isTrue hhead, .isTrue htail => .isTrue (by rw [hhead, htail])
    | .isFalse hhead, _ => .isFalse fun h => hhead (List.cons.inj h).1
    | _, .isFalse htail => .isFalse fun h => htail (List.cons.inj h).2

end

instance : DecidableEq Aliasing := decideEq

theorem ext_fields {a b : Aliasing} (hsets : a.sets = b.sets) (hwrite : a.isWrite = b.isWrite)
    (hcontained : a.contained = b.contained) : a = b := by
  cases a
  cases b
  rw [mk.injEq]
  exact ⟨hsets, hwrite, hcontained⟩

/-! ## Builders -/

/-- No set, no write, no elements. -/
def none : Aliasing := ⟨∅, false, []⟩

instance : Inhabited Aliasing := ⟨none⟩

/-- Read-only membership in one set. -/
def read (symbol : String) : Aliasing := ⟨.singleton symbol, false, []⟩

/-- Membership in one set that the operator writes through. -/
def write (symbol : String) : Aliasing := ⟨.singleton symbol, true, []⟩

/-- Read-only membership in the set that may alias anything. -/
def wildcard : Aliasing := read wildcardSymbol

/-- No set of its own, one kind of element. -/
def containing (element : Aliasing) : Aliasing := ⟨∅, false, [element]⟩

/-- Adds a further element at the end. -/
def withContained (a element : Aliasing) : Aliasing :=
  { a with contained := a.contained ++ [element] }

/-! ## Top-level queries -/

/-- One of the sets is the wildcard. -/
def isWildcard (a : Aliasing) : Bool := a.sets.contains wildcardSymbol

/-- The two share a symbol. -/
def intersects (a b : Aliasing) : Bool := a.sets.intersects b.sets

/-- The two may share storage: one of them is the wildcard or they share a
symbol. -/
def overlaps (a b : Aliasing) : Bool :=
  a.isWildcard || b.isWildcard || a.intersects b

/-- Overlapping is symmetric. -/
theorem overlaps_comm (a b : Aliasing) : a.overlaps b = b.overlaps a := by
  simp only [overlaps, intersects, SymbolSet.intersects_comm a.sets b.sets,
    Bool.or_comm a.isWildcard b.isWildcard]

/-- The mark of a slot: its sets between bars and, behind them, an exclamation
mark for a write.  A slot without sets that is not written has no mark. -/
def render (a : Aliasing) : String :=
  if a.sets.isEmpty && !a.isWrite then ""
  else "(" ++ "|".intercalate a.sets.symbols ++ (if a.isWrite then "!" else "") ++ ")"

/-! ## All levels -/

/-- What holds of an aliasing as soon as it holds of all that it contains holds of
every aliasing. -/
@[elab_as_elim]
theorem induction {motive : Aliasing → Prop}
    (hstep : ∀ a, (∀ b ∈ a.contained, motive b) → motive a) (a : Aliasing) : motive a :=
  hstep a fun b _ => induction hstep b
termination_by sizeOf a
decreasing_by
  have hsmaller := List.sizeOf_lt_of_mem ‹b ∈ a.contained›
  cases a
  simp only [mk.sizeOf_spec] at hsmaller ⊢
  omega

mutual

/-- The number of aliasings in the tree. -/
def count : Aliasing → Nat
  | ⟨_, _, contained⟩ => countList contained + 1

/-- The number of aliasings in a list of trees. -/
def countList : List Aliasing → Nat
  | [] => 0
  | a :: as => count a + countList as

end

/-- Visits a queue of aliasings: the first is visited, and what it contains goes
to the end.  The queue is `front` followed by `back` in reverse, so that going to
the end costs no more than what is added. -/
def walk : Nat → List Aliasing → List Aliasing → List Aliasing
  | 0, _, _ => []
  | steps + 1, a :: front, back => a :: walk steps front (a.contained.reverseAux back)
  | steps + 1, [], back =>
    match back.reverse with
    | [] => []
    | a :: front => a :: walk steps front (a.contained.reverseAux [])

/-- The aliasing and all that it contains, at any depth. -/
def flatten (a : Aliasing) : List Aliasing := walk a.count [a] []

/-- Only the queue matters, not where it is divided. -/
theorem walk_eq_walk_nil (steps : Nat) (front back : List Aliasing) :
    walk steps front back = walk steps (front ++ back.reverse) [] := by
  induction steps generalizing front back with
  | zero => rfl
  | succ steps ih =>
      cases front with
      | nil =>
          cases hqueue : back.reverse with
          | nil => simp [walk, hqueue]
          | cons a front => simp [walk, hqueue]
      | cons a front =>
          simp only [walk, List.cons_append]
          rw [ih, ih (front ++ back.reverse)]
          simp [List.reverseAux_eq]

/-- A visit takes the first of the queue and puts what it contains at the end. -/
theorem walk_cons (steps : Nat) (a : Aliasing) (queue : List Aliasing) :
    walk (steps + 1) (a :: queue) [] = a :: walk steps (queue ++ a.contained) [] := by
  rw [walk, walk_eq_walk_nil]
  simp [List.reverseAux_eq]

/-- The first aliasing of all levels is the one at the top. -/
theorem flatten_eq_cons (a : Aliasing) :
    a.flatten = a :: walk (countList a.contained) a.contained [] := by
  obtain ⟨sets, isWrite, contained⟩ := a
  rw [flatten, count, walk_cons, List.nil_append]

end Aliasing

end OpSchema
