/-!
# Lists in ascending key order

Alias sets, the members of a canonical object and the extra fields of a log
record are all finite and all shown in the order of their keys.  They are kept
as lists whose keys ascend strictly, so that a list determines its elements'
order and holds every key once.

Keys are compared as strings, code point by code point, which is also the order
of their UTF-8 bytes.

## Main definitions

* `Ascending key l`: the keys of `l` ascend strictly.
* `insertNew key a l`: adds `a` unless its key is taken already.
* `collect key l`: the elements of `l` by ascending key; of several elements
  with one key the last is kept.
-/

namespace OpSchema.Order

variable {α : Type}

/-- The keys of the list ascend strictly. -/
def Ascending (key : α → String) (l : List α) : Prop :=
  l.Pairwise fun a b => key a < key b

/-- Adds an element at its place, unless the list has an element with that key. -/
def insertNew (key : α → String) (a : α) : List α → List α
  | [] => [a]
  | b :: l =>
    if key a < key b then a :: b :: l
    else if key a = key b then b :: l
    else b :: insertNew key a l

/-- The elements by ascending key, the last one where a key is repeated. -/
def collect (key : α → String) (l : List α) : List α :=
  l.foldr (insertNew key) []

/-! ## The order is kept -/

theorem ascending_nil (key : α → String) : Ascending key [] :=
  List.Pairwise.nil

/-- An element of the extended list is the new one or an old one. -/
theorem mem_of_mem_insertNew {key : α → String} {a b : α} {l : List α}
    (hmem : b ∈ insertNew key a l) : b = a ∨ b ∈ l := by
  induction l with
  | nil => simpa [insertNew] using hmem
  | cons c l ih =>
      simp only [insertNew] at hmem
      split at hmem
      · simpa using hmem
      · split at hmem
        · exact .inr hmem
        · rcases List.mem_cons.1 hmem with rfl | hmem
          · exact .inr List.mem_cons_self
          · exact (ih hmem).imp_right (List.mem_cons_of_mem c)

/-- Adding an element keeps the keys ascending. -/
theorem Ascending.insertNew {key : α → String} {l : List α} (hl : Ascending key l) (a : α) :
    Ascending key (insertNew key a l) := by
  induction l with
  | nil => exact List.pairwise_singleton _ a
  | cons b l ih =>
      obtain ⟨hbelow, htail⟩ := List.pairwise_cons.1 hl
      simp only [OpSchema.Order.insertNew]
      split
      · next hlt =>
        refine List.pairwise_cons.2 ⟨?_, hl⟩
        intro c hc
        rcases List.mem_cons.1 hc with rfl | hc
        · exact hlt
        · exact String.lt_trans hlt (hbelow c hc)
      · next hnot =>
        split
        · exact hl
        · next hne =>
          refine List.pairwise_cons.2 ⟨?_, ih htail⟩
          intro c hc
          rcases mem_of_mem_insertNew hc with rfl | hc
          · exact Decidable.byContradiction fun hge =>
              hne (String.le_antisymm (String.not_lt.1 hge) (String.not_lt.1 hnot))
          · exact hbelow c hc

/-- Collected elements ascend. -/
theorem ascending_collect (key : α → String) (l : List α) : Ascending key (collect key l) := by
  induction l with
  | nil => exact ascending_nil key
  | cons a l ih => exact ih.insertNew a

/-! ## The keys are kept -/

/-- Adding an element adds its key and no other. -/
theorem mem_keys_insertNew {key : α → String} {a : α} {l : List α} {k : String} :
    k ∈ (insertNew key a l).map key ↔ k = key a ∨ k ∈ l.map key := by
  induction l with
  | nil => simp [insertNew]
  | cons b l ih =>
      simp only [insertNew]
      split
      · simp
      · split
        · next heq =>
          simp only [List.map_cons, List.mem_cons, heq]
          exact ⟨.inr, fun h => h.elim .inl id⟩
        · simp only [List.map_cons, List.mem_cons, ih]
          exact or_left_comm

/-- Collecting keeps the keys. -/
theorem mem_keys_collect {key : α → String} {l : List α} {k : String} :
    k ∈ (collect key l).map key ↔ k ∈ l.map key := by
  induction l with
  | nil => simp [collect]
  | cons a l ih =>
      simp only [collect, List.foldr_cons, mem_keys_insertNew, List.map_cons, List.mem_cons]
      exact or_congr_right ih

/-- An ascending list is collected as it stands. -/
theorem Ascending.collect_eq_self {key : α → String} {l : List α} (hl : Ascending key l) :
    collect key l = l := by
  induction l with
  | nil => rfl
  | cons a l ih =>
      obtain ⟨hbelow, htail⟩ := List.pairwise_cons.1 hl
      have hfold : l.foldr (OpSchema.Order.insertNew key) [] = l := ih htail
      rw [collect, List.foldr_cons, hfold]
      cases l with
      | nil => rfl
      | cons b l => rw [OpSchema.Order.insertNew, if_pos (hbelow b List.mem_cons_self)]

/-- The order of a list is a decidable property. -/
instance (key : α → String) (l : List α) : Decidable (Ascending key l) :=
  inferInstanceAs (Decidable (l.Pairwise fun a b => key a < key b))

end OpSchema.Order
