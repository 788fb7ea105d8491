import OpSchema.Alias.Aliasing
import OpSchema.Proofs.Signature.Nesting

/-!
# Flattening reaches everything

`Aliasing.flatten` visits a queue that grows while it is visited, and it makes as
many visits as there are aliasings in the tree.  This file compares the visits
with `Aliasing.LiesBelow`, which knows neither a queue nor a number of visits:
what is visited is what lies below the top, at any depth
(`Aliasing.mem_flatten_iff`).

## Strategy

* **Nothing else.**  What a visit puts into the queue lies one level below what
  it takes out.
* **Nothing left.**  The number of aliasings below the queue goes down by one with
  every visit: the one that is visited goes, and what it contains was counted
  below it before.  So visits for all of them are enough to empty the queue
  (`Aliasing.mem_walk_of_liesBelow`).
-/

namespace OpSchema.Aliasing

variable {a b : Aliasing}

/-! ## Counting -/

theorem count_eq (a : Aliasing) : a.count = countList a.contained + 1 := by
  cases a
  rfl

theorem countList_append (first second : List Aliasing) :
    countList (first ++ second) = countList first + countList second := by
  induction first with
  | nil => simp [countList]
  | cons a first ih =>
      rw [List.cons_append, countList, countList, ih]
      omega

theorem walk_nil (steps : Nat) : walk steps [] [] = [] := by
  cases steps <;> rfl

/-! ## Nothing else is visited -/

/-- What is visited lies below what was queued. -/
theorem exists_liesBelow_of_mem_walk {steps : Nat} {queue : List Aliasing}
    (hmem : b ∈ walk steps queue []) : ∃ a ∈ queue, ∃ levels, LiesBelow levels a b := by
  induction steps generalizing queue with
  | zero => exact absurd hmem List.not_mem_nil
  | succ steps ih =>
      cases queue with
      | nil =>
          rw [walk_nil] at hmem
          exact absurd hmem List.not_mem_nil
      | cons a queue =>
          rw [walk_cons, List.mem_cons] at hmem
          rcases hmem with rfl | hmem
          · exact ⟨b, List.mem_cons_self, 0, .top b⟩
          · obtain ⟨top, htop, levels, hbelow⟩ := ih hmem
            rcases List.mem_append.1 htop with htop | htop
            · exact ⟨top, List.mem_cons_of_mem a htop, levels, hbelow⟩
            · exact ⟨a, List.mem_cons_self, levels + 1, .inside htop hbelow⟩

theorem exists_liesBelow_of_mem_flatten (hmem : b ∈ a.flatten) :
    ∃ levels, LiesBelow levels a b := by
  obtain ⟨top, htop, levels, hbelow⟩ := exists_liesBelow_of_mem_walk hmem
  obtain rfl := List.mem_singleton.1 htop
  exact ⟨levels, hbelow⟩

/-! ## Nothing is left -/

/-- With a visit for everything below the queue, everything below it is visited. -/
theorem mem_walk_of_liesBelow {steps : Nat} {queue : List Aliasing}
    (hsteps : countList queue ≤ steps) (ha : a ∈ queue) {levels : Nat}
    (hbelow : LiesBelow levels a b) : b ∈ walk steps queue [] := by
  induction steps generalizing queue a levels with
  | zero =>
      cases queue with
      | nil => exact absurd ha List.not_mem_nil
      | cons first queue =>
          rw [countList, count_eq] at hsteps
          omega
  | succ steps ih =>
      cases queue with
      | nil => exact absurd ha List.not_mem_nil
      | cons first queue =>
          have hnext : countList (queue ++ first.contained) ≤ steps := by
            rw [countList, count_eq] at hsteps
            rw [countList_append]
            omega
          rw [walk_cons, List.mem_cons]
          rcases List.mem_cons.1 ha with rfl | ha
          · -- The top is visited now, and its elements wait at the end of the queue.
            cases hbelow with
            | top => exact .inl rfl
            | inside hinside hbelow =>
                exact .inr (ih hnext (List.mem_append_right queue hinside) hbelow)
          · exact .inr (ih hnext (List.mem_append_left first.contained ha) hbelow)

/-- **All levels** are the aliasing itself and what lies below it, at any depth. -/
theorem mem_flatten_iff : b ∈ a.flatten ↔ ∃ levels, LiesBelow levels a b := by
  constructor
  · exact exists_liesBelow_of_mem_flatten
  · rintro ⟨levels, hbelow⟩
    have hsteps : countList [a] ≤ a.count := by simp [countList]
    exact mem_walk_of_liesBelow hsteps List.mem_cons_self hbelow

theorem flatten_ne_nil (a : Aliasing) : a.flatten ≠ [] := by
  rw [flatten_eq_cons]
  exact List.cons_ne_nil _ _

end OpSchema.Aliasing
