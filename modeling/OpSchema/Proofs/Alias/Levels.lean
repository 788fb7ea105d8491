import Mathlib.Data.List.Nodup
import OpSchema.Proofs.Alias.Reach

/-!
# Flattening goes level by level

`Aliasing.flatten` visits a queue, and what a visit puts at the end of the queue may still
be waiting when the next one puts more there.  This file shows in which order everything is
visited: the tree from its top down, one level after the other, and each level from left to
right.  A level is defined by recursion on the tree (`Aliasing.level`), without a queue.

## Strategy

* **The loop.**  `Aliasing.Sweeps` is the loop over a list that grows while a cursor goes
  through it.  What is behind the cursor is the queue, so the loop ends as the visits do
  (`Aliasing.sweeps_walk`).
* **One level.**  A part of the queue that is visited as a whole leaves behind what its
  elements contain, in the same order (`Aliasing.walk_append`).  So if the queue is a whole
  level, it is the next one after as many visits as it has elements.
* **All levels.**  With every level the height of what is queued goes down by one
  (`Aliasing.walk_eq_levels`).
* **Occurrences.**  The same aliasing may stand at several places of the tree.  A place is
  given by a path from the top, and the paths tell apart what a level lists
  (`Aliasing.mem_occurrencesAt`).
-/

namespace OpSchema.Aliasing

variable {a b : Aliasing}

/-! ## Levels -/

/-- The aliasings at a depth below the top, from left to right. -/
def level : Aliasing → Nat → List Aliasing
  | a, 0 => [a]
  | a, depth + 1 => a.contained.flatMap fun b => b.level depth

mutual

/-- The number of levels of the tree. -/
def height : Aliasing → Nat
  | ⟨_, _, contained⟩ => heightList contained + 1

/-- The greatest number of levels of a list of trees. -/
def heightList : List Aliasing → Nat
  | [] => 0
  | a :: as => max (height a) (heightList as)

end

theorem height_eq (a : Aliasing) : a.height = heightList a.contained + 1 := by
  cases a
  rfl

theorem heightList_le {as : List Aliasing} {n : Nat} :
    heightList as ≤ n ↔ ∀ a ∈ as, a.height ≤ n := by
  induction as with
  | nil => simp [heightList]
  | cons a as ih => rw [heightList, Nat.max_le, ih, List.forall_mem_cons]

/-- The levels of a tree are those above its height. -/
theorem level_eq_nil_iff {depth : Nat} : a.level depth = [] ↔ a.height ≤ depth := by
  induction depth generalizing a with
  | zero =>
      rw [level, height_eq]
      simp
  | succ depth ih =>
      rw [level, List.flatMap_eq_nil_iff, height_eq, Nat.add_le_add_iff_right, heightList_le]
      exact forall₂_congr fun b _ => ih

/-! ## The loop -/

/-- The loop over a list that grows: while the cursor is inside the list, what is contained
in the aliasing there goes to the end of the list, and the cursor moves on. -/
inductive Sweeps : List Aliasing → Nat → List Aliasing → Prop
  | stop {out : List Aliasing} {cursor : Nat} (hend : out.length ≤ cursor) :
      Sweeps out cursor out
  | visit {out result : List Aliasing} {cursor : Nat} {a : Aliasing}
      (hcurrent : out[cursor]? = some a)
      (hrest : Sweeps (out ++ a.contained) (cursor + 1) result) : Sweeps out cursor result

theorem Sweeps.unique {out first second : List Aliasing} {cursor : Nat}
    (hfirst : Sweeps out cursor first) (hsecond : Sweeps out cursor second) : first = second := by
  induction hfirst with
  | stop hend =>
      cases hsecond with
      | stop _ => rfl
      | visit hcurrent _ =>
          rw [List.getElem?_eq_none hend] at hcurrent
          simp at hcurrent
  | visit hcurrent _ ih =>
      cases hsecond with
      | stop hend =>
          rw [List.getElem?_eq_none hend] at hcurrent
          simp at hcurrent
      | visit hother hrest =>
          obtain rfl := Option.some.inj (hcurrent.symm.trans hother)
          exact ih hrest

/-- The number of aliasings below the queue goes down by one with every visit. -/
theorem countList_visit (a : Aliasing) (queue : List Aliasing) :
    countList (a :: queue) = countList (queue ++ a.contained) + 1 := by
  rw [countList, count_eq, countList_append]
  omega

/-- With a visit for everything below the queue, the loop ends with what is visited. -/
theorem sweeps_walk {steps : Nat} {queue : List Aliasing} (hsteps : countList queue ≤ steps)
    (visited : List Aliasing) :
    Sweeps (visited ++ queue) visited.length (visited ++ walk steps queue []) := by
  induction steps generalizing queue visited with
  | zero =>
      cases queue with
      | nil => exact .stop (by simp)
      | cons a queue =>
          rw [countList_visit] at hsteps
          omega
  | succ steps ih =>
      cases queue with
      | nil =>
          rw [walk_nil]
          exact .stop (by simp)
      | cons a queue =>
          rw [countList_visit] at hsteps
          have hrest := @ih (queue ++ a.contained) (by omega) (visited ++ [a])
          refine .visit (a := a) (by simp) ?_
          rw [walk_cons]
          simpa using hrest

/-- The loop over the aliasing alone ends, and the list is then all levels. -/
theorem sweeps_iff {result : List Aliasing} : Sweeps [a] 0 result ↔ result = a.flatten := by
  have hends : Sweeps [a] 0 a.flatten := sweeps_walk (by simp [countList]) []
  constructor
  · exact fun hsweeps => hsweeps.unique hends
  · rintro rfl
    exact hends

theorem length_walk {steps : Nat} {queue : List Aliasing} (hsteps : countList queue ≤ steps) :
    (walk steps queue []).length = countList queue := by
  induction steps generalizing queue with
  | zero =>
      rw [Nat.le_zero.1 hsteps]
      rfl
  | succ steps ih =>
      cases queue with
      | nil =>
          rw [walk_nil]
          rfl
      | cons a queue =>
          rw [countList_visit] at hsteps ⊢
          rw [walk_cons, List.length_cons, ih (by omega)]

theorem length_flatten (a : Aliasing) : a.flatten.length = a.count := by
  have hsteps : countList [a] = a.count := by simp [countList]
  rw [flatten, length_walk (Nat.le_of_eq hsteps), hsteps]

/-! ## Level by level -/

/-- The aliasings that lie below a list are those in it and those that lie below what they
contain. -/
theorem countList_eq (as : List Aliasing) :
    countList as = as.length + countList (as.flatMap contained) := by
  induction as with
  | nil => rfl
  | cons a as ih =>
      rw [countList, count_eq, ih, List.length_cons, List.flatMap_cons, countList_append]
      omega

/-- When the front of a queue has been visited, what it contains stands at the end. -/
theorem walk_append {steps : Nat} {front : List Aliasing} (hsteps : front.length ≤ steps)
    (back : List Aliasing) :
    walk steps (front ++ back) [] =
      front ++ walk (steps - front.length) (back ++ front.flatMap contained) [] := by
  induction front generalizing steps back with
  | nil => simp
  | cons a front ih =>
      obtain ⟨steps, rfl⟩ : ∃ n, steps = n + 1 := ⟨steps - 1, by simp at hsteps; omega⟩
      rw [List.length_cons, Nat.add_le_add_iff_right] at hsteps
      rw [List.cons_append, walk_cons, List.append_assoc, ih hsteps]
      simp

/-- **A queue is visited level by level.** -/
theorem walk_eq_levels {levels steps : Nat} {queue : List Aliasing}
    (hlevels : heightList queue ≤ levels) (hsteps : countList queue ≤ steps) :
    walk steps queue [] =
      (List.range levels).flatMap fun depth => queue.flatMap fun a => a.level depth := by
  induction levels generalizing steps queue with
  | zero =>
      -- Every aliasing has a level, so there is none.
      cases queue with
      | nil => exact walk_nil steps
      | cons a queue =>
          rw [heightList, height_eq] at hlevels
          omega
  | succ levels ih =>
      have hbelow : heightList (queue.flatMap contained) ≤ levels := by
        rw [heightList_le]
        intro b hb
        obtain ⟨a, ha, hb⟩ := List.mem_flatMap.1 hb
        have htop := heightList_le.1 hlevels a ha
        rw [height_eq, Nat.add_le_add_iff_right] at htop
        exact heightList_le.1 htop b hb
      have hcount := countList_eq queue
      have hvisits := walk_append (show queue.length ≤ steps by omega) []
      rw [List.append_nil, List.nil_append] at hvisits
      rw [hvisits, ih hbelow (by omega), List.range_succ_eq_map, List.flatMap_cons,
        List.flatMap_map]
      congr 1
      · simp [level]
      · simp [level, List.flatMap_assoc]

theorem flatten_eq_levels (a : Aliasing) :
    a.flatten = (List.range a.height).flatMap fun depth => a.level depth := by
  have hlevels : heightList [a] ≤ a.height := by simp [heightList]
  have hsteps : countList [a] ≤ a.count := by simp [countList]
  rw [flatten, walk_eq_levels hlevels hsteps]
  simp

/-! ## Occurrences -/

/-- What a path leads to.  The path gives for each level the position of the element. -/
def at? : Aliasing → List Nat → Option Aliasing
  | a, [] => some a
  | a, index :: path => a.contained[index]?.bind fun b => b.at? path

/-- The aliasings at a depth below the top, from left to right, each with its path. -/
def occurrencesAt : Aliasing → Nat → List (List Nat × Aliasing)
  | a, 0 => [([], a)]
  | a, depth + 1 =>
    a.contained.zipIdx.flatMap fun element =>
      (element.1.occurrencesAt depth).map fun found => (element.2 :: found.1, found.2)

theorem map_snd_occurrencesAt (a : Aliasing) (depth : Nat) :
    (a.occurrencesAt depth).map Prod.snd = a.level depth := by
  induction depth generalizing a with
  | zero => rfl
  | succ depth ih =>
      have hforget : ∀ element : Aliasing × Nat,
          ((element.1.occurrencesAt depth).map fun found => (element.2 :: found.1, found.2)).map
            Prod.snd = element.1.level depth := by
        intro element
        rw [List.map_map, ← ih element.1]
        rfl
      rw [occurrencesAt, level, List.map_flatMap]
      simp only [hforget]
      rw [← List.flatMap_map (f := Prod.fst) (g := fun b : Aliasing => b.level depth)]
      simp

/-- The occurrences at a depth are what the paths of that length lead to. -/
theorem mem_occurrencesAt {depth : Nat} {path : List Nat} :
    (path, b) ∈ a.occurrencesAt depth ↔ path.length = depth ∧ a.at? path = some b := by
  induction depth generalizing a path with
  | zero =>
      rw [occurrencesAt, List.length_eq_zero_iff]
      constructor
      · intro hmem
        obtain ⟨rfl, rfl⟩ := Prod.mk.inj (List.mem_singleton.1 hmem)
        exact ⟨rfl, rfl⟩
      · rintro ⟨rfl, hat⟩
        obtain rfl := Option.some.inj hat
        exact List.mem_singleton_self _
  | succ depth ih =>
      rw [occurrencesAt]
      cases path with
      | nil => simp
      | cons index path =>
          simp only [List.mem_flatMap, List.mem_map, Prod.exists, Prod.mk.injEq,
            List.cons.injEq, List.length_cons, Nat.add_right_cancel_iff, at?,
            Option.bind_eq_some_iff, List.mem_zipIdx_iff_getElem?]
          constructor
          · rintro ⟨c, position, hc, path, b, hfound, ⟨rfl, rfl⟩, rfl⟩
            obtain ⟨hlength, hat⟩ := ih.1 hfound
            exact ⟨hlength, c, hc, hat⟩
          · rintro ⟨hlength, c, hc, hat⟩
            exact ⟨c, index, hc, path, b, ih.2 ⟨hlength, hat⟩, ⟨rfl, rfl⟩, rfl⟩

/-- At one depth, no path leads to two occurrences. -/
theorem nodup_occurrencesAt (a : Aliasing) (depth : Nat) :
    ((a.occurrencesAt depth).map Prod.fst).Nodup := by
  induction depth generalizing a with
  | zero => simp [occurrencesAt]
  | succ depth ih =>
      have hpositions : (a.contained.zipIdx.map Prod.snd).Nodup := by
        rw [List.zipIdx_map_snd]
        exact List.nodup_range'
      rw [occurrencesAt, List.map_flatMap, List.nodup_flatMap]
      constructor
      · intro element _
        have hpaths := (ih element.1).map (List.cons_injective (a := element.2))
        rw [List.map_map] at hpaths ⊢
        exact hpaths
      · -- The paths into different elements differ in their first step.
        refine (List.pairwise_map.1 hpositions).imp fun hother path hfirst hsecond => ?_
        simp only [List.map_map, List.mem_map] at hfirst hsecond
        obtain ⟨_, -, rfl⟩ := hfirst
        obtain ⟨_, -, hsame⟩ := hsecond
        exact hother (List.cons.inj hsame).1.symm

/-- All occurrences, level by level. -/
def occurrences (a : Aliasing) : List (List Nat × Aliasing) :=
  (List.range a.height).flatMap a.occurrencesAt

theorem map_snd_occurrences (a : Aliasing) : a.occurrences.map Prod.snd = a.flatten := by
  rw [occurrences, flatten_eq_levels, List.map_flatMap]
  simp only [map_snd_occurrencesAt]

/-- No path leads to two occurrences. -/
theorem nodup_occurrences (a : Aliasing) : (a.occurrences.map Prod.fst).Nodup := by
  rw [occurrences, List.map_flatMap, List.nodup_flatMap]
  refine ⟨fun depth _ => a.nodup_occurrencesAt depth, ?_⟩
  -- The paths to different levels differ in their length.
  refine List.nodup_range.imp fun hother path hfirst hsecond => ?_
  obtain ⟨⟨_, b⟩, hb, rfl⟩ := List.mem_map.1 hfirst
  obtain ⟨⟨_, c⟩, hc, rfl⟩ := List.mem_map.1 hsecond
  exact hother ((mem_occurrencesAt.1 hb).1.symm.trans (mem_occurrencesAt.1 hc).1)

/-- The occurrences are what all paths lead to. -/
theorem mem_occurrences {path : List Nat} : (path, b) ∈ a.occurrences ↔ a.at? path = some b := by
  rw [occurrences, List.mem_flatMap]
  constructor
  · rintro ⟨depth, -, hmem⟩
    exact (mem_occurrencesAt.1 hmem).2
  · intro hat
    have hmem : (path, b) ∈ a.occurrencesAt path.length := mem_occurrencesAt.2 ⟨rfl, hat⟩
    refine ⟨path.length, ?_, hmem⟩
    -- A level with an occurrence is not empty, so it is one of the tree.
    rw [List.mem_range, ← Nat.not_le, ← level_eq_nil_iff, ← map_snd_occurrencesAt]
    exact List.ne_nil_of_mem (List.mem_map_of_mem hmem)

/-- **All levels, from the top down and each from left to right.**  The loop over the
growing list ends with the concatenation of the levels.  This begins with the aliasing
itself, and it lists every aliasing of the tree once for each place at which it stands. -/
theorem flatten_lists_levels (a : Aliasing) :
    (∀ result, Sweeps [a] 0 result ↔ result = a.flatten) ∧
    a.flatten = (List.range a.height).flatMap (fun depth => a.level depth) ∧
    (∀ depth, a.level depth ≠ [] ↔ depth < a.height) ∧
    a.flatten.head? = some a ∧
    (∃ occurrences : List (List Nat × Aliasing), occurrences.map Prod.snd = a.flatten ∧
      (occurrences.map Prod.fst).Nodup ∧
      ∀ path b, (path, b) ∈ occurrences ↔ a.at? path = some b) ∧
    a.flatten.length = a.count := by
  refine ⟨fun _ => sweeps_iff, a.flatten_eq_levels, fun depth => ?_, ?_, ?_, a.length_flatten⟩
  · rw [Ne, level_eq_nil_iff, Nat.not_le]
  · rw [flatten_eq_cons, List.head?_cons]
  · exact ⟨a.occurrences, a.map_snd_occurrences, a.nodup_occurrences, fun _ _ => mem_occurrences⟩

end OpSchema.Aliasing
