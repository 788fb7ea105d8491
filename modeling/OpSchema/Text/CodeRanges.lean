/-!
# Ranges of code points

A set of code points is given by its ranges, first and last code point included,
in ascending order.  A look-up stops at the first range that lies above the code
point; `inRanges_iff` says that in an ascending list nothing is missed by that.
-/

namespace OpSchema.Text

/-- Every range ends before the next one starts, and none is empty. -/
def ascending : List (Nat × Nat) → Bool
  | [] => true
  | [(first, last)] => first ≤ last
  | (first, last) :: next :: ranges => first ≤ last && last < next.1 && ascending (next :: ranges)

/-- The number of code points in the ranges. -/
def rangesSize : List (Nat × Nat) → Nat
  | [] => 0
  | (first, last) :: ranges => last + 1 - first + rangesSize ranges

/-- The code point is in one of the ranges, which are in ascending order. -/
def inRanges : List (Nat × Nat) → Nat → Bool
  | [], _ => false
  | (first, last) :: ranges, code => first ≤ code && (code ≤ last || inRanges ranges code)

/-- The ranges behind the first of an ascending list are in ascending order. -/
theorem ascending_tail {range : Nat × Nat} {ranges : List (Nat × Nat)}
    (hascending : ascending (range :: ranges) = true) : ascending ranges = true := by
  cases ranges with
  | nil => rfl
  | cons next ranges => simp_all [ascending]

/-- The ranges behind the first of an ascending list start above its end. -/
theorem last_lt_of_mem {range : Nat × Nat} {ranges : List (Nat × Nat)}
    (hascending : ascending (range :: ranges) = true) :
    ∀ later ∈ ranges, range.1 ≤ range.2 ∧ range.2 < later.1 := by
  induction ranges generalizing range with
  | nil => simp
  | cons next ranges ih =>
      intro later hlater
      have hnext : ascending (next :: ranges) = true := ascending_tail hascending
      simp only [ascending, Bool.and_eq_true, decide_eq_true_eq] at hascending
      rcases List.mem_cons.mp hlater with rfl | hlater
      · exact hascending.1
      · have := ih hnext later hlater
        omega

/-- The look-up in an ascending list finds every range that holds the code
point. -/
theorem inRanges_iff {ranges : List (Nat × Nat)} (hascending : ascending ranges = true)
    (code : Nat) :
    inRanges ranges code = true ↔ ∃ range ∈ ranges, range.1 ≤ code ∧ code ≤ range.2 := by
  induction ranges with
  | nil => simp [inRanges]
  | cons range ranges ih =>
      have hlater := last_lt_of_mem hascending
      simp only [inRanges, Bool.and_eq_true, Bool.or_eq_true, decide_eq_true_eq,
        ih (ascending_tail hascending), List.mem_cons, exists_eq_or_imp]
      constructor
      · rintro ⟨hfirst, hlast | hfound⟩
        · exact Or.inl ⟨hfirst, hlast⟩
        · exact Or.inr hfound
      · rintro (hhead | ⟨later, hmem, hbounds⟩)
        · exact ⟨hhead.1, Or.inl hhead.2⟩
        · have := hlater later hmem
          exact ⟨by omega, Or.inr ⟨later, hmem, hbounds⟩⟩

end OpSchema.Text
