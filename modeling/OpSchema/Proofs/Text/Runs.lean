import Mathlib.Data.List.TakeWhile

/-!
# Runs of characters

A text that is put together without quotes is read back run by run: the characters of one
kind up to the first character of another kind.  So two texts that begin with such runs are
the same only if the runs are.
-/

namespace OpSchema.Text

/-- A run of characters of one kind ends at the first character of another kind. -/
theorem append_run_inj {kind : Char → Bool} {first second rest others : List Char}
    (hfirst : ∀ c ∈ first, kind c = true) (hsecond : ∀ c ∈ second, kind c = true)
    (hrest : ∀ c ∈ rest.head?, kind c = false) (hothers : ∀ c ∈ others.head?, kind c = false)
    (hsame : first ++ rest = second ++ others) : first = second ∧ rest = others := by
  have hend : ∀ {cs : List Char}, (∀ c ∈ cs.head?, kind c = false) → cs.takeWhile kind = [] := by
    intro cs hcs
    cases cs with
    | nil => rfl
    | cons c cs => exact List.takeWhile_cons_of_neg (by simp [hcs c rfl])
  have hrun : first = second := by
    have htaken := congrArg (List.takeWhile kind) hsame
    rwa [List.takeWhile_append_of_pos hfirst, List.takeWhile_append_of_pos hsecond, hend hrest,
      hend hothers, List.append_nil, List.append_nil] at htaken
  rw [hrun, List.append_cancel_left_eq] at hsame
  exact ⟨hrun, hsame⟩

/-- The same for two texts that go on after the run. -/
theorem append_run_cons_inj {kind : Char → Bool} {first second rest others : List Char}
    {c d : Char} (hfirst : ∀ x ∈ first, kind x = true) (hsecond : ∀ x ∈ second, kind x = true)
    (hc : ¬kind c = true) (hd : ¬kind d = true)
    (hsame : first ++ c :: rest = second ++ d :: others) :
    first = second ∧ c :: rest = d :: others := by
  have hend : ∀ {x : Char} {cs : List Char}, ¬kind x = true →
      ∀ y ∈ (x :: cs).head?, kind y = false := by
    intro x cs hx y hy
    obtain rfl : x = y := Option.some.inj hy
    exact eq_false_of_ne_true hx
  exact append_run_inj hfirst hsecond (hend hc) (hend hd) hsame

end OpSchema.Text
