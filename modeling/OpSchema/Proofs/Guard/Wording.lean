import Mathlib.Logic.Function.Basic
import OpSchema.Guard.Context
import OpSchema.Proofs.Text.Runs

/-!
# Reading the evidence of a check

An entry that a check adds to the ledger names the operator and what was found: the
mutated inputs, a conflict, or the number of conflicts.  This file shows that an entry
tells all of it, for each of the three kinds (`mutationSummary_injective2`,
`conflictSummary_injective2`, `copySummary_injective2`).

The name of an operator can be any text, also one that looks like an entry, so an entry
is read from its end.  There stands a number, which ends at the equals sign in front of
it, or a list in brackets with no further bracket inside.
-/

namespace OpSchema

/-! ## Digits -/

private theorem isDigit_of_mem_decimal {n : Nat} : ∀ c ∈ Nat.toDigits 10 n, c.isDigit = true :=
  fun _ hc => Nat.isDigit_of_mem_toDigits (by decide) (by decide) hc

private theorem toDigits_inj {m n : Nat} (hsame : Nat.toDigits 10 m = Nat.toDigits 10 n) :
    m = n := by
  have hvalue := congrArg (fun digits => Nat.ofDigitChars 10 digits 0) hsame
  simpa using hvalue

/-! ## A number at the end -/

/-- A number at the end of a text can be told from the words before it, if these end in
an equals sign. -/
theorem append_number_inj {words s t : String} {m n : Nat}
    (hwords : words.toList.getLast? = some '=')
    (hsame : s ++ words ++ toString m = t ++ words ++ toString n) : s = t ∧ m = n := by
  obtain ⟨before, hbefore⟩ := List.getLast?_eq_some_iff.1 hwords
  -- Read backwards, the digits come first and the equals sign ends them.
  have hreversed : (Nat.toDigits 10 m).reverse ++ '=' :: (s.toList ++ before).reverse =
      (Nat.toDigits 10 n).reverse ++ '=' :: (t.toList ++ before).reverse := by
    have hchars := congrArg (fun text => text.toList.reverse) hsame
    simpa [hbefore] using hchars
  have hdigits : ∀ k, ∀ c ∈ (Nat.toDigits 10 k).reverse, c.isDigit = true := by
    intro k c hc
    exact isDigit_of_mem_decimal c (List.mem_reverse.1 hc)
  obtain ⟨hnumber, hrest⟩ :=
    Text.append_run_cons_inj (hdigits m) (hdigits n) (by decide) (by decide) hreversed
  constructor
  · rw [List.cons_inj_right, List.reverse_inj, List.append_left_inj] at hrest
    exact String.toList_inj.1 hrest
  · exact toDigits_inj (List.reverse_inj.1 hnumber)

/-! ## A list of positions -/

/-- The text of a list of positions behind its first position. -/
private def closing : List Nat → List Char
  | [] => [']']
  | n :: more => ',' :: ' ' :: (Nat.toDigits 10 n ++ closing more)

private theorem exists_closing_eq_cons (positions : List Nat) :
    ∃ c rest, closing positions = c :: rest ∧ ¬c.isDigit = true := by
  cases positions with
  | nil => exact ⟨']', [], rfl, by decide⟩
  | cons n more => exact ⟨',', _, rfl, by decide⟩

private theorem toDigits_append_closing_inj {m n : Nat} {first second : List Nat}
    (hsame : Nat.toDigits 10 m ++ closing first = Nat.toDigits 10 n ++ closing second) :
    m = n ∧ closing first = closing second := by
  obtain ⟨c, rest, hfirst, hc⟩ := exists_closing_eq_cons first
  obtain ⟨d, others, hsecond, hd⟩ := exists_closing_eq_cons second
  rw [hfirst, hsecond] at hsame ⊢
  obtain ⟨hnumber, hrest⟩ :=
    Text.append_run_cons_inj isDigit_of_mem_decimal isDigit_of_mem_decimal hc hd hsame
  exact ⟨toDigits_inj hnumber, hrest⟩

private theorem closing_inj {first second : List Nat} (hsame : closing first = closing second) :
    first = second := by
  induction first generalizing second with
  | nil =>
      cases second with
      | nil => rfl
      | cons n others => simp [closing] at hsame
  | cons m more ih =>
      cases second with
      | nil => simp [closing] at hsame
      | cons n others =>
          simp only [closing, List.cons.injEq, true_and] at hsame
          obtain ⟨hnumber, hrest⟩ := toDigits_append_closing_inj hsame
          rw [hnumber, ih hrest]

private theorem bracket_notMem_closing (positions : List Nat) : '[' ∉ closing positions := by
  induction positions with
  | nil => decide
  | cons n more ih =>
      have hdigits : '[' ∉ Nat.toDigits 10 n := by
        intro hmem
        exact absurd (isDigit_of_mem_decimal _ hmem) (by decide)
      simp [closing, hdigits, ih]

/-- The text of a list of positions behind the opening bracket. -/
private def listing : List Nat → List Char
  | [] => [']']
  | n :: more => Nat.toDigits 10 n ++ closing more

private theorem toList_renderPositions (positions : List Nat) :
    (renderPositions positions).toList = '[' :: listing positions := by
  have hjoin : ∀ (n : Nat) (more : List Nat),
      (", ".intercalate ((n :: more).map toString)).toList ++ [']'] =
        Nat.toDigits 10 n ++ closing more := by
    intro n more
    induction more generalizing n with
    | nil => simp [closing]
    | cons k others ih =>
        rw [List.map_cons, List.map_cons, String.intercalate_cons_cons, ← List.map_cons,
          String.toList_append, List.append_assoc, ih k]
        simp [closing]
  cases positions with
  | nil => decide
  | cons n more => simpa [renderPositions, listing] using hjoin n more

private theorem listing_inj {first second : List Nat} (hsame : listing first = listing second) :
    first = second := by
  -- A list with a position begins with a digit, and an empty one does not.
  have hdigits : ∀ n more, listing [] ≠ listing (n :: more) := by
    intro n more hempty
    obtain ⟨c, rest, hclosing, hc⟩ := exists_closing_eq_cons more
    have hrun : [] ++ ']' :: [] = Nat.toDigits 10 n ++ c :: rest := by
      rw [← hclosing]
      exact hempty
    obtain ⟨hnil, -⟩ :=
      Text.append_run_cons_inj (by simp) isDigit_of_mem_decimal (by decide) hc hrun
    exact Nat.toDigits_ne_nil hnil.symm
  cases first with
  | nil =>
      cases second with
      | nil => rfl
      | cons n others => exact absurd hsame (hdigits n others)
  | cons m more =>
      cases second with
      | nil => exact absurd hsame.symm (hdigits m more)
      | cons n others =>
          obtain ⟨hnumber, hrest⟩ := toDigits_append_closing_inj hsame
          rw [hnumber, closing_inj hrest]

private theorem bracket_notMem_listing (positions : List Nat) : '[' ∉ listing positions := by
  cases positions with
  | nil => decide
  | cons n more =>
      intro hmem
      exact bracket_notMem_closing (n :: more)
        (List.mem_cons_of_mem _ (List.mem_cons_of_mem _ hmem))

/-- A list of positions at the end of a text can be told from the words before it. -/
theorem append_positions_inj {s t : String} {first second : List Nat}
    (hsame : s ++ renderPositions first = t ++ renderPositions second) :
    s = t ∧ first = second := by
  have hreversed : (listing first).reverse ++ '[' :: s.toList.reverse =
      (listing second).reverse ++ '[' :: t.toList.reverse := by
    have hchars := congrArg (fun text => text.toList.reverse) hsame
    simpa [toList_renderPositions] using hchars
  have hinside : ∀ positions, ∀ c ∈ (listing positions).reverse, (c != '[') = true := by
    intro positions c hc
    rw [bne_iff_ne]
    rintro rfl
    exact bracket_notMem_listing positions (List.mem_reverse.1 hc)
  obtain ⟨hlisting, hrest⟩ :=
    Text.append_run_cons_inj (hinside first) (hinside second) (by decide) (by decide) hreversed
  constructor
  · rw [List.cons_inj_right, List.reverse_inj] at hrest
    exact String.toList_inj.1 hrest
  · exact listing_inj (List.reverse_inj.1 hlisting)

/-! ## The entries -/

/-- The entry for a rejection ends in the wording of the error. -/
theorem exists_rejectionSummary_eq (operator : String) (error : InplaceError) :
    ∃ words, rejectionSummary operator error = words ++ error.message :=
  ⟨_, rfl⟩

/-- The entry for the mutated inputs names the operator and all of them. -/
theorem mutationSummary_injective2 : Function.Injective2 mutationSummary := by
  intro operator other first second hsame
  obtain ⟨hwords, hpositions⟩ := append_positions_inj hsame
  rw [String.append_left_inj, String.append_right_inj] at hwords
  exact ⟨hwords, hpositions⟩

/-- The entry for a conflict names the operator, both inputs and the storage. -/
theorem conflictSummary_injective2 : Function.Injective2 conflictSummary := by
  intro operator other first second hsame
  obtain ⟨hpositions, hstorage⟩ := append_number_inj (by decide) hsame
  obtain ⟨hmutated, hother⟩ := append_number_inj (by decide) hpositions
  obtain ⟨hwords, hposition⟩ := append_number_inj (by decide) hmutated
  rw [String.append_right_inj] at hwords
  refine ⟨hwords, ?_⟩
  cases first
  cases second
  rw [Conflict.mk.injEq]
  exact ⟨hposition, hother, hstorage⟩

/-- The entry for a copy names the operator and the number of conflicts. -/
theorem copySummary_injective2 : Function.Injective2 copySummary := by
  intro operator other first second hsame
  obtain ⟨hwords, hnumber⟩ := append_number_inj (by decide) hsame
  rw [String.append_right_inj] at hwords
  exact ⟨hwords, hnumber⟩

end OpSchema
