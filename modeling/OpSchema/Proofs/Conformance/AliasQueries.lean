import OpSchema.Proofs.Conformance.CaseRun
import OpSchema.Proofs.Operator.Overlap

/-!
# Queries about two slots

A query about two slots is put to the operator both ways round.  It is met if the
two answers are the same and the first one is expected, so the judgement asks for
more than the expectation does.  This file says how much more.

If one of the locators names a slot, nothing: the two answers are the same, also
if the other locator is out of range.  If both are out of range, each answer
reports the locator that was asked about first.  So a query on two different
locators out of range fails, although both answers have the label that it may
expect (`FixtureCase.aliasing_run_strayQuery`), and all other queries are judged by
their outcome alone (`FixtureCase.aliasing_run_judges_outcomes`).
-/

namespace OpSchema

open Json (Document)

/-! ## Answers -/

/-- The answer is the expected one: a value, with no error expected, or an error with
the expected label, with no value expected. -/
def Expectation.Fits (expectation : Expectation) (answer : Except OperatorError Bool) : Prop :=
  (∃ value, answer = .ok value ∧ expectation.value = some value ∧ expectation.error = none) ∨
    ∃ e, answer = .error e ∧ expectation.error = some e.label ∧ expectation.value = none

theorem Expectation.isMet_iff {expectation : Expectation} {answer : Except OperatorError Bool} :
    expectation.isMet answer = true ↔ expectation.Fits answer := by
  unfold isMet Fits
  cases answer with
  | ok value => simp [and_comm]
  | error e => simp [and_comm]

theorem sameAnswer_iff {first second : Except OperatorError Bool} :
    sameAnswer first second = true ↔ first = second := by
  cases first with
  | ok value => cases second <;> simp [sameAnswer]
  | error e => cases second <;> simp [sameAnswer]

/-! ## Queries -/

namespace AliasQuery

variable {op : Operator} {query : AliasQuery}

/-- The query is on two different locators, and neither names a slot. -/
def IsStray (op : Operator) (query : AliasQuery) : Prop :=
  query.left ≠ query.right ∧ ¬op.HasSlot query.left ∧ ¬op.HasSlot query.right

instance (op : Operator) (query : AliasQuery) : Decidable (query.IsStray op) :=
  inferInstanceAs (Decidable (_ ∧ _ ∧ _))

/-- **A query is met if its outcome is the expected one and it is not stray.** -/
theorem isMet_iff : query.isMet op = true ↔
    query.expectation.Fits (op.areAliasing query.left query.right) ∧ ¬query.IsStray op := by
  have hswap : op.areAliasing query.left query.right = op.areAliasing query.right query.left ↔
      ¬query.IsStray op := by
    rw [Operator.areAliasing_swap_iff, IsStray]
    by_cases hsame : query.left = query.right
    · simp [hsame]
    · simp [hsame, or_iff_not_imp_left]
  rw [isMet, Bool.and_eq_true, sameAnswer_iff, Expectation.isMet_iff, hswap, and_comm]

end AliasQuery

/-! ## Runs -/

namespace FixtureCase

variable {c : FixtureCase} {op : Operator}

theorem aliasing_run_iff (hload : c.load = .ok op) (mode : Mode) (now : Nat) :
    (c.run mode now).checks.aliasing = true ↔ ∀ query ∈ c.aliasing,
      query.expectation.Fits (op.areAliasing query.left query.right) ∧ ¬query.IsStray op := by
  have hchecks : (c.run mode now).checks.aliasing = c.aliasing.all (AliasQuery.isMet op) := by
    rw [checks_run, hload]
    rfl
  rw [hchecks, List.all_eq_true]
  exact forall₂_congr fun query _ => AliasQuery.isMet_iff

/-- **Queries about two slots are judged by their outcomes**, as long as none of them
is stray: the check passes exactly if every answer is the expected one.  With a stray
query it does not pass, whatever is expected. -/
theorem aliasing_run_judges_outcomes (c : FixtureCase) (op : Operator) (hload : c.load = .ok op)
    (mode : Mode) (now : Nat) :
    ((∀ query ∈ c.aliasing, ¬query.IsStray op) →
      ((c.run mode now).checks.aliasing = true ↔ ∀ query ∈ c.aliasing,
        query.expectation.Fits (op.areAliasing query.left query.right))) ∧
    ((∃ query ∈ c.aliasing, query.IsStray op) → (c.run mode now).checks.aliasing = false) := by
  have hrun := aliasing_run_iff hload mode now
  constructor
  · intro hnone
    rw [hrun]
    exact forall₂_congr fun query hquery => and_iff_left (hnone query hquery)
  · rintro ⟨query, hquery, hstray⟩
    rw [← Bool.not_eq_true, hrun]
    intro hall
    exact (hall query hquery).2 hstray

/-- Queries about the slots of the exchange, which has three inputs and no output. -/
def exchangeQueries (queries : List AliasQuery) : FixtureCase :=
  { name := "exchange", schema := Context.exchange.signature.toDocument, expectedError := none
    mutationByIndex := [], mutationByName := [], aliasing := queries, inplace := none }

theorem load_exchangeQueries (queries : List AliasQuery) :
    (exchangeQueries queries).load = .ok Context.exchange :=
  load_toDocument rfl (by decide +kernel) (by decide +kernel)

/-- Two inputs that do not alias, and an input beside a position beyond the inputs. -/
def pairQueries : List AliasQuery :=
  [⟨.input 0, .input 1, ⟨some false, none⟩⟩, ⟨.input 0, .input 3, ⟨none, some "out_of_range"⟩⟩]

/-- The outcomes of the two queries are the expected ones. -/
theorem aliasing_run_pairQueries :
    (exchangeQueries pairQueries).load = .ok Context.exchange ∧
      ((exchangeQueries pairQueries).run .strict 0).checks.aliasing = true := by
  have hload := load_exchangeQueries pairQueries
  obtain ⟨hjudged, -⟩ := aliasing_run_judges_outcomes _ _ hload .strict 0
  have hnone : ∀ query ∈ pairQueries, ¬query.IsStray Context.exchange := by decide
  refine ⟨hload, (hjudged hnone).2 ?_⟩
  intro query hquery
  rw [← Expectation.isMet_iff]
  revert query
  decide

/-- Two positions beyond the inputs, which are expected to be out of range. -/
def strayQuery : AliasQuery := ⟨.input 3, .input 4, ⟨none, some "out_of_range"⟩⟩

/-- **A query on two different locators out of range fails**, although its outcome is
the expected one. -/
theorem aliasing_run_strayQuery :
    (exchangeQueries [strayQuery]).load = .ok Context.exchange ∧
      strayQuery.expectation.Fits
        (Context.exchange.areAliasing strayQuery.left strayQuery.right) ∧
      ((exchangeQueries [strayQuery]).run .strict 0).checks.aliasing = false := by
  have hload := load_exchangeQueries [strayQuery]
  have hstray : strayQuery.IsStray Context.exchange := by decide
  refine ⟨hload, Expectation.isMet_iff.1 (by decide), ?_⟩
  rw [← Bool.not_eq_true, aliasing_run_iff hload]
  intro hall
  exact (hall strayQuery List.mem_cons_self).2 hstray

end FixtureCase

end OpSchema
