import OpSchema.Proofs.Guard.Outcome

/-!
# The ledger tells which mode is in force

A context is used by a run of operations: the mode is switched, calls are
checked, failures to load are noted and evidence is recorded by hand.  Whatever
the order, evidence is only ever added at the end, and only a switch changes the
mode.  What a check answers and records depends on the mode alone, not on the
evidence that is there already.

If nothing is recorded by hand, the mode can be read off the ledger: it is the
one that the last entry about a mode names (`Context.IsTold`).

## Strategy

`Context.checkInplace_eq` says what a check records, so every operation is an
addition to the ledger (`Context.toList_perform`) that either switches the mode
or leaves it (`Context.mode_perform`).  The statements on runs follow by
induction on the list of operations.

An entry about a mode begins with a phrase of its own.  The entries of a check
begin with other words, in front of the name of the operator, so no name can
make one of them look like an entry about a mode.
-/

namespace OpSchema

/-! ## Entries about the mode -/

namespace Evidence

/-- The summary begins with the words. -/
def startsWith (e : Evidence) (words : String) : Bool :=
  words.toList.isPrefixOf e.summary.toList

/-- The evidence is a policy entry that tells of a mode. -/
def isAboutMode (e : Evidence) : Bool :=
  e.kind == .policy &&
    (e.startsWith "mode initialized to " || e.startsWith "mode switched to ")

/-- The summary is the one for putting the mode in force. -/
def NamesMode (e : Evidence) (mode : Mode) : Prop :=
  e.summary = "mode initialized to " ++ mode.title ∨ e.summary = "mode switched to " ++ mode.title

instance (e : Evidence) (mode : Mode) : Decidable (e.NamesMode mode) :=
  inferInstanceAs (Decidable (_ ∨ _))

/-- The evidence for a new context. -/
def initialized (mode : Mode) : Evidence := ⟨.policy, "mode initialized to " ++ mode.title⟩

/-- The evidence for a switch. -/
def switched (mode : Mode) : Evidence := ⟨.policy, "mode switched to " ++ mode.title⟩

theorem isAboutMode_initialized (mode : Mode) : (initialized mode).isAboutMode = true := by
  cases mode <;> decide

theorem isAboutMode_switched (mode : Mode) : (switched mode).isAboutMode = true := by
  cases mode <;> decide

theorem namesMode_initialized {mode named : Mode} :
    (initialized mode).NamesMode named ↔ named = mode := by
  cases mode <;> cases named <;> decide

theorem namesMode_switched {mode named : Mode} :
    (switched mode).NamesMode named ↔ named = mode := by
  cases mode <;> cases named <;> decide

private theorem head?_toList_append {s t : String} {c : Char} (hfirst : s.toList.head? = some c) :
    (s ++ t).toList.head? = some c := by
  rw [String.toList_append, List.head?_append, hfirst, Option.some_or]

/-- A summary that begins with another letter does not tell of a mode. -/
theorem isAboutMode_eq_false {kind : EvidenceKind} {summary : String} {c : Char}
    (hfirst : summary.toList.head? = some c) (hother : c ≠ 'm') :
    isAboutMode ⟨kind, summary⟩ = false := by
  obtain ⟨more, hmore⟩ := List.head?_eq_some_iff.1 hfirst
  have hphrase : ∀ words : String, words.toList.head? = some 'm' →
      (Evidence.mk kind summary).startsWith words = false := by
    intro words hwords
    obtain ⟨rest, hrest⟩ := List.head?_eq_some_iff.1 hwords
    rw [startsWith, hrest, hmore, List.isPrefixOf_cons_cons, beq_false_of_ne hother.symm,
      Bool.false_and]
  rw [isAboutMode, hphrase _ (by decide), hphrase _ (by decide), Bool.or_false, Bool.and_false]

theorem isAboutMode_rejection (operator : String) (error : InplaceError) :
    isAboutMode ⟨.policy, rejectionSummary operator error⟩ = false := by
  have hfirst : (rejectionSummary operator error).toList.head? = some 'i' :=
    head?_toList_append (head?_toList_append (head?_toList_append (by decide)))
  exact isAboutMode_eq_false hfirst (by decide)

theorem isAboutMode_copy (operator : String) (conflicts : Nat) :
    isAboutMode ⟨.policy, copySummary operator conflicts⟩ = false := by
  have hfirst : (copySummary operator conflicts).toList.head? = some 'o' :=
    head?_toList_append (head?_toList_append (head?_toList_append (by decide)))
  exact isAboutMode_eq_false hfirst (by decide)

end Evidence

namespace Context

/-- No entry of a check tells of a mode, whatever the operator is called. -/
theorem isAboutMode_of_mem_checkEvidence {mode : Mode} {op : Operator} {storages : List Storage}
    {e : Evidence} (he : e ∈ checkEvidence mode op storages) : e.isAboutMode = false := by
  have hoverlap : ∀ conflicts, ∀ e ∈ overlapEvidence op.qualifiedName conflicts,
      e.isAboutMode = false := by
    intro conflicts e he
    obtain ⟨conflict, -, rfl⟩ := List.mem_map.1 he
    rfl
  have hcopy : ∀ conflicts, ∀ e ∈ copyEvidence op.qualifiedName conflicts,
      e.isAboutMode = false := by
    intro conflicts e he
    unfold copyEvidence at he
    split at he
    · exact absurd he List.not_mem_nil
    · obtain rfl := List.mem_singleton.1 he
      exact Evidence.isAboutMode_copy _ _
  unfold checkEvidence at he
  split at he
  · rcases List.mem_cons.1 he with rfl | he
    · rfl
    · cases mode with
      | strict => exact hoverlap _ e he
      | hardened => exact (List.mem_append.1 he).elim (hoverlap _ e) (hcopy _ e)
  · obtain rfl := List.mem_singleton.1 he
    exact Evidence.isAboutMode_rejection _ _

/-! ## Operations -/

/-- An operation on a context. -/
inductive Action where
  | setMode (mode : Mode)
  | check (op : Operator) (storages : List Storage)
  | loadFailure (operator error : String)
  | record (kind : EvidenceKind) (summary : String)

namespace Action

/-- The mode that an operation puts in force, if it does. -/
def mode? : Action → Option Mode
  | setMode mode => some mode
  | _ => none

/-- The evidence that an operation adds in a mode. -/
def evidence (mode : Mode) : Action → List Evidence
  | setMode next => [.switched next]
  | check op storages => checkEvidence mode op storages
  | loadFailure operator error =>
    [⟨.schema, "schema load failure op=" ++ operator ++ ": " ++ error⟩]
  | record kind summary => [⟨kind, summary⟩]

end Action

/-- The context after an operation.  A check is performed for its evidence,
whether it allows the call or not. -/
def perform (context : Context) : Action → Context
  | .setMode mode => context.setMode mode
  | .check op storages => (context.checkInplace op storages).2
  | .loadFailure operator error => context.recordLoadFailure operator error
  | .record kind summary => context.record kind summary

/-- The context after a run of operations. -/
def run (context : Context) (actions : List Action) : Context :=
  actions.foldl perform context

/-- **One operation** adds its evidence at the end. -/
theorem toList_perform (context : Context) (action : Action) :
    (context.perform action).ledger.toList =
      context.ledger.toList ++ action.evidence context.mode := by
  cases action with
  | setMode mode => exact Ledger.toList_record ..
  | check op storages => exact toList_checkInplace context op storages
  | loadFailure operator error => exact Ledger.toList_record ..
  | record kind summary => exact Ledger.toList_record ..

/-- One operation puts its mode in force, or leaves the mode as it is. -/
theorem mode_perform (context : Context) (action : Action) :
    (context.perform action).mode = action.mode?.getD context.mode := by
  cases action with
  | setMode mode => rfl
  | check op storages => exact mode_checkInplace context op storages
  | loadFailure operator error => rfl
  | record kind summary => rfl

/-! ## Runs -/

theorem run_append (context : Context) (earlier later : List Action) :
    context.run (earlier ++ later) = (context.run earlier).run later :=
  List.foldl_append

/-- **A run only adds to the ledger.** -/
theorem toList_isPrefix_run (context : Context) (actions : List Action) :
    context.ledger.toList <+: (context.run actions).ledger.toList := by
  induction actions generalizing context with
  | nil => exact List.prefix_rfl
  | cons action actions ih =>
      have hstep : context.ledger.toList <+: (context.perform action).ledger.toList := by
        rw [toList_perform]
        exact List.prefix_append _ _
      exact hstep.trans (ih (context.perform action))

/-- **The mode after a run** is the last one that was put in force. -/
theorem mode_run (context : Context) (actions : List Action) :
    (context.run actions).mode = (actions.filterMap Action.mode?).getLast?.getD context.mode := by
  induction actions generalizing context with
  | nil => rfl
  | cons action actions ih =>
      have hrest := ih (context.perform action)
      rw [mode_perform] at hrest
      rw [run, List.foldl_cons]
      refine hrest.trans ?_
      cases hmode : action.mode? with
      | none => rw [List.filterMap_cons_none hmode, Option.getD_none]
      | some mode =>
          rw [List.filterMap_cons_some hmode, List.getLast?_cons, Option.getD_some,
            Option.getD_some]

/-! ## The mode in the ledger -/

/-- The last entry about a mode names the mode in force. -/
def IsTold (context : Context) : Prop :=
  ∃ e, (context.ledger.toList.filter Evidence.isAboutMode).getLast? = some e ∧
    ∀ mode, e.NamesMode mode ↔ mode = context.mode

theorem isTold_new (mode : Mode) : (new mode).IsTold := by
  have hentries : (new mode).ledger.toList = [.initialized mode] :=
    Ledger.toList_record ..
  refine ⟨.initialized mode, ?_, fun named => Evidence.namesMode_initialized⟩
  rw [hentries, List.filter_cons_of_pos (Evidence.isAboutMode_initialized mode)]
  rfl

/-- An operation that does not record by hand keeps the mode told: a switch adds
an entry for it, and nothing else adds an entry about a mode. -/
theorem IsTold.perform {context : Context} (htold : context.IsTold) {action : Action}
    (haction : ∀ kind summary, action ≠ .record kind summary) :
    (context.perform action).IsTold := by
  obtain ⟨e, hlast, hnames⟩ := htold
  have hunchanged : (∀ added ∈ action.evidence context.mode, added.isAboutMode = false) →
      (context.perform action).mode = context.mode → (context.perform action).IsTold := by
    intro hother hmode
    refine ⟨e, ?_, hmode ▸ hnames⟩
    have hnone : (action.evidence context.mode).filter Evidence.isAboutMode = [] :=
      List.filter_eq_nil_iff.2 fun added hadded => by simp [hother added hadded]
    rw [toList_perform, List.filter_append, hnone, List.append_nil, hlast]
  cases action with
  | setMode mode =>
      refine ⟨.switched mode, ?_, fun named => Evidence.namesMode_switched⟩
      rw [toList_perform, List.filter_append, Action.evidence,
        List.filter_cons_of_pos (Evidence.isAboutMode_switched mode), List.filter_nil,
        List.getLast?_concat]
  | check op storages =>
      exact hunchanged (fun added => isAboutMode_of_mem_checkEvidence)
        (mode_checkInplace context op storages)
  | loadFailure operator error =>
      refine hunchanged (fun added hadded => ?_) rfl
      obtain rfl := List.mem_singleton.1 hadded
      rfl
  | record kind summary => exact absurd rfl (haction kind summary)

theorem IsTold.run {context : Context} (htold : context.IsTold) {actions : List Action}
    (hactions : ∀ kind summary, .record kind summary ∉ actions) :
    (context.run actions).IsTold := by
  induction actions generalizing context with
  | nil => exact htold
  | cons action actions ih =>
      have hfirst : (context.perform action).IsTold := by
        refine htold.perform fun kind summary hsame => ?_
        exact hactions kind summary (hsame ▸ List.mem_cons_self)
      exact ih hfirst fun kind summary hmem => hactions kind summary (List.mem_cons_of_mem _ hmem)

/-! ## The main statement -/

/-- **The ledger is a history that determines the mode in force.**  In a run from
a new context, the entries of a state begin those of every later state; the mode
is that of the last switch, and nothing but a switch changes it; two states in
one mode answer a check alike and record the same for it; and without entries
made by hand, the last entry about a mode names the mode in force. -/
theorem run_keeps_history (initial : Mode) (actions : List Action) :
    (∀ earlier later, actions = earlier ++ later →
      ((new initial).run earlier).ledger.toList <+:
        ((new initial).run actions).ledger.toList) ∧
    ((new initial).run actions).mode =
      (actions.filterMap Action.mode?).getLast?.getD initial ∧
    (∀ action, (∀ mode, action ≠ .setMode mode) →
      (((new initial).run actions).perform action).mode = ((new initial).run actions).mode) ∧
    (∀ otherInitial otherActions,
      ((new otherInitial).run otherActions).mode = ((new initial).run actions).mode →
      ∀ op storages,
        (((new otherInitial).run otherActions).checkInplace op storages).1 =
          (((new initial).run actions).checkInplace op storages).1 ∧
        ∃ added,
          (((new otherInitial).run otherActions).checkInplace op storages).2.ledger.toList =
            ((new otherInitial).run otherActions).ledger.toList ++ added ∧
          (((new initial).run actions).checkInplace op storages).2.ledger.toList =
            ((new initial).run actions).ledger.toList ++ added) ∧
    ((∀ kind summary, .record kind summary ∉ actions) →
      ∃ e, (((new initial).run actions).ledger.toList.filter Evidence.isAboutMode).getLast? =
          some e ∧
        ∀ mode, e.NamesMode mode ↔ mode = ((new initial).run actions).mode) := by
  refine ⟨?_, mode_run (new initial) actions, ?_, ?_, (isTold_new initial).run⟩
  · rintro earlier later rfl
    rw [run_append]
    exact toList_isPrefix_run _ later
  · intro action hother
    rw [mode_perform]
    cases action with
    | setMode mode => exact absurd rfl (hother mode)
    | _ => rfl
  · intro otherInitial otherActions hmode op storages
    refine ⟨?_, checkEvidence _ op storages, ?_, toList_checkInplace _ op storages⟩
    · rw [checkInplace_eq, checkInplace_eq, hmode]
    · rw [toList_checkInplace, hmode]

end Context

end OpSchema
