import OpSchema.Guard.Ledger
import OpSchema.Operator.Mutation
import OpSchema.Operator.Overlap

/-!
# Guarding calls that write in place

Before a call that writes through its inputs, the storages of the arguments are
compared.  A mutated input that shares its storage with another input is a
conflict, unless the signature declares that the two slots alias.  In strict
mode the first conflict rejects the call; in hardened mode all conflicts are
reported, and the caller is asked to copy before the write.

## Main definitions

* `Context`: the mode in force and the evidence so far.
* `Scan.run`: the scan for conflicts, which meets each pair of inputs once.
* `Context.checkInplace`: the decision for one call.
-/

namespace OpSchema

/-- The storage of an actual argument, or none for one without storage. -/
abbrev Storage : Type := Option Nat

/-- A mutated input that shares its storage with another input. -/
structure Conflict where
  mutated : Nat
  other : Nat
  storage : Nat
  deriving DecidableEq, Repr, Inhabited

/-- The outcome of a check that does not reject the call. -/
structure Decision where
  operator : String
  mode : Mode
  mutatedInputs : List Nat
  conflicts : List Conflict
  copyRequired : Bool
  deriving DecidableEq, Repr

/-- Why a check does not allow a call. -/
inductive InplaceError where
  /-- A question to the operator failed. -/
  | query (error : OperatorError)
  /-- There is not one storage for every input. -/
  | arityMismatch (expected actual : Nat)
  /-- Two inputs overlap and the signature does not declare it. -/
  | undeclaredOverlap (operator : String) (conflict : Conflict)
  deriving DecidableEq, Repr

/-- The wording of an error. -/
def InplaceError.message : InplaceError → String
  | query error => "schema query failure: " ++ error.message
  | arityMismatch expected actual =>
    "storage list does not match schema inputs: expected=" ++ toString expected ++
      " actual=" ++ toString actual
  | undeclaredOverlap operator conflict =>
    "strict mode forbids undeclared overlap in " ++ operator ++ ": mutated input " ++
      toString conflict.mutated ++ " shares storage " ++ toString conflict.storage ++
      " with input " ++ toString conflict.other

/-! ## Evidence of a check -/

/-- A list of positions as it stands in evidence. -/
def renderPositions (positions : List Nat) : String :=
  "[" ++ ", ".intercalate (positions.map toString) ++ "]"

/-- The evidence for a storage list of the wrong length. -/
def rejectionSummary (operator : String) (error : InplaceError) : String :=
  "inplace check rejected op=" ++ operator ++ ": " ++ error.message

/-- The evidence for the inputs that an operator writes. -/
def mutationSummary (operator : String) (mutated : List Nat) : String :=
  "op=" ++ operator ++ " mutated_inputs=" ++ renderPositions mutated

/-- The evidence for a conflict. -/
def conflictSummary (operator : String) (conflict : Conflict) : String :=
  "op=" ++ operator ++ " undeclared overlap mutated=" ++ toString conflict.mutated ++
    " other=" ++ toString conflict.other ++ " storage=" ++ toString conflict.storage

/-- The evidence for a copy. -/
def copySummary (operator : String) (conflicts : Nat) : String :=
  "op=" ++ operator ++ " hardened copy before write conflicts=" ++ toString conflicts

/-! ## The scan for conflicts -/

/-- What a scan has to show so far: the evidence and the conflicts found. -/
structure Scan where
  ledger : Ledger
  conflicts : Array Conflict := #[]

namespace Scan

/-- A scan goes on, or it stops with an error and the evidence up to there. -/
abbrev Outcome : Type := Except (InplaceError × Ledger) Scan

/-- Takes note of a conflict.  In strict mode the scan stops there. -/
def report (mode : Mode) (operator : String) (scan : Scan) (conflict : Conflict) : Outcome :=
  let ledger := scan.ledger.record .overlap (conflictSummary operator conflict)
  match mode with
  | .strict => .error (.undeclaredOverlap operator conflict, ledger)
  | .hardened => .ok ⟨ledger, scan.conflicts.push conflict⟩

/-- Examines the mutated input at `mutated`, which has the given storage, beside
the input at `other`, which holds `held`. -/
def examine (mode : Mode) (op : Operator) (mutated storage : Nat) (scan : Scan) :
    Storage × Nat → Outcome
  | (held, other) =>
    if other = mutated ∨ held ≠ some storage then .ok scan
    -- A pair of mutated inputs is examined once, from its lower position.
    else if other < mutated ∧ op.writesInput other then .ok scan
    else
      match op.areAliasing (.input mutated) (.input other) with
      | .error e => .error (.query e, scan.ledger)
      | .ok true => .ok scan
      | .ok false => scan.report mode op.qualifiedName ⟨mutated, other, storage⟩

/-- Examines the mutated input at a position beside all inputs in turn.  Without
a storage it has no conflict. -/
def visit (mode : Mode) (op : Operator) (storages : List Storage) (scan : Scan)
    (mutated : Fin storages.length) : Outcome :=
  match storages.get mutated with
  | none => .ok scan
  | some storage => storages.zipIdx.foldlM (examine mode op mutated storage) scan

/-- Visits the mutated inputs in turn. -/
def run (mode : Mode) (op : Operator) (storages : List Storage) (scan : Scan)
    (mutated : List (Fin storages.length)) : Outcome :=
  mutated.foldlM (visit mode op storages) scan

end Scan

/-! ## Contexts -/

/-- The mode in force and the evidence so far. -/
structure Context where
  mode : Mode
  ledger : Ledger
  deriving DecidableEq, Repr

namespace Context

/-- A context in a mode, with the evidence for it. -/
def new (mode : Mode) : Context :=
  ⟨mode, Ledger.empty.record .policy ("mode initialized to " ++ mode.title)⟩

/-- Puts another mode in force. -/
def setMode (context : Context) (mode : Mode) : Context :=
  ⟨mode, context.ledger.record .policy ("mode switched to " ++ mode.title)⟩

/-- Records a piece of evidence. -/
def record (context : Context) (kind : EvidenceKind) (summary : String) : Context :=
  { context with ledger := context.ledger.record kind summary }

/-- Forgets all evidence. -/
def clear (context : Context) : Context :=
  { context with ledger := .empty }

/-- Records that an operator could not be loaded, by the wording of the error. -/
def recordLoadFailure (context : Context) (operator error : String) : Context :=
  context.record .schema ("schema load failure op=" ++ operator ++ ": " ++ error)

/-- Decides on a call with the given storages, one for every input. -/
def checkInplace (context : Context) (op : Operator) (storages : List Storage) :
    Except InplaceError Decision × Context :=
  let name := op.qualifiedName
  if harity : storages.length = op.inputCount then
    let mutated := op.mutatedInputs
    let positions : List (Fin storages.length) :=
      mutated.pmap Fin.mk fun _ hmem => harity ▸ Operator.lt_inputCount_of_mem hmem
    let started := context.ledger.record .mutation (mutationSummary name mutated)
    match Scan.run context.mode op storages ⟨started, #[]⟩ positions with
    | .error (error, ledger) => (.error error, { context with ledger })
    | .ok scan =>
      let conflicts := scan.conflicts.toList
      let copyRequired := !conflicts.isEmpty
      let ledger :=
        if copyRequired then scan.ledger.record .policy (copySummary name conflicts.length)
        else scan.ledger
      (.ok ⟨name, context.mode, mutated, conflicts, copyRequired⟩, { context with ledger })
  else
    let error := InplaceError.arityMismatch op.inputCount storages.length
    (.error error, context.record .policy (rejectionSummary name error))

end Context

end OpSchema
