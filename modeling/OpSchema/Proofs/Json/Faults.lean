import OpSchema.Proofs.Json.Steps

/-!
# Faults of the pieces

Scanners and the steps inside a bracket know nothing of shapes.  All that they
complain about is the syntax of the text, and none of these complaints quotes a
piece of it (`Clean`).  So a complaint about the form of a value, or about a key,
comes from the readers alone.
-/

namespace OpSchema.Json

/-- The cause lies in the syntax of the text, not in the form of a value. -/
def Cause.isSyntactic : Cause → Bool
  | .wrongForm _ _ => false
  | .negativeCount _ _ => false
  | .unknownVariant _ _ => false
  | .unknownField _ _ => false
  | .duplicateField _ => false
  | .missingField _ => false
  | .tooFewItems _ _ _ => false
  | _ => true

/-- The answer is a value or a complaint about the syntax. -/
inductive Clean {α : Type} : Except Fault α → Prop
  | ok (a : α) : Clean (.ok a)
  | error {fault : Fault} (hsyntactic : fault.cause.isSyntactic = true) : Clean (.error fault)

theorem Clean.of_eq {α : Type} {answer : Except Fault α} {fault : Fault} (hclean : Clean answer)
    (heq : answer = .error fault) : fault.cause.isSyntactic = true := by
  subst heq
  cases hclean with
  | error hsyntactic => exact hsyntactic

/-! ## Scanners -/

theorem clean_scanWord (word text : List Char) : Clean (scanWord word text) := by
  fun_induction scanWord word text with
  | case1 text => exact .ok text
  | case2 w word => exact .error rfl
  | case3 w word text ih => exact ih
  | case4 w word c text _ => exact .error rfl

private theorem clean_scanHex (text : List Char) : Clean (scanHex text) := by
  unfold scanHex
  split
  · split
    · exact .ok _
    · exact .error rfl
  · split <;> exact .error rfl

private theorem clean_scanLowSurrogate (high : Nat) (text : List Char) :
    Clean (scanLowSurrogate high text) := by
  unfold scanLowSurrogate
  split
  · exact .error rfl
  · split
    · exact .error rfl
    · split
      · next hhex => exact .error ((clean_scanHex _).of_eq hhex)
      · split
        · exact .ok _
        · exact .error rfl
    · exact .error rfl
  · exact .error rfl

private theorem clean_scanEscape (text : List Char) : Clean (scanEscape text) := by
  unfold scanEscape
  split
  · exact .error rfl
  · split
    · exact .ok _
    · split
      · split
        · next hhex => exact .error ((clean_scanHex _).of_eq hhex)
        · split
          · exact .error rfl
          · split
            · exact clean_scanLowSurrogate _ _
            · exact .ok _
      · exact .error rfl

private theorem clean_scanTextFrom (bound : Nat) (read text : List Char) :
    Clean (scanTextFrom bound read text) := by
  fun_induction scanTextFrom bound read text with
  | case1 read text => exact .error rfl
  | case2 bound read => exact .error rfl
  | case3 bound read more => exact .ok _
  | case4 bound read more fault hescape _ => exact .error ((clean_scanEscape _).of_eq hescape)
  | case5 bound read more x after _ _ ih => exact ih
  | case6 bound read c more _ _ _ => exact .error rfl
  | case7 bound read c more _ _ _ ih => exact ih

theorem clean_scanText (bound : Nat) (text : List Char) : Clean (scanText bound text) :=
  clean_scanTextFrom bound [] text

private theorem clean_scanReal (isNegative : Bool) (significand : Nat) (exponent : Int)
    (text : List Char) : Clean (scanReal isNegative significand exponent text) := by
  unfold scanReal
  split
  · exact .ok _
  · exact .error rfl

private theorem clean_scanExponent (isNegative : Bool) (significand : Nat) (scale : Int)
    (text : List Char) : Clean (scanExponent isNegative significand scale text) := by
  unfold scanExponent scanUnsignedExponent
  dsimp only
  split
  · exact .error rfl
  · split
    · split
      · exact clean_scanReal _ _ _ _
      · split
        · exact .error rfl
        · exact .ok _
    · exact .error rfl

private theorem clean_scanPlaces (isNegative : Bool) (significand : Nat) (scale : Int)
    (text : List Char) : Clean (scanPlaces isNegative significand scale text) := by
  unfold scanPlaces
  split
  · exact .error rfl
  · exact .error rfl
  · unfold scanScale
    dsimp only
    split
    · split
      · exact clean_scanExponent _ _ _ _
      · exact clean_scanReal _ _ _ _
    · exact clean_scanReal _ _ _ _

private theorem clean_scanAfterWhole (isNegative : Bool) (digits text : List Char) :
    Clean (scanAfterWhole isNegative digits text) := by
  unfold scanAfterWhole
  dsimp only
  split
  · exact clean_scanPlaces _ _ _ _
  · exact clean_scanExponent _ _ _ _
  · exact clean_scanExponent _ _ _ _
  · split
    · unfold wholeNumber
      split
      · exact .ok _
      · split
        · exact .ok _
        · exact clean_scanReal _ _ _ _
    · exact clean_scanReal _ _ _ _

private theorem clean_scanUnsigned (isNegative : Bool) (text : List Char) :
    Clean (scanUnsigned isNegative text) := by
  unfold scanUnsigned
  split
  · exact .error rfl
  · split
    · split
      · split
        · exact .error rfl
        · exact clean_scanAfterWhole _ _ _
      · exact clean_scanAfterWhole _ _ _
    · split
      · exact clean_scanAfterWhole _ _ _
      · exact .error rfl

theorem clean_scanNumber (text : List Char) : Clean (scanNumber text) := by
  unfold scanNumber
  split <;> exact clean_scanUnsigned _ _

/-! ## Steps -/

theorem clean_nextItem (isFirst : Bool) (text : List Char) : Clean (nextItem isFirst text) := by
  unfold nextItem
  repeat' split
  all_goals first | exact .ok _ | exact .error rfl

theorem clean_closeList (text : List Char) : Clean (closeList text) := by
  unfold closeList
  repeat' split
  all_goals first | exact .ok _ | exact .error rfl

private theorem clean_readKey (bound : Nat) (text : List Char) : Clean (readKey bound text) := by
  unfold readKey
  split
  · next hscan => exact .error ((clean_scanText _ _).of_eq hscan)
  · exact .ok _

theorem clean_nextMember (bound : Nat) (isFirst : Bool) (text : List Char) :
    Clean (nextMember bound isFirst text) := by
  unfold nextMember
  repeat' split
  all_goals first | exact clean_readKey _ _ | exact .ok _ | exact .error rfl

theorem clean_readColon (text : List Char) : Clean (readColon text) := by
  unfold readColon
  repeat' split
  all_goals first | exact .ok _ | exact .error rfl

/-! ## Documents without brackets -/

theorem clean_readWord (word : List Char) (d : Document) (text : List Char) :
    Clean (readWord (scanWord word) d text) := by
  unfold readWord
  split
  · next hscan => exact .error ((clean_scanWord _ _).of_eq hscan)
  · exact .ok _

theorem clean_readText (bound : Nat) (text : List Char) : Clean (readText bound text) := by
  unfold readText
  split
  · next hscan => exact .error ((clean_scanText _ _).of_eq hscan)
  · exact .ok _

theorem clean_readNumber (text : List Char) : Clean (readNumber text) := by
  unfold readNumber
  split
  · next hscan => exact .error ((clean_scanNumber _).of_eq hscan)
  · exact .ok _

end OpSchema.Json
