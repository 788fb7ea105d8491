/-!
# Why a signature is rejected

A signature is rejected for a defect of its own, or because its encoded text
cannot be read.
-/

namespace OpSchema

/-- The reason for rejecting a signature or its encoded text. -/
inductive SignatureError where
  /-- The operator name is blank. -/
  | blankName
  /-- The input at a position has an empty name. -/
  | emptyInputName (index : Nat)
  /-- An input has the name of an earlier one. -/
  | duplicateInput (name : String)
  /-- An output has the name of an earlier one. -/
  | duplicateOutput (name : String)
  /-- A symbol of a slot is neither the wildcard nor an identifier. -/
  | invalidSymbol (slot symbol : String)
  /-- The wildcard of a slot stands beside other symbols. -/
  | mixedWildcard (slot : String)
  /-- A slot is written through but belongs to no set. -/
  | writeWithoutSet (slot : String)
  /-- The text does not describe a signature. -/
  | malformed (diagnostic : String)
  /-- The text has a field that no record declares. -/
  | unknownField (field : String)
  /-- The text is too long. -/
  | tooLarge (actual max : Nat)
  /-- The signature cannot be encoded. -/
  | incompatible (reason : String)
  deriving DecidableEq, Repr

namespace SignatureError

/-- The wording of an error. -/
def message : SignatureError → String
  | blankName => "schema operator name is empty"
  | emptyInputName index => "schema input slot " ++ toString index ++ " has an empty name"
  | duplicateInput name => "schema declares input '" ++ name ++ "' more than once"
  | duplicateOutput name => "schema declares return '" ++ name ++ "' more than once"
  | invalidSymbol slot symbol => "invalid alias set symbol '" ++ symbol ++ "' on '" ++ slot ++ "'"
  | mixedWildcard slot =>
    "wildcard alias set on '" ++ slot ++ "' cannot be combined with named sets"
  | writeWithoutSet slot => "write annotation on '" ++ slot ++ "' names no alias set"
  | malformed diagnostic => "invalid json: " ++ diagnostic
  | unknownField field => "unknown field '" ++ field ++ "'"
  | tooLarge actual max =>
    "schema payload exceeds max bytes: actual=" ++ toString actual ++ " max=" ++ toString max
  | incompatible reason => "incompatible payload: " ++ reason

/-- The short name of an error. -/
def label : SignatureError → String
  | blankName => "empty_operator_name"
  | emptyInputName _ => "empty_argument_name"
  | duplicateInput _ => "duplicate_argument_name"
  | duplicateOutput _ => "duplicate_return_name"
  | invalidSymbol _ _ => "invalid_alias_symbol"
  | mixedWildcard _ => "mixed_wildcard_set"
  | writeWithoutSet _ => "write_without_alias_set"
  | malformed _ => "invalid_json"
  | unknownField _ => "unknown_field"
  | tooLarge _ _ => "payload_too_large"
  | incompatible _ => "incompatible_payload"

end SignatureError

end OpSchema
