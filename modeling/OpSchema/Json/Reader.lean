import OpSchema.Json.Scanner
import OpSchema.Json.Shape

/-!
# Reading documents by shape

A text is read in one pass, led by the shape of the document that is wanted, and
the reading stops at the first fault.  So a value of the wrong form is reported
where it stands, even if the text goes wrong again later.

## Strategy

* **Nesting.**  Opening a bracket costs one step of a budget.  `readWith` reads
  one level and is handed the reader for what is inside the brackets, or nothing
  when the budget is spent; `read` ties the levels together by recursion on the
  budget.
* **Length.**  The loops over items and members run up to a bound on the number
  of characters that are left.  Every round reads at least one character, so a
  loop that reaches its bound stands at the end of the source and reports that.
* **Late faults.**  A rejected key, a missing field and a list of fields that is
  too short are reported after the record's closing bracket, if that is what
  comes next.
-/

namespace OpSchema.Json

variable {ρ : Type}

/-- A reader takes the characters that are left. -/
abbrev Reader : Type := List Char → Scanned Document

/-! ## Values of the wrong form -/

/-- The fault for a value in place of the one that was expected.  The value is
read, unless it opens a bracket, and reading it may fail first. -/
def mismatch (bound : Nat) (expected : String) (rest : List Char) : Fault :=
  match rest with
  | 'n' :: more =>
    match scanNull more with
    | .error fault => fault
    | .ok after => .behind (.wrongForm .null expected) after
  | 't' :: more =>
    match scanTrue more with
    | .error fault => fault
    | .ok after => .behind (.wrongForm (.flag true) expected) after
  | 'f' :: more =>
    match scanFalse more with
    | .error fault => fault
    | .ok after => .behind (.wrongForm (.flag false) expected) after
  | '"' :: more =>
    match scanText bound more with
    | .error fault => fault
    | .ok (s, after) => .behind (.wrongForm (.text s) expected) after
  | '[' :: _ => .behind (.wrongForm .list expected) rest
  | '\x7b' :: _ => .behind (.wrongForm .object expected) rest
  | c :: _ =>
    if c = '-' ∨ isDigit c then
      match scanNumber rest with
      | .error fault => fault
      | .ok (n, after) => .behind (.wrongForm (.number n) expected) after
    else .facing .expectedValue rest
  | [] => .facing .endOfValue []

/-! ## The steps of a list -/

/-- Where a list stands before an item: at its end, which has been read, or in
front of the item. -/
inductive ItemStep where
  | stop (rest : List Char)
  | more (rest : List Char)

/-- Looks for the next item of a list. -/
def nextItem (isFirst : Bool) (rest : List Char) : Except Fault ItemStep :=
  match skipBlanks rest with
  | [] => .error (.facing .endOfList [])
  | c :: more =>
    if c = ']' then .ok (.stop more)
    else if isFirst then .ok (.more (c :: more))
    else if c = ',' then
      match skipBlanks more with
      | [] => .error (.facing .endOfValue [])
      | d :: after =>
        if d = ']' then .error (.facing .trailingComma (d :: after)) else .ok (.more (d :: after))
    else .error (.facing .expectedCommaOrBracket (c :: more))

/-- Reads the end of a list that may have no further items. -/
def closeList (rest : List Char) : Except Fault (List Char) :=
  match skipBlanks rest with
  | [] => .error (.facing .endOfList [])
  | ']' :: more => .ok more
  | ',' :: more =>
    match skipBlanks more with
    | ']' :: after => .error (.facing .trailingComma (']' :: after))
    | after => .error (.facing .trailingCharacters after)
  | other => .error (.facing .trailingCharacters other)

/-- The items of a list after those in `read`, which are kept in reverse. -/
def readItems (item : Reader) : Nat → Bool → List Document → List Char → Scanned (List Document)
  | 0, _, _, rest => .error (.facing .endOfList rest)
  | bound + 1, isFirst, read, rest =>
    match nextItem isFirst rest with
    | .error fault => .error fault
    | .ok (.stop after) => .ok (read.reverse, after)
    | .ok (.more after) =>
      match item after with
      | .error fault => .error fault
      | .ok (d, after) => readItems item bound false (d :: read) after

/-! ## The steps of an object -/

/-- Where an object stands before a member: at its end, which has been read, or
behind the member's key. -/
inductive MemberStep where
  | stop (rest : List Char)
  | key (name : String) (rest : List Char)

/-- A key whose opening quote has been read. -/
def readKey (bound : Nat) (rest : List Char) : Except Fault MemberStep :=
  match scanText bound rest with
  | .error fault => .error fault
  | .ok (name, after) => .ok (.key name after)

/-- Looks for the next member of an object and reads its key. -/
def nextMember (bound : Nat) (isFirst : Bool) (rest : List Char) : Except Fault MemberStep :=
  match skipBlanks rest with
  | [] => .error (.facing .endOfObject [])
  | c :: more =>
    if c = '\x7d' then .ok (.stop more)
    else if isFirst then
      if c = '"' then readKey bound more else .error (.facing .keyMustBeText (c :: more))
    else if c = ',' then
      match skipBlanks more with
      | [] => .error (.facing .endOfValue [])
      | d :: after =>
        if d = '"' then readKey bound after
        else if d = '\x7d' then .error (.facing .trailingComma (d :: after))
        else .error (.facing .keyMustBeText (d :: after))
    else .error (.facing .expectedCommaOrBrace (c :: more))

/-- Reads the colon between a key and its value. -/
def readColon (rest : List Char) : Except Fault (List Char) :=
  match skipBlanks rest with
  | [] => .error (.facing .endOfObject [])
  | c :: more => if c = ':' then .ok more else .error (.facing .expectedColon (c :: more))

/-- A fault reported after the closing bracket, if that is what comes next. -/
def lateFault (bracket : Char) (cause : Cause) (rest : List Char) : Fault :=
  match skipBlanks rest with
  | [] => .behind cause []
  | c :: more => if c = bracket then .behind cause more else .behind cause (c :: more)

/-- The members of an object after those in `read`, which are kept in reverse.
For each key `accept` gives the reader of its value, or rejects it. -/
def readMembers (textBound : Nat)
    (accept : List (String × Document) → String → Except Cause Reader) :
    Nat → Bool → List (String × Document) → List Char → Scanned (List (String × Document))
  | 0, _, _, rest => .error (.facing .endOfObject rest)
  | bound + 1, isFirst, read, rest =>
    match nextMember textBound isFirst rest with
    | .error fault => .error fault
    | .ok (.stop after) => .ok (read.reverse, after)
    | .ok (.key name after) =>
      match accept read name with
      | .error cause => .error (lateFault '\x7d' cause after)
      | .ok value =>
        match readColon after with
        | .error fault => .error fault
        | .ok after =>
          match value after with
          | .error fault => .error fault
          | .ok (d, after) => readMembers textBound accept bound false ((name, d) :: read) after

/-! ## Records -/

/-- Takes the fields of a record, each once. -/
def acceptField (record : RecordShape ρ) (inner : Shape ρ → Reader)
    (read : List (String × Document)) (name : String) : Except Cause Reader :=
  match record.field? name with
  | none => .error (.unknownField name record.names)
  | some field =>
    if read.any fun member => member.1 == name then .error (.duplicateField name)
    else .ok (inner field.shape)

/-- The first required field that the members do not give. -/
def missingField? (record : RecordShape ρ) (members : List (String × Document)) : Option String :=
  (record.fields.find? fun field =>
    field.presence == .required && !(members.any fun member => member.1 == field.name)).map
      Field.name

/-- A record written as an object whose opening bracket has been read. -/
def readRecordObject (bound : Nat) (record : RecordShape ρ) (inner : Shape ρ → Reader) : Reader :=
  fun rest =>
    match readMembers bound (acceptField record inner) bound true [] rest with
    | .error fault => .error fault
    | .ok (members, after) =>
      match missingField? record members with
      | some name => .error (.behind (.missingField name) after)
      | none => .ok (.object members, after)

/-- The place of the first field without a default, counted from `index`. -/
def firstWithoutDefault? : Nat → List (Field ρ) → Option Nat
  | _, [] => none
  | index, field :: fields =>
    if field.presence = .defaulted then firstWithoutDefault? (index + 1) fields else some index

/-- The field values of a record in the order of declaration, from the field at
`index` on. -/
def readFieldItems (record : RecordShape ρ) (inner : Shape ρ → Reader) :
    Nat → List (Field ρ) → List Document → List Char → Scanned (List Document)
  | _, [], read, rest =>
    match closeList rest with
    | .error fault => .error fault
    | .ok after => .ok (read.reverse, after)
  | index, field :: fields, read, rest =>
    match nextItem (index == 0) rest with
    | .error fault => .error fault
    | .ok (.stop after) =>
      match firstWithoutDefault? index (field :: fields) with
      | some k => .error (.behind (.tooFewItems k record.title record.fields.length) after)
      | none => .ok (read.reverse, after)
    | .ok (.more after) =>
      match inner field.shape after with
      | .error fault => .error fault
      | .ok (d, after) => readFieldItems record inner (index + 1) fields (d :: read) after

/-- A record written as a list whose opening bracket has been read. -/
def readRecordList (record : RecordShape ρ) (inner : Shape ρ → Reader) : Reader :=
  fun rest =>
    match readFieldItems record inner 0 record.fields [] rest with
    | .error fault => .error fault
    | .ok (items, after) => .ok (.list items, after)

/-! ## Choices -/

/-- The name of a choice whose opening quote has been read. -/
def readName (bound : Nat) (names : List String) (rest : List Char) : Scanned String :=
  match scanText bound rest with
  | .error fault => .error fault
  | .ok (name, after) =>
    if names.contains name then .ok (name, after)
    else .error (.behind (.unknownVariant name names) after)

/-- The value `null` that goes with the name of a choice. -/
def readUnit (bound : Nat) (rest : List Char) : Except Fault (List Char) :=
  match skipBlanks rest with
  | 'n' :: more => scanNull more
  | [] => .error (.facing .endOfValue [])
  | other => .error (mismatch bound "unit" other)

/-- A choice written as an object whose opening bracket has been read. -/
def readChoiceObject (bound : Nat) (names : List String) : Reader :=
  fun rest =>
    match skipBlanks rest with
    | [] => .error (.facing .endOfObject [])
    | c :: more =>
      if c = '"' then
        match readName bound names more with
        | .error fault => .error fault
        | .ok (name, after) =>
          match readColon after with
          | .error fault => .error fault
          | .ok after =>
            match readUnit bound after with
            | .error fault => .error fault
            | .ok after =>
              match skipBlanks after with
              | [] => .error (.behind .endOfObject [])
              | d :: last =>
                if d = '\x7d' then .ok (.object [(name, .null)], last)
                else .error (.behind .expectedValue (d :: last))
      else if c = '\x7d' then .error (.facing .expectedValue (c :: more))
      else .error (.facing .keyMustBeText (c :: more))

/-! ## The documents by their first character -/

/-- The rest of a word, for the document that the word stands for. -/
def readWord (scan : List Char → Except Fault (List Char)) (d : Document) (rest : List Char) :
    Scanned Document :=
  match scan rest with
  | .error fault => .error fault
  | .ok after => .ok (d, after)

/-- A text whose opening quote has been read. -/
def readText (bound : Nat) (rest : List Char) : Scanned Document :=
  match scanText bound rest with
  | .error fault => .error fault
  | .ok (s, after) => .ok (.text s, after)

/-- A list whose opening bracket has been read. -/
def readList (bound : Nat) (item : Reader) (rest : List Char) : Scanned Document :=
  match readItems item bound true [] rest with
  | .error fault => .error fault
  | .ok (items, after) => .ok (.list items, after)

/-- An object of any members whose opening bracket has been read. -/
def readObject (bound : Nat) (value : Reader) (rest : List Char) : Scanned Document :=
  match readMembers bound (fun _ _ => .ok value) bound true [] rest with
  | .error fault => .error fault
  | .ok (members, after) => .ok (.object members, after)

/-- A number, from its first character on. -/
def readNumber (rest : List Char) : Scanned Document :=
  match scanNumber rest with
  | .error fault => .error fault
  | .ok (n, after) => .ok (.number n, after)

/-- A number in place of a count. -/
def countOf (label : String) (n : Number) (rest : List Char) : Scanned Document :=
  match n with
  | .natural _ => .ok (.number n, rest)
  | .negative _ => .error (.behind (.negativeCount n label) rest)
  | .real _ _ => .error (.behind (.wrongForm (.number n) label) rest)

/-- A count, from its first character on. -/
def readCount (label : String) (rest : List Char) : Scanned Document :=
  match scanNumber rest with
  | .error fault => .error fault
  | .ok (n, after) => countOf label n after

/-- A choice written as a name whose opening quote has been read. -/
def readChoiceName (bound : Nat) (names : List String) (rest : List Char) : Scanned Document :=
  match readName bound names rest with
  | .error fault => .error fault
  | .ok (name, after) => .ok (.text name, after)

/-! ## One level of a document -/

/-- What is inside a bracket in front of `rest`, unless the nesting budget is
spent. -/
def nested (inner : Option (Shape ρ → Reader)) (rest : List Char)
    (body : (Shape ρ → Reader) → Scanned Document) : Scanned Document :=
  match inner with
  | none => .error (.facing .nestingLimit rest)
  | some read => body read

/-- Any document that starts with the character `c`. -/
def readAnything (bound : Nat) (inner : Option (Shape ρ → Reader)) (c : Char)
    (more : List Char) : Scanned Document :=
  if c = '"' then readText bound more
  else if c = '[' then nested inner (c :: more) fun read => readList bound (read .anything) more
  else if c = '\x7b' then
    nested inner (c :: more) fun read => readObject bound (read .anything) more
  else if c = 'n' then readWord scanNull .null more
  else if c = 't' then readWord scanTrue (.flag true) more
  else if c = 'f' then readWord scanFalse (.flag false) more
  else if c = '-' ∨ isDigit c then readNumber (c :: more)
  else .error (.facing .expectedValue (c :: more))

/-- A document that starts with the character `c`, by its shape. -/
def readStarting (grammar : Grammar ρ) (bound : Nat) (inner : Option (Shape ρ → Reader))
    (c : Char) (more : List Char) : Shape ρ → Scanned Document
  | .nullable shape =>
    if c = 'n' then readWord scanNull .null more else readStarting grammar bound inner c more shape
  | .text =>
    if c = '"' then readText bound more else .error (mismatch bound "a string" (c :: more))
  | .flag =>
    if c = 't' then readWord scanTrue (.flag true) more
    else if c = 'f' then readWord scanFalse (.flag false) more
    else .error (mismatch bound "a boolean" (c :: more))
  | .count label =>
    if c = '-' ∨ isDigit c then readCount label (c :: more)
    else .error (mismatch bound label (c :: more))
  | .choice names =>
    if c = '"' then readChoiceName bound names more
    else if c = '\x7b' then
      nested inner (c :: more) fun _ => readChoiceObject bound names more
    else .error (.facing .expectedValue (c :: more))
  | .anything => readAnything bound inner c more
  | .list item =>
    if c = '[' then nested inner (c :: more) fun read => readList bound (read item) more
    else .error (mismatch bound "a sequence" (c :: more))
  | .record name =>
    if c = '\x7b' then
      nested inner (c :: more) fun read => readRecordObject bound (grammar name) read more
    else if c = '[' then
      nested inner (c :: more) fun read => readRecordList (grammar name) read more
    else .error (mismatch bound (grammar name).title (c :: more))

/-- One level of a document, after the blanks in front of it. -/
def readWith (grammar : Grammar ρ) (bound : Nat) (inner : Option (Shape ρ → Reader))
    (shape : Shape ρ) : Reader :=
  fun rest =>
    match skipBlanks rest with
    | [] => .error (.facing .endOfValue [])
    | c :: more => readStarting grammar bound inner c more shape

/-! ## Whole documents -/

/-- A document of a shape in which up to `budget` brackets are open at a time. -/
def read (grammar : Grammar ρ) (bound : Nat) : Nat → Shape ρ → Reader
  | 0 => readWith grammar bound none
  | budget + 1 => readWith grammar bound (some (read grammar bound budget))

/-- The number of brackets that may be open at a time. -/
def nestingBudget : Nat := 127

/-- A text that is one document of a shape, with blanks around it. -/
def parseChars (grammar : Grammar ρ) (shape : Shape ρ) (source : List Char) :
    Except Fault Document :=
  match read grammar source.length nestingBudget shape source with
  | .error fault => .error fault
  | .ok (d, rest) =>
    match skipBlanks rest with
    | [] => .ok d
    | more => .error (.facing .trailingCharacters more)

/-- A text that is one document of a shape, or the diagnostic. -/
def parse (grammar : Grammar ρ) (shape : Shape ρ) (source : String) : Except String Document :=
  match parseChars grammar shape source.toList with
  | .error fault => .error (fault.describe source.toList)
  | .ok d => .ok d

/-- The grammar without records. -/
def noRecords : Grammar Empty := nofun

/-- A text that is one document of any shape, or the diagnostic. -/
def parseAny (source : String) : Except String Document :=
  parse noRecords .anything source

end OpSchema.Json
