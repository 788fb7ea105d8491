import OpSchema.Order
import OpSchema.Decimal.Writing

/-!
# Documents

A document is the tree of values that a text describes.  An object keeps its
members in the order in which they were written, repeated keys included, so a
document still shows what a reader of its text would see.

## Main definitions

* `Number`: a whole number of 64 bits, or a double.
* `Document`: the tree.
* `Document.canonical`: the same document with every object in ascending key
  order and each key once, the last member of a key being the one that counts.
-/

namespace OpSchema.Json

open Decimal (Magnitude)

/-- A number as it is read: a whole number below `2 ^ 64`, a whole number from
`-2 ^ 63` to `-1`, or a double. -/
inductive Number where
  | natural (n : Nat)
  | negative (n : Nat)
  | real (isNegative : Bool) (magnitude : Magnitude)
  deriving DecidableEq, Repr

namespace Number

/-- The shortest text that reads back as the number. -/
def write : Number → String
  | natural n => toString n
  | negative n => "-" ++ toString n
  | real isNegative magnitude => (if isNegative then "-" else "") ++ magnitude.write

end Number

/-- A tree of values. -/
inductive Document where
  | null
  | flag (value : Bool)
  | number (value : Number)
  | text (value : String)
  | list (items : List Document)
  | object (members : List (String × Document))
  deriving Repr

namespace Document

/-- A document that is a natural number. -/
def natural (n : Nat) : Document := number (.natural n)

/-- A list of texts. -/
def texts (values : List String) : Document := list (values.map text)

/-! ## What a document holds

Each view answers with a neutral value for a document of another form. -/

/-- The characters of a text. -/
def asText : Document → String
  | text value => value
  | _ => ""

/-- The truth value of a flag. -/
def asFlag : Document → Bool
  | flag value => value
  | _ => false

/-- The value of a natural number. -/
def asNatural : Document → Nat
  | number (.natural n) => n
  | _ => 0

/-- The items of a list. -/
def asList : Document → List Document
  | list items => items
  | _ => []

/-- The members of an object. -/
def asMembers : Document → List (String × Document)
  | object members => members
  | _ => []

/-- The document unless it is `null`. -/
def asOption : Document → Option Document
  | null => none
  | d => some d

/-! ## The canonical form -/

mutual

/-- The document with the members of every object in ascending key order, the
last one where a key is repeated. -/
def canonical : Document → Document
  | list items => list (canonicalItems items)
  | object members => object (Order.collect Prod.fst (canonicalMembers members))
  | d => d

/-- The canonical forms of a list of documents. -/
def canonicalItems : List Document → List Document
  | [] => []
  | d :: ds => canonical d :: canonicalItems ds

/-- The members with their values in canonical form. -/
def canonicalMembers : List (String × Document) → List (String × Document)
  | [] => []
  | (key, d) :: ms => (key, canonical d) :: canonicalMembers ms

end

end Document

end OpSchema.Json
