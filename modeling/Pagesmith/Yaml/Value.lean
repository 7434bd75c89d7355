import Pagesmith.Decimal
import Pagesmith.Json.Basic
import Pagesmith.Text.Quoted
import Pagesmith.Yaml.Scalar

/-!
# YAML values and why there is none

A `Value` is what a document means, with names replaced by what they stand for. Mappings keep the
order in which they were written, but order does not tell them apart, and the two zeros are one
number.
-/

namespace Pagesmith.Yaml

/-- The value of a document or of a part of it. -/
inductive Value
  | null
  | bool (b : Bool)
  | integer (n : Int)
  | fraction (x : Binary64)
  | infinity (negative : Bool)
  | notANumber
  | text (s : String)
  | sequence (items : List Value)
  | mapping (entries : List (Value × Value))
  | tagged (tag : List Char) (content : Value)

namespace Value

mutual

/-- Whether two values are the same. -/
def same : Value → Value → Bool
  | null, null | notANumber, notANumber => true
  | bool a, bool b => a == b
  | integer a, integer b => a == b
  | fraction a, fraction b => a == b || (a.isZero && b.isZero)
  | infinity a, infinity b => a == b
  | text a, text b => a == b
  | sequence as, sequence bs => sameItems as bs
  | mapping as, mapping bs => as.length == bs.length && within as bs
  | tagged t a, tagged u b => t == u && same a b
  | _, _ => false

def sameItems : List Value → List Value → Bool
  | [], [] => true
  | a :: as, b :: bs => same a b && sameItems as bs
  | _, _ => false

/-- Whether all entries of one mapping are entries of another. -/
def within : List (Value × Value) → List (Value × Value) → Bool
  | [], _ => true
  | (k, v) :: as, bs => bs.any (fun (l, w) ↦ same k l && same v w) && within as bs

end

def untagged : Value → Value
  | tagged _ v => v
  | v => v

end Value

/-! ## Why a text has no value

A text has no value if it is not well formed, but also if a name in it stands for nothing or for too
much, if a scalar or a mapping in it has no value, or if it is more than one document. What is found
first in the order of the text counts; that the text breaks off somewhere is found there, and a
second document is found last.

A message about a value says by a `Path` where in the document it stands: by the keys and the
numbers that lead to it, and by the place of its node. -/

/-- The way from a document's root to a value in it. -/
inductive Path
  | root
  | item (parent : Path) (index : Nat)
  /-- The value of a key, of which only scalars are known. -/
  | entry (parent : Path) (key : Option (List Char))
deriving DecidableEq, Repr

namespace Path

def text : Path → String
  | root => "."
  | item parent index => s!"{parent.text}[{index}]"
  | entry parent key =>
    let key := (key.map String.ofList).getD "?"
    match parent with
    | root => key
    | parent => parent.text ++ "." ++ key

/-- A path in front of what a message says about it. -/
def heading (p : Path) : String := if p.text = "." then "" else p.text ++ ": "

end Path

/-- What can be wrong with a scalar or a mapping. -/
inductive ValueFlaw
  /-- A whole number of more than 64 bits. -/
  | wide (n : Int)
  /-- A scalar that is not what its tag says. -/
  | unlike (text : List Char) (tag : Tag)
  /-- A key that the mapping has already. -/
  | duplicate (key : Value)

namespace ValueFlaw

/-- How fractions are written that are keys. -/
def keyLayout : Layout := { Number.jsonLayout with signsExponent := false }

def fractionText (x : Binary64) : String :=
  let magnitude := if x.isZero then ['0', '.', '0'] else keyLayout.magnitude x
  String.ofList (if x.negative then '-' :: magnitude else magnitude)

/-- How a key that comes twice is named. -/
def keyText : Value → String
  | .null => "with null key"
  | .bool b => s!"with key `{b}`"
  | .integer n => s!"with key {String.ofList (Number.integerText n)}"
  | .fraction x => s!"with key {fractionText x}"
  | .infinity negative => "with key " ++ (if negative then "-.inf" else ".inf")
  | .notANumber => "with key .nan"
  | .text s => s!"with key {Text.quoted s}"
  | .sequence _ | .mapping _ | .tagged _ _ => "in YAML map"

/-- What a tag wants a scalar to be. -/
def wanted : Tag → String
  | .truth => "a boolean"
  | .whole => "an integer"
  | .fraction => "a float"
  | _ => "null"

def text : ValueFlaw → String
  | wide n =>
    let width := if n < 0 then "i128" else "u128"
    s!"invalid type: integer `{String.ofList (Number.integerText n)}` as {width}" ++
      ", expected any YAML value"
  | unlike s tag =>
    s!"invalid value: string {Text.quoted (String.ofList s)}, expected {wanted tag}"
  | duplicate key => s!"duplicate entry {keyText key}"

end ValueFlaw

/-- Why a text has no value. -/
inductive Fault
  | malformed (m : Malformation)
  | unknownName (place : Mark)
  | tooDeep (place : Mark)
  | tooLong
  | value (path : Path) (place : Mark) (what : ValueFlaw)
  | secondDocument

def Fault.message : Fault → String
  | malformed m => m.message
  | unknownName place => "unknown anchor" ++ place.text
  | tooDeep place => "recursion limit exceeded" ++ place.text
  | tooLong => "repetition limit exceeded"
  | value path place what => path.heading ++ what.text ++ place.text
  | secondDocument => "deserializing from YAML containing more than one document is not supported"

end Pagesmith.Yaml
