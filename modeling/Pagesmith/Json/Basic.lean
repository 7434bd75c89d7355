import Pagesmith.Decimal
import Pagesmith.Text.Words

/-!
# JSON values

A value is a scalar, a list of values or a list of named fields. The fields of an object are kept
in the order of their names, by code points, and each name occurs once: `insertField` keeps both.
A record that is written in an order of its own is the same type with its fields in that order;
only the writer looks at it.

Functions on values are families of three, over values, lists of values and lists of fields, so
that every one of them is plain structural recursion.
-/

/-! ## Numbers

A number written without fraction and exponent is an integer as long as it fits into 64 bits,
signed or unsigned; every other number is a binary fraction. The two kinds stay apart: `3` and
`3.0` are different numbers with different texts.

### Two texts

Number text appears in two places with different conventions. *Template text* is what a visitor of
a page sees: whole numbers have all their digits and no fraction, small fractions are never
written with an exponent, and both zeros are `0`. *JSON text* is what another program reads back:
a fraction always shows a point or an exponent, so that it stays a fraction. -/

namespace Pagesmith

inductive Number
  | integer (n : Int)
  | fraction (x : Binary64)
deriving DecidableEq, Repr

namespace Number

def maxInteger : Nat := Nat.pow 2 64 - 1

def minInteger : Int := -9223372036854775808

def isZero : Number → Bool
  | integer n => n == 0
  | fraction x => x.isZero

/-- JSON text writes exponents from -5 up to 15 positionally. -/
def jsonLayout : Layout where
  tie := .toEven
  positional := fun e ↦ -5 ≤ e ∧ e < 16
  keepsPoint := true
  signsExponent := true

/-- Template text has an exponent only from `1e21` up. -/
def templateLayout : Layout where
  tie := .up
  positional := fun e ↦ e < 21
  keepsPoint := false
  signsExponent := false

def integerText (n : Int) : List Char :=
  if n < 0 then '-' :: Nat.toDigits 10 n.natAbs else Nat.toDigits 10 n.natAbs

/-- The text that another program reads back as the same number. -/
def jsonText : Number → List Char
  | integer n => integerText n
  | fraction x =>
    let magnitude := if x.isZero then ['0', '.', '0'] else jsonLayout.magnitude x
    if x.negative then '-' :: magnitude else magnitude

/-- The text a visitor sees. Whole numbers below `1e21` have all their digits, not only the
shortest ones filled up with zeros. -/
def templateText : Number → List Char
  | integer n => integerText n
  | fraction x =>
    if x.isZero then ['0']
    else
      let magnitude := match x.wholeMagnitude? with
        | some n => if n < Nat.pow 10 21 then Nat.toDigits 10 n else templateLayout.magnitude x
        | none => templateLayout.magnitude x
      if x.negative then '-' :: magnitude else magnitude

end Number

/-! ## Values -/

/-- A JSON value. -/
inductive Json
  | null
  | bool (b : Bool)
  | number (n : Number)
  | string (s : String)
  | array (items : List Json)
  | object (fields : List (String × Json))
deriving Repr, Inhabited

/-- Set the field `name` to `content` in a list that is sorted by name: a name that is already there
keeps its place. -/
def insertField {α : Type} (name : String) (content : α) : List (String × α) → List (String × α)
  | [] => [(name, content)]
  | (k, v) :: rest =>
    if name < k then (name, content) :: (k, v) :: rest
    else if name = k then (name, content) :: rest
    else (k, v) :: insertField name content rest

/-- The fields in the order of their names; of several with one name the last stays. -/
def sortFields {α : Type} (fields : List (String × α)) : List (String × α) :=
  fields.foldl (fun sorted f ↦ insertField f.1 f.2 sorted) []

namespace Json

def ofFields (fields : List (String × Json)) : Json := object (sortFields fields)

def int (n : Int) : Json := number (.integer n)

/-- The field `name`, if the value is an object that has it. -/
def field? (name : String) : Json → Option Json
  | object fields => fields.lookup name
  | _ => none

def isNull : Json → Bool
  | null => true
  | _ => false

def string? : Json → Option String
  | string s => some s
  | _ => none

def bool? : Json → Option Bool
  | bool b => some b
  | _ => none

def array? : Json → Option (List Json)
  | array items => some items
  | _ => none

def int? : Json → Option Int
  | number (.integer n) => some n
  | _ => none

/-- The six kinds of value. -/
inductive Kind
  | null
  | boolean
  | number
  | string
  | array
  | object
deriving DecidableEq, Repr

/-- What kind of value it is. -/
def kind : Json → Kind
  | null => .null
  | bool _ => .boolean
  | number _ => .number
  | string _ => .string
  | array _ => .array
  | object _ => .object

/-- Spelling of a kind in messages. -/
def Kind.name : Kind → String
  | null => "null"
  | boolean => "boolean"
  | number => "number"
  | string => "string"
  | array => "array"
  | object => "object"

/-! ### Equality

The instance `DecidableEq Json` walks both values at once. -/

mutual

def decEq : (a b : Json) → Decidable (a = b)
  | null, null => isTrue rfl
  | bool a, bool b => if h : a = b then isTrue (by rw [h]) else isFalse (by simp [h])
  | number a, number b => if h : a = b then isTrue (by rw [h]) else isFalse (by simp [h])
  | string a, string b => if h : a = b then isTrue (by rw [h]) else isFalse (by simp [h])
  | array a, array b =>
    match decEqItems a b with
    | isTrue h => isTrue (by rw [h])
    | isFalse h => isFalse (by simp [h])
  | object a, object b =>
    match decEqFields a b with
    | isTrue h => isTrue (by rw [h])
    | isFalse h => isFalse (by simp [h])
  | null, bool _ | null, number _ | null, string _ | null, array _ | null, object _ =>
    isFalse (by simp)
  | bool _, null | bool _, number _ | bool _, string _ | bool _, array _ | bool _, object _ =>
    isFalse (by simp)
  | number _, null | number _, bool _ | number _, string _ | number _, array _
  | number _, object _ => isFalse (by simp)
  | string _, null | string _, bool _ | string _, number _ | string _, array _
  | string _, object _ => isFalse (by simp)
  | array _, null | array _, bool _ | array _, number _ | array _, string _ | array _, object _ =>
    isFalse (by simp)
  | object _, null | object _, bool _ | object _, number _ | object _, string _
  | object _, array _ => isFalse (by simp)

def decEqItems : (a b : List Json) → Decidable (a = b)
  | [], [] => isTrue rfl
  | [], _ :: _ => isFalse (by simp)
  | _ :: _, [] => isFalse (by simp)
  | a :: as, b :: bs =>
    match decEq a b, decEqItems as bs with
    | isTrue h, isTrue h' => isTrue (by rw [h, h'])
    | isFalse h, _ => isFalse (by simp [h])
    | _, isFalse h => isFalse (by simp [h])

def decEqFields : (a b : List (String × Json)) → Decidable (a = b)
  | [], [] => isTrue rfl
  | [], _ :: _ => isFalse (by simp)
  | _ :: _, [] => isFalse (by simp)
  | (k, a) :: as, (l, b) :: bs =>
    match instDecidableEqString k l, decEq a b, decEqFields as bs with
    | isTrue h, isTrue h', isTrue h'' => isTrue (by rw [h, h', h''])
    | isFalse h, _, _ => isFalse (by simp [h])
    | _, isFalse h, _ => isFalse (by simp [h])
    | _, _, isFalse h => isFalse (by simp [h])

end

instance : DecidableEq Json := decEq

end Json

end Pagesmith
