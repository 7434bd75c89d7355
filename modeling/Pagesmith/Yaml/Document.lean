import Pagesmith.Text.Words
import Pagesmith.Yaml.Tree
import Pagesmith.Yaml.Value

/-!
# Documents

By `Value.ofTree` a document's tree becomes a value, where names are replaced by what they stand for
and scalars by what they mean. A mapping with two equal keys has no value.

Names allow a short document to have a huge value, or an endless one. So collections may be nested
128 deep at most, and the names replaced are no more than a hundred for each beginning and end of a
node.

The fault of a document is the first one in the order of its text: a key is compared with those in
front of it before its value is looked at, and a text that breaks off is at fault only if nothing in
front of that place is.
-/

/-! ## What scalars mean

A scalar without quotes is nothing, a truth value or a number if it is spelt like one, and a text
otherwise. Whole numbers may be written in base two, eight or sixteen; digits behind a leading zero
are a text. Whole numbers have 64 bits: one that is wider but has no more than 128 is refused, and
a still wider one is taken as a fraction.

A `Tag` may say what a scalar has to be, quoted or not. Behind a tag of the writer's own a scalar
means what it means without it. -/

namespace Pagesmith.Yaml

/-- Whether a scalar is spelt like nothing. -/
def isNull (s : List Char) : Bool :=
  ["~", "null", "Null", "NULL"].contains (String.ofList s)

def bool? (s : List Char) : Option Bool :=
  if ["true", "True", "TRUE"].contains (String.ofList s) then some true
  else if ["false", "False", "FALSE"].contains (String.ofList s) then some false
  else none

/-! ### Whole numbers -/

/-- The number that digits of `base` stand for, if there is at least one. -/
def digits? (base : Nat) (s : List Char) : Option Nat :=
  if s.isEmpty then none
  else s.foldlM (fun n c ↦ do
    let d ← Text.hexDigit? c
    if d < base then some (base * n + d) else none) 0

/-- A sign, if there is one, and what follows it. -/
def signed : List Char → Option Bool × List Char
  | '+' :: s => (some false, s)
  | '-' :: s => (some true, s)
  | s => (none, s)

/-- Digits with a needless zero in front, a sign aside. -/
def hasLeadingZero (s : List Char) : Bool :=
  match (signed s).2 with
  | '0' :: c :: s => (c :: s).all fun c ↦ (Text.digit? c).isSome
  | _ => false

/-- A whole number without its sign, in any of the bases. -/
def magnitude? : List Char → Option Nat
  | '0' :: 'x' :: s => digits? 16 s
  | '0' :: 'o' :: s => digits? 8 s
  | '0' :: 'b' :: s => digits? 2 s
  | s => if hasLeadingZero s then none else digits? 10 s

/-- What became of a scalar as a whole number. -/
inductive Whole
  | fits (n : Int)
  | tooWide (n : Int)
  | notWhole
deriving DecidableEq, Repr

def Whole.ofText (s : List Char) : Whole :=
  let (sign, body) := signed s
  match magnitude? body with
  | none => notWhole
  | some n =>
    if sign = some true then
      if n ≤ Nat.pow 2 63 then fits (-n)
      else if n ≤ Nat.pow 2 127 then tooWide (-n)
      else notWhole
    else if n < Nat.pow 2 64 then fits n
    else if n < Nat.pow 2 128 then tooWide n
    else notWhole

/-! ### Fractions -/

/-- The digits a text starts with, and what follows them. -/
def digitRun (s : List Char) : List Char × List Char :=
  (s.takeWhile fun c ↦ (Text.digit? c).isSome, s.dropWhile fun c ↦ (Text.digit? c).isSome)

/-- The number that digits of base ten stand for, none at all being zero. -/
def ofDigits (s : List Char) : Nat := (digits? 10 s).getD 0

def exponent? : List Char → Option Int
  | [] => some 0
  | c :: s =>
    if c = 'e' ∨ c = 'E' then
      let (sign, body) := signed s
      (digits? 10 body).map fun n ↦ if sign = some true then -(n : Int) else n
    else none

/-- A finite number with point or exponent, or without. -/
def finite? (s : List Char) : Option Binary64 := do
  let (sign, body) := signed s
  let (whole, rest) := digitRun body
  let (places, rest) := match rest with
    | '.' :: rest => digitRun rest
    | rest => ([], rest)
  if whole.isEmpty && places.isEmpty then none
  else
    let e ← exponent? rest
    Binary64.ofDecimal (sign = some true) (ofDigits (whole ++ places)) (e - places.length)

def fraction? (s : List Char) : Option Value :=
  let (sign, body) := signed s
  if [".inf", ".Inf", ".INF"].contains (String.ofList body) then
    some (.infinity (sign = some true))
  else if [".nan", ".NaN", ".NAN"].contains (String.ofList s) then some .notANumber
  else (finite? s).map .fraction

/-! ### Scalars -/

/-- What a plain scalar means, unless it is a number too wide. -/
def Value.ofPlain (s : List Char) : Except ValueFlaw Value :=
  if s.isEmpty || isNull s then .ok .null
  else match bool? s with
    | some b => .ok (.bool b)
    | none =>
      match Whole.ofText s with
      | .fits n => .ok (.integer n)
      | .tooWide n => .error (.wide n)
      | .notWhole =>
        if hasLeadingZero s then .ok (.text (String.ofList s))
        else .ok ((fraction? s).getD (.text (String.ofList s)))

/-- What a scalar means that has no tag. -/
def Value.ofUntagged (s : List Char) (plain : Bool) : Except ValueFlaw Value :=
  if plain then ofPlain s else .ok (.text (String.ofList s))

/-- A value behind the tag of its node. Only tags of the writer's own are kept, without their
exclamation mark unless it stands alone. -/
def Value.withTag (tag : Option Tag) (v : Value) : Value :=
  let bare : List Char → List Char
    | '!' :: c :: s => c :: s
    | s => s
  match tag with
  | some (.own name) => tagged (bare (bare name)) v
  | _ => v

def Value.ofScalar (tag : Option Tag) (s : List Char) (plain : Bool) : Except ValueFlaw Value :=
  let orUnlike (t : Tag) (v? : Option Value) : Except ValueFlaw Value :=
    match v? with
    | some v => .ok v
    | none => .error (.unlike s t)
  match tag with
  | none | some .illegible => ofUntagged s plain
  | some (.own name) => (ofUntagged s plain).map (withTag (some (.own name)))
  | some .truth => orUnlike .truth ((bool? s).map .bool)
  | some .whole =>
    match Whole.ofText s with
    | .fits n => .ok (.integer n)
    | .tooWide n => .error (.wide n)
    | .notWhole => .error (.unlike s .whole)
  | some .fraction => orUnlike .fraction (fraction? s)
  | some .nothing => if isNull s then .ok .null else .error (.unlike s .nothing)
  | some .other => .ok (.text (String.ofList s))

/-! ## Values of documents -/

namespace Node

/-- Evaluation with a number of names that may still be replaced. -/
abbrev Evaluation := StateT Nat (Except Fault)

/-- The node that stands at a place, where a name stands for one of `nodes`, and whether it was a
name. -/
def resolve (nodes : List (Nat × Node Nat)) : Node Nat → Evaluation (Node Nat × Bool)
  | reference _ number => do
    match ← get with
    | 0 => throw .tooLong
    | left + 1 =>
      set left
      return ((nodes.lookup number).getD (.fault .tooLong), true)
  | n => return (n, false)

def scalarText? {ν : Type} : Node ν → Option (List Char)
  | scalar _ _ text _ => some text
  | _ => none

def ownTag? : Option Tag → Option Tag
  | some (.own name) => some (.own name)
  | _ => none

/-- The value of a tree in which collections are nested `depth` deep at most. The tag of a node does
not count if it is `bare`; the keys of a mapping with a tag of the writer's own are. -/
def value (nodes : List (Nat × Node Nat)) : (depth : Nat) → (bare : Bool) → Path → Node Nat →
    Evaluation Value
  | depth, bare, path, n => do
    let (n, named) ← resolve nodes n
    let bare := bare && !named
    match depth, n with
    | _, fault f => throw f
    | _, reference _ _ => throw .tooLong
    | _, scalar place p s plain =>
      match Value.ofScalar (if bare then none else p.tag) s plain with
      | .ok v => return v
      | .error what => throw (.value path place what)
    | 0, sequence place _ _ | 0, mapping place _ _ => throw (.tooDeep place)
    | depth + 1, sequence _ p items =>
      let items ← items.zipIdx.mapM fun (n, i) ↦ value nodes depth false (.item path i) n
      return .withTag (if bare then none else p.tag) (.sequence items)
    | depth + 1, mapping place p entries =>
      let tag := if bare then none else p.tag
      let bareKeys := bare || (ownTag? tag).isSome
      let entries ← entries.foldlM (fun (known : List (Value × Value)) (k, v) ↦ do
        let key ← value nodes depth bareKeys path k
        match known.find? fun (l, _) ↦ l.same key with
        | some (l, _) => throw (.value path place (.duplicate l))
        | none =>
          let content ← value nodes depth false (.entry path (scalarText? k)) v
          return known ++ [(key, content)]) []
      return .withTag tag (.mapping entries)

end Node

def Value.ofTree (t : Tree) : Except Fault Value := do
  let (n, _) := t.numbered {}
  let (v, _) ← (n.value n.named.reverse 128 false .root).run (100 * n.ends)
  return v

/-- The value of a text that is one document. -/
def Value.ofText (s : String) : Except Fault Value := do
  let (tree, rest) := Tree.ofTokens (Token.scan s.toList)
  let v ← ofTree tree
  match Tree.trailingFault? rest with
  | some f => throw f
  | none => return v

end Pagesmith.Yaml
