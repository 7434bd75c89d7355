import Pagesmith.Json.Basic

/-!
# Reading JSON text

The reader's state is what is left of the text, and every step returns a shorter rest. A failure
keeps the rest at which it arose, so that its line and column are computed once, at the edge, from
the whole text: lines end at `\n` alone, and columns count bytes.

Values may be nested 127 deep.

## Fractions

The significand of a number with a fraction or an exponent is collected in 64 bits, digits beyond
that being dropped, and is then scaled by a power of ten. Significand, power and result are each
rounded to the nearest binary number, so a long fraction may come out one unit beside the nearest
binary number of the decimal itself.
-/

namespace Pagesmith.Json

namespace Reader

/-- What is wrong with a text that is not JSON. -/
inductive SyntaxFault
  | endInList
  | endInObject
  | endInString
  | endInValue
  | expectedColon
  | expectedListCommaOrEnd
  | expectedObjectCommaOrEnd
  | expectedIdent
  | expectedValue
  | invalidEscape
  | invalidNumber
  | numberOutOfRange
  | controlCharacter
  | keyMustBeString
  | loneSurrogate
  | trailingComma
  | trailingCharacters
  | endOfHexEscape
  | tooDeep
deriving DecidableEq, Repr

def SyntaxFault.message : SyntaxFault → String
  | endInList => "EOF while parsing a list"
  | endInObject => "EOF while parsing an object"
  | endInString => "EOF while parsing a string"
  | endInValue => "EOF while parsing a value"
  | expectedColon => "expected `:`"
  | expectedListCommaOrEnd => "expected `,` or `]`"
  | expectedObjectCommaOrEnd => "expected `,` or `\x7d`"
  | expectedIdent => "expected ident"
  | expectedValue => "expected value"
  | invalidEscape => "invalid escape"
  | invalidNumber => "invalid number"
  | numberOutOfRange => "number out of range"
  | controlCharacter => "control character (\\u0000-\\u001F) found while parsing a string"
  | keyMustBeString => "key must be a string"
  | loneSurrogate => "lone leading surrogate in hex escape"
  | trailingComma => "trailing comma"
  | trailingCharacters => "trailing characters"
  | endOfHexEscape => "unexpected end of hex escape"
  | tooDeep => "recursion limit exceeded"

/-- A fault and where it arose: so many bytes into what is left of the text. -/
structure Failure (ε : Type) where
  fault : ε
  rest : List Char
  ahead : Nat := 0

/-- The `fault` found behind the characters read so far. -/
def failAt {ε α : Type} (fault : ε) (rest : List Char) : Except (Failure ε) α :=
  .error { fault, rest }

/-- The `fault` found in the next character, at its first byte. -/
def failPeeking {ε α : Type} (fault : ε) (rest : List Char) : Except (Failure ε) α :=
  .error { fault, rest, ahead := 1 }

/-- Reading that may fail. A step of it gives a result and what is left of the text. -/
abbrev Reading := Except (Failure SyntaxFault)

def isJsonBlank (c : Char) : Bool := c == ' ' || c == '\n' || c == '\t' || c == '\r'

/-- The text behind its leading blanks. -/
def skipBlanks (s : List Char) : List Char := s.dropWhile isJsonBlank

/-! ## Places in the text -/

def byteCount (s : List Char) : Nat := s.foldl (fun n c ↦ n + c.utf8Size) 0

/-- Line and column after so many bytes, where the text starts at `line` and `column`. -/
def placeAfter : (bytes line column : Nat) → List Char → Nat × Nat
  | _, line, column, [] => (line, column)
  | 0, line, column, _ => (line, column)
  | bytes + 1, line, column, c :: s =>
    if c = '\n' then placeAfter bytes (line + 1) 0 s
    else if c.utf8Size ≤ bytes + 1 then
      placeAfter (bytes + 1 - c.utf8Size) line (column + c.utf8Size) s
    else (line, column + bytes + 1)
termination_by _ _ _ s => s.length

/-- Line and column of a failure in `whole`, the text that was read. -/
def Failure.place {ε : Type} (f : Failure ε) (whole : List Char) : Nat × Nat :=
  placeAfter (byteCount whole - byteCount f.rest + f.ahead) 1 0 whole

/-! ## Words and numbers -/

/-- The further letters of a word such as `null`. -/
def word : (letters : List Char) → (s : List Char) → Reading (List Char)
  | [], s => .ok s
  | _ :: _, [] => failAt .endInValue []
  | l :: letters, c :: s => if l = c then word letters s else failPeeking .expectedIdent (c :: s)

/-- Digits appended to `value` for as long as it stays within 64 bits: the new value, the number of
digits taken, and what follows them. -/
def appendDigits (value : Nat) : List Char → Nat × Nat × List Char
  | [] => (value, 0, [])
  | c :: s =>
    match Text.digit? c with
    | some d =>
      if 10 * value + d ≤ Number.maxInteger then
        let (v, n, rest) := appendDigits (10 * value + d) s
        (v, n + 1, rest)
      else (value, 0, c :: s)
    | none => (value, 0, c :: s)

def startsWithDigit : List Char → Bool
  | c :: _ => (Text.digit? c).isSome
  | [] => false

/-- The number of digits in front, and what follows them. -/
def skipDigits (s : List Char) : Nat × List Char :=
  ((s.takeWhile fun c ↦ (Text.digit? c).isSome).length, s.dropWhile fun c ↦ (Text.digit? c).isSome)

/-- The binary number nearest to `10 ^ n`, for `n` up to 308. -/
private def powerOfTen (n : Nat) : Binary64 :=
  (Binary64.round false (Nat.pow 10 n) 1).getD (.zero false)

/-- Scale `x` by `10 ^ exponent`, in steps of at most `10 ^ 308`. After `steps` of them downwards
nothing is left of any 64-bit significand. -/
def scale (steps : Nat) (x : Binary64) (exponent : Int) : Option Binary64 :=
  if exponent.natAbs ≤ 308 then
    if 0 ≤ exponent then x.mul (powerOfTen exponent.natAbs)
    else x.div (powerOfTen exponent.natAbs)
  else if x.isZero then some x
  else if 0 ≤ exponent then none
  else match steps with
    | 0 => some (.zero x.negative)
    | steps + 1 => do scale steps (← x.div (powerOfTen 308)) (exponent + 308)

/-- The number `± significand * 10 ^ exponent`, in front of `rest`. -/
def fraction (negative : Bool) (significand : Nat) (exponent : Int) (rest : List Char) :
    Reading (Number × List Char) :=
  match (Binary64.round negative significand 1).bind fun x ↦ scale 3 x exponent with
  | some x => .ok (.fraction x, rest)
  | none => failAt .numberOutOfRange rest

/-- Largest decimal exponent that is kept. -/
private def maxExponent : Nat := Nat.pow 2 31 - 1

/-- The value of an exponent's digits, if it is in range; else what follows the digit that is one
too many. -/
def exponentDigits (value : Nat) : List Char → Except (List Char) (Nat × List Char)
  | [] => .ok (value, [])
  | c :: s =>
    match Text.digit? c with
    | some d => if 10 * value + d ≤ maxExponent then exponentDigits (10 * value + d) s else .error s
    | none => .ok (value, c :: s)

/-- What follows the letter `e`, where the digits so far are `significand * 10 ^ base`. -/
def exponentPart (negative : Bool) (significand : Nat) (base : Int) (s : List Char) :
    Reading (Number × List Char) :=
  let (down, s) := match s with
    | '+' :: s => (false, s)
    | '-' :: s => (true, s)
    | s => (false, s)
  match s with
  | [] => failAt .endInValue []
  | c :: s =>
    match Text.digit? c with
    | none => failPeeking .invalidNumber (c :: s)
    | some d =>
      match exponentDigits d s with
      | .ok (e, rest) =>
        fraction negative significand (if down then base - e else base + e) rest
      | .error rest =>
        if significand ≠ 0 ∧ ¬down then failAt .numberOutOfRange rest
        else .ok (.fraction (.zero negative), (skipDigits rest).2)

/-- What follows the decimal point, where the digits so far are `significand * 10 ^ base`. -/
def fractionPart (negative : Bool) (significand : Nat) (base : Int) (s : List Char) :
    Reading (Number × List Char) :=
  if !startsWithDigit s then
    match s with
    | [] => failPeeking .endInValue []
    | s => failPeeking .invalidNumber s
  else
    let (v, n, rest) := appendDigits significand s
    let (_, rest) := skipDigits rest
    match rest with
    | 'e' :: rest | 'E' :: rest => exponentPart negative v (base - n) rest
    | rest => fraction negative v (base - n) rest

/-- What follows the digits before the point: those that make up `value`, and `dropped` ones that
did not fit. -/
def afterWhole (negative : Bool) (value dropped : Nat) (s : List Char) :
    Reading (Number × List Char) :=
  match s with
  | '.' :: s => fractionPart negative value dropped s
  | 'e' :: s | 'E' :: s => exponentPart negative value dropped s
  | s =>
    if 0 < dropped then fraction negative value dropped s
    else if !negative then .ok (.integer value, s)
    else if value = 0 ∨ Number.minInteger > -(value : Int) then fraction negative value 0 s
    else .ok (.integer (-value), s)

/-- A number behind its sign. -/
def unsignedNumber (negative : Bool) : List Char → Reading (Number × List Char)
  | [] => failAt .endInValue []
  | '0' :: s =>
    if startsWithDigit s then failPeeking .invalidNumber s else afterWhole negative 0 0 s
  | c :: s =>
    match Text.digit? c with
    | none => failPeeking .invalidNumber (c :: s)
    | some d =>
      let (v, _, rest) := appendDigits d s
      let (dropped, rest) := skipDigits rest
      afterWhole negative v dropped rest

/-! ## Strings -/

def hexQuad (s : List Char) : Reading (Nat × List Char) :=
  if byteCount (s.take 4) < 4 then failAt .endInString []
  else match s with
    | a :: b :: c :: d :: rest =>
      match Text.hexDigit? a, Text.hexDigit? b, Text.hexDigit? c, Text.hexDigit? d with
      | some a, some b, some c, some d => .ok (4096 * a + 256 * b + 16 * c + d, rest)
      | _, _, _, _ => .error { fault := .invalidEscape, rest := s, ahead := 4 }
    | _ => .error { fault := .invalidEscape, rest := s, ahead := 4 }

/-- What follows `\u`: one code unit, or two that make up a character. -/
def unicodeEscape (s : List Char) : Reading (Char × List Char) := do
  let (n, s) ← hexQuad s
  if 0xDC00 ≤ n ∧ n ≤ 0xDFFF then failAt .loneSurrogate s
  else if n < 0xD800 ∨ 0xDBFF < n then .ok (Char.ofNat n, s)
  else
    match s with
    | [] => failAt .endInString []
    | '\\' :: [] => failAt .endInString []
    | '\\' :: 'u' :: s =>
      let (m, s) ← hexQuad s
      if m < 0xDC00 ∨ 0xDFFF < m then failAt .loneSurrogate s
      else .ok (Char.ofNat (0x10000 + (n - 0xD800) * 0x400 + (m - 0xDC00)), s)
    | '\\' :: s => .error { fault := .endOfHexEscape, rest := s, ahead := 1 }
    | s => .error { fault := .endOfHexEscape, rest := s, ahead := 1 }

def escape : List Char → Reading (Char × List Char)
  | [] => failAt .endInString []
  | '"' :: s => .ok ('"', s)
  | '\\' :: s => .ok ('\\', s)
  | '/' :: s => .ok ('/', s)
  | 'b' :: s => .ok ('\x08', s)
  | 'f' :: s => .ok ('\x0c', s)
  | 'n' :: s => .ok ('\n', s)
  | 'r' :: s => .ok ('\r', s)
  | 't' :: s => .ok ('\t', s)
  | 'u' :: s => unicodeEscape s
  | s => failPeeking .invalidEscape s

/-- The characters of a string up to its closing quotation mark. The fuel is the length of the
text, of which each character takes at least one. -/
def stringChars : (fuel : Nat) → List Char → Reading ((List Char) × List Char)
  | 0, _ => failAt .endInString []
  | _, [] => failAt .endInString []
  | fuel + 1, c :: s =>
    if c = '"' then .ok ([], s)
    else if c = '\\' then do
      let (e, s) ← escape s
      let (cs, s) ← stringChars fuel s
      .ok (e :: cs, s)
    else if c.toNat < 0x20 then failAt .controlCharacter s
    else do
      let (cs, s) ← stringChars fuel s
      .ok (c :: cs, s)

def stringBody (s : List Char) : Reading (String × List Char) := do
  let (cs, s) ← stringChars (s.length + 1) s
  .ok (String.ofList cs, s)

/-! ## Values -/

/-- The text at the next item, if another one follows; `first` tells that there was none before. -/
def nextItem (first : Bool) (s : List Char) : Reading (Option (List Char)) :=
  match skipBlanks s with
  | [] => failPeeking .endInList []
  | ']' :: _ => .ok none
  | c :: rest =>
    if first then .ok (some (c :: rest))
    else if c = ',' then
      match skipBlanks rest with
      | [] => failPeeking .endInValue []
      | ']' :: r => failPeeking .trailingComma (']' :: r)
      | r => .ok (some r)
    else failPeeking .expectedListCommaOrEnd (c :: rest)

/-- The text behind the quotation mark of the next field's name, if another field follows. -/
def nextName (first : Bool) (s : List Char) : Reading (Option (List Char)) :=
  match skipBlanks s with
  | [] => failPeeking .endInObject []
  | '\x7d' :: _ => .ok none
  | c :: rest =>
    if first then
      if c = '"' then .ok (some rest) else failPeeking .keyMustBeString (c :: rest)
    else if c = ',' then
      match skipBlanks rest with
      | [] => failPeeking .endInValue []
      | '"' :: r => .ok (some r)
      | '\x7d' :: r => failPeeking .trailingComma ('\x7d' :: r)
      | r => failPeeking .keyMustBeString r
    else failPeeking .expectedObjectCommaOrEnd (c :: rest)

def colon (s : List Char) : Reading (List Char) :=
  match skipBlanks s with
  | [] => failPeeking .endInObject []
  | ':' :: rest => .ok rest
  | rest => failPeeking .expectedColon rest

/-- The text behind the bracket that ends a list after its last item: what is left in any case,
and the fault if the list does not end here. -/
def endOfList (s : List Char) : List Char × Option (Failure SyntaxFault) :=
  match skipBlanks s with
  | [] => ([], some { fault := .endInList, rest := [], ahead := 1 })
  | ']' :: rest => (rest, none)
  | ',' :: rest =>
    match skipBlanks rest with
    | ']' :: r => (']' :: r, some { fault := .trailingComma, rest := ']' :: r, ahead := 1 })
    | r => (r, some { fault := .trailingCharacters, rest := r, ahead := 1 })
  | rest => (rest, some { fault := .trailingCharacters, rest, ahead := 1 })

/-- What is left behind the brace that ends an object after its last field, and the fault if there
is none. -/
def endOfObject (s : List Char) : List Char × Option (Failure SyntaxFault) :=
  match skipBlanks s with
  | [] => ([], some { fault := .endInObject, rest := [], ahead := 1 })
  | '\x7d' :: rest => (rest, none)
  | ',' :: rest => (',' :: rest, some { fault := .trailingComma, rest := ',' :: rest, ahead := 1 })
  | rest => (rest, some { fault := .trailingCharacters, rest, ahead := 1 })

mutual

/-- A value. The fuel is at least the length of the text; `depth` is how many more brackets may be
open. -/
def value : (fuel depth : Nat) → List Char → Reading (Json × List Char)
  | 0, _, _ => failAt .endInValue []
  | fuel + 1, depth, s =>
    match skipBlanks s with
    | [] => failPeeking .endInValue []
    | 'n' :: s => do .ok (.null, ← word "ull".toList s)
    | 't' :: s => do .ok (.bool true, ← word "rue".toList s)
    | 'f' :: s => do .ok (.bool false, ← word "alse".toList s)
    | '-' :: s => do
      let (n, s) ← unsignedNumber true s
      .ok (.number n, s)
    | '"' :: s => do
      let (t, s) ← stringBody s
      .ok (.string t, s)
    | '[' :: s =>
      match depth with
      | 0 => failPeeking .tooDeep ('[' :: s)
      | depth + 1 => do
        let (xs, s) ← items fuel depth true s
        .ok (.array xs, s)
    | '\x7b' :: s =>
      match depth with
      | 0 => failPeeking .tooDeep ('\x7b' :: s)
      | depth + 1 => do
        let (fs, s) ← fields fuel depth true s
        .ok (.ofFields fs, s)
    | c :: s =>
      if (Text.digit? c).isSome then do
        let (n, s) ← unsignedNumber false (c :: s)
        .ok (.number n, s)
      else failPeeking .expectedValue (c :: s)

def items : (fuel depth : Nat) → (first : Bool) → List Char → Reading ((List Json) × List Char)
  | 0, _, _, _ => failAt .endInList []
  | fuel + 1, depth, first, s => do
    match ← nextItem first s with
    | none => .ok ([], (skipBlanks s).tail)
    | some s =>
      let (x, s) ← value fuel depth s
      let (xs, s) ← items fuel depth false s
      .ok (x :: xs, s)

def fields : (fuel depth : Nat) → (first : Bool) → List Char →
    Reading ((List (String × Json)) × List Char)
  | 0, _, _, _ => failAt .endInObject []
  | fuel + 1, depth, first, s => do
    match ← nextName first s with
    | none => .ok ([], (skipBlanks s).tail)
    | some s =>
      let (k, s) ← stringBody s
      let s ← colon s
      let (x, s) ← value fuel depth s
      let (fs, s) ← fields fuel depth false s
      .ok ((k, x) :: fs, s)

end

/-- How many brackets may be open at once. -/
def maxDepth : Nat := 127

/-- The result `x` if nothing but blanks follows it. -/
def endOfText {α : Type} (x : α) (s : List Char) : Reading α :=
  match skipBlanks s with
  | [] => .ok x
  | rest => failPeeking .trailingCharacters rest

end Reader

open Reader in
def read (s : List Char) : Reading Json := do
  let (x, rest) ← value (2 * s.length + 2) maxDepth s
  endOfText x rest

/-- The value that `s` stands for, if it is JSON. -/
def ofText? (s : String) : Option Json :=
  match read s.toList with
  | .ok v => some v
  | .error _ => none

end Pagesmith.Json

/-! ## Passing over a value

A field that a record does not have is passed over by `skipValue`. Its value has to be JSON, but it
is not kept: brackets may be nested to any depth, numbers may be of any size and escapes need not
make up characters. What is wrong with it is reported in somewhat other words than for a value that
is read. -/

namespace Pagesmith.Json.Reader

def skipExponent : List Char → Reading (List Char)
  | '+' :: s | '-' :: s | s =>
    match s with
    | [] => failAt .invalidNumber []
    | c :: s =>
      if (Text.digit? c).isSome then .ok (skipDigits s).2
      else failPeeking .invalidNumber (c :: s)

def skipFraction : List Char → Reading (List Char)
  | '.' :: s =>
    match skipDigits s with
    | (0, s) => failPeeking .invalidNumber s
    | (_, 'e' :: s) | (_, 'E' :: s) => skipExponent s
    | (_, s) => .ok s
  | 'e' :: s | 'E' :: s => skipExponent s
  | s => .ok s

/-- The text behind a number, at its first digit. -/
def skipNumber : List Char → Reading (List Char)
  | [] => failAt .invalidNumber []
  | '0' :: s => if startsWithDigit s then failPeeking .invalidNumber s else skipFraction s
  | c :: s =>
    if (Text.digit? c).isSome then skipFraction (skipDigits s).2
    else failPeeking .invalidNumber (c :: s)

/-- The text behind a string. The fuel is more than the length of the text. -/
def skipString : (fuel : Nat) → List Char → Reading (List Char)
  | 0, _ | _, [] => failAt .endInString []
  | _ + 1, '"' :: s => .ok s
  | fuel + 1, '\\' :: 'u' :: s => do skipString fuel (← hexQuad s).2
  | fuel + 1, '\\' :: s => do skipString fuel (← escape s).2
  | fuel + 1, c :: s =>
    if c.toNat < 0x20 then failAt .controlCharacter (c :: s) else skipString fuel s

/-- The text at an item or a name, if `close` does not stand here. Behind a comma something has to
follow. -/
def skipToNext (first : Bool) (close : Char) (atEnd expected : SyntaxFault) (s : List Char) :
    Reading (Option (List Char)) :=
  match skipBlanks s with
  | [] => failPeeking atEnd []
  | c :: rest =>
    if c = close then .ok none
    else if first then .ok (some (c :: rest))
    else if c = ',' then .ok (some rest)
    else failPeeking expected (c :: rest)

mutual

/-- The text behind a value. The fuel is twice the length of the text and more. -/
def skipValue : (fuel : Nat) → List Char → Reading (List Char)
  | 0, _ => failAt .endInValue []
  | fuel + 1, s =>
    match skipBlanks s with
    | [] => failPeeking .endInValue []
    | 'n' :: s => word "ull".toList s
    | 't' :: s => word "rue".toList s
    | 'f' :: s => word "alse".toList s
    | '-' :: s => skipNumber s
    | '"' :: s => skipString (s.length + 1) s
    | '[' :: s => skipItems fuel true s
    | '\x7b' :: s => skipFields fuel true s
    | c :: s =>
      if (Text.digit? c).isSome then skipNumber (c :: s) else failPeeking .expectedValue (c :: s)

def skipItems : (fuel : Nat) → (first : Bool) → List Char → Reading (List Char)
  | 0, _, _ => failAt .endInList []
  | fuel + 1, first, s => do
    match ← skipToNext first ']' .endInList .expectedListCommaOrEnd s with
    | none => .ok (skipBlanks s).tail
    | some s => skipItems fuel false (← skipValue fuel s)

def skipFields : (fuel : Nat) → (first : Bool) → List Char → Reading (List Char)
  | 0, _, _ => failAt .endInObject []
  | fuel + 1, first, s => do
    match ← skipToNext first '\x7d' .endInObject .expectedObjectCommaOrEnd s with
    | none => .ok (skipBlanks s).tail
    | some s =>
      match skipBlanks s with
      | [] => failPeeking .endInObject []
      | '"' :: s =>
        let s ← colon (← skipString (s.length + 1) s)
        skipFields fuel false (← skipValue fuel s)
      | s => failPeeking .keyMustBeString s

end

end Pagesmith.Json.Reader
