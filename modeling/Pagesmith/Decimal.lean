/-!
# Binary numbers and their decimals

The fractional numbers of the library are the finite binary numbers of 53 significant bits. A
`Binary64` is kept as a sign, a significand and the exponent of the significand's last bit, so
everything about it is exact arithmetic on naturals: nothing here depends on the machine's floating
point.

By `Binary64.ofDecimal` a decimal becomes a binary number, by rounding a quotient of naturals to the
nearest point of the right grid, a tie going to the even significand. Rounding fails only beyond the
largest finite number.
-/

namespace Pagesmith

/-- The number `± significand * 2 ^ exponent`. Both zeros have the least exponent. -/
structure Binary64 where
  negative : Bool
  significand : Nat
  exponent : Int
deriving DecidableEq, Repr

namespace Binary64

def minExponent : Int := -1074

/-- Exponent of the last bit of the largest finite number. -/
def maxExponent : Int := 971

def zero (negative : Bool) : Binary64 := ⟨negative, 0, minExponent⟩

def isZero (x : Binary64) : Bool := x.significand == 0

/-- `num / den` rounded to the nearest natural, a tie going to the even one. -/
def roundQuotient (num den : Nat) : Nat :=
  let q := num / den
  let r := num % den
  if 2 * r < den ∨ (2 * r = den ∧ q % 2 = 0) then q else q + 1

/-- Numerator and denominator of `num / den` counted in units of `2 ^ e`. -/
def inUnits (num den : Nat) (e : Int) : Nat × Nat :=
  if 0 ≤ e then (num, den * Nat.pow 2 e.toNat) else (num * Nat.pow 2 (-e).toNat, den)

/-- The exponent at which `num / den` has 53 bits before the point, or the least exponent. -/
def unitFor (num den : Nat) : Int :=
  let guess := max minExponent ((num.log2 : Int) - den.log2 - 53)
  let (a, b) := inUnits num den guess
  if a / b < Nat.pow 2 53 then guess else guess + 1

/-- The number nearest to `± num / den`, or nothing beyond the largest finite number. -/
def round (negative : Bool) (num den : Nat) : Option Binary64 :=
  if num = 0 then some (zero negative)
  else
    let e := unitFor num den
    let (a, b) := inUnits num den e
    let s := roundQuotient a b
    let (s, e) := if s = Nat.pow 2 53 then (Nat.pow 2 52, e + 1) else (s, e)
    if s = 0 then some (zero negative)
    else if e ≤ maxExponent then some ⟨negative, s, e⟩
    else none

/-- The number nearest to `± digits * 10 ^ exponent`. Decimals far outside the range are settled
by their number of digits, so that no huge power is ever computed. -/
def ofDecimal (negative : Bool) (digits : Nat) (exponent : Int) : Option Binary64 :=
  let magnitude := exponent + (Nat.toDigits 10 digits).length
  if digits = 0 ∨ magnitude < -330 then some (zero negative)
  else if 310 < magnitude then none
  else if 0 ≤ exponent then round negative (digits * Nat.pow 10 exponent.toNat) 1
  else round negative digits (Nat.pow 10 (-exponent).toNat)

/-- Magnitude of `x` as a quotient of naturals. -/
def ratio (x : Binary64) : Nat × Nat :=
  if 0 ≤ x.exponent then (x.significand * Nat.pow 2 x.exponent.toNat, 1)
  else (x.significand, Nat.pow 2 (-x.exponent).toNat)

def mul (x y : Binary64) : Option Binary64 :=
  round (x.negative != y.negative) (x.ratio.1 * y.ratio.1) (x.ratio.2 * y.ratio.2)

/-- The quotient of `x` by a `y` that is not zero, rounded. -/
def div (x y : Binary64) : Option Binary64 :=
  round (x.negative != y.negative) (x.ratio.1 * y.ratio.2) (x.ratio.2 * y.ratio.1)

/-- The natural number that `x` is up to its sign, if there is one. -/
def wholeMagnitude? (x : Binary64) : Option Nat :=
  let (a, b) := x.ratio
  if a % b = 0 then some (a / b) else none

end Binary64

/-! ## The fewest digits that read back

A binary number is written with the fewest significant digits whose value still rounds to it, and
among those with the digits nearest to it.

The reals that round to a number form an interval around it, ends included exactly when the
significand is even. If any decimal with `n` digits lies in the interval, so does one of the two
neighbours of the number on the grid of such decimals; hence it is enough to look at these two,
for one digit, two digits, and so on up to seventeen, where there is always a hit. -/

/-- The decimal `digits * 10 ^ exponent`. -/
structure Decimal where
  digits : Nat
  exponent : Int
deriving DecidableEq, Repr

/-- Which of two equally near decimals `nearestOn` takes. -/
inductive Tie
  | up
  | toEven
deriving DecidableEq, Repr

namespace Binary64

/-- The interval of magnitudes that round to a positive number, in units of `1 / den`. -/
structure Basin where
  value : Nat
  low : Nat
  high : Nat
  den : Nat
  closed : Bool

/-- Half a unit to either side; a quarter below a power of two, where the grid gets finer. -/
def basin (x : Binary64) : Basin :=
  let s := x.significand
  let e := x.exponent - 2
  let below := if s = Nat.pow 2 52 ∧ minExponent < x.exponent then 1 else 2
  let scale := if 0 ≤ e then Nat.pow 2 e.toNat else 1
  let den := if 0 ≤ e then 1 else Nat.pow 2 (-e).toNat
  ⟨4 * s * scale, (4 * s - below) * scale, (4 * s + 2) * scale, den, s % 2 == 0⟩

/-- The `k` for which `num / den` has its leading digit at `10 ^ k`. -/
def leadingPower (num den : Nat) : Int :=
  if den ≤ num then ((Nat.toDigits 10 (num / den)).length : Int) - 1
  else -((Nat.toDigits 10 ((den - 1) / num)).length : Int)

/-- `b * 10 ^ k` compared with quotients over `den`: both sides cleared of fractions. -/
private def scaled (b : Basin) (k : Int) : Basin × Nat :=
  if 0 ≤ k then (b, b.den * Nat.pow 10 k.toNat)
  else
    let p := Nat.pow 10 (-k).toNat
    ({ b with value := b.value * p, low := b.low * p, high := b.high * p }, b.den)

/-- The decimal on the grid `10 ^ k` that lies in `b` and is nearest to its value. -/
def nearestOn (tie : Tie) (b : Basin) (k : Int) : Option Decimal :=
  let (b, unit) := scaled b k
  let down := b.value / unit
  let up := down + 1
  let inside (n : Nat) : Bool :=
    if b.closed then b.low ≤ n * unit ∧ n * unit ≤ b.high
    else b.low < n * unit ∧ n * unit < b.high
  let toDown := b.value - down * unit
  let toUp := up * unit - b.value
  match inside down, inside up with
  | false, false => none
  | true, false => some ⟨down, k⟩
  | false, true => some ⟨up, k⟩
  | true, true =>
    if toDown < toUp then some ⟨down, k⟩
    else if toUp < toDown then some ⟨up, k⟩
    else match tie with
      | .up => some ⟨up, k⟩
      | .toEven => some ⟨if down % 2 = 0 then down else up, k⟩

end Binary64

namespace Decimal

/-- Trailing zeros moved from the digits into the exponent, at most `fuel` of them. -/
def dropZeros : Nat → Decimal → Decimal
  | 0, d => d
  | fuel + 1, d =>
    if d.digits % 10 = 0 then dropZeros fuel ⟨d.digits / 10, d.exponent + 1⟩ else d

/-- The decimal with the fewest digits that `Binary64.ofDecimal` reads back as `x`, which is not
zero. -/
def shortest (tie : Tie) (x : Binary64) : Decimal :=
  let b := x.basin
  let top := Binary64.leadingPower b.value b.den
  let hit := (List.range 17).findSome? fun (n : Nat) ↦ Binary64.nearestOn tie b (top - n)
  dropZeros 17 (hit.getD ⟨b.value / b.den, 0⟩)

def leadingExponent (d : Decimal) : Int :=
  d.exponent + (Nat.toDigits 10 d.digits).length - 1

end Decimal

/-! ## Where the point goes

The shortest digits of a number can be laid out with the point among them or with an exponent. A
`Layout` says which exponents are written positionally and how the two forms look; each output
format of the library states its own layout. -/

/-- How a decimal is written down. -/
structure Layout where
  /-- Which of two equally near shortest decimals is written. -/
  tie : Tie
  /-- Exponents of the leading digit that are written without an exponent. -/
  positional : Int → Bool
  /-- Whole numbers are written with `.0`. -/
  keepsPoint : Bool
  /-- Exponents from zero up are written with a plus sign. -/
  signsExponent : Bool

namespace Decimal

/-- The digits with the point among them, zeros filling the gap up to the point. -/
def positional (keepsPoint : Bool) (d : Decimal) : List Char :=
  let ds := Nat.toDigits 10 d.digits
  if 0 ≤ d.exponent then
    ds ++ List.replicate d.exponent.toNat '0' ++ (if keepsPoint then ['.', '0'] else [])
  else
    let places := (-d.exponent).toNat
    let ds := List.replicate (places + 1 - ds.length) '0' ++ ds
    ds.take (ds.length - places) ++ '.' :: ds.drop (ds.length - places)

/-- One digit before the point, the others behind it, and the exponent of the first. -/
def scientific (signsExponent : Bool) (d : Decimal) : List Char :=
  let e := d.leadingExponent
  let mantissa := match Nat.toDigits 10 d.digits with
    | [] => []
    | [c] => [c]
    | c :: cs => c :: '.' :: cs
  let sign := if e < 0 then ['-'] else if signsExponent then ['+'] else []
  mantissa ++ 'e' :: sign ++ Nat.toDigits 10 e.natAbs

end Decimal

/-- Magnitude of a number other than zero, in its `shortest` digits. -/
def Layout.magnitude (l : Layout) (x : Binary64) : List Char :=
  let d := Decimal.shortest l.tie x
  if l.positional d.leadingExponent then d.positional l.keepsPoint
  else d.scientific l.signsExponent

end Pagesmith
