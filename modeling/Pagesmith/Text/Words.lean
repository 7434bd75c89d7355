/-!
# Words and numerals

Trimming and word splitting go by Unicode's property `White_Space`, which is wider than ASCII's
blanks and narrower than what one sees as empty: the zero-width space and the byte order mark are
not in it, nor are the information separators U+001C to U+001F.

All text is handled as `List Char`; strings are taken apart at the edge of the library.
-/

namespace Pagesmith.Text

/-- The characters with the property `White_Space`, 25 in all. -/
def isBlank (c : Char) : Bool :=
  let n := c.toNat
  (9 ≤ n && n ≤ 13) || n == 0x20 || n == 0x85 || n == 0xA0 || n == 0x1680 ||
    (0x2000 ≤ n && n ≤ 0x200A) || n == 0x2028 || n == 0x2029 || n == 0x202F || n == 0x205F ||
    n == 0x3000

def trimStart (s : List Char) : List Char := s.dropWhile isBlank

def trimEnd (s : List Char) : List Char := (s.reverse.dropWhile isBlank).reverse

/-- Text without white space at either end. -/
def trim (s : List Char) : List Char := trimEnd (trimStart s)

/-- Cut a list at every element that satisfies `p`. There is one piece more than there are cuts, so
the pieces may be empty. -/
def splitWhere {α : Type} (p : α → Bool) : List α → List (List α)
  | [] => [[]]
  | c :: s =>
    if p c then [] :: splitWhere p s
    else match splitWhere p s with
      | [] => [[c]]
      | w :: ws => (c :: w) :: ws

/-- The maximal runs without white space, in order. -/
def words (s : List Char) : List (List Char) :=
  (splitWhere isBlank s).filter fun w ↦ !w.isEmpty

/-- What follows `mark` in a text that starts with it. -/
def dropMark? : (mark s : List Char) → Option (List Char)
  | [], s => some s
  | _ :: _, [] => none
  | m :: mark, c :: s => if m = c then dropMark? mark s else none

/-- Cut a text at the first occurrence of `mark`: what stands before it and what follows it. -/
def cut (mark : List Char) : List Char → Option (List Char × List Char)
  | [] => none
  | c :: s =>
    match dropMark? mark (c :: s) with
    | some rest => some ([], rest)
    | none => (cut mark s).map fun (before, rest) ↦ (c :: before, rest)

theorem splitWhere_ne_nil {α : Type} (p : α → Bool) (s : List α) : splitWhere p s ≠ [] := by
  cases s with
  | nil => simp [splitWhere]
  | cons c s =>
    simp only [splitWhere]
    split
    · simp
    · split <;> simp

theorem eq_of_dropMark?_eq_some {mark s rest : List Char} (h : dropMark? mark s = some rest) :
    s = mark ++ rest := by
  induction mark generalizing s with
  | nil => simpa [dropMark?] using h
  | cons m mark ih =>
    cases s with
    | nil => simp [dropMark?] at h
    | cons c s =>
      simp only [dropMark?] at h
      split at h
      · next hmc => rw [hmc, ih h, List.cons_append]
      · simp at h

/-- A `cut` loses nothing: the text is what stands before the mark, the mark, and the rest. -/
theorem eq_of_cut_eq_some {mark s before rest : List Char} (h : cut mark s = some (before, rest)) :
    s = before ++ mark ++ rest := by
  induction s generalizing before with
  | nil => simp [cut] at h
  | cons c s ih =>
    simp only [cut] at h
    split at h
    · next r hr =>
      obtain ⟨rfl, rfl⟩ : [] = before ∧ r = rest := by simpa using h
      simpa using eq_of_dropMark?_eq_some hr
    · obtain ⟨⟨b, r⟩, hb, heq⟩ := Option.map_eq_some_iff.mp h
      obtain ⟨rfl, rfl⟩ : c :: b = before ∧ r = rest := by simpa using heq
      simp [ih hb]

/-- What follows a mark is shorter than the text, so cutting again and again ends. -/
theorem length_lt_of_cut_eq_some {mark s before rest : List Char} (hm : mark ≠ [])
    (h : cut mark s = some (before, rest)) : rest.length < s.length := by
  have hpos : 0 < mark.length := List.length_pos_iff.mpr hm
  have := congrArg List.length (eq_of_cut_eq_some h)
  simp at this
  omega

/-! ## Decimal numerals with a limit

Settings, version numbers and array indices are whole numbers written in decimal, each with a
largest value. A numeral is read from left to right, and the first thing wrong with it is its
`NumeralFault`: a character that is no digit, or the digit at which the value passes the limit. -/

/-- Why a text is not a numeral of the wanted range. -/
inductive NumeralFault
  | empty
  | invalidDigit
  | tooLarge
  | tooSmall
deriving DecidableEq, Repr

def NumeralFault.message : NumeralFault → String
  | .empty => "cannot parse integer from empty string"
  | .invalidDigit => "invalid digit found in string"
  | .tooLarge => "number too large to fit in target type"
  | .tooSmall => "number too small to fit in target type"

def digit? (c : Char) : Option Nat :=
  if '0' ≤ c ∧ c ≤ '9' then some (c.toNat - '0'.toNat) else none

/-- Value of a digit of base sixteen, of either case. -/
def hexDigit? (c : Char) : Option Nat :=
  if '0' ≤ c ∧ c ≤ '9' then some (c.toNat - '0'.toNat)
  else if 'a' ≤ c ∧ c ≤ 'f' then some (c.toNat - 'a'.toNat + 10)
  else if 'A' ≤ c ∧ c ≤ 'F' then some (c.toNat - 'A'.toNat + 10)
  else none

/-- One more digit behind those that make up `value`; `excess` is the fault of passing `limit`. -/
def appendDigit (limit : Nat) (excess : NumeralFault) (value : Nat) (c : Char) :
    Except NumeralFault Nat :=
  match digit? c with
  | none => .error .invalidDigit
  | some d => if 10 * value + d ≤ limit then .ok (10 * value + d) else .error excess

/-- Digits only, at most `limit`. The empty run of digits has the value zero. -/
def digitsUpTo (limit : Nat) (excess : NumeralFault) (s : List Char) : Except NumeralFault Nat :=
  s.foldlM (appendDigit limit excess) 0

/-- A number from zero to `limit`: an optional plus sign and at least one digit. -/
def natural (limit : Nat) : List Char → Except NumeralFault Nat
  | [] => .error .empty
  | ['+'] => .error .invalidDigit
  | '+' :: s => digitsUpTo limit .tooLarge s
  | s => digitsUpTo limit .tooLarge s

/-- A number from `-limit - 1` to `limit`: an optional sign and at least one digit. The faults of
passing the two ends differ. -/
def integer (limit : Nat) : List Char → Except NumeralFault Int
  | [] => .error .empty
  | ['+'] | ['-'] => .error .invalidDigit
  | '-' :: s => (digitsUpTo (limit + 1) .tooSmall s).map fun n ↦ -(n : Int)
  | '+' :: s => (digitsUpTo limit .tooLarge s).map Int.ofNat
  | s => (digitsUpTo limit .tooLarge s).map Int.ofNat

def decimalDigits (n : Nat) : List Char := Nat.toDigits 10 n

/-- Copies of `fill` in front of a text up to `width`, as in a right-aligned column. -/
def padStart (width : Nat) (fill : Char) (s : List Char) : List Char :=
  List.replicate (width - s.length) fill ++ s

end Pagesmith.Text
