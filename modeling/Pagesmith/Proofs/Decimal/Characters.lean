import Pagesmith.Json.Basic

/-!
# The characters of numbers

Whatever `Layout` a number has, its text is made of digits, minus and plus signs, points and the
letter of the exponent.
-/

namespace Pagesmith

/-- The characters that numbers are written with. -/
def IsNumeric (c : Char) : Prop := c.isDigit = true ∨ c ∈ ['-', '+', '.', 'e']

def AllNumeric (s : List Char) : Prop := ∀ c ∈ s, IsNumeric c

theorem allNumeric_nil : AllNumeric [] := fun _ h ↦ absurd h List.not_mem_nil

theorem allNumeric_toDigits (n : Nat) : AllNumeric (Nat.toDigits 10 n) := by
  intro c hc
  exact .inl (Nat.isDigit_of_mem_toDigits (b := 10) (by decide) (by decide) hc)

theorem AllNumeric.append {s t : List Char} (hs : AllNumeric s) (ht : AllNumeric t) :
    AllNumeric (s ++ t) := by
  intro c hc
  rcases List.mem_append.mp hc with h | h
  · exact hs c h
  · exact ht c h

theorem AllNumeric.cons {c : Char} {s : List Char} (hc : IsNumeric c) (hs : AllNumeric s) :
    AllNumeric (c :: s) := by
  intro d hd
  rcases List.mem_cons.mp hd with rfl | h
  · exact hc
  · exact hs d h

theorem allNumeric_replicate_zero (n : Nat) : AllNumeric (List.replicate n '0') := by
  intro c hc
  rw [List.eq_of_mem_replicate hc]
  exact .inl rfl

theorem AllNumeric.take {s : List Char} (hs : AllNumeric s) (n : Nat) : AllNumeric (s.take n) :=
  fun c hc ↦ hs c (List.mem_of_mem_take hc)

theorem AllNumeric.drop {s : List Char} (hs : AllNumeric s) (n : Nat) : AllNumeric (s.drop n) :=
  fun c hc ↦ hs c (List.mem_of_mem_drop hc)

/-! ## Layouts -/

theorem Decimal.allNumeric_positional (keepsPoint : Bool) (d : Decimal) :
    AllNumeric (d.positional keepsPoint) := by
  have hpoint : IsNumeric '.' := .inr (by decide)
  have hdigits := allNumeric_toDigits d.digits
  rw [positional]
  split
  · have hend : AllNumeric (if keepsPoint then ['.', '0'] else []) := by
      split
      · exact (allNumeric_replicate_zero 1).cons hpoint
      · exact allNumeric_nil
    exact (hdigits.append (allNumeric_replicate_zero _)).append hend
  · have hfilled := (allNumeric_replicate_zero
      ((-d.exponent).toNat + 1 - (Nat.toDigits 10 d.digits).length)).append hdigits
    exact (hfilled.take _).append ((hfilled.drop _).cons hpoint)

theorem Decimal.allNumeric_scientific (signsExponent : Bool) (d : Decimal) :
    AllNumeric (d.scientific signsExponent) := by
  have hdigits := allNumeric_toDigits d.digits
  have hsign : AllNumeric
      (if d.leadingExponent < 0 then ['-'] else if signsExponent then ['+'] else []) := by
    split
    · exact allNumeric_nil.cons (.inr (by decide))
    · split
      · exact allNumeric_nil.cons (.inr (by decide))
      · exact allNumeric_nil
  rw [scientific]
  generalize Nat.toDigits 10 d.digits = ds at hdigits ⊢
  refine (AllNumeric.append ?_ (hsign.cons (.inr (by decide)))).append (allNumeric_toDigits _)
  -- the mantissa: the digits, with a point behind the first of several
  split
  · exact allNumeric_nil
  · exact hdigits
  · next c cs _ =>
    have hcs : AllNumeric cs := hdigits.drop 1
    exact (hcs.cons (.inr (by decide))).cons (hdigits c List.mem_cons_self)

theorem Layout.allNumeric_magnitude (l : Layout) (x : Binary64) : AllNumeric (l.magnitude x) := by
  rw [magnitude]
  split
  · exact Decimal.allNumeric_positional _ _
  · exact Decimal.allNumeric_scientific _ _

/-! ## Numbers -/

namespace Number

theorem allNumeric_sign (negative : Prop) [Decidable negative] {s : List Char}
    (hs : AllNumeric s) : AllNumeric (if negative then '-' :: s else s) := by
  split
  · exact hs.cons (.inr (by decide))
  · exact hs

theorem allNumeric_integerText (n : Int) : AllNumeric (integerText n) :=
  allNumeric_sign (n < 0) (allNumeric_toDigits _)

/-- **What a visitor sees of a number** is numeric. -/
theorem allNumeric_templateText (n : Number) : AllNumeric n.templateText := by
  cases n with
  | integer n => exact allNumeric_integerText n
  | fraction x =>
    rw [templateText]
    split
    · exact allNumeric_replicate_zero 1
    · refine allNumeric_sign (x.negative = true) ?_
      split
      · split
        · exact allNumeric_toDigits _
        · exact Layout.allNumeric_magnitude _ _
      · exact Layout.allNumeric_magnitude _ _

/-- **What another program reads** of a number is numeric. -/
theorem allNumeric_jsonText (n : Number) : AllNumeric n.jsonText := by
  cases n with
  | integer n => exact allNumeric_integerText n
  | fraction x =>
    rw [jsonText]
    refine allNumeric_sign (x.negative = true) ?_
    split
    · exact (allNumeric_replicate_zero 1).append
        ((allNumeric_replicate_zero 1).cons (.inr (by decide)))
    · exact Layout.allNumeric_magnitude _ _

end Number

end Pagesmith
