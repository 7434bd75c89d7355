import Mathlib.Data.List.Basic
import Pagesmith.Json.Reader
import Pagesmith.Json.Text
import Pagesmith.Proofs.Json.Fields
import Pagesmith.Proofs.Text.Words

/-!
# Reading values

The reader takes the fields of an object in the order of the text and sorts them when the object is
complete, so every value it gives is sorted, at every depth. Statements about `Sorted` values
therefore cover all that comes in as text.

The reader is one family of three functions. A step of it either fails or goes on with what earlier
steps gave, so a property that a step `Gives` goes through a sequence of steps once it goes through
one.
-/

namespace Pagesmith.Json

namespace Reader

variable {α β : Type}

/-- Whether what a step gives, if it gives anything, satisfies `p`. -/
def Gives (p : α → Prop) (r : Reading (α × List Char)) : Prop := ∀ x rest, r = .ok (x, rest) → p x

variable {p : α → Prop}

theorem gives_ok {x : α} (h : p x) (rest : List Char) : Gives p (.ok (x, rest)) := by
  rintro _ _ ⟨⟩
  exact h

theorem gives_error (f : Failure SyntaxFault) : Gives p (.error f) := nofun

theorem gives_bind {r : Reading β} {next : β → Reading (α × List Char)}
    (h : ∀ b, r = .ok b → Gives p (next b)) : Gives p (r >>= next) := by
  cases r with
  | error f => exact gives_error f
  | ok b => exact h b rfl

/-- What is read with some fuel is sorted, be it a value, the items of a list or the contents of
fields. -/
theorem gives_sorted (fuel : Nat) :
    (∀ depth s, Gives Sorted (value fuel depth s)) ∧
      (∀ depth first s, Gives (∀ x ∈ ·, Sorted x) (items fuel depth first s)) ∧
      ∀ depth first s, Gives (∀ f ∈ ·, Sorted f.2) (fields fuel depth first s) := by
  induction fuel with
  | zero =>
    refine ⟨fun _ _ ↦ ?_, fun _ _ _ ↦ ?_, fun _ _ _ ↦ ?_⟩
    · rw [value]
      exact gives_error _
    · rw [items]
      exact gives_error _
    · rw [fields]
      exact gives_error _
  | succ fuel ih =>
    obtain ⟨hvalue, hitems, hfields⟩ := ih
    refine ⟨fun depth s ↦ ?_, fun depth first s ↦ ?_, fun depth first s ↦ ?_⟩
    · rw [value]
      split
      · exact gives_error _
      · exact gives_bind fun _ _ ↦ gives_ok .null _
      · exact gives_bind fun _ _ ↦ gives_ok (.bool true) _
      · exact gives_bind fun _ _ ↦ gives_ok (.bool false) _
      · exact gives_bind fun _ _ ↦ gives_ok (.number _) _
      · exact gives_bind fun _ _ ↦ gives_ok (.string _) _
      · cases depth with
        | zero => exact gives_error _
        | succ depth =>
          refine gives_bind fun a ha ↦ gives_ok (.array ?_) _
          exact hitems depth true _ _ _ ha
      · cases depth with
        | zero => exact gives_error _
        | succ depth =>
          refine gives_bind fun a ha ↦ gives_ok ?_ _
          exact sorted_ofFields (hfields depth true _ _ _ ha)
      · split
        · exact gives_bind fun _ _ ↦ gives_ok (.number _) _
        · exact gives_error _
    · rw [items]
      refine gives_bind fun next _ ↦ ?_
      cases next with
      | none => exact gives_ok (fun _ h ↦ absurd h List.not_mem_nil) _
      | some s =>
        refine gives_bind fun a ha ↦ gives_bind fun b hb ↦ gives_ok ?_ _
        exact List.forall_mem_cons.mpr ⟨hvalue depth s _ _ ha, hitems depth false _ _ _ hb⟩
    · rw [fields]
      refine gives_bind fun next _ ↦ ?_
      cases next with
      | none => exact gives_ok (fun _ h ↦ absurd h List.not_mem_nil) _
      | some s =>
        refine gives_bind fun a _ ↦ gives_bind fun s _ ↦ gives_bind fun b hb ↦
          gives_bind fun c hc ↦ gives_ok ?_ _
        exact List.forall_mem_cons.mpr ⟨hvalue depth s _ _ hb, hfields depth false _ _ _ hc⟩

end Reader

/-- **What is read is sorted**, at every depth. -/
theorem sorted_of_read {s : List Char} {v : Json} (h : read s = .ok v) : v.Sorted := by
  rw [read] at h
  cases hvalue : Reader.value (2 * s.length + 2) Reader.maxDepth s with
  | error f =>
    rw [hvalue] at h
    contradiction
  | ok a =>
    obtain ⟨x, rest⟩ := a
    rw [hvalue] at h
    change Reader.endOfText x rest = .ok v at h
    rw [Reader.endOfText] at h
    split at h
    · cases h
      exact (Reader.gives_sorted _).1 _ _ _ _ hvalue
    · contradiction

theorem sorted_of_ofText? {s : String} {v : Json} (h : ofText? s = some v) : v.Sorted := by
  rw [ofText?] at h
  split at h
  · next hread =>
    cases h
    exact sorted_of_read hread
  · contradiction

end Pagesmith.Json

/-! ## Reading integers and strings

What is written for an integer and for a string is read back, with any text behind it that does not
go on with what is read. Behind the digits of an integer this excludes another digit, a point and
the letter of an exponent. A string ends in its quotation mark, and anything may stand behind it.

An integer is read back from `minInteger` to `maxInteger`: the reader turns longer runs of digits
into fractions. -/

namespace Pagesmith.Json.Reader

theorem ok_bind {α β : Type} (a : α) (next : α → Reading β) :
    (.ok a : Reading α) >>= next = next a := rfl

/-! ### Integers -/

/-- Whether `s` does not go on with the number in front of it. -/
def EndsNumber (s : List Char) : Prop :=
  ∀ c ∈ s.head?, Text.digit? c = none ∧ c ≠ '.' ∧ c ≠ 'e' ∧ c ≠ 'E'

theorem EndsNumber.nil : EndsNumber [] := nofun

theorem EndsNumber.cons {c : Char} (hc : Text.digit? c = none ∧ c ≠ '.' ∧ c ≠ 'e' ∧ c ≠ 'E')
    (s : List Char) : EndsNumber (c :: s) := by
  rintro _ ⟨⟩
  exact hc

variable {rest : List Char}

theorem EndsNumber.startsWithDigit (h : EndsNumber rest) : startsWithDigit rest = false := by
  cases rest with
  | nil => rfl
  | cons c rest => rw [Reader.startsWithDigit, (h c rfl).1, Option.isSome_none]

theorem EndsNumber.skipDigits (h : EndsNumber rest) : skipDigits rest = (0, rest) := by
  cases rest with
  | nil => rfl
  | cons c rest => simp [Reader.skipDigits, (h c rfl).1]

theorem EndsNumber.appendDigits (h : EndsNumber rest) (value : Nat) :
    appendDigits value rest = (value, 0, rest) := by
  cases rest with
  | nil => rfl
  | cons c rest => rw [Reader.appendDigits, (h c rfl).1]

/-- Digits are gathered to the end if the number they make up is kept. -/
theorem appendDigits_digits {digits : List Char} (hdigits : ∀ c ∈ digits, c.isDigit = true)
    {value : Nat} (hfits : Nat.ofDigitChars 10 digits value ≤ Number.maxInteger)
    (hrest : EndsNumber rest) :
    appendDigits value (digits ++ rest) =
      (Nat.ofDigitChars 10 digits value, digits.length, rest) := by
  induction digits generalizing value with
  | nil => exact hrest.appendDigits value
  | cons c digits ih =>
    obtain ⟨hc, hdigits⟩ := List.forall_mem_cons.mp hdigits
    rw [Nat.ofDigitChars_cons] at hfits
    have hstep := Nat.le_trans (Text.le_ofDigitChars digits _) hfits
    rw [List.cons_append, appendDigits, Text.digit?_of_isDigit hc]
    dsimp only
    rw [if_pos hstep, ih hdigits hfits, Nat.ofDigitChars_cons, List.length_cons]

/-- Only zero is written with a zero in front. -/
theorem eq_zero_of_head?_toDigits {n : Nat} (h : (Nat.toDigits 10 n).head? = some '0') : n = 0 := by
  induction n using Nat.strongRecOn with
  | ind n ih =>
    by_cases hsmall : n < 10
    · rw [Nat.toDigits_of_lt_base hsmall, List.head?_singleton, Option.some.injEq] at h
      exact (by decide : ∀ d < 10, Nat.digitChar d = '0' → d = 0) n hsmall h
    · rw [Nat.toDigits_of_base_le (by decide) (Nat.not_lt.mp hsmall),
        List.head?_append_of_ne_nil _ Nat.toDigits_ne_nil] at h
      have := ih (n / 10) (by omega) h
      omega

theorem unsignedNumber_toDigits (negative : Bool) {n : Nat} (hn : n ≤ Number.maxInteger)
    (hrest : EndsNumber rest) :
    unsignedNumber negative (Nat.toDigits 10 n ++ rest) = afterWhole negative n 0 rest := by
  -- a zero in front is read by a rule of its own, under which no digit may follow
  by_cases hzero : n = 0
  · subst hzero
    show unsignedNumber negative ('0' :: rest) = _
    rw [unsignedNumber, hrest.startsWithDigit, if_neg Bool.false_ne_true]
  · have hdigits : ∀ c ∈ Nat.toDigits 10 n, c.isDigit = true := fun _ ↦
      Nat.isDigit_of_mem_toDigits (by decide) (by decide)
    have hvalue := Nat.ofDigitChars_toDigits (b := 10) (n := n) (by decide) (by decide)
    have hhead := mt (eq_zero_of_head?_toDigits (n := n)) hzero
    cases htext : Nat.toDigits 10 n with
    | nil => exact absurd htext Nat.toDigits_ne_nil
    | cons c digits =>
      rw [htext] at hdigits hvalue hhead
      obtain ⟨hc, hdigits⟩ := List.forall_mem_cons.mp hdigits
      rw [Nat.ofDigitChars_cons, Nat.mul_zero, Nat.zero_add] at hvalue
      have hfirst : c ≠ '0' := fun h ↦ hhead (congrArg some h)
      rw [List.cons_append, unsignedNumber.eq_3 _ _ _ hfirst, Text.digit?_of_isDigit hc]
      dsimp only
      rw [appendDigits_digits hdigits (hvalue ▸ hn) hrest, hvalue]
      dsimp only
      rw [hrest.skipDigits]

theorem afterWhole_of_endsNumber (negative : Bool) (n : Nat) (hrest : EndsNumber rest) :
    afterWhole negative n 0 rest =
      if !negative then .ok (.integer n, rest)
      else if n = 0 ∨ Number.minInteger > -(n : Int) then fraction negative n 0 rest
      else .ok (.integer (-n), rest) := by
  rw [afterWhole.eq_def]
  split
  · exact absurd rfl (hrest _ rfl).2.1
  · exact absurd rfl (hrest _ rfl).2.2.1
  · exact absurd rfl (hrest _ rfl).2.2.2
  · rfl

theorem skipBlanks_cons {c : Char} (hc : isJsonBlank c = false) (s : List Char) :
    skipBlanks (c :: s) = c :: s := by
  rw [skipBlanks, List.dropWhile_cons_of_neg]
  rw [hc]
  exact Bool.false_ne_true

theorem isJsonBlank_of_isDigit {c : Char} (hc : c.isDigit = true) : isJsonBlank c = false := by
  rw [Bool.eq_false_iff]
  intro hblank
  simp only [isJsonBlank, Bool.or_eq_true, beq_iff_eq] at hblank
  obtain ((rfl | rfl) | rfl) | rfl := hblank <;> exact absurd hc (by decide)

theorem value_digit {c : Char} (hc : c.isDigit = true) {s : List Char} {n : Number}
    (hread : unsignedNumber false (c :: s) = .ok (n, rest)) (fuel depth : Nat) :
    value (fuel + 1) depth (c :: s) = .ok (.number n, rest) := by
  rw [value, skipBlanks_cons (isJsonBlank_of_isDigit hc)]
  split
  · next heq => cases heq
  case h_9 heq =>
    cases heq
    rw [Text.digit?_of_isDigit hc, Option.isSome_some, if_pos rfl, hread, ok_bind]
  all_goals
    next heq =>
      cases heq
      exact absurd hc (by decide)

theorem value_minus (fuel depth : Nat) (s : List Char) :
    value (fuel + 1) depth ('-' :: s) =
      unsignedNumber true s >>= fun read ↦ .ok (.number read.1, read.2) := rfl

theorem value_integerText {n : Int} (hmin : Number.minInteger ≤ n) (hmax : n ≤ Number.maxInteger)
    (hrest : EndsNumber rest) (fuel depth : Nat) :
    value (fuel + 1) depth (Number.integerText n ++ rest) = .ok (.int n, rest) := by
  have habs : n.natAbs ≤ Number.maxInteger := by
    have : Number.minInteger = -9223372036854775808 := rfl
    have : Number.maxInteger = 18446744073709551615 := rfl
    omega
  rw [Number.integerText]
  split
  · next hneg =>
    have hread : unsignedNumber true (Nat.toDigits 10 n.natAbs ++ rest) =
        .ok (.integer n, rest) := by
      rw [unsignedNumber_toDigits true habs hrest, afterWhole_of_endsNumber true _ hrest,
        Bool.not_true, if_neg Bool.false_ne_true, if_neg (by omega),
        Int.ofNat_natAbs_of_nonpos (by omega), Int.neg_neg]
    rw [List.cons_append, value_minus, hread, ok_bind]
    rfl
  · next hpos =>
    have hread : unsignedNumber false (Nat.toDigits 10 n.natAbs ++ rest) =
        .ok (.integer n, rest) := by
      rw [unsignedNumber_toDigits false habs hrest, afterWhole_of_endsNumber false _ hrest,
        Bool.not_false, if_pos rfl, Int.natAbs_of_nonneg (by omega)]
    cases htext : Nat.toDigits 10 n.natAbs with
    | nil => exact absurd htext Nat.toDigits_ne_nil
    | cons c digits =>
      rw [htext] at hread
      have hmem : c ∈ Nat.toDigits 10 n.natAbs := by
        rw [htext]
        exact List.mem_cons_self
      have hc : c.isDigit = true := Nat.isDigit_of_mem_toDigits (by decide) (by decide) hmem
      exact value_digit hc hread fuel depth

/-! ### Strings -/

theorem hexDigit?_digitChar : ∀ d < 16, Text.hexDigit? (Nat.digitChar d) = some d := by decide

theorem utf8Size_digitChar : ∀ d < 16, (Nat.digitChar d).utf8Size = 1 := by decide

/-- The two digits of a control character are read, behind two zeros. -/
theorem hexQuad_digitChar {n : Nat} (hn : n < 0x20) (s : List Char) :
    hexQuad ('0' :: '0' :: Nat.digitChar (n / 16) :: Nat.digitChar (n % 16) :: s) = .ok (n, s) := by
  have hhigh : n / 16 < 16 := by omega
  have hlow : n % 16 < 16 := by omega
  have hbytes : byteCount
      ['0', '0', Nat.digitChar (n / 16), Nat.digitChar (n % 16)] = 4 := by
    simp only [byteCount, List.foldl_cons, List.foldl_nil, utf8Size_digitChar _ hhigh,
      utf8Size_digitChar _ hlow]
    decide
  have hzero : Text.hexDigit? '0' = some 0 := by decide
  have htake : ('0' :: '0' :: Nat.digitChar (n / 16) :: Nat.digitChar (n % 16) :: s).take 4 =
      ['0', '0', Nat.digitChar (n / 16), Nat.digitChar (n % 16)] := rfl
  rw [hexQuad, htake, hbytes, if_neg (by decide)]
  simp only [hzero, hexDigit?_digitChar _ hhigh, hexDigit?_digitChar _ hlow]
  rw [show 4096 * 0 + 256 * 0 + 16 * (n / 16) + n % 16 = n by omega]

theorem digitChar_ne : ∀ d < 16, Nat.digitChar d ≠ '"' ∧ Nat.digitChar d ≠ '\\' := by decide

/-- A character is written behind a backslash, as one character that stands for it or begins with
its number, or it is written as itself and is one that a string may hold. -/
theorem escapeChar_cases (c : Char) :
    (∃ d t, escapeChar c = '\\' :: d :: t ∧ (∀ x ∈ t, x ≠ '"' ∧ x ≠ '\\') ∧
      ∀ s, escape (d :: t ++ s) = .ok (c, s)) ∨
    escapeChar c = [c] ∧ c ≠ '"' ∧ c ≠ '\\' ∧ ¬c.toNat < 0x20 := by
  -- seven characters have a letter or themselves behind the backslash
  by_cases hletter : c ∈ ['"', '\\', '\x08', '\x0c', '\n', '\r', '\t']
  · left
    simp only [List.mem_cons, List.not_mem_nil, or_false] at hletter
    obtain rfl | rfl | rfl | rfl | rfl | rfl | rfl := hletter <;>
      exact ⟨_, [], rfl, fun _ h ↦ absurd h List.not_mem_nil, fun _ ↦ rfl⟩
  · simp only [List.mem_cons, List.not_mem_nil, or_false, not_or] at hletter
    obtain ⟨hquote, hbackslash, hletters⟩ := hletter
    rw [escapeChar, if_neg hquote, if_neg hbackslash, if_neg hletters.1, if_neg hletters.2.1,
      if_neg hletters.2.2.1, if_neg hletters.2.2.2.1, if_neg hletters.2.2.2.2]
    by_cases hcontrol : c.toNat < 0x20
    · left
      rw [if_pos hcontrol]
      refine ⟨_, _, rfl, ?_, fun s ↦ ?_⟩
      · exact List.forall_mem_cons.mpr ⟨by decide, List.forall_mem_cons.mpr ⟨by decide,
          List.forall_mem_cons.mpr ⟨digitChar_ne _ (by omega), List.forall_mem_singleton.mpr
            (digitChar_ne _ (by omega))⟩⟩⟩
      · show unicodeEscape ('0' :: '0' :: Nat.digitChar (c.toNat / 16) ::
          Nat.digitChar (c.toNat % 16) :: s) = _
        rw [unicodeEscape, hexQuad_digitChar hcontrol]
        show (if 0xDC00 ≤ c.toNat ∧ c.toNat ≤ 0xDFFF then _ else _) = _
        rw [if_neg (by omega), if_pos (by omega), Char.ofNat_toNat]
    · exact .inr ⟨if_neg hcontrol, hquote, hbackslash, hcontrol⟩

theorem stringChars_escapeChar (c : Char) {cs s : List Char} {fuel : Nat}
    (hread : stringChars fuel s = .ok (cs, rest)) :
    stringChars (fuel + 1) (escapeChar c ++ s) = .ok (c :: cs, rest) := by
  obtain ⟨d, t, htext, -, hescape⟩ | ⟨htext, hquote, hbackslash, hcontrol⟩ := escapeChar_cases c
  · rw [htext, List.cons_append, stringChars, if_neg (by decide), if_pos rfl, hescape, ok_bind]
    dsimp only
    rw [hread, ok_bind]
  · rw [htext, List.singleton_append, stringChars, if_neg hquote, if_neg hbackslash,
      if_neg hcontrol, hread, ok_bind]

theorem stringChars_flatMap (cs : List Char) {fuel : Nat} (hfuel : cs.length < fuel)
    (rest : List Char) :
    stringChars fuel (cs.flatMap escapeChar ++ '"' :: rest) = .ok (cs, rest) := by
  induction cs generalizing fuel with
  | nil =>
    cases fuel with
    | zero => exact absurd hfuel (Nat.not_lt_zero _)
    | succ fuel => rfl
  | cons c cs ih =>
    cases fuel with
    | zero => exact absurd hfuel (Nat.not_lt_zero _)
    | succ fuel =>
      rw [List.flatMap_cons, List.append_assoc]
      exact stringChars_escapeChar c (ih (Nat.lt_of_succ_lt_succ hfuel))

theorem length_le_length_flatMap_escapeChar (cs : List Char) :
    cs.length ≤ (cs.flatMap escapeChar).length := by
  induction cs with
  | nil => exact Nat.le_refl 0
  | cons c cs ih =>
    have hpos : 0 < (escapeChar c).length := by
      obtain ⟨d, t, htext, -⟩ | ⟨htext, -⟩ := escapeChar_cases c <;> rw [htext] <;>
        exact Nat.zero_lt_succ _
    rw [List.flatMap_cons, List.length_append, List.length_cons]
    omega

/-- A string is read back, behind its opening quotation mark. -/
theorem stringBody_flatMap (s : String) (rest : List Char) :
    stringBody (s.toList.flatMap escapeChar ++ '"' :: rest) = .ok (s, rest) := by
  have hfuel : s.toList.length < (s.toList.flatMap escapeChar ++ '"' :: rest).length + 1 := by
    have := length_le_length_flatMap_escapeChar s.toList
    rw [List.length_append]
    omega
  rw [stringBody, stringChars_flatMap s.toList hfuel rest, ok_bind]
  dsimp only
  rw [String.ofList_toList]

end Pagesmith.Json.Reader
