import Mathlib.Data.List.DropRight
import Pagesmith.Proofs.Decimal.Characters
import Pagesmith.Proofs.Json.Fields
import Pagesmith.Proofs.Json.Reading

/-!
# The text of a value is read back

A value whose numbers are integers that are kept (`Integral`) is read back from its compact text,
with the same fields in the same order, so no two such values have the same text. A fraction may
come out of the reader beside what it went in as, and is left out.

Two things limit the reader. Its fuel never runs out on a text that is no longer than the fuel,
since each call takes a character. Its depth is a limit on what is read: brackets that are nested
deeper than 127 times are refused. What is written has no such limit, so the statement is made for
`readWithin`, with any depth that is enough for the value.
-/

/-! ## Compact text

A text is compact (`IsCompact`) if no blank stands between its tokens. Blanks inside of strings are
part of these and do not count, so whether a text is compact is a matter of where its strings begin
and end: a quotation mark ends the string it stands in unless a backslash takes it. The text is
walked once, with one `Place` of three at a time.

The walk knows nothing of values, lists or fields, and what is said here holds of all that is
written, fractions included. -/

namespace Pagesmith.Json

/-- Where the next character of a text stands. -/
inductive Place
  | outside
  | inString
  | escaped
deriving DecidableEq, Repr

/-- Where the character behind the given one stands, unless that one is a blank between tokens. -/
def Place.next? : Place → Char → Option Place
  | outside, c =>
    if c = '"' then some inString else if Reader.isJsonBlank c then none else some outside
  | inString, c => some (if c = '"' then outside else if c = '\\' then escaped else inString)
  | escaped, _ => some inString

/-- Whether a walk over `s` comes from `p` to `q` and meets no blank between tokens. -/
def Walks (p : Place) (s : List Char) (q : Place) : Prop := s.foldlM Place.next? p = some q

instance (p : Place) (s : List Char) (q : Place) : Decidable (Walks p s q) :=
  inferInstanceAs (Decidable (_ = _))

/-- Whether no blank stands between the tokens of a text, and all its strings are ended. -/
def IsCompact (s : List Char) : Prop := Walks .outside s .outside

instance (s : List Char) : Decidable (IsCompact s) := inferInstanceAs (Decidable (Walks _ _ _))

/-! ### Walks -/

variable {p q r : Place} {s t : List Char}

theorem Walks.nil (p : Place) : Walks p [] p := rfl

theorem Walks.append (hs : Walks p s q) (ht : Walks q t r) : Walks p (s ++ t) r := by
  rw [Walks, List.foldlM_append, show s.foldlM Place.next? p = some q from hs]
  exact ht

theorem Walks.cons (q : Place) {c : Char} (hc : p.next? c = some q) (hs : Walks q s r) :
    Walks p (c :: s) r := by
  rw [Walks, List.foldlM_cons, hc]
  exact hs

/-- A text without quotation marks and blanks is passed outside of strings. -/
theorem IsCompact.of_forall (h : ∀ c ∈ s, c ≠ '"' ∧ Reader.isJsonBlank c = false) :
    IsCompact s := by
  induction s with
  | nil => exact .nil _
  | cons c s ih =>
    obtain ⟨⟨hquote, hblank⟩, hs⟩ := List.forall_mem_cons.mp h
    refine .cons _ ?_ (ih hs)
    rw [Place.next?, if_neg hquote, hblank, if_neg Bool.false_ne_true]

/-- A text without quotation marks and backslashes is passed inside of a string. -/
theorem walks_inString (h : ∀ c ∈ s, c ≠ '"' ∧ c ≠ '\\') : Walks .inString s .inString := by
  induction s with
  | nil => exact .nil _
  | cons c s ih =>
    obtain ⟨⟨hquote, hbackslash⟩, hs⟩ := List.forall_mem_cons.mp h
    refine .cons _ ?_ (ih hs)
    rw [Place.next?, if_neg hquote, if_neg hbackslash]

/-! ### What is written -/

theorem isCompact_jsonText (n : Number) : IsCompact n.jsonText := by
  refine .of_forall fun c hc ↦ ?_
  rcases n.allNumeric_jsonText c hc with hdigit | hsign
  · refine ⟨?_, Reader.isJsonBlank_of_isDigit hdigit⟩
    rintro rfl
    exact absurd hdigit (by decide)
  · simp only [List.mem_cons, List.not_mem_nil, or_false] at hsign
    obtain rfl | rfl | rfl | rfl := hsign <;> decide

theorem walks_escapeChar (c : Char) : Walks .inString (escapeChar c) .inString := by
  obtain ⟨d, t, htext, ht, -⟩ | ⟨htext, hquote, hbackslash, -⟩ := Reader.escapeChar_cases c
  · rw [htext]
    exact .cons .escaped rfl (.cons .inString rfl (walks_inString ht))
  · rw [htext]
    exact walks_inString (List.forall_mem_singleton.mpr ⟨hquote, hbackslash⟩)

theorem walks_flatMap_escapeChar (cs : List Char) :
    Walks .inString (cs.flatMap escapeChar) .inString := by
  induction cs with
  | nil => exact .nil _
  | cons c cs ih =>
    rw [List.flatMap_cons]
    exact (walks_escapeChar c).append ih

theorem isCompact_stringText (s : String) : IsCompact (stringText s) := by
  refine .cons .inString rfl ((walks_flatMap_escapeChar s.toList).append ?_)
  exact .cons .outside rfl (.nil _)

theorem isCompact_field (name : String) {x : Json} (hx : IsCompact x.compact) :
    IsCompact (stringText name ++ ':' :: x.compact) :=
  (isCompact_stringText name).append (.cons .outside rfl hx)

theorem isCompact_compactItems {xs : List Json} (h : ∀ x ∈ xs, IsCompact x.compact) :
    IsCompact (compactItems xs) := by
  induction xs with
  | nil => decide
  | cons x xs ih =>
    obtain ⟨hx, hxs⟩ := List.forall_mem_cons.mp h
    exact .cons .outside rfl (hx.append (ih hxs))

theorem isCompact_compactFields {fs : List (String × Json)} (h : ∀ f ∈ fs, IsCompact f.2.compact) :
    IsCompact (compactFields fs) := by
  induction fs with
  | nil => decide
  | cons f fs ih =>
    obtain ⟨name, x⟩ := f
    obtain ⟨hx, hfs⟩ := List.forall_mem_cons.mp h
    rw [compactFields]
    exact .cons .outside rfl ((isCompact_field name hx).append (ih hfs))

/-- **What is written is compact.** -/
theorem isCompact_compact (v : Json) : IsCompact v.compact := by
  induction v using Json.induction with
  | null => decide
  | bool b => cases b <;> decide
  | number n => exact isCompact_jsonText n
  | string s => exact isCompact_stringText s
  | array items ih =>
    cases items with
    | nil => decide
    | cons x xs =>
      obtain ⟨hx, hxs⟩ := List.forall_mem_cons.mp ih
      rw [compact]
      exact .cons .outside rfl (hx.append (isCompact_compactItems hxs))
  | object fields ih =>
    cases fields with
    | nil => decide
    | cons f fs =>
      obtain ⟨name, x⟩ := f
      obtain ⟨hx, hfs⟩ := List.forall_mem_cons.mp ih
      rw [compact]
      exact .cons .outside rfl ((isCompact_field name hx).append (isCompact_compactFields hfs))

end Pagesmith.Json

/-! ## Reading text back -/

namespace Pagesmith.Json

/-- Whether all numbers of a value are integers that are kept as such. -/
inductive Integral : Json → Prop
  | null : Integral null
  | bool (b : Bool) : Integral (bool b)
  | int {n : Int} (hmin : Number.minInteger ≤ n) (hmax : n ≤ Number.maxInteger) : Integral (int n)
  | string (s : String) : Integral (string s)
  | array {items : List Json} (h : ∀ x ∈ items, Integral x) : Integral (array items)
  | object {fields : List (String × Json)} (h : ∀ f ∈ fields, Integral f.2) :
      Integral (object fields)

mutual

/-- How many brackets are open at once in the `compact` text of a value. -/
def nesting : Json → Nat
  | array items => nestingOfItems items + 1
  | object fields => nestingOfFields fields + 1
  | null => 0
  | bool _ => 0
  | number _ => 0
  | string _ => 0

def nestingOfItems : List Json → Nat
  | [] => 0
  | x :: xs => max (nesting x) (nestingOfItems xs)

def nestingOfFields : List (String × Json) → Nat
  | [] => 0
  | (_, x) :: fs => max (nesting x) (nestingOfFields fs)

end

namespace Reader

/-- The value that `s` stands for, if no more than `depth` brackets are open at once. -/
def readWithin (depth : Nat) (s : List Char) : Reading Json := do
  let (x, rest) ← value (2 * s.length + 2) depth s
  endOfText x rest

theorem read_eq_readWithin (s : List Char) : read s = readWithin maxDepth s := rfl

/-! ### Items and fields -/

theorem value_string (fuel depth : Nat) (s : List Char) :
    value (fuel + 1) depth ('"' :: s) =
      stringBody s >>= fun read ↦ .ok (string read.1, read.2) := rfl

theorem value_array (fuel depth : Nat) (s : List Char) :
    value (fuel + 1) (depth + 1) ('[' :: s) =
      items fuel depth true s >>= fun read ↦ .ok (array read.1, read.2) := rfl

theorem value_object (fuel depth : Nat) (s : List Char) :
    value (fuel + 1) (depth + 1) ('\x7b' :: s) =
      fields fuel depth true s >>= fun read ↦ .ok (ofFields read.1, read.2) := rfl

theorem skipBlanks_skipBlanks (s : List Char) : skipBlanks (skipBlanks s) = skipBlanks s :=
  List.dropWhile_idempotent _ _

theorem value_skipBlanks (fuel depth : Nat) (s : List Char) :
    value fuel depth (skipBlanks s) = value fuel depth s := by
  cases fuel with
  | zero => rfl
  | succ fuel => rw [value, value, skipBlanks_skipBlanks]

variable {fuel depth : Nat} {s t u rest : List Char} {x : Json}

/-- Where a value is read, the text goes on with something else than the end of a list. -/
theorem exists_of_value (h : value fuel depth s = .ok (x, rest)) :
    ∃ c t, skipBlanks s = c :: t ∧ c ≠ ']' := by
  cases fuel with
  | zero => cases h
  | succ fuel =>
    rw [value] at h
    cases hs : skipBlanks s with
    | nil =>
      rw [hs] at h
      cases h
    | cons c t =>
      refine ⟨c, t, rfl, ?_⟩
      rintro rfl
      rw [hs] at h
      cases h

theorem nextItem_first (h : value fuel depth s = .ok (x, rest)) :
    nextItem true s = .ok (some (skipBlanks s)) := by
  obtain ⟨c, t, hs, hc⟩ := exists_of_value h
  rw [nextItem, hs]
  split
  · next heq => cases heq
  · next heq =>
    cases heq
    exact absurd rfl hc
  · next heq =>
    cases heq
    rw [if_pos rfl]

theorem nextItem_comma (h : value fuel depth s = .ok (x, rest)) :
    nextItem false (',' :: s) = .ok (some (skipBlanks s)) := by
  obtain ⟨c, t, hs, hc⟩ := exists_of_value h
  rw [nextItem, skipBlanks_cons rfl]
  split
  · next heq => cases heq
  · next heq => cases heq
  · next heq =>
    cases heq
    rw [if_neg Bool.false_ne_true, if_pos rfl, hs]
    split
    · next heq => cases heq
    · next heq =>
      cases heq
      exact absurd rfl hc
    · rfl

theorem items_cons {first : Bool} (hnext : nextItem first s = .ok (some (skipBlanks t)))
    (hitem : value fuel depth t = .ok (x, u)) {xs : List Json}
    (hitems : items fuel depth false u = .ok (xs, rest)) :
    items (fuel + 1) depth first s = .ok (x :: xs, rest) := by
  rw [items, hnext, ok_bind]
  dsimp only
  rw [value_skipBlanks, hitem, ok_bind]
  dsimp only
  rw [hitems, ok_bind]

theorem fields_cons {first : Bool} {name : String}
    (hnext : nextName first s = .ok (some (name.toList.flatMap escapeChar ++ '"' :: ':' :: t)))
    (hitem : value fuel depth t = .ok (x, u)) {fs : List (String × Json)}
    (hfields : fields fuel depth false u = .ok (fs, rest)) :
    fields (fuel + 1) depth first s = .ok ((name, x) :: fs, rest) := by
  have hcolon : colon (':' :: t) = .ok t := rfl
  rw [fields, hnext, ok_bind]
  dsimp only
  rw [stringBody_flatMap, ok_bind]
  dsimp only
  rw [hcolon, ok_bind, hitem, ok_bind]
  dsimp only
  rw [hfields, ok_bind]

/-! ### Values -/

/-- Whether `v` is read back, wherever its text stands. -/
def ReadsBack (v : Json) : Prop :=
  ∀ fuel depth rest, v.compact.length ≤ fuel → v.nesting ≤ depth → EndsNumber rest →
    value fuel depth (v.compact ++ rest) = .ok (v, rest)

theorem endsNumber_compactItems (xs : List Json) (rest : List Char) :
    EndsNumber (compactItems xs ++ rest) := by
  cases xs with
  | nil => exact .cons (by decide) _
  | cons x xs => exact .cons (by decide) _

theorem endsNumber_compactFields (fs : List (String × Json)) (rest : List Char) :
    EndsNumber (compactFields fs ++ rest) := by
  cases fs with
  | nil => exact .cons (by decide) _
  | cons f fs => exact .cons (by decide) _

theorem length_compactItems_pos (xs : List Json) : 0 < (compactItems xs).length := by
  cases xs <;> exact Nat.zero_lt_succ _

theorem length_compactFields_pos (fs : List (String × Json)) : 0 < (compactFields fs).length := by
  cases fs <;> exact Nat.zero_lt_succ _

theorem items_compactItems {xs : List Json} (h : ∀ x ∈ xs, ReadsBack x)
    (hfuel : (compactItems xs).length ≤ fuel) (hdepth : nestingOfItems xs ≤ depth)
    (rest : List Char) : items fuel depth false (compactItems xs ++ rest) = .ok (xs, rest) := by
  induction xs generalizing fuel with
  | nil =>
    cases fuel with
    | zero => nomatch hfuel
    | succ fuel => rfl
  | cons x xs ih =>
    obtain ⟨hx, hxs⟩ := List.forall_mem_cons.mp h
    cases fuel with
    | zero => nomatch hfuel
    | succ fuel =>
      rw [compactItems, List.cons_append, List.length_cons, List.length_append] at hfuel
      rw [nestingOfItems] at hdepth
      have hitem := hx fuel depth (compactItems xs ++ rest) (by omega) (by omega)
        (endsNumber_compactItems xs rest)
      rw [compactItems, List.cons_append, List.cons_append, List.append_assoc]
      exact items_cons (nextItem_comma hitem) hitem (ih hxs (by omega) (by omega))

theorem fields_compactFields {fs : List (String × Json)} (h : ∀ f ∈ fs, ReadsBack f.2)
    (hfuel : (compactFields fs).length ≤ fuel) (hdepth : nestingOfFields fs ≤ depth)
    (rest : List Char) : fields fuel depth false (compactFields fs ++ rest) = .ok (fs, rest) := by
  induction fs generalizing fuel with
  | nil =>
    cases fuel with
    | zero => nomatch hfuel
    | succ fuel => rfl
  | cons f fs ih =>
    obtain ⟨name, x⟩ := f
    obtain ⟨(hx : ReadsBack x), hfs⟩ := List.forall_mem_cons.mp h
    cases fuel with
    | zero => nomatch hfuel
    | succ fuel =>
      simp only [compactFields, List.length_cons, List.length_append, List.cons_append] at hfuel
      rw [nestingOfFields] at hdepth
      have hitem := hx fuel depth (compactFields fs ++ rest) (by omega) (by omega)
        (endsNumber_compactFields fs rest)
      refine fields_cons ?_ hitem (ih hfs (by omega) (by omega))
      simp only [compactFields, stringText, List.cons_append, List.append_assoc, List.nil_append]
      rfl

theorem ReadsBack.length_pos (h : ReadsBack x) : 0 < x.compact.length := by
  refine Nat.pos_of_ne_zero fun hzero ↦ ?_
  -- without fuel nothing is read
  exact nomatch h 0 x.nesting [] hzero.le le_rfl .nil

/-- The first item stands behind the bracket and the others behind commas. -/
theorem readsBack_array {xs : List Json} (h : ∀ x ∈ xs, ReadsBack x) : ReadsBack (array xs) := by
  intro fuel depth rest hfuel hdepth _
  rw [nesting] at hdepth
  cases depth with
  | zero => exact absurd hdepth (Nat.not_succ_le_zero _)
  | succ depth =>
    cases xs with
    | nil =>
      match fuel, hfuel with
      | fuel + 2, _ => rfl
    | cons x xs =>
      obtain ⟨hx, hxs⟩ := List.forall_mem_cons.mp h
      -- the bracket and the first item leave fuel for both the item and all that follows it, as
      -- neither of these is written without a character
      have hpos := hx.length_pos
      have hend := length_compactItems_pos xs
      rw [compact, List.cons_append, List.length_cons, List.length_append] at hfuel
      rw [nestingOfItems] at hdepth
      obtain ⟨fuel, rfl⟩ : ∃ n, fuel = n + 2 := ⟨fuel - 2, by omega⟩
      have hitem := hx fuel depth (compactItems xs ++ rest) (by omega) (by omega)
        (endsNumber_compactItems xs rest)
      have hitems := items_compactItems hxs (by omega : (compactItems xs).length ≤ fuel)
        (by omega : nestingOfItems xs ≤ depth) rest
      rw [compact, List.cons_append, List.cons_append, List.append_assoc, value_array,
        items_cons (nextItem_first hitem) hitem hitems, ok_bind]

theorem readsBack_object {fs : List (String × Json)} (hsorted : SortedFields fs)
    (h : ∀ f ∈ fs, ReadsBack f.2) : ReadsBack (object fs) := by
  intro fuel depth rest hfuel hdepth _
  rw [nesting] at hdepth
  cases depth with
  | zero => exact absurd hdepth (Nat.not_succ_le_zero _)
  | succ depth =>
    cases fs with
    | nil =>
      match fuel, hfuel with
      | fuel + 2, _ => rfl
    | cons f fs =>
      obtain ⟨name, x⟩ := f
      obtain ⟨(hx : ReadsBack x), hfs⟩ := List.forall_mem_cons.mp h
      have hpos := hx.length_pos
      have hend := length_compactFields_pos fs
      simp only [compact, List.length_cons, List.length_append, List.cons_append] at hfuel
      rw [nestingOfFields] at hdepth
      obtain ⟨fuel, rfl⟩ : ∃ n, fuel = n + 2 := ⟨fuel - 2, by omega⟩
      have hitem := hx fuel depth (compactFields fs ++ rest) (by omega) (by omega)
        (endsNumber_compactFields fs rest)
      have hfields := fields_compactFields hfs (by omega : (compactFields fs).length ≤ fuel)
        (by omega : nestingOfFields fs ≤ depth) rest
      simp only [compact, stringText, List.cons_append, List.append_assoc, List.nil_append]
      rw [value_object, fields_cons rfl hitem hfields, ok_bind, ofFields, hsorted.sortFields]

/-- For a value without brackets any fuel is enough. -/
theorem ReadsBack.of_scalar {v : Json} (hpos : 0 < v.compact.length)
    (h : ∀ fuel depth rest, EndsNumber rest →
      value (fuel + 1) depth (v.compact ++ rest) = .ok (v, rest)) : ReadsBack v := by
  intro fuel depth rest hfuel _ hrest
  cases fuel with
  | zero => exact absurd hfuel (Nat.not_le.mpr hpos)
  | succ fuel => exact h fuel depth rest hrest

theorem readsBack_string (s : String) : ReadsBack (string s) := by
  refine .of_scalar (Nat.zero_lt_succ _) fun fuel depth rest _ ↦ ?_
  rw [compact, stringText, List.cons_append, List.cons_append, List.append_assoc,
    List.singleton_append, value_string, stringBody_flatMap, ok_bind]

theorem length_integerText_pos (n : Int) : 0 < (Number.integerText n).length := by
  rw [Number.integerText]
  split
  · exact Nat.zero_lt_succ _
  · exact List.length_pos_of_ne_nil Nat.toDigits_ne_nil

/-- **A value is read back from its text.** -/
theorem readsBack {v : Json} (hsorted : v.Sorted) (hintegral : v.Integral) : ReadsBack v := by
  induction v using Json.induction with
  | null => exact .of_scalar (by decide) fun _ _ _ _ ↦ rfl
  | bool b => cases b <;> exact .of_scalar (by decide) fun _ _ _ _ ↦ rfl
  | number n =>
    cases hintegral with
    | int hmin hmax =>
      exact .of_scalar (length_integerText_pos _) fun fuel depth rest hrest ↦
        value_integerText hmin hmax hrest fuel depth
  | string s => exact readsBack_string s
  | array items ih =>
    cases hsorted with
    | array hsorted =>
      cases hintegral with
      | array hintegral => exact readsBack_array fun x hx ↦ ih x hx (hsorted x hx) (hintegral x hx)
  | object fields ih =>
    cases hsorted with
    | object hfields hsorted =>
      cases hintegral with
      | object hintegral =>
        exact readsBack_object hfields fun f hf ↦ ih f hf (hsorted f hf) (hintegral f hf)

theorem readWithin_compact {v : Json} (hsorted : v.Sorted) (hintegral : v.Integral) {depth : Nat}
    (hdepth : v.nesting ≤ depth) : readWithin depth v.compact = .ok v := by
  have hread := readsBack hsorted hintegral (2 * v.compact.length + 2) depth [] (by omega)
    hdepth .nil
  rw [List.append_nil] at hread
  rw [readWithin, hread]
  rfl

end Reader

open Reader

/-- A string that holds the text of a value is read back unless it nests too deep. -/
theorem ofText?_text {v : Json} (hsorted : v.Sorted) (hintegral : v.Integral)
    (hdepth : v.nesting ≤ maxDepth) : ofText? v.text = some v := by
  rw [ofText?, text, String.toList_ofList, read_eq_readWithin,
    readWithin_compact hsorted hintegral hdepth]

theorem eq_of_text_eq {v w : Json} (hv : v.Sorted) (hv' : v.Integral) (hw : w.Sorted)
    (hw' : w.Integral) (h : v.text = w.text) : v = w := by
  have hcompact : v.compact = w.compact := String.ofList_injective h
  have hreadv := readWithin_compact hv hv' (le_max_left v.nesting w.nesting)
  have hreadw := readWithin_compact hw hw' (le_max_right v.nesting w.nesting)
  rw [hcompact, hreadw] at hreadv
  exact (Except.ok.inj hreadv).symm

end Pagesmith.Json
