import Pagesmith.Page.Document
import Pagesmith.Proofs.Decimal.Characters
import Pagesmith.Proofs.Json.Fields
import Pagesmith.Proofs.Json.Reading
import Pagesmith.Proofs.Text.Cutting

/-!
# The leaves of a theme

A theme declares the admissible leaves of its settings. A leaf is a number or a harmless string that
keys lead to, each key being fit for a name; the keys joined with hyphens are the name of the
property it declares. The definitions here are in terms of keys and say nothing of how declarations
are gathered; `declarations_eq` says that what is gathered are the leaves, in their order.

## Two accounts of a way

A leaf has the list of the keys on its way. `declarationsOf` goes the same way with the name it has
come to so far, which is a text, and puts a hyphen behind it unless it is empty. No key on the way
is empty, so the name is empty at the root only, and the two accounts agree (`join_intercalate`). A
key that is not fit for a name ends the way there, and here it makes every leaf below it
inadmissible.
-/

namespace Pagesmith

namespace Theme

/-! ## Keys and values -/

/-- Whether a key is an ASCII letter followed by ASCII letters, digits, underscores and hyphens. -/
def IsKey (key : String) : Prop :=
  ∃ c s, key.toList = c :: s ∧ c.isAlpha = true ∧ ∀ d ∈ s, d.isAlphanum = true ∨ d = '_' ∨ d = '-'

/-- Whether a string is not empty and has only ASCII letters, digits and harmless signs. -/
def IsHarmless (s : String) : Prop :=
  s ≠ "" ∧ ∀ c ∈ s.toList, c.isAlphanum = true ∨ c ∈ "#%.,()/ _-".toList

theorem isLetter_eq_isAlpha (c : Char) : isLetter c = c.isAlpha := by
  have hupper : c.isUpper = (decide ('A' ≤ c) && decide (c ≤ 'Z')) := Bool.decide_and _ _
  calc isLetter c = (c.isLower || (decide ('A' ≤ c) && decide (c ≤ 'Z'))) := rfl
    _ = (c.isLower || c.isUpper) := by rw [hupper]
    _ = c.isAlpha := Bool.or_comm _ _

theorem isDigit_eq_isDigit (c : Char) : isDigit c = c.isDigit := rfl

theorem isNameChar_iff (c : Char) :
    isNameChar c = true ↔ c.isAlphanum = true ∨ c = '_' ∨ c = '-' := by
  simp [isNameChar, isLetter_eq_isAlpha, isDigit_eq_isDigit, Char.isAlphanum, or_assoc]

theorem isValueChar_iff (c : Char) :
    isValueChar c = true ↔ c.isAlphanum = true ∨ c ∈ "#%.,()/ _-".toList := by
  simp [isValueChar, isLetter_eq_isAlpha, isDigit_eq_isDigit, Char.isAlphanum, or_assoc]

theorem isName_iff (key : String) : isName key.toList = true ↔ IsKey key := by
  rw [IsKey]
  cases key.toList with
  | nil => simp [isName]
  | cons c s => simp [isName, isLetter_eq_isAlpha, isNameChar_iff]

theorem isValue_iff (s : String) : isValue s.toList = true ↔ IsHarmless s := by
  simp [isValue, IsHarmless, isValueChar_iff]

/-! ## Leaves -/

/-- A leaf of settings: the keys that lead to it and the text it has there. -/
structure Leaf where
  keys : List String
  value : String
deriving DecidableEq, Repr

/-- The property that `l` declares. -/
def Leaf.declaration (l : Leaf) : Declaration := ⟨"-".intercalate l.keys, l.value⟩

/-- Whether a value has a text that may be declared, and which. -/
inductive Declares : Json → String → Prop
  | number (n : Number) : Declares (.number n) (String.ofList n.jsonText)
  | string {s : String} (h : IsHarmless s) : Declares (.string s) s

/-- Whether `l` belongs to `settings` and may be declared. -/
structure Leaf.AdmissibleIn (l : Leaf) (settings : Json) : Prop where
  keys_ne_nil : l.keys ≠ []
  isKey : ∀ key ∈ l.keys, IsKey key
  leads : ∃ x, settings.Leads l.keys x ∧ Declares x l.value

/-- The text of a value that may be declared. -/
def valueText? : Json → Option String
  | .number n => some (String.ofList n.jsonText)
  | .string s => if isValue s.toList then some s else none
  | .null | .bool _ | .array _ | .object _ => none

def AreNames (keys : List String) : Prop := ∀ key ∈ keys, isName key.toList = true

instance (keys : List String) : Decidable (AreNames keys) := List.decidableBAll _ keys

theorem areNames_iff {keys : List String} : AreNames keys ↔ ∀ key ∈ keys, IsKey key :=
  forall₂_congr fun key _ ↦ isName_iff key

/-- The leaf that an entry is, if it is an admissible one. -/
def leaf? (e : Json.Entry) : Option Leaf :=
  if e.keys ≠ [] ∧ AreNames e.keys then
    (valueText? e.content).map fun value ↦ ⟨e.keys, value⟩
  else none

/-- The admissible leaves of settings, depth first. -/
def leaves (settings : Json) : List Leaf := settings.entries.filterMap leaf?

theorem valueText?_eq_some_iff {x : Json} {value : String} :
    valueText? x = some value ↔ Declares x value := by
  constructor
  · intro h
    cases x with
    | number n =>
      cases h
      exact .number n
    | string s =>
      obtain ⟨hs, h⟩ := Option.ite_none_right_eq_some.mp h
      cases h
      exact .string ((isValue_iff value).mp hs)
    | _ => contradiction
  · rintro (n | hs)
    · rfl
    · exact if_pos ((isValue_iff value).mpr hs)

theorem leaf?_eq_some_iff {e : Json.Entry} {l : Leaf} :
    leaf? e = some l ↔ e.keys = l.keys ∧ l.keys ≠ [] ∧ (∀ key ∈ l.keys, IsKey key) ∧
      Declares e.content l.value := by
  simp only [leaf?, Option.ite_none_right_eq_some, Option.map_eq_some_iff, valueText?_eq_some_iff,
    areNames_iff]
  constructor
  · rintro ⟨⟨hne, hkeys⟩, value, hvalue, rfl⟩
    exact ⟨rfl, hne, hkeys, hvalue⟩
  · obtain ⟨keys, value⟩ := l
    rintro ⟨rfl, hne, hkeys, hvalue⟩
    exact ⟨⟨hne, hkeys⟩, value, hvalue, rfl⟩

theorem mem_leaves_iff {settings : Json} {l : Leaf} :
    l ∈ leaves settings ↔ l.AdmissibleIn settings := by
  simp only [leaves, List.mem_filterMap, leaf?_eq_some_iff]
  constructor
  · rintro ⟨⟨keys, x⟩, he, rfl, hne, hkeys, hvalue⟩
    exact ⟨hne, hkeys, x, (settings.mem_entries_iff _).mp he, hvalue⟩
  · rintro ⟨hne, hkeys, x, hleads, hvalue⟩
    exact ⟨⟨l.keys, x⟩, (settings.mem_entries_iff _).mpr hleads, rfl, hne, hkeys, hvalue⟩

theorem pairwise_leaves {settings : Json} (h : settings.Sorted) :
    (leaves settings).Pairwise fun l m ↦ l.keys < m.keys := by
  rw [leaves, List.pairwise_filterMap]
  refine h.pairwise_entries.imp fun hlt l hl m hm ↦ ?_
  rw [← (leaf?_eq_some_iff.mp hl).1, ← (leaf?_eq_some_iff.mp hm).1]
  exact hlt

/-! ## The declarations are those of the leaves -/

theorem AreNames.concat {above : List String} (h : AreNames above) {key : String}
    (hkey : isName key.toList = true) : AreNames (above ++ [key]) := by
  intro k hk
  rcases List.mem_append.mp hk with hk | hk
  · exact h k hk
  · rwa [List.mem_singleton.mp hk]

/-- The name of a way below a key goes on with a hyphen; at the root there is nothing to go on
from. -/
theorem join_intercalate {above : List String} (h : AreNames above) (key : String) :
    join ("-".intercalate above) key = "-".intercalate (above ++ [key]) := by
  cases above with
  | nil => rfl
  | cons first above =>
    have hfirst : first ≠ "" := by
      rintro rfl
      exact absurd (h "" List.mem_cons_self) Bool.false_ne_true
    have hname : ("-".intercalate (first :: above)).isEmpty = false := by
      cases above with
      | nil => simpa using hfirst
      | cons second above => simp [String.intercalate_cons_cons, hfirst]
    rw [join, hname, String.intercalate_append_of_ne_nil (List.cons_ne_nil _ _)
      (List.cons_ne_nil _ _), String.intercalate_singleton]
    rfl

/-- The admissible leaves of `x`, which the keys `above` have led to. -/
def leavesBelow (above : List String) (x : Json) : List Leaf :=
  x.entries.filterMap fun e ↦ leaf? (e.below above)

theorem leavesBelow_object (above : List String) (fields : List (String × Json)) :
    leavesBelow above (.object fields) =
      fields.flatMap fun f ↦ leavesBelow (above ++ [f.1]) f.2 := by
  have hself : leaf? (Json.Entry.below above ⟨[], .object fields⟩) = none := by
    rw [leaf?]
    exact ite_self _
  rw [leavesBelow, Json.entries,
    List.filterMap_cons_none (f := fun e : Json.Entry ↦ leaf? (e.below above)) hself,
    Json.entriesOfFields_eq_flatMap, List.filterMap_flatMap]
  refine List.flatMap_congr fun f _ ↦ ?_
  rw [List.filterMap_map, leavesBelow]
  refine congrArg (List.filterMap · f.2.entries) (funext fun e ↦ ?_)
  rw [Function.comp_apply, Json.Entry.below_below]

/-- What is no object has at most itself as a leaf. -/
theorem leavesBelow_of_not_object (x : Json) (hx : ∀ fields, x ≠ .object fields)
    {above : List String} (hne : above ≠ []) (habove : AreNames above) :
    leavesBelow above x = ((valueText? x).map fun value ↦ Leaf.mk above value).toList := by
  have hself : leaf? (Json.Entry.below above ⟨[], x⟩) =
      (valueText? x).map fun value ↦ ⟨above, value⟩ := by
    rw [leaf?, Json.Entry.below, List.append_nil, if_pos ⟨hne, habove⟩]
  rw [leavesBelow, Json.entries_of_not_object hx, List.filterMap_cons, hself, List.filterMap_nil]
  cases valueText? x <;> rfl

/-- Below a key that is no name there are no admissible leaves. -/
theorem leavesBelow_of_not_isName {key : String} (h : ¬isName key.toList = true)
    (above : List String) (x : Json) : leavesBelow (above ++ [key]) x = [] := by
  rw [leavesBelow, List.filterMap_eq_nil_iff]
  intro e _
  refine if_neg fun hkeys ↦ h (hkeys.2 key ?_)
  exact List.mem_append_left _ (List.mem_append_right above List.mem_cons_self)

theorem declarationsOf_eq_flatMap (above : String) (fields : List (String × Json)) :
    declarationsOf above fields = fields.flatMap fun f ↦
      if isName f.1.toList then declarationsUnder (join above f.1) f.2 else [] := by
  induction fields with
  | nil => rfl
  | cons f fields ih => rw [declarationsOf, ih, List.flatMap_cons]

/-- The fields of an object declare their leaves if each content does, wherever it stands. -/
theorem declarationsOf_eq_of_contents {above : List String} (habove : AreNames above)
    {fields : List (String × Json)}
    (h : ∀ f ∈ fields, ∀ keys, keys ≠ [] → AreNames keys →
      declarationsUnder ("-".intercalate keys) f.2 = (leavesBelow keys f.2).map Leaf.declaration) :
    declarationsOf ("-".intercalate above) fields =
      (leavesBelow above (.object fields)).map Leaf.declaration := by
  rw [declarationsOf_eq_flatMap, leavesBelow_object, List.map_flatMap]
  refine List.flatMap_congr fun f hf ↦ ?_
  by_cases hname : isName f.1.toList = true
  · rw [if_pos hname, join_intercalate habove]
    exact h f hf _ (List.concat_ne_nil _ _) (habove.concat hname)
  · rw [if_neg hname, leavesBelow_of_not_isName hname, List.map_nil]

/-- What a value declares under a name are its leaves below the keys of the name. -/
theorem declarationsUnder_eq (x : Json) {above : List String} (hne : above ≠ [])
    (habove : AreNames above) :
    declarationsUnder ("-".intercalate above) x =
      (leavesBelow above x).map Leaf.declaration := by
  induction x using Json.induction generalizing above with
  | object fields ih =>
    rw [declarationsUnder]
    exact declarationsOf_eq_of_contents habove fun f hf _ hne habove ↦ ih f hf hne habove
  | string s =>
    rw [leavesBelow_of_not_object (.string s) nofun hne habove, declarationsUnder, valueText?]
    split <;> rfl
  | number n =>
    rw [leavesBelow_of_not_object (.number n) nofun hne habove]
    rfl
  | null =>
    rw [leavesBelow_of_not_object .null nofun hne habove]
    rfl
  | bool b =>
    rw [leavesBelow_of_not_object (.bool b) nofun hne habove]
    rfl
  | array items =>
    rw [leavesBelow_of_not_object (.array items) nofun hne habove]
    rfl

/-- **The declarations of settings** are those of their admissible leaves, in order. -/
theorem declarations_eq (settings : Json) :
    declarations settings = (leaves settings).map Leaf.declaration := by
  cases settings with
  | object fields =>
    have hroot : AreNames [] := fun _ h ↦ absurd h List.not_mem_nil
    exact declarationsOf_eq_of_contents hroot fun f _ _ hne hkeys ↦
      declarationsUnder_eq f.2 hne hkeys
  | null | bool b | number n | string s | array items => rfl

end Theme

/-! ## Reading a style sheet back

The style sheet of a theme is one rule with a declaration for every admissible leaf. It is read by
five characters: the braces, the semicolon, the colon, and the `<` at which the element around the
style sheet could end. Neither a name nor a value has one of them. So the marks that are found are
those of the rule itself, and all names and values come back from it as they were, in order.

Reading goes by first occurrences, and it does not know what was written: it cuts at the first
opening brace, at the next closing one, at every semicolon and at the first colon of each piece.
Each cut is one lemma about texts that do not hold the character cut at. -/

namespace Theme

/-! ### Characters that are read by -/

/-- The characters by which a style sheet is read. -/
def marks : List Char := [':', ';', '<', '{', '}']

/-- Whether a text has none of the `marks`. -/
def Unmarked (s : List Char) : Prop := ∀ c ∈ marks, c ∉ s

instance (s : List Char) : Decidable (Unmarked s) := List.decidableBAll _ marks

theorem unmarked_of_all {p : Char → Bool} {s : List Char} (hs : s.all p = true)
    (hmarks : marks.any p = false) : Unmarked s := by
  intro c hc hmem
  exact absurd (List.all_eq_true.mp hs c hmem) (List.any_eq_false.mp hmarks c hc)

theorem unmarked_of_isValue {s : List Char} (h : isValue s = true) : Unmarked s := by
  rw [isValue, Bool.and_eq_true] at h
  exact unmarked_of_all h.2 (by decide)

theorem unmarked_of_allNumeric {s : List Char} (h : AllNumeric s) : Unmarked s := by
  refine unmarked_of_all (p := fun c ↦ c.isDigit || ['-', '+', '.', 'e'].contains c) ?_ (by decide)
  rw [List.all_eq_true]
  intro c hc
  rw [Bool.or_eq_true, List.contains_iff_mem]
  exact h c hc

theorem all_isNameChar_of_isName {s : List Char} (h : isName s = true) :
    s.all isNameChar = true := by
  cases s with
  | nil => rfl
  | cons c s =>
    rw [isName, Bool.and_eq_true] at h
    rw [List.all_cons, h.2, isNameChar, h.1]
    rfl

/-- The name of a property is made of the characters of names. -/
theorem all_isNameChar_intercalate {keys : List String} (h : AreNames keys) :
    ("-".intercalate keys).toList.all isNameChar = true := by
  induction keys with
  | nil => rfl
  | cons key keys ih =>
    have hkey := all_isNameChar_of_isName (h key List.mem_cons_self)
    by_cases hne : keys = []
    · rwa [hne, String.intercalate_singleton]
    · rw [String.intercalate_cons_of_ne_nil hne, String.toList_append, String.toList_append,
        List.all_append, List.all_append, hkey, ih fun k hk ↦ h k (List.mem_cons_of_mem key hk)]
      rfl

theorem unmarked_intercalate {keys : List String} (h : AreNames keys) :
    Unmarked ("-".intercalate keys).toList :=
  unmarked_of_all (all_isNameChar_intercalate h) (by decide)

theorem Declares.unmarked {x : Json} {value : String} (h : Declares x value) :
    Unmarked value.toList := by
  induction h with
  | number n =>
    rw [String.toList_ofList]
    exact unmarked_of_allNumeric n.allNumeric_jsonText
  | string hs => exact unmarked_of_isValue ((isValue_iff _).mpr hs)

end Theme

/-! ### Reading back -/

namespace Declaration

/-- Whether neither the name nor the value of `d` has one of the `marks`. -/
structure Unmarked (d : Declaration) : Prop where
  name : Theme.Unmarked d.name.toList
  value : Theme.Unmarked d.value.toList

/-- A declaration as text, without the semicolon. -/
def piece (d : Declaration) : List Char := ['-', '-'] ++ d.name.toList ++ ':' :: d.value.toList

theorem toList_text (d : Declaration) : d.text.toList = d.piece ++ [';'] := by
  have htext : d.text = "--" ++ d.name ++ ":" ++ d.value ++ ";" := rfl
  simp [htext, piece]

/-- The declaration that `piece` is: behind two hyphens a name, and behind the first colon a value.
-/
def ofPiece? (piece : List Char) : Option Declaration := do
  let s ← Text.dropMark? ['-', '-'] piece
  let (name, value) ← Text.cut [':'] s
  return ⟨String.ofList name, String.ofList value⟩

variable {d : Declaration}

theorem Unmarked.ofPiece?_piece (h : d.Unmarked) : ofPiece? d.piece = some d := by
  have hcolon := h.name ':' (by decide)
  rw [ofPiece?, piece, List.append_assoc, Text.dropMark?_append, Option.bind_eq_bind,
    Option.bind_some, Text.cut_singleton_append hcolon]
  simp

theorem Unmarked.not_mem_piece (h : d.Unmarked) {c : Char} (hc : c ∈ Theme.marks)
    (hcolon : c ≠ ':') : c ∉ d.piece := by
  have hhyphen : c ≠ '-' := by
    rintro rfl
    exact absurd hc (by decide)
  simp [piece, hhyphen, hcolon, h.name c hc, h.value c hc]

end Declaration

namespace Theme

/-- The declarations of a style sheet: the text between the first opening brace and the next closing
one is cut at the semicolons, and all pieces that are not empty are declarations. Nothing is
declared where there is no brace. -/
def read? (css : String) : Option (List Declaration) :=
  match Text.cut ['{'] css.toList with
  | none => some []
  | some (_, rest) => do
    let (body, _) ← Text.cut ['}'] rest
    ((Text.splitWhere (· == ';') body).filter fun piece ↦ !piece.isEmpty).mapM
      Declaration.ofPiece?

theorem mapM_ofPiece?_piece {ds : List Declaration} (h : ∀ d ∈ ds, d.Unmarked) :
    (ds.map Declaration.piece).mapM Declaration.ofPiece? = some ds := by
  induction ds with
  | nil => rfl
  | cons d ds ih =>
    rw [List.map_cons, List.mapM_cons, (h d List.mem_cons_self).ofPiece?_piece,
      ih fun e he ↦ h e (List.mem_cons_of_mem d he)]
    rfl

/-- Declarations one behind the other are the pieces, each closed by a semicolon. -/
theorem toList_join_text (ds : List Declaration) :
    (String.join (ds.map Declaration.text)).toList =
      (ds.map Declaration.piece).flatMap (· ++ [';']) := by
  rw [String.toList_join, List.flatMap_map, List.flatMap_map]
  exact List.flatMap_congr fun d _ ↦ d.toList_text

theorem not_mem_join_text {ds : List Declaration} (h : ∀ d ∈ ds, d.Unmarked) {c : Char}
    (hc : c ∈ ['<', '{', '}']) : c ∉ (String.join (ds.map Declaration.text)).toList := by
  have hmark : ∀ c ∈ ['<', '{', '}'], c ∈ marks ∧ c ≠ ':' ∧ c ≠ ';' := by
    simp [marks]
  obtain ⟨hmark, hcolon, hsemicolon⟩ := hmark c hc
  rw [toList_join_text, List.flatMap_map, List.mem_flatMap]
  rintro ⟨d, hd, hmem⟩
  rcases List.mem_append.mp hmem with hmem | hmem
  · exact (h d hd).not_mem_piece hmark hcolon hmem
  · exact hsemicolon (List.mem_singleton.mp hmem)

theorem toList_rule (ds : List Declaration) :
    (":root\x7b" ++ String.join (ds.map Declaration.text) ++ "\x7d").toList =
      ":root".toList ++ '{' :: ((ds.map Declaration.piece).flatMap (· ++ [';']) ++ ['}']) := by
  rw [← toList_join_text]
  simp

/-- No character at which a rule is cut stands in a piece of it. -/
theorem not_mem_of_mem_pieces {ds : List Declaration} (h : ∀ d ∈ ds, d.Unmarked) {c : Char}
    (hc : c ∈ marks) (hcolon : c ≠ ':') : ∀ p ∈ ds.map Declaration.piece, c ∉ p := by
  rw [List.forall_mem_map]
  exact fun d hd ↦ (h d hd).not_mem_piece hc hcolon

theorem not_isEmpty_of_mem_pieces (ds : List Declaration) :
    ∀ p ∈ ds.map Declaration.piece, (!p.isEmpty) = true := by
  rw [List.forall_mem_map]
  exact fun d _ ↦ rfl

/-- **Reading back.** Declarations whose names and values are free of marks come back from the rule
that makes them. -/
theorem read?_rule {ds : List Declaration} (h : ∀ d ∈ ds, d.Unmarked) :
    read? (":root\x7b" ++ String.join (ds.map Declaration.text) ++ "\x7d") = some ds := by
  have hclose : '}' ∉ (ds.map Declaration.piece).flatMap (· ++ [';']) := by
    rw [← toList_join_text]
    exact not_mem_join_text h (by decide)
  have hpieces : ∀ p ∈ ds.map Declaration.piece, ';' ∉ p :=
    not_mem_of_mem_pieces h (by decide) (by decide)
  rw [read?, toList_rule, Text.cut_singleton_append (by decide)]
  simp only [Option.bind_eq_bind, Text.cut_singleton_append hclose, Option.bind_some]
  rw [Text.splitWhere_terminated hpieces, List.filter_append,
    List.filter_eq_self.mpr (not_isEmpty_of_mem_pieces ds), List.filter_cons_of_neg (by decide),
    List.filter_nil, List.append_nil]
  exact mapM_ofPiece?_piece h

/-! ### The style sheet -/

def Leaf.text (l : Leaf) : String := "--" ++ "-".intercalate l.keys ++ ":" ++ l.value ++ ";"

/-- The declarations of `settings`, one behind the other. -/
def body (settings : Json) : String := String.join ((leaves settings).map Leaf.text)

theorem body_eq (settings : Json) :
    body settings = String.join ((declarations settings).map Declaration.text) := by
  rw [declarations_eq, List.map_map]
  rfl

theorem css_eq (settings : Json) :
    css settings = if leaves settings = [] then "" else ":root\x7b" ++ body settings ++ "\x7d" := by
  rw [css, body_eq, declarations_eq]
  cases leaves settings <;> rfl

theorem unmarked_declarations {settings : Json} :
    ∀ d ∈ declarations settings, d.Unmarked := by
  rw [declarations_eq, List.forall_mem_map]
  intro l hl
  obtain ⟨-, hkeys, x, -, hvalue⟩ := mem_leaves_iff.mp hl
  exact ⟨unmarked_intercalate (areNames_iff.mpr hkeys), hvalue.unmarked⟩

theorem not_mem_body {settings : Json} {c : Char} (hc : c ∈ ['<', '{', '}']) :
    c ∉ (body settings).toList := by
  rw [body_eq]
  exact not_mem_join_text unmarked_declarations hc

theorem css_eq_empty_iff {settings : Json} :
    css settings = "" ↔ ∀ l : Leaf, ¬l.AdmissibleIn settings := by
  simp only [← mem_leaves_iff, ← List.eq_nil_iff_forall_not_mem, css_eq]
  split
  · next h => exact ⟨fun _ ↦ h, fun _ ↦ rfl⟩
  · next h => exact ⟨fun hcss ↦ by simp at hcss, fun hnil ↦ absurd hnil h⟩

theorem read?_css (settings : Json) :
    read? (css settings) = some ((leaves settings).map Leaf.declaration) := by
  rw [css_eq]
  split
  · next h =>
    rw [h]
    rfl
  · rw [body_eq, read?_rule unmarked_declarations, declarations_eq]

/-- The element around the style sheet is not ended by it. -/
theorem not_mem_css (settings : Json) : '<' ∉ (css settings).toList := by
  rw [css_eq]
  split
  · exact List.not_mem_nil
  · simpa using not_mem_body (by decide)

/-- **A theme declares its admissible leaves**, each of them and in the order of the keys, and they
can be read back. There is no style sheet exactly if there is no such leaf. What is declared ends
neither the rule nor the element around the style sheet. -/
theorem css_declares_leaves (settings : Json) :
    (∀ l : Leaf, l ∈ leaves settings ↔ l.AdmissibleIn settings) ∧
      (settings.Sorted → (leaves settings).Pairwise fun l m ↦ l.keys < m.keys) ∧
      (css settings = "" ↔ ∀ l : Leaf, ¬l.AdmissibleIn settings) ∧
      (css settings = "" ∨ css settings = ":root\x7b" ++ body settings ++ "\x7d") ∧
      read? (css settings) = some ((leaves settings).map Leaf.declaration) ∧
      '<' ∉ (css settings).toList ∧
      '{' ∉ (body settings).toList ∧ '}' ∉ (body settings).toList := by
  have hform : css settings = "" ∨ css settings = ":root\x7b" ++ body settings ++ "\x7d" := by
    rw [css_eq]
    exact ite_eq_or_eq _ _ _
  exact ⟨fun _ ↦ mem_leaves_iff, pairwise_leaves, css_eq_empty_iff, hform, read?_css settings,
    not_mem_css settings, not_mem_body (by decide), not_mem_body (by decide)⟩

/-- A key that is no name takes everything below it with it, and lists and strings with other signs
declare nothing. -/
theorem css_of_nested_settings :
    let settings := Json.object [("bad key", .object [("a", .int 1)]),
      ("colors", .object [("primary", .string "#ff6600"), ("text", .string "red;\x7d")]),
      ("radius", .int 4), ("sizes", .array [.int 1])]
    settings.Sorted ∧ css settings = ":root\x7b--colors-primary:#ff6600;--radius:4;\x7d" ∧
      (leaves settings).Pairwise fun l m ↦ l.keys < m.keys := by
  intro settings
  have hread : Json.ofText? settings.text = some settings := by decide +kernel
  have hsorted : settings.Sorted := Json.sorted_of_ofText? hread
  exact ⟨hsorted, by decide, (css_declares_leaves settings).2.1 hsorted⟩

end Theme

end Pagesmith
