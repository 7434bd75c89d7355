import Pagesmith.Proofs.Page.ThemeLeaves
import Pagesmith.Proofs.Text.Cutting

/-!
# The rule of a theme

A browser reads a style sheet by its block structure, as `StyleRule.read?` does: a rule is a
selector and a block in braces, the block consists of declarations, and each of them goes up to a
semicolon. None of these marks counts within parentheses. Values may have parentheses, so what a
theme declares does not only depend on the five characters that no value has.

## What a value can do to its neighbours

A value whose parentheses pair off is read as it was written, and so is everything behind it. If
they do not, either one is closed that was never open, or one stays open and takes the semicolon
with it and at least the beginning of the next declaration. In both cases what is read is not what
was declared. So the rule declares its declarations exactly if every value is balanced, and the
values admitted are not all balanced: a single parenthesis is harmless by its characters.
-/

/-! ## Texts with parentheses

Some texts are taken apart by characters that count only outside parentheses. Such a text is read
with the number of parentheses that are open; a closing one where none is open is an error, and so
is the end of the text where some are.

A text is *balanced* (`Balanced`) if its parentheses pair off. Balanced texts are the ones that
reading comes through with no parenthesis open, at any depth, so they can be put in front of
anything and the rest is read as it would be alone. And whatever reading cuts out is balanced. -/

namespace Pagesmith.Text

/-- Whether the parentheses of a text pair off. -/
inductive Balanced : List Char → Prop
  | nil : Balanced []
  | plain {c : Char} {s : List Char} (hopen : c ≠ '(') (hclose : c ≠ ')') (h : Balanced s) :
    Balanced (c :: s)
  | group {s t : List Char} (hs : Balanced s) (ht : Balanced t) :
    Balanced ('(' :: (s ++ ')' :: t))

/-! ### Depth -/

/-- How many parentheses are open behind a character; none may be closed that is not open. -/
def nest? (depth : Nat) (c : Char) : Option Nat :=
  if c = '(' then some (depth + 1)
  else if c = ')' then (if depth = 0 then none else some (depth - 1))
  else some depth

/-- How many parentheses are open behind `s`, when `depth` are open in front. -/
def depthBehind? (depth : Nat) (s : List Char) : Option Nat := s.foldlM nest? depth

theorem nest?_open (depth : Nat) : nest? depth '(' = some (depth + 1) := rfl

theorem nest?_close_succ (depth : Nat) : nest? (depth + 1) ')' = some depth := rfl

theorem nest?_of_ne {c : Char} (hopen : c ≠ '(') (hclose : c ≠ ')') (depth : Nat) :
    nest? depth c = some depth := by
  rw [nest?, if_neg hopen, if_neg hclose]

theorem depthBehind?_cons (depth : Nat) (c : Char) (s : List Char) :
    depthBehind? depth (c :: s) = (nest? depth c).bind (depthBehind? · s) :=
  List.foldlM_cons

theorem depthBehind?_append (depth : Nat) (s t : List Char) :
    depthBehind? depth (s ++ t) = (depthBehind? depth s).bind (depthBehind? · t) :=
  List.foldlM_append

theorem Balanced.depthBehind? {s : List Char} (h : Balanced s) (depth : Nat) :
    depthBehind? depth s = some depth := by
  induction h generalizing depth with
  | nil => rfl
  | plain hopen hclose _ ih =>
    rw [depthBehind?_cons, nest?_of_ne hopen hclose, Option.bind_some, ih]
  | group _ _ ihs iht =>
    rw [depthBehind?_cons, nest?_open, Option.bind_some, depthBehind?_append, ihs, Option.bind_some,
      depthBehind?_cons, nest?_close_succ, Option.bind_some, iht]

/-- Whether a text closes that many parentheses, each behind a balanced text, and is balanced behind
the last of them. -/
def Closes : Nat → List Char → Prop
  | 0, s => Balanced s
  | depth + 1, s => ∃ inner rest, s = inner ++ ')' :: rest ∧ Balanced inner ∧ Closes depth rest

theorem Closes.plain {c : Char} (hopen : c ≠ '(') (hclose : c ≠ ')') {depth : Nat} {s : List Char}
    (h : Closes depth s) : Closes depth (c :: s) := by
  cases depth with
  | zero => exact Balanced.plain hopen hclose h
  | succ depth =>
    obtain ⟨inner, rest, rfl, hinner, hrest⟩ := h
    exact ⟨c :: inner, rest, rfl, .plain hopen hclose hinner, hrest⟩

theorem Closes.opened {depth : Nat} {s : List Char} (h : Closes (depth + 1) s) :
    Closes depth ('(' :: s) := by
  obtain ⟨inner, rest, rfl, hinner, hrest⟩ := h
  cases depth with
  | zero => exact Balanced.group hinner hrest
  | succ depth =>
    obtain ⟨inner', rest', rfl, hinner', hrest'⟩ := hrest
    refine ⟨'(' :: (inner ++ ')' :: inner'), rest', ?_, .group hinner hinner', hrest'⟩
    simp

theorem closes_of_depthBehind? {depth : Nat} {s : List Char} (h : depthBehind? depth s = some 0) :
    Closes depth s := by
  induction s generalizing depth with
  | nil =>
    cases h
    exact .nil
  | cons c s ih =>
    rw [depthBehind?_cons] at h
    obtain ⟨next, hnext, h⟩ := Option.bind_eq_some_iff.mp h
    by_cases hopen : c = '('
    · subst hopen
      cases hnext
      exact (ih h).opened
    · by_cases hclose : c = ')'
      · subst hclose
        cases depth with
        | zero => contradiction
        | succ depth =>
          cases hnext
          exact ⟨[], s, rfl, .nil, ih h⟩
      · rw [nest?_of_ne hopen hclose] at hnext
        cases hnext
        exact (ih h).plain hopen hclose

/-- **Balanced texts** are those that can be read with no parenthesis open before and behind. -/
theorem balanced_iff {s : List Char} : Balanced s ↔ depthBehind? 0 s = some 0 :=
  ⟨fun h ↦ h.depthBehind? 0, closes_of_depthBehind?⟩

instance (s : List Char) : Decidable (Balanced s) := decidable_of_iff _ balanced_iff.symm

theorem balanced_of_not_mem {s : List Char} (hopen : '(' ∉ s) (hclose : ')' ∉ s) : Balanced s := by
  induction s with
  | nil => exact .nil
  | cons c s ih =>
    rw [List.mem_cons, not_or] at hopen hclose
    exact .plain (Ne.symm hopen.1) (Ne.symm hclose.1) (ih hopen.2 hclose.2)

/-- A text in front of which a balanced one stands is balanced if both together are. -/
theorem Balanced.append_iff {s t : List Char} (hs : Balanced s) :
    Balanced (s ++ t) ↔ Balanced t := by
  rw [balanced_iff, balanced_iff, depthBehind?_append, hs.depthBehind?, Option.bind_some]

theorem Balanced.append {s t : List Char} (hs : Balanced s) (ht : Balanced t) : Balanced (s ++ t) :=
  hs.append_iff.mpr ht

theorem balanced_flatMap {α : Type} {f : α → List Char} {xs : List α}
    (h : ∀ x ∈ xs, Balanced (f x)) : Balanced (xs.flatMap f) := by
  induction xs with
  | nil => exact .nil
  | cons x xs ih =>
    rw [List.flatMap_cons]
    exact (h x List.mem_cons_self).append (ih fun y hy ↦ h y (List.mem_cons_of_mem x hy))

/-! ### Cutting outside parentheses -/

/-- Cut a text at the first `mark` outside parentheses: what stands before it and what follows it.
-/
def cutOutside (mark : Char) : (depth : Nat) → List Char → Option (List Char × List Char)
  | _, [] => none
  | depth, c :: s =>
    if depth = 0 ∧ c = mark then some ([], s)
    else do
      let depth ← nest? depth c
      let (before, rest) ← cutOutside mark depth s
      return (c :: before, rest)

/-- Cut a text at every `mark` outside parentheses. -/
def splitOutside (mark : Char) : (depth : Nat) → List Char → Option (List (List Char))
  | depth, [] => if depth = 0 then some [[]] else none
  | depth, c :: s =>
    if depth = 0 ∧ c = mark then (splitOutside mark 0 s).map ([] :: ·)
    else do
      let depth ← nest? depth c
      match ← splitOutside mark depth s with
      | [] => none
      | piece :: pieces => return (c :: piece) :: pieces

variable {mark : Char}

theorem cutOutside_append {depth : Nat} {front : List Char}
    (hfront : depthBehind? depth front = some 0) (hmark : mark ∉ front) (rest : List Char) :
    cutOutside mark depth (front ++ mark :: rest) = some (front, rest) := by
  induction front generalizing depth with
  | nil =>
    cases hfront
    rw [List.nil_append, cutOutside, if_pos ⟨rfl, rfl⟩]
  | cons c front ih =>
    rw [List.mem_cons, not_or] at hmark
    rw [depthBehind?_cons] at hfront
    obtain ⟨next, hnext, hfront⟩ := Option.bind_eq_some_iff.mp hfront
    rw [List.cons_append, cutOutside, if_neg fun h ↦ hmark.1 h.2.symm, hnext, Option.bind_eq_bind,
      Option.bind_some, ih hfront hmark.2]
    rfl

theorem splitOutside_append {depth : Nat} {front : List Char}
    (hfront : depthBehind? depth front = some 0) (hmark : mark ∉ front) (rest : List Char) :
    splitOutside mark depth (front ++ mark :: rest) =
      (splitOutside mark 0 rest).map (front :: ·) := by
  induction front generalizing depth with
  | nil =>
    cases hfront
    rw [List.nil_append, splitOutside, if_pos ⟨rfl, rfl⟩]
  | cons c front ih =>
    rw [List.mem_cons, not_or] at hmark
    rw [depthBehind?_cons] at hfront
    obtain ⟨next, hnext, hfront⟩ := Option.bind_eq_some_iff.mp hfront
    rw [List.cons_append, splitOutside, if_neg fun h ↦ hmark.1 h.2.symm, hnext, Option.bind_eq_bind,
      Option.bind_some, ih hfront hmark.2]
    cases splitOutside mark 0 rest <;> rfl

/-- Balanced texts that each end in the mark are cut apart, whatever follows them. -/
theorem splitOutside_terminated {pieces : List (List Char)}
    (h : ∀ piece ∈ pieces, Balanced piece ∧ mark ∉ piece) (rest : List Char) :
    splitOutside mark 0 (pieces.flatMap (· ++ [mark]) ++ rest) =
      (splitOutside mark 0 rest).map (pieces ++ ·) := by
  induction pieces with
  | nil =>
    rw [List.flatMap_nil, List.nil_append]
    exact Option.map_id'.symm
  | cons piece pieces ih =>
    obtain ⟨hbalanced, hmark⟩ := h piece List.mem_cons_self
    rw [List.flatMap_cons, List.append_assoc, List.append_assoc, List.singleton_append,
      splitOutside_append (hbalanced.depthBehind? 0) hmark,
      ih fun p hp ↦ h p (List.mem_cons_of_mem piece hp), Option.map_map]
    rfl

/-- What is cut out is balanced, but for the parentheses open at the beginning. -/
theorem balanced_of_splitOutside {depth : Nat} {s : List Char} {pieces : List (List Char)}
    (h : splitOutside mark depth s = some pieces) :
    ∃ first others, pieces = first :: others ∧ depthBehind? depth first = some 0 ∧
      ∀ piece ∈ others, Balanced piece := by
  induction s generalizing depth pieces with
  | nil =>
    obtain ⟨rfl, h⟩ := Option.ite_none_right_eq_some.mp h
    cases h
    exact ⟨[], [], rfl, rfl, fun _ h ↦ absurd h List.not_mem_nil⟩
  | cons c s ih =>
    rw [splitOutside] at h
    split at h
    · next hcut =>
      obtain ⟨others, hothers, rfl⟩ := Option.map_eq_some_iff.mp h
      obtain ⟨first, rest, rfl, hfirst, hrest⟩ := ih hothers
      refine ⟨[], first :: rest, rfl, ?_, ?_⟩
      · rw [hcut.1]
        rfl
      · exact List.forall_mem_cons.mpr ⟨balanced_iff.mpr hfirst, hrest⟩
    · obtain ⟨next, hnext, h⟩ := Option.bind_eq_some_iff.mp h
      obtain ⟨inner, hinner, h⟩ := Option.bind_eq_some_iff.mp h
      obtain ⟨first, others, rfl, hfirst, hothers⟩ := ih hinner
      cases h
      refine ⟨c :: first, others, rfl, ?_, hothers⟩
      rw [depthBehind?_cons, hnext, Option.bind_some, hfirst]

theorem forall_balanced_of_splitOutside {s : List Char} {pieces : List (List Char)}
    (h : splitOutside mark 0 s = some pieces) : ∀ piece ∈ pieces, Balanced piece := by
  obtain ⟨first, others, rfl, hfirst, hothers⟩ := balanced_of_splitOutside h
  exact List.forall_mem_cons.mpr ⟨balanced_iff.mpr hfirst, hothers⟩

end Pagesmith.Text

/-! ## Rules -/

namespace Pagesmith

/-! ### Reading by block structure -/

/-- A rule of a style sheet. -/
structure StyleRule where
  selector : String
  declarations : List Declaration
deriving DecidableEq, Repr

namespace StyleRule

/-- The rule a text begins with, and what follows it. The block goes from the first opening brace to
the next closing one, and is cut at the semicolons; none of these count within parentheses. All
pieces that are not empty are declarations. -/
def read? (s : List Char) : Option (StyleRule × List Char) := do
  let (selector, s) ← Text.cutOutside '{' 0 s
  let (block, rest) ← Text.cutOutside '}' 0 s
  let pieces ← Text.splitOutside ';' 0 block
  let ds ← (pieces.filter fun piece ↦ !piece.isEmpty).mapM Declaration.ofPiece?
  return (⟨String.ofList selector, ds⟩, rest)

/-- The rule that a style sheet consists of, if it is one complete rule and nothing else. -/
def ofSheet? (css : String) : Option StyleRule := do
  let (rule, rest) ← read? css.toList
  if rest = [] then some rule else none

end StyleRule

namespace Declaration

theorem piece_of_ofPiece? {p : List Char} {d : Declaration} (h : ofPiece? p = some d) :
    d.piece = p := by
  obtain ⟨s, hs, h⟩ := Option.bind_eq_some_iff.mp h
  obtain ⟨⟨name, value⟩, hcut, h⟩ := Option.bind_eq_some_iff.mp h
  cases h
  rw [Text.dropMark?_eq_some_iff.mp hs, Text.eq_of_cut_eq_some hcut, piece, String.toList_ofList,
    String.toList_ofList]
  simp

theorem map_piece_of_mapM_ofPiece? {pieces : List (List Char)} {ds : List Declaration}
    (h : pieces.mapM ofPiece? = some ds) : ds.map piece = pieces := by
  induction pieces generalizing ds with
  | nil =>
    cases h
    rfl
  | cons p pieces ih =>
    rw [List.mapM_cons] at h
    obtain ⟨d, hd, h⟩ := Option.bind_eq_some_iff.mp h
    obtain ⟨rest, hrest, h⟩ := Option.bind_eq_some_iff.mp h
    cases h
    rw [List.map_cons, piece_of_ofPiece? hd, ih hrest]

end Declaration

namespace StyleRule

/-- **Declarations that are read are balanced**, whatever the text they are read from. -/
theorem balanced_of_read? {s rest : List Char} {rule : StyleRule}
    (h : read? s = some (rule, rest)) : ∀ d ∈ rule.declarations, Text.Balanced d.piece := by
  obtain ⟨⟨selector, t⟩, -, h⟩ := Option.bind_eq_some_iff.mp h
  obtain ⟨⟨block, u⟩, -, h⟩ := Option.bind_eq_some_iff.mp h
  obtain ⟨pieces, hpieces, h⟩ := Option.bind_eq_some_iff.mp h
  obtain ⟨ds, hds, h⟩ := Option.bind_eq_some_iff.mp h
  cases h
  intro d hd
  have hmem : d.piece ∈ pieces.filter fun piece ↦ !piece.isEmpty := by
    rw [← Declaration.map_piece_of_mapM_ofPiece? hds]
    exact List.mem_map_of_mem hd
  exact Text.forall_balanced_of_splitOutside hpieces _ (List.mem_of_mem_filter hmem)

theorem read?_of_ofSheet? {css : String} {rule : StyleRule} (h : ofSheet? css = some rule) :
    read? css.toList = some (rule, []) := by
  obtain ⟨⟨r, rest⟩, hread, h⟩ := Option.bind_eq_some_iff.mp h
  obtain ⟨hrest, h⟩ := Option.ite_none_right_eq_some.mp h
  cases h
  rw [hread, hrest]

end StyleRule

/-! ### The rule of a theme -/

namespace Theme

theorem balanced_of_all {p : Char → Bool} {s : List Char} (hs : s.all p = true)
    (hopen : p '(' = false) (hclose : p ')' = false) : Text.Balanced s := by
  rw [List.all_eq_true] at hs
  refine Text.balanced_of_not_mem (fun h ↦ ?_) fun h ↦ ?_
  · rw [hs _ h] at hopen
    contradiction
  · rw [hs _ h] at hclose
    contradiction

variable {settings : Json}

/-- What a leaf declares is balanced if its value is. -/
theorem Leaf.AdmissibleIn.balanced_piece_iff {l : Leaf} (hl : l.AdmissibleIn settings) :
    Text.Balanced l.declaration.piece ↔ Text.Balanced l.value.toList := by
  have hname : Text.Balanced ("-".intercalate l.keys).toList :=
    balanced_of_all (all_isNameChar_intercalate (areNames_iff.mpr hl.isKey)) rfl rfl
  have hhyphens : Text.Balanced ['-', '-'] := by decide
  have hcolon : Text.Balanced [':'] := by decide
  have hpiece : l.declaration.piece =
      ['-', '-'] ++ (("-".intercalate l.keys).toList ++ ([':'] ++ l.value.toList)) := rfl
  rw [hpiece, hhyphens.append_iff, hname.append_iff, hcolon.append_iff]

theorem forall_balanced_iff :
    (∀ d ∈ declarations settings, Text.Balanced d.piece) ↔
      ∀ l : Leaf, l.AdmissibleIn settings → Text.Balanced l.value.toList := by
  rw [declarations_eq, List.forall_mem_map]
  refine forall_congr' fun l ↦ ?_
  rw [mem_leaves_iff]
  exact forall_congr' fun hl ↦ hl.balanced_piece_iff

/-- The rule that makes balanced declarations is read as that rule. -/
theorem ofSheet?_rule {ds : List Declaration} (h : ∀ d ∈ ds, d.Unmarked)
    (hbalanced : ∀ d ∈ ds, Text.Balanced d.piece) :
    StyleRule.ofSheet? (":root\x7b" ++ String.join (ds.map Declaration.text) ++ "\x7d") =
      some ⟨":root", ds⟩ := by
  have hpieces : ∀ p ∈ ds.map Declaration.piece, Text.Balanced p ∧ ';' ∉ p := fun p hp ↦
    ⟨List.forall_mem_map.mpr hbalanced p hp, not_mem_of_mem_pieces h (by decide) (by decide) p hp⟩
  have hblock : Text.Balanced ((ds.map Declaration.piece).flatMap (· ++ [';'])) :=
    Text.balanced_flatMap fun p hp ↦ (hpieces p hp).1.append (by decide)
  have hclose : '}' ∉ (ds.map Declaration.piece).flatMap (· ++ [';']) := by
    rw [← toList_join_text]
    exact not_mem_join_text h (by decide)
  have hsplit : Text.splitOutside ';' 0 ((ds.map Declaration.piece).flatMap (· ++ [';'])) =
      some (ds.map Declaration.piece ++ [[]]) := by
    have hterminated := Text.splitOutside_terminated hpieces []
    rwa [List.append_nil] at hterminated
  have hread : StyleRule.read?
      (":root\x7b" ++ String.join (ds.map Declaration.text) ++ "\x7d").toList =
        some (⟨":root", ds⟩, []) := by
    rw [StyleRule.read?, toList_rule, Text.cutOutside_append (by decide) (by decide)]
    simp only [Option.bind_eq_bind, Option.bind_some,
      Text.cutOutside_append (hblock.depthBehind? 0) hclose, hsplit]
    rw [List.filter_append, List.filter_eq_self.mpr (not_isEmpty_of_mem_pieces ds),
      List.filter_cons_of_neg (by decide), List.filter_nil, List.append_nil,
      mapM_ofPiece?_piece h]
    rfl
  rw [StyleRule.ofSheet?, hread]
  rfl

/-- **When a theme's rule is what it declares.** There is no style sheet if nothing is declared. If
something is, the style sheet is one complete rule for `:root` with exactly the declarations of the
theme, in order, if and only if the parentheses of every value that is declared pair off. -/
theorem rule_declares_iff_balanced (settings : Json) :
    (css settings = "" ↔ declarations settings = []) ∧
      (StyleRule.ofSheet? (css settings) = some ⟨":root", declarations settings⟩ ↔
        declarations settings ≠ [] ∧
          ∀ l : Leaf, l.AdmissibleIn settings → Text.Balanced l.value.toList) := by
  rw [← forall_balanced_iff, css]
  cases hds : declarations settings with
  | nil =>
    have hnone : StyleRule.ofSheet? "" = none := rfl
    refine ⟨⟨fun _ ↦ rfl, fun _ ↦ rfl⟩, fun h ↦ ?_, fun h ↦ absurd rfl h.1⟩
    exact absurd (hnone.symm.trans h) (Option.some_ne_none _).symm
  | cons d ds =>
    refine ⟨⟨fun h ↦ ?_, fun h ↦ absurd h (List.cons_ne_nil d ds)⟩,
      ⟨fun h ↦ ⟨List.cons_ne_nil d ds, ?_⟩, fun h ↦ ?_⟩⟩
    · simp at h
    · exact StyleRule.balanced_of_read? (StyleRule.read?_of_ofSheet? h)
    · refine ofSheet?_rule ?_ h.2
      rw [← hds]
      exact unmarked_declarations

/-- Parentheses that pair off do no harm. -/
example :
    StyleRule.ofSheet? (css (.object [("a", .string "rgb(1, 2, 3)"), ("b", .int 1)])) =
      some ⟨":root", [⟨"a", "rgb(1, 2, 3)"⟩, ⟨"b", "1"⟩]⟩ := by
  decide

/-- A value with an open parenthesis takes along what follows it: the rule that is written here is
never closed. -/
theorem not_forall_rule_declares :
    ¬∀ settings : Json, declarations settings ≠ [] →
      StyleRule.ofSheet? (css settings) = some ⟨":root", declarations settings⟩ := by
  intro h
  have hrule := h (.object [("a", .string "("), ("b", .int 1)]) (by decide)
  exact absurd hrule (by decide)

end Theme

end Pagesmith
