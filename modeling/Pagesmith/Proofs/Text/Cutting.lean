import Mathlib.Data.List.Infix
import Mathlib.Data.List.TakeWhile
import Pagesmith.Text.Words

/-!
# Where a text is cut

`Text.cut` finds the first occurrence of a mark. First means that the text in front of the cut,
together with the mark but for its last character, does not hold the mark: an occurrence that begins
earlier would lie within it. For the two marks of a template, which are one character twice, this
says that the text in front neither holds the mark nor ends in its character.

Splitting into words leaves a text without blanks alone, and takes words apart again that were
joined by a character or each closed by one.
-/

namespace Pagesmith.Text

/-! ## Marks at the front -/

@[simp] theorem dropMark?_append (mark rest : List Char) :
    dropMark? mark (mark ++ rest) = some rest := by
  induction mark with
  | nil => rfl
  | cons m mark ih => rw [List.cons_append, dropMark?, if_pos rfl, ih]

theorem dropMark?_eq_some_iff {mark s rest : List Char} :
    dropMark? mark s = some rest ↔ s = mark ++ rest := by
  constructor
  · exact eq_of_dropMark?_eq_some
  · rintro rfl
    exact dropMark?_append mark rest

theorem dropMark?_eq_none_iff {mark s : List Char} : dropMark? mark s = none ↔ ¬mark <+: s := by
  rw [Option.eq_none_iff_forall_ne_some]
  constructor
  · rintro h ⟨rest, rfl⟩
    exact h rest (dropMark?_eq_some_iff.mpr rfl)
  · intro h rest hrest
    exact h ⟨rest, (dropMark?_eq_some_iff.mp hrest).symm⟩

/-! ## The first occurrence -/

/-- There is nothing to cut exactly in a text that does not hold the mark. -/
theorem cut_eq_none_iff {mark s : List Char} (hm : mark ≠ []) :
    cut mark s = none ↔ ¬mark <:+: s := by
  induction s with
  | nil => simp [cut, hm]
  | cons c s ih =>
    rw [cut, List.infix_cons_iff, not_or, ← dropMark?_eq_none_iff, ← ih]
    cases dropMark? mark (c :: s) <;> simp

/-- A mark that begins in front of a cut shows in the text up to the last character of the mark. -/
private theorem isPrefix_append_dropLast {mark front rest : List Char} {c : Char}
    (h : mark <+: c :: front ++ mark ++ rest) : mark <+: c :: front ++ mark.dropLast := by
  refine List.prefix_of_prefix_length_le h ?_ ?_
  · rw [List.append_assoc (c :: front), List.prefix_append_right_inj]
    exact (List.dropLast_prefix mark).trans (List.prefix_append mark rest)
  · rw [List.length_append, List.length_cons, List.length_dropLast]
    omega

theorem cut_append_of_first {mark front : List Char} (hm : mark ≠ []) (rest : List Char)
    (h : ¬mark <:+: front ++ mark.dropLast) :
    cut mark (front ++ mark ++ rest) = some (front, rest) := by
  induction front with
  | nil =>
    cases mark with
    | nil => exact absurd rfl hm
    | cons m mark =>
      rw [List.nil_append, List.cons_append, cut, ← List.cons_append, dropMark?_append]
  | cons c front ih =>
    rw [List.cons_append, List.infix_cons_iff, not_or] at h
    have hnone : dropMark? mark (c :: (front ++ mark ++ rest)) = none :=
      dropMark?_eq_none_iff.mpr fun hp ↦ h.1 (isPrefix_append_dropLast hp)
    rw [List.cons_append, List.cons_append, cut, hnone]
    simp only [ih h.2, Option.map_some]

theorem not_infix_of_cut_eq_some {mark s front rest : List Char} (hm : mark ≠ [])
    (h : cut mark s = some (front, rest)) : ¬mark <:+: front ++ mark.dropLast := by
  induction s generalizing front with
  | nil => simp [cut] at h
  | cons c s ih =>
    rw [cut] at h
    cases hd : dropMark? mark (c :: s) with
    | some r =>
      obtain ⟨rfl, -⟩ : [] = front ∧ r = rest := by simpa [hd] using h
      -- the mark itself is too long to lie within all of it but its last character
      intro hin
      have hlen := hin.length_le
      have hpos := List.length_pos_iff.mpr hm
      rw [List.nil_append, List.length_dropLast] at hlen
      omega
    | none =>
      obtain ⟨⟨f, r⟩, hf, heq⟩ : ∃ a, cut mark s = some a ∧ (c :: a.1, a.2) = (front, rest) := by
        simpa [hd] using h
      obtain ⟨rfl, rfl⟩ : c :: f = front ∧ r = rest := by simpa using heq
      rw [List.cons_append, List.infix_cons_iff, not_or]
      refine ⟨fun hp ↦ dropMark?_eq_none_iff.mp hd (hp.trans ?_), ih hf⟩
      rw [eq_of_cut_eq_some hf, List.append_assoc, ← List.cons_append, ← List.cons_append,
        List.prefix_append_right_inj]
      exact (List.dropLast_prefix mark).trans (List.prefix_append mark r)

/-- **The first occurrence.** A text is cut into what stands in front of a mark and what follows it,
at the one place where no occurrence begins earlier. -/
theorem cut_eq_some_iff {mark s front rest : List Char} (hm : mark ≠ []) :
    cut mark s = some (front, rest) ↔
      s = front ++ mark ++ rest ∧ ¬mark <:+: front ++ mark.dropLast := by
  constructor
  · exact fun h ↦ ⟨eq_of_cut_eq_some h, not_infix_of_cut_eq_some hm h⟩
  · rintro ⟨rfl, h⟩
    exact cut_append_of_first hm rest h

/-- A single character is found behind a text that does not hold it. -/
theorem cut_singleton_append {c : Char} {front : List Char} (h : c ∉ front) (rest : List Char) :
    cut [c] (front ++ c :: rest) = some (front, rest) := by
  refine (cut_eq_some_iff (List.cons_ne_nil c [])).mpr ⟨?_, ?_⟩
  · rw [List.append_assoc, List.singleton_append]
  · rwa [List.dropLast_singleton, List.append_nil, List.singleton_infix_iff]

/-! ## Doubled characters -/

/-- Whether `s` may stand in front of a doubled `c`: it neither holds `c` twice in a row nor ends in
it. -/
def ClearOf (c : Char) (s : List Char) : Prop := ¬[c, c] <:+: s ∧ s.getLast? ≠ some c

instance (c : Char) (s : List Char) : Decidable (ClearOf c s) :=
  inferInstanceAs (Decidable (_ ∧ _))

theorem not_infix_concat_iff {c : Char} {s : List Char} :
    ¬[c, c] <:+: s ++ [c] ↔ ClearOf c s := by
  have hsuffix : [c, c] <:+ s ++ [c] ↔ s.getLast? = some c := by
    rw [List.suffix_concat_iff, ← List.singleton_suffix_iff_getLast?_eq_some]
    constructor
    · rintro (h | ⟨t, ht, hs⟩)
      · exact absurd h (by simp)
      · obtain rfl : [c] = t := List.append_cancel_right (show [c] ++ [c] = t ++ [c] from ht)
        exact hs
    · exact fun h ↦ Or.inr ⟨[c], rfl, h⟩
  rw [List.infix_concat_iff, hsuffix, not_or, and_comm, ClearOf]

theorem cut_pair_eq_some_iff {c : Char} {s front rest : List Char} :
    cut [c, c] s = some (front, rest) ↔ s = front ++ [c, c] ++ rest ∧ ClearOf c front := by
  rw [cut_eq_some_iff (by simp), ← not_infix_concat_iff]
  rfl

theorem cut_pair_eq_none_iff {c : Char} {s : List Char} : cut [c, c] s = none ↔ ¬[c, c] <:+: s :=
  cut_eq_none_iff (by simp)

/-- What a text is followed by may be cut apart from it, unless a doubled character begins in the
one and ends in the other. -/
theorem cut_pair_append {c : Char} {s t : List Char} (hs : ¬[c, c] <:+: s)
    (hseam : s.getLast? = some c → t.head? ≠ some c) :
    cut [c, c] (s ++ t) = (cut [c, c] t).map fun (before, rest) ↦ (s ++ before, rest) := by
  induction s with
  | nil =>
    rw [List.nil_append]
    cases cut [c, c] t <;> rfl
  | cons d s ih =>
    rw [List.infix_cons_iff, not_or] at hs
    have hnone : dropMark? [c, c] (d :: (s ++ t)) = none := by
      rw [dropMark?_eq_none_iff]
      cases s with
      | nil =>
        -- the two characters would be the last of one text and the first of the other
        intro hpair
        obtain ⟨rfl, hhead⟩ : c = d ∧ [c] <+: t := by simpa using hpair
        obtain ⟨rest, rfl⟩ := hhead
        exact hseam rfl rfl
      | cons e s =>
        intro hpair
        have hlen : [c, c].length ≤ (d :: e :: s).length := by simp
        exact hs.1 (List.prefix_of_prefix_length_le hpair (List.prefix_append (d :: e :: s) t) hlen)
    have hseam' : s.getLast? = some c → t.head? ≠ some c := by
      intro hlast
      refine hseam ?_
      rw [List.getLast?_cons, hlast]
      rfl
    rw [List.cons_append, cut, hnone]
    simp only [ih hs.2 hseam', Option.map_map]
    rfl

theorem clearOf_of_not_mem {c : Char} {s : List Char} (h : c ∉ s) : ClearOf c s :=
  ⟨fun hin ↦ h (hin.subset List.mem_cons_self), fun hlast ↦ h (List.mem_of_getLast? hlast)⟩

/-! ## Splitting and words -/

theorem splitWhere_eq_splitOnP {α : Type} (p : α → Bool) (s : List α) :
    splitWhere p s = s.splitOnP p := by
  induction s with
  | nil => rfl
  | cons c s ih =>
    rw [splitWhere, List.splitOnP_cons_eq_if_modifyHead, ← ih]
    cases h : splitWhere p s with
    | nil => exact absurd h (splitWhere_ne_nil p s)
    | cons w ws => rfl

/-- Words joined by a character that none of them has come apart again. -/
theorem splitWhere_intercalate {c : Char} {ws : List (List Char)} (hne : ws ≠ [])
    (h : ∀ w ∈ ws, c ∉ w) : splitWhere (· == c) ([c].intercalate ws) = ws := by
  rw [splitWhere_eq_splitOnP, ← List.splitOn_eq_splitOnP, List.splitOn_intercalate c h hne]

/-- Words that each end in a character that none of them has come apart again, with nothing behind
the last of these characters. -/
theorem splitWhere_terminated {c : Char} {ws : List (List Char)} (h : ∀ w ∈ ws, c ∉ w) :
    splitWhere (· == c) (ws.flatMap (· ++ [c])) = ws ++ [[]] := by
  induction ws with
  | nil => rfl
  | cons w ws ih =>
    have hw : ∀ d ∈ w, (d == c) = false := by
      intro d hd
      rw [beq_eq_false_iff_ne]
      rintro rfl
      exact h w List.mem_cons_self hd
    rw [List.flatMap_cons, List.append_assoc, List.singleton_append, splitWhere_eq_splitOnP,
      List.splitOnP_append_cons_of_forall_mem (p := (· == c)) hw c (beq_self_eq_true c),
      ← splitWhere_eq_splitOnP, ih fun w hw ↦ h w (List.mem_cons_of_mem _ hw), List.cons_append]

/-- Text without white space. -/
def Solid (s : List Char) : Prop := ∀ c ∈ s, isBlank c = false

instance (s : List Char) : Decidable (Solid s) := List.decidableBAll _ s

theorem words_of_solid {s : List Char} (hne : s ≠ []) (h : Solid s) : words s = [s] := by
  rw [words, splitWhere_eq_splitOnP, List.splitOnP_eq_singleton h,
    List.filter_cons_of_pos (by simpa using hne), List.filter_nil]

/-- A word in front of a blank is the first word. -/
theorem words_append_blank {w s : List Char} {b : Char} (hne : w ≠ []) (hw : Solid w)
    (hb : isBlank b = true) : words (w ++ b :: s) = w :: words s := by
  rw [words, splitWhere_eq_splitOnP, List.splitOnP_append_cons_of_forall_mem hw b hb,
    List.filter_cons_of_pos (by simpa using hne), words, splitWhere_eq_splitOnP]

/-! ## Trimming -/

/-- Trimming leaves nothing of a text of white space only, and something of any other. -/
theorem trim_eq_nil_iff {s : List Char} : trim s = [] ↔ ∀ c ∈ s, isBlank c = true := by
  rw [trim, trimEnd, List.reverse_eq_nil_iff, List.dropWhile_eq_nil_iff]
  constructor
  · intro h c hc
    rw [← List.takeWhile_append_dropWhile (p := isBlank) (l := s), List.mem_append] at hc
    rcases hc with hc | hc
    · exact List.mem_takeWhile_imp hc
    · exact h c (List.mem_reverse.mpr hc)
  · intro h c hc
    exact h c ((List.dropWhile_sublist _).subset (List.mem_reverse.mp hc))

end Pagesmith.Text
