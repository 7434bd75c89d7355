import Mathlib.Data.List.DropRight
import Pagesmith.Proofs.Text.Cutting
import Pagesmith.Text.Words

/-!
# Blanks around words, and numerals

What `trim` takes away and what separates `words` are runs of white space, so a text can be put back
together from its words or from what trimming leaves, if the runs are known. Both directions are
here: what is left of a text with blanks around it, and how a text looks of which something is left.
-/

namespace Pagesmith.Text

/-- White space only, or nothing at all. -/
def AllBlank (s : List Char) : Prop := ∀ c ∈ s, isBlank c = true

instance (s : List Char) : Decidable (AllBlank s) := List.decidableBAll _ s

variable {s gap before after w : List Char}

theorem allBlank_nil : AllBlank [] := fun _ hc ↦ absurd hc List.not_mem_nil

theorem AllBlank.append (h : AllBlank gap) (h' : AllBlank after) : AllBlank (gap ++ after) := by
  intro c hc
  rcases List.mem_append.mp hc with hc | hc
  · exact h c hc
  · exact h' c hc

/-! ## Trimming -/

/-- Whether neither end of a text is white space. -/
structure Trimmed (s : List Char) : Prop where
  head : ∀ c ∈ s.head?, isBlank c = false
  last : ∀ c ∈ s.getLast?, isBlank c = false

theorem Solid.trimmed (h : Solid s) : Trimmed s :=
  ⟨fun c hc ↦ h c (List.mem_of_head? hc), fun c hc ↦ h c (List.mem_of_getLast? hc)⟩

/-- What ends in a word ends in no white space. -/
theorem Solid.trimmed_cons_append (h : Solid w) (hne : w ≠ []) {c : Char} (hc : isBlank c = false)
    (s : List Char) : Trimmed (c :: (s ++ w)) := by
  refine ⟨?_, ?_⟩
  · intro b hb
    obtain rfl : c = b := Option.some.inj hb
    exact hc
  · rw [← List.cons_append, List.getLast?_append_of_ne_nil _ hne]
    exact h.trimmed.last

/-- Trimming takes white space away from both ends of a text. -/
theorem trim_append (hbefore : AllBlank before) (hafter : AllBlank after) (hs : Trimmed s)
    (hne : s ≠ []) : trim (before ++ (s ++ after)) = s := by
  have hstart : trimStart (before ++ (s ++ after)) = s ++ after := by
    obtain ⟨c, t, rfl⟩ := List.exists_cons_of_ne_nil hne
    rw [trimStart, List.dropWhile_append_of_pos hbefore, List.cons_append, List.dropWhile_cons,
      hs.head c rfl, if_neg Bool.false_ne_true]
  have hend : trimEnd (s ++ after) = trimEnd s := by
    have hafter' : ∀ c ∈ after.reverse, isBlank c = true := fun c hc ↦
      hafter c (List.mem_reverse.mp hc)
    rw [trimEnd, trimEnd, List.reverse_append, List.dropWhile_append_of_pos hafter']
  have hself : trimEnd s = s := List.rdropWhile_eq_self_iff.mpr fun hl ↦ by
    rw [hs.last _ (List.getLast?_eq_getLast_of_ne_nil hl)]
    exact Bool.false_ne_true
  rw [trim, hstart, hend, hself]

/-- What trimming leaves stands in the text with white space around it. -/
theorem exists_eq_append_trim (s : List Char) :
    ∃ before after, AllBlank before ∧ AllBlank after ∧ s = before ++ (trim s ++ after) := by
  refine ⟨s.takeWhile isBlank, (trimStart s).rtakeWhile isBlank, ?_, ?_, ?_⟩
  · exact fun c hc ↦ List.mem_takeWhile_imp hc
  · exact fun c hc ↦ List.mem_rtakeWhile_imp hc
  · have hend : trim s ++ (trimStart s).rtakeWhile isBlank = trimStart s :=
      List.rdropWhile_append_rtakeWhile
    rw [hend, trimStart, List.takeWhile_append_dropWhile]

/-! ## Words -/

theorem words_cons_blank {b : Char} (hb : isBlank b = true) (s : List Char) :
    words (b :: s) = words s := by
  rw [words, splitWhere, if_pos hb, List.filter_cons_of_neg (by simp), ← words]

theorem words_append_of_allBlank (hgap : AllBlank gap) (s : List Char) :
    words (gap ++ s) = words s := by
  induction gap with
  | nil => rfl
  | cons b gap ih =>
    have hrest : AllBlank gap := fun c hc ↦ hgap c (List.mem_cons_of_mem b hc)
    rw [List.cons_append, words_cons_blank (hgap b List.mem_cons_self), ih hrest]

/-- How the words of a text begin: there is none, or there is a first one, which ends where the text
ends or at white space. -/
inductive FirstWord (s : List Char) : Prop
  | none (hs : AllBlank s) (hwords : words s = [])
  | some {gap w rest : List Char} (hgap : AllBlank gap) (hne : w ≠ []) (hw : Solid w)
    (hrest : ∀ c ∈ rest.head?, isBlank c = true) (hs : s = gap ++ (w ++ rest))
    (hwords : words s = w :: words rest)

/-- A word ends where the text ends or at white space. -/
theorem words_append_of_head (hw : Solid w) (hne : w ≠ []) {rest : List Char}
    (hrest : ∀ c ∈ rest.head?, isBlank c = true) : words (w ++ rest) = w :: words rest := by
  cases rest with
  | nil => rw [List.append_nil, words_of_solid hne hw]; rfl
  | cons b rest =>
    have hb : isBlank b = true := hrest b rfl
    rw [words_append_blank hne hw hb, words_cons_blank hb]

theorem firstWord (s : List Char) : FirstWord s := by
  have hgap : AllBlank (s.takeWhile isBlank) := fun c hc ↦ List.mem_takeWhile_imp hc
  have hsplit := List.takeWhile_append_dropWhile (p := isBlank) (l := s)
  have hhead := List.head?_dropWhile_not isBlank s
  generalize s.takeWhile isBlank = gap at hgap hsplit
  generalize s.dropWhile isBlank = t at hsplit hhead
  rw [← hsplit]
  cases t with
  | nil =>
    have hwords : words gap = [] := by
      rw [← List.append_nil gap, words_append_of_allBlank hgap]
      rfl
    rw [List.append_nil]
    exact .none hgap hwords
  | cons c t =>
    have hsplit' := List.takeWhile_append_dropWhile (p := (!isBlank ·)) (l := c :: t)
    have hne : (c :: t).takeWhile (!isBlank ·) ≠ [] := by
      rw [List.takeWhile_cons, if_pos (by simpa using hhead)]
      exact List.cons_ne_nil _ _
    have hw : Solid ((c :: t).takeWhile (!isBlank ·)) := fun b hb ↦ by
      simpa using List.mem_takeWhile_imp hb
    have hrest : ∀ b ∈ ((c :: t).dropWhile (!isBlank ·)).head?, isBlank b = true := by
      intro b hb
      have hstop := List.head?_dropWhile_not (!isBlank ·) (c :: t)
      rw [hb] at hstop
      simpa using hstop
    refine .some hgap hne hw hrest (by rw [hsplit']) ?_
    rw [words_append_of_allBlank hgap, ← words_append_of_head hw hne hrest, hsplit']

theorem exists_of_words_eq_pair {v : List Char} (h : words s = [w, v]) :
    ∃ gap between after, AllBlank gap ∧ AllBlank between ∧ between ≠ [] ∧ AllBlank after ∧
      s = gap ++ (w ++ (between ++ (v ++ after))) := by
  obtain ⟨-, hnone⟩ | @⟨gap, w', rest, hgap, -, -, hrest, rfl, hwords⟩ := firstWord s
  · rw [hnone] at h
    contradiction
  rw [hwords, List.cons.injEq] at h
  obtain ⟨rfl, h⟩ := h
  obtain ⟨-, hnone⟩ | @⟨between, v', after, hbetween, hne, hv, -, rfl, hwords'⟩ := firstWord rest
  · rw [hnone] at h
    contradiction
  rw [hwords', List.cons.injEq] at h
  obtain ⟨rfl, h⟩ := h
  obtain ⟨hafter, -⟩ | @⟨_, _, _, _, _, _, _, _, hwords''⟩ := firstWord after
  · refine ⟨gap, between, after, hgap, hbetween, ?_, hafter, rfl⟩
    -- else the two words would be one
    rintro rfl
    obtain ⟨c, t, rfl⟩ := List.exists_cons_of_ne_nil hne
    have hc := hrest c rfl
    rw [hv c List.mem_cons_self] at hc
    contradiction
  · rw [hwords''] at h
    contradiction

theorem words_pair {between v : List Char} (hgap : AllBlank gap) (hw : Solid w) (hwne : w ≠ [])
    (hbetween : AllBlank between) (hne : between ≠ []) (hv : Solid v) (hvne : v ≠ []) :
    words (gap ++ (w ++ (between ++ v))) = [w, v] := by
  have hrest : ∀ c ∈ (between ++ v).head?, isBlank c = true := by
    rw [List.head?_append_of_ne_nil _ hne]
    exact fun c hc ↦ hbetween c (List.mem_of_head? hc)
  rw [words_append_of_allBlank hgap, words_append_of_head hw hwne hrest,
    words_append_of_allBlank hbetween, words_of_solid hvne hv]

end Pagesmith.Text

/-! ## Numerals and their values

A numeral is read digit by digit, and the reading ends where the value passes the limit. Since
further digits make a number no smaller, this comes to the same as taking the numeral as a whole
(`Denotes`): it is one or more digits, with or without a plus sign in front, and its value is within
the limit. How many zeros there are in front makes no difference. -/

namespace Pagesmith.Text

/-! ### Digits -/

theorem digit?_of_isDigit {c : Char} (h : c.isDigit = true) :
    digit? c = some (c.toNat - '0'.toNat) := by
  rw [digit?, if_pos]
  exact Char.isDigit_iff_toNat.mp h

theorem digit?_of_not_isDigit {c : Char} (h : ¬c.isDigit = true) : digit? c = none := by
  rw [digit?, if_neg]
  exact mt Char.isDigit_iff_toNat.mpr h

theorem isBlank_of_isDigit {c : Char} (h : c.isDigit = true) : isBlank c = false := by
  have hbounds : 48 ≤ c.toNat ∧ c.toNat ≤ 57 := Char.isDigit_iff_toNat.mp h
  simp [isBlank]
  omega

/-- Further digits make a number no smaller. -/
theorem le_ofDigitChars (digits : List Char) (value : Nat) :
    value ≤ Nat.ofDigitChars 10 digits value := by
  induction digits generalizing value with
  | nil => exact Nat.le_refl _
  | cons c digits ih =>
    rw [Nat.ofDigitChars_cons]
    exact Nat.le_trans (by omega) (ih _)

/-! ### Numerals -/

/-- Whether a text is a numeral, and of which value: one or more digits, with or without a plus sign
in front. -/
inductive Denotes : List Char → Nat → Prop
  | plain {digits : List Char} (hne : digits ≠ []) (h : ∀ c ∈ digits, c.isDigit = true) :
    Denotes digits (Nat.ofDigitChars 10 digits 0)
  | signed {digits : List Char} (hne : digits ≠ []) (h : ∀ c ∈ digits, c.isDigit = true) :
    Denotes ('+' :: digits) (Nat.ofDigitChars 10 digits 0)

variable {s : List Char} {n : Nat}

/-- Numerals have no white space in them. -/
theorem Denotes.solid (h : Denotes s n) : Solid s := by
  cases h with
  | plain hne h => exact fun c hc ↦ isBlank_of_isDigit (h c hc)
  | signed hne h =>
    exact List.forall_mem_cons.mpr ⟨rfl, fun c hc ↦ isBlank_of_isDigit (h c hc)⟩

theorem Denotes.ne_nil (h : Denotes s n) : s ≠ [] := by
  cases h with
  | plain hne h => exact hne
  | signed hne h => exact List.cons_ne_nil _ _

/-- Digits that go on with a value are read if the number they make up is within the limit. -/
theorem foldlM_appendDigit_eq_ok_iff {limit value : Nat} {excess : NumeralFault}
    (hvalue : value ≤ limit) : s.foldlM (appendDigit limit excess) value = .ok n ↔
      (∀ c ∈ s, c.isDigit = true) ∧ Nat.ofDigitChars 10 s value = n ∧ n ≤ limit := by
  induction s generalizing value with
  | nil =>
    rw [List.foldlM_nil, Nat.ofDigitChars_nil]
    constructor
    · rintro ⟨⟩
      exact ⟨fun _ hc ↦ absurd hc List.not_mem_nil, rfl, hvalue⟩
    · rintro ⟨-, rfl, -⟩
      rfl
  | cons c s ih =>
    rw [List.foldlM_cons, List.forall_mem_cons, Nat.ofDigitChars_cons, appendDigit]
    by_cases hc : c.isDigit = true
    · rw [digit?_of_isDigit hc]
      by_cases hstep : 10 * value + (c.toNat - '0'.toNat) ≤ limit
      · simp only [if_pos hstep]
        exact (ih hstep).trans ⟨fun h ↦ ⟨⟨hc, h.1⟩, h.2⟩, fun h ↦ ⟨h.1.2, h.2⟩⟩
      · -- the limit is passed here, and the digits to come do not bring the value back
        simp only [if_neg hstep]
        refine ⟨nofun, ?_⟩
        rintro ⟨-, rfl, hle⟩
        exact absurd ((le_ofDigitChars s _).trans hle) hstep
    · rw [digit?_of_not_isDigit hc]
      exact ⟨nofun, fun h ↦ absurd h.1.1 hc⟩

/-- **What is read as a number.** The texts read up to a limit are the numerals whose value is
within it. -/
theorem natural_eq_ok_iff {limit : Nat} : natural limit s = .ok n ↔ Denotes s n ∧ n ≤ limit := by
  have hdigits {digits : List Char} : digitsUpTo limit .tooLarge digits = .ok n ↔
      (∀ c ∈ digits, c.isDigit = true) ∧ Nat.ofDigitChars 10 digits 0 = n ∧ n ≤ limit :=
    foldlM_appendDigit_eq_ok_iff (Nat.zero_le limit)
  constructor
  · intro h
    unfold natural at h
    split at h
    · exact nomatch h
    · exact nomatch h
    · next digits hne =>
      obtain ⟨hall, rfl, hle⟩ := hdigits.mp h
      exact ⟨.signed (fun hnil ↦ hne (by rw [hnil])) hall, hle⟩
    · next hne _ _ =>
      obtain ⟨hall, rfl, hle⟩ := hdigits.mp h
      exact ⟨.plain hne hall, hle⟩
  · rintro ⟨h, hle⟩
    cases h with
    | plain hne hall =>
      obtain ⟨c, digits, rfl⟩ := List.exists_cons_of_ne_nil hne
      have hplus : c ≠ '+' := by
        rintro rfl
        exact absurd (hall '+' List.mem_cons_self) (by decide)
      rw [natural]
      · exact hdigits.mpr ⟨hall, rfl, hle⟩
      all_goals simp [hplus]
    | signed hne hall =>
      rw [natural]
      · exact hdigits.mpr ⟨hall, rfl, hle⟩
      · simpa using hne

/-- A numeral has one value. -/
theorem Denotes.unique {m : Nat} (h : Denotes s n) (h' : Denotes s m) : n = m := by
  have hn := natural_eq_ok_iff.mpr ⟨h, Nat.le_max_left n m⟩
  have hm := natural_eq_ok_iff.mpr ⟨h', Nat.le_max_right n m⟩
  exact Except.ok.inj (hn.symm.trans hm)

end Pagesmith.Text
