import Mathlib.Data.String.Basic
import Pagesmith.Html.Escape

/-!
# Inert texts

A text is *inert* (`Inert`) if it cannot change the markup around it, neither between tags nor in a
quoted attribute: it holds no angle bracket and no quotation mark, and every ampersand in it begins
one of the five entities that escaping writes. Escaped texts are inert, and so is every text without
markup characters.
-/

namespace Pagesmith.Html

/-- The characters that escaping replaces. -/
def markup : List Char := ['&', '<', '>', '"', '\'']

/-- What `escapeChar` writes for the characters of `markup`. -/
def entities : List (List Char) :=
  ["&amp;".toList, "&lt;".toList, "&gt;".toList, "&quot;".toList, "&#039;".toList]

/-- Whether a text leaves the markup around it alone. -/
structure Inert (s : List Char) : Prop where
  noBracket : '<' ∉ s ∧ '>' ∉ s
  noQuotation : '"' ∉ s ∧ '\'' ∉ s
  entity : ∀ t, '&' :: t <:+ s → ∃ e ∈ entities, e <+: '&' :: t

/-! ## Putting inert texts together -/

theorem inert_nil : Inert [] where
  noBracket := ⟨List.not_mem_nil, List.not_mem_nil⟩
  noQuotation := ⟨List.not_mem_nil, List.not_mem_nil⟩
  entity _ h := absurd (List.suffix_nil.mp h) (List.cons_ne_nil _ _)

/-- A character may stand in front of an inert text if it is no markup, and an ampersand may if it
makes an entity there. -/
theorem Inert.cons {c : Char} {s : List Char} (hs : Inert s) (hc : c ∈ markup → c = '&')
    (hentity : c = '&' → ∃ e ∈ entities, e <+: c :: s) : Inert (c :: s) := by
  have hother : ∀ d ∈ markup, d ≠ '&' → d ∉ s → d ∉ c :: s := by
    intro d hd hne hmem hcons
    rcases List.mem_cons.mp hcons with rfl | h
    · exact hne (hc hd)
    · exact hmem h
  refine ⟨⟨?_, ?_⟩, ⟨?_, ?_⟩, ?_⟩
  · exact hother _ (by decide) (by decide) hs.noBracket.1
  · exact hother _ (by decide) (by decide) hs.noBracket.2
  · exact hother _ (by decide) (by decide) hs.noQuotation.1
  · exact hother _ (by decide) (by decide) hs.noQuotation.2
  · intro t ht
    -- an ampersand is the new character or one of those behind it
    rcases List.suffix_cons_iff.mp ht with heq | hsuffix
    · rw [heq]
      exact hentity (List.head_eq_of_cons_eq heq).symm
    · exact hs.entity t hsuffix

theorem Inert.cons_of_not_mem {c : Char} {s : List Char} (hs : Inert s) (hc : c ∉ markup) :
    Inert (c :: s) := by
  refine hs.cons (fun h ↦ absurd h hc) ?_
  rintro rfl
  exact absurd (by decide) hc

theorem Inert.append_of_not_mem {w s : List Char} (hs : Inert s) (hw : ∀ c ∈ w, c ∉ markup) :
    Inert (w ++ s) := by
  induction w with
  | nil => exact hs
  | cons c w ih =>
    have hrest : Inert (w ++ s) := ih fun d hd ↦ hw d (List.mem_cons_of_mem c hd)
    exact hrest.cons_of_not_mem (hw c List.mem_cons_self)

theorem inert_of_not_mem {s : List Char} (hs : ∀ c ∈ s, c ∉ markup) : Inert s := by
  rw [← List.append_nil s]
  exact inert_nil.append_of_not_mem hs

theorem Inert.entity_append {e s : List Char} (hs : Inert s) (he : e ∈ entities) :
    Inert (e ++ s) := by
  have hform : ∀ e ∈ entities, '&' :: e.tail = e ∧ ∀ c ∈ e.tail, c ∉ markup := by
    simp [entities, markup]
  obtain ⟨hhead, htail⟩ := hform e he
  rw [← hhead, List.cons_append]
  refine (hs.append_of_not_mem htail).cons (fun _ ↦ rfl) fun _ ↦ ?_
  refine ⟨e, he, ?_⟩
  rw [← List.cons_append, hhead]
  exact List.prefix_append e s

/-! ## Escaping -/

theorem escapeChar_mem_entities {c : Char} (hc : c ∈ markup) : escapeChar c ∈ entities := by
  have hall : markup.map escapeChar ⊆ entities := by decide
  exact hall (List.mem_map_of_mem hc)

theorem escapeChar_of_not_mem {c : Char} (hc : c ∉ markup) : escapeChar c = [c] := by
  simp only [markup, List.mem_cons, List.not_mem_nil, or_false, not_or] at hc
  rw [escapeChar, if_neg hc.1, if_neg hc.2.1, if_neg hc.2.2.1, if_neg hc.2.2.2.1,
    if_neg hc.2.2.2.2]

/-- Escaping writes an entity for a markup character and leaves every other character alone. -/
theorem escapeChar_cases (c : Char) :
    escapeChar c ∈ entities ∨ (c ∉ markup ∧ escapeChar c = [c]) := by
  by_cases hc : c ∈ markup
  · exact .inl (escapeChar_mem_entities hc)
  · exact .inr ⟨hc, escapeChar_of_not_mem hc⟩

theorem escapeChar_ne_nil (c : Char) : escapeChar c ≠ [] := by
  rcases escapeChar_cases c with hentity | ⟨-, hself⟩
  · have hne : ∀ e ∈ entities, e ≠ [] := by decide
    exact hne _ hentity
  · rw [hself]
    exact List.cons_ne_nil c []

/-- **Escaped texts are inert.** -/
theorem inert_escapeChars (s : List Char) : Inert (escapeChars s) := by
  induction s with
  | nil => exact inert_nil
  | cons c s ih =>
    rw [escapeChars, List.flatMap_cons]
    rcases escapeChar_cases c with hentity | ⟨hplain, hself⟩
    · exact ih.entity_append hentity
    · rw [hself]
      exact ih.cons_of_not_mem hplain

/-! ## Reading entities

Escaping can be undone: by `unescape` the five entities it writes are read from left to right, once.
What an entity stands for is not looked at again, and this matters, since a text that already holds
an entity gets another one for its ampersand, and reading takes back only that one. So nothing is
lost by escaping, whatever stands in the text. -/

/-- The text with each of the five entities replaced by what it stands for. -/
def unescapeChars : List Char → List Char
  | [] => []
  | '&' :: 'a' :: 'm' :: 'p' :: ';' :: s => '&' :: unescapeChars s
  | '&' :: 'l' :: 't' :: ';' :: s => '<' :: unescapeChars s
  | '&' :: 'g' :: 't' :: ';' :: s => '>' :: unescapeChars s
  | '&' :: 'q' :: 'u' :: 'o' :: 't' :: ';' :: s => '"' :: unescapeChars s
  | '&' :: '#' :: '0' :: '3' :: '9' :: ';' :: s => '\'' :: unescapeChars s
  | c :: s => c :: unescapeChars s

def unescape (s : String) : String := String.ofList (unescapeChars s.toList)

/-! ### Escaping and reading -/

theorem unescapeChars_cons_of_ne {c : Char} (hc : c ≠ '&') (s : List Char) :
    unescapeChars (c :: s) = c :: unescapeChars s := by
  rw [unescapeChars]
  -- every other equation is one for an ampersand
  all_goals
    intros
    exact absurd ‹_› hc

/-- What escaping writes for a character is read as this character. -/
theorem unescapeChars_escapeChar_append (c : Char) (s : List Char) :
    unescapeChars (escapeChar c ++ s) = c :: unescapeChars s := by
  by_cases hc : c ∈ markup
  · have hfive : c = '&' ∨ c = '<' ∨ c = '>' ∨ c = '"' ∨ c = '\'' := by
      simpa [markup] using hc
    rcases hfive with rfl | rfl | rfl | rfl | rfl <;> rfl
  · have hne : c ≠ '&' := by
      rintro rfl
      exact hc (by decide)
    rw [escapeChar_of_not_mem hc, List.singleton_append, unescapeChars_cons_of_ne hne]

theorem unescapeChars_escapeChars (s : List Char) : unescapeChars (escapeChars s) = s := by
  induction s with
  | nil => rfl
  | cons c s ih =>
    rw [escapeChars, List.flatMap_cons, unescapeChars_escapeChar_append, ← escapeChars, ih]

/-- **Nothing is lost.** Reading the entities of an escaped string gives the string back. -/
theorem unescape_escape (s : String) : unescape (escape s) = s := by
  rw [unescape, escape, String.toList_ofList, unescapeChars_escapeChars, String.ofList_toList]

/-- An entity in the text is text: only what escaping adds is read. -/
example : escape "&lt;" = "&amp;lt;" ∧ unescape "&amp;lt;" = "&lt;" := ⟨rfl, rfl⟩

theorem escape_injective : Function.Injective escape :=
  Function.LeftInverse.injective unescape_escape

/-! ### What escaping leaves alone -/

theorem length_le_escapeChars (s : List Char) : s.length ≤ (escapeChars s).length := by
  induction s with
  | nil => exact Nat.le_refl 0
  | cons c s ih =>
    have hpos : 0 < (escapeChar c).length := List.length_pos_iff.mpr (escapeChar_ne_nil c)
    rw [escapeChars, List.flatMap_cons, List.length_append, ← escapeChars, List.length_cons]
    omega

theorem escapeChars_eq_self_iff {s : List Char} :
    escapeChars s = s ↔ ∀ c ∈ s, c ∉ markup := by
  induction s with
  | nil => simp [escapeChars]
  | cons c s ih =>
    rw [List.forall_mem_cons, ← ih, escapeChars, List.flatMap_cons, ← escapeChars]
    constructor
    · intro h
      have hc : c ∉ markup := by
        intro hc
        -- an entity is longer than a character, and nothing gets shorter
        have hlong : ∀ e ∈ entities, 1 < e.length := by decide
        have hentity := hlong _ (escapeChar_mem_entities hc)
        have hrest := length_le_escapeChars s
        have hlength := congrArg List.length h
        rw [List.length_append, List.length_cons] at hlength
        omega
      rw [escapeChar_of_not_mem hc, List.singleton_append] at h
      exact ⟨hc, List.tail_eq_of_cons_eq h⟩
    · rintro ⟨hc, hs⟩
      rw [escapeChar_of_not_mem hc, hs, List.singleton_append]

theorem escape_eq_self_iff {s : String} : escape s = s ↔ ∀ c ∈ s.toList, c ∉ markup := by
  rw [← escapeChars_eq_self_iff, escape, ← String.toList_inj, String.toList_ofList]

end Pagesmith.Html
