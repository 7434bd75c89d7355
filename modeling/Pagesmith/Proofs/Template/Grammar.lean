import Pagesmith.Proofs.Template.Paths
import Pagesmith.Proofs.Text.Words

/-!
# What may stand in a tag

The grammar of tags, apart from how they are read. A path is `this`, or words with points between
them, with or without `this.` in front; `../` may lead either. A tag is a path, the word `else`, a
closing, or an opening, which is the name of a helper and a path with white space between them.
White space around the whole and in front of the name of a helper does not matter. Reading accepts
exactly what is written so, and returns what is written. The spelling of a path or a tag is one way
of writing it.

## Where the grammar is narrower than it looks

Two texts could be taken in two ways. A path that begins with `this.` has it as its mark and not as
its first word, so a first word `this` has to be written behind another `this.`; and `else` alone is
the word between two branches and never the path of that name.

## The text of a path

In messages a path is shown in its short form, without `this.`. Where the first word is itself
`this`, the short form is another path: it is read as the path without that word.
-/

namespace Pagesmith

/-! ## Paths -/

namespace FieldPath

/-- Words with points between them. -/
def joined (words : List String) : List Char := ['.'].intercalate (words.map String.toList)

/-- **The grammar of paths.** -/
inductive Written : FieldPath → List Char → Prop
  /-- The word `this` alone names the value of a scope. -/
  | this (root : PathRoot) : Written ⟨root, []⟩ (rootMark root ++ thisWord)
  /-- Words behind `this.`, whatever they are. -/
  | behindThis (root : PathRoot) {words : List String} (hne : words ≠ [])
    (hwords : ∀ w ∈ words, IsWord w.toList) :
    Written ⟨root, words⟩ (rootMark root ++ (thisWord ++ '.' :: joined words))
  /-- Words alone, which are not one of the above. -/
  | words (root : PathRoot) {words : List String} (hne : words ≠ [])
    (hwords : ∀ w ∈ words, IsWord w.toList) (halone : joined words ≠ thisWord)
    (hmark : ¬thisWord ++ ['.'] <+: joined words) :
    Written ⟨root, words⟩ (rootMark root ++ joined words)

variable {p : FieldPath} {raw : List Char} {words : List String}

/-! ### Joined words -/

theorem pointed_eq_cons_joined (hne : words ≠ []) : pointed words = '.' :: joined words := by
  obtain ⟨w, ws, rfl⟩ := List.exists_cons_of_ne_nil hne
  exact pointed_cons w ws

theorem splitWhere_joined (hne : words ≠ []) (hwords : ∀ w ∈ words, IsWord w.toList) :
    Text.splitWhere (· == '.') (joined words) = words.map String.toList := by
  refine Text.splitWhere_intercalate (by simpa using hne) fun v hv ↦ ?_
  obtain ⟨w, hw, rfl⟩ := List.mem_map.mp hv
  exact (hwords w hw).not_mem rfl

theorem joined_splitWhere (s : List Char) :
    joined ((Text.splitWhere (· == '.') s).map String.ofList) = s := by
  rw [joined, List.map_map, Text.splitWhere_eq_splitOnP, ← List.splitOn_eq_splitOnP]
  simp [Function.comp_def, List.intercalate_splitOn]

theorem joined_cons (w : String) (hne : words ≠ []) :
    joined (w :: words) = w.toList ++ '.' :: joined words := by
  obtain ⟨v, ws, rfl⟩ := List.exists_cons_of_ne_nil hne
  rw [joined, List.map_cons, List.map_cons, List.intercalate_cons_cons, List.append_assoc,
    List.singleton_append, joined, List.map_cons]

/-- Between the points there is no empty word. -/
theorem splitWhere_joined_ne_nil (hne : words ≠ []) (hwords : ∀ w ∈ words, IsWord w.toList) :
    [] ∉ Text.splitWhere (· == '.') (joined words) := by
  rw [splitWhere_joined hne hwords]
  intro hnil
  obtain ⟨w, hw, hempty⟩ := List.mem_map.mp hnil
  exact (hwords w hw).1 hempty

theorem not_mem_joined (hne : words ≠ []) (hwords : ∀ w ∈ words, IsWord w.toList) {c : Char}
    (hc : isWordChar c = false) (hpoint : c ≠ '.') : c ∉ joined words := by
  intro hmem
  refine not_mem_pointed (p := ⟨.current, words⟩) hwords hc hpoint ?_
  rw [pointed_eq_cons_joined hne]
  exact List.mem_cons_of_mem '.' hmem

theorem joined_ne_nil (hne : words ≠ []) (hwords : ∀ w ∈ words, IsWord w.toList) :
    joined words ≠ [] := by
  intro h
  refine splitWhere_joined_ne_nil hne hwords ?_
  rw [h]
  exact List.mem_cons_self

/-- Words other than `this` in front are no path that begins with `this`. -/
theorem joined_ne_this {w : String} (hw : w ≠ "this")
    (hwords : ∀ v ∈ w :: words, IsWord v.toList) :
    joined (w :: words) ≠ thisWord ∧ ¬thisWord ++ ['.'] <+: joined (w :: words) := by
  have hsplit := splitWhere_joined (List.cons_ne_nil w words) hwords
  have hthis : w.toList ≠ thisWord := fun h ↦ hw (String.toList_inj.mp h)
  have hword : IsWord thisWord := by decide
  have hpoint : ∀ c ∈ thisWord, (c == '.') = false := by
    intro c hc
    rw [beq_eq_false_iff_ne]
    rintro rfl
    exact hword.not_mem rfl hc
  refine ⟨fun h ↦ ?_, ?_⟩
  · have hsplit' : Text.splitWhere (· == '.') thisWord = [thisWord] := rfl
    rw [h, hsplit', List.map_cons, List.cons.injEq] at hsplit
    exact hthis hsplit.1.symm
  · rintro ⟨t, ht⟩
    rw [← ht, List.append_assoc, List.singleton_append, Text.splitWhere_eq_splitOnP,
      List.splitOnP_append_cons_of_forall_mem hpoint '.' rfl, List.map_cons,
      List.cons.injEq] at hsplit
    exact hthis hsplit.1.symm

/-! ### Reading is by the grammar -/

/-- To spell a path is one way of writing it. -/
theorem written_spelling (hp : p.Spellable) : p.Written p.spelling := by
  obtain ⟨root, words⟩ := p
  by_cases hne : words = []
  · subst hne
    rw [spelling, pointed, List.flatMap_nil, List.append_nil]
    exact .this root
  · rw [spelling, pointed_eq_cons_joined hne]
    exact .behindThis root hne hp

theorem Written.spellable (h : p.Written raw) : p.Spellable := by
  cases h with
  | this root => exact fun w hw ↦ absurd hw List.not_mem_nil
  | behindThis root hne hwords => exact hwords
  | words root hne hwords halone hmark => exact hwords

theorem dropThis_behindThis (s : List Char) : dropThis (thisWord ++ '.' :: s) = s := by
  have hne : thisWord ++ '.' :: s ≠ thisWord := by simp
  have hmark : thisWord ++ '.' :: s = thisWord ++ ['.'] ++ s := by
    rw [List.append_assoc, List.singleton_append]
  rw [dropThis, if_neg hne, hmark, Text.dropMark?_append, Option.getD_some]

/-- Words are read off what `dropThis` leaves. -/
theorem parse_of_dropThis_eq_joined {root : PathRoot} {rest : List Char}
    (hup : upMark.isPrefixOf rest = false) (hne : words ≠ [])
    (hwords : ∀ w ∈ words, IsWord w.toList) (hdrop : dropThis rest = joined words) :
    parse (rootMark root ++ rest) = .ok ⟨root, words⟩ := by
  have hdrop' : dropThis rest ≠ [] := by
    rw [hdrop]
    exact joined_ne_nil hne hwords
  have hall : (words.map String.toList).all isWord = true := by
    rw [List.all_map, List.all_eq_true]
    exact fun w hw ↦ (isWord_iff w.toList).mpr (hwords w hw)
  rw [parse_of_dropThis_ne_nil hup hdrop', hdrop, splitWhere_joined hne hwords, if_pos hall,
    List.map_map]
  simp [Function.comp_def]

theorem Written.parse_eq (h : p.Written raw) : parse raw = .ok p := by
  cases h with
  | this root =>
    rw [parse_of_dropThis_eq_nil rfl rfl]
    cases root <;> rfl
  | @behindThis root words hne hwords =>
    exact parse_of_dropThis_eq_joined rfl hne hwords (dropThis_behindThis _)
  | @words root words hne hwords halone hmark =>
    have hdrop : dropThis (joined words) = joined words := by
      rw [dropThis, if_neg halone, Text.dropMark?_eq_none_iff.mpr hmark, Option.getD_none]
    have hup : upMark.isPrefixOf (joined words) = false := by
      rw [Bool.eq_false_iff, ne_eq, List.isPrefixOf_iff_prefix]
      rintro ⟨t, ht⟩
      have hslash : '/' ∈ joined words := by
        rw [← ht]
        exact List.mem_append_left t (by decide)
      exact not_mem_joined hne hwords rfl (by decide) hslash
    exact parse_of_dropThis_eq_joined hup hne hwords hdrop

theorem dropThis_cases (rest : List Char) :
    rest = thisWord ∧ dropThis rest = [] ∨
      rest = thisWord ++ '.' :: dropThis rest ∨
      dropThis rest = rest ∧ rest ≠ thisWord ∧ ¬thisWord ++ ['.'] <+: rest := by
  by_cases hthis : rest = thisWord
  · exact .inl ⟨hthis, by rw [dropThis, if_pos hthis]⟩
  · rw [dropThis, if_neg hthis]
    cases hmark : Text.dropMark? (thisWord ++ ['.']) rest with
    | none => exact .inr (.inr ⟨rfl, hthis, Text.dropMark?_eq_none_iff.mp hmark⟩)
    | some inner =>
      have hrest : rest = thisWord ++ ['.'] ++ inner := Text.eq_of_dropMark?_eq_some hmark
      rw [List.append_assoc, List.singleton_append] at hrest
      exact .inr (.inl hrest)

/-- Nothing but `this` is left where a path has no words. The end of the text tells it from a path
that breaks off behind `this.` or behind `../`. -/
theorem eq_this_of_dropThis_eq_nil {root : PathRoot} {rest : List Char} (h : dropThis rest = [])
    (hsuffix : thisWord.isSuffixOf (rootMark root ++ rest)) : rest = thisWord := by
  obtain ⟨hthis, -⟩ | hmark | ⟨hself, -, -⟩ := dropThis_cases rest
  · exact hthis
  · rw [hmark, h] at hsuffix
    cases root <;> exact absurd hsuffix (by decide)
  · rw [← hself, h] at hsuffix
    cases root <;> exact absurd hsuffix (by decide)

theorem written_of_parse (h : parse raw = .ok p) : p.Written raw := by
  have hwords := spellable_of_parse h
  obtain ⟨rest, rfl, -, ⟨hdrop, hsuffix, hnil⟩ | ⟨hdrop, -, hsegments⟩⟩ := segments_of_parse h
  · obtain ⟨root, words⟩ := p
    obtain rfl : words = [] := hnil
    rw [eq_this_of_dropThis_eq_nil hdrop hsuffix]
    exact .this root
  · have hjoined : joined p.segments = dropThis rest := by
      rw [hsegments, joined_splitWhere]
    have hne : p.segments ≠ [] := by
      rw [hsegments, ne_eq, List.map_eq_nil_iff]
      exact Text.splitWhere_ne_nil _ _
    obtain ⟨-, hnil⟩ | hmark | ⟨hself, halone, hmark⟩ := dropThis_cases rest
    · exact absurd hnil hdrop
    · rw [hmark, ← hjoined]
      exact .behindThis p.root hne hwords
    · rw [← hself, ← hjoined] at halone hmark ⊢
      exact .words p.root hne hwords halone hmark

/-- **Paths.** Reading accepts what the grammar writes, and nothing else. -/
theorem parse_eq_ok_iff : parse raw = .ok p ↔ p.Written raw :=
  ⟨written_of_parse, Written.parse_eq⟩

/-! ### What is no path -/

/-- Whether a text is no path. -/
def Refused (raw : List Char) : Prop := ∀ p, parse raw ≠ .ok p

/-- However a path is written, behind the mark of its root there are words with points between
them. -/
theorem Written.exists_joined (h : p.Written raw) : ∃ words, words ≠ [] ∧
    (∀ w ∈ words, IsWord w.toList) ∧ raw = rootMark p.root ++ joined words := by
  have hthis : IsWord "this".toList := by decide
  cases h with
  | this root =>
    refine ⟨["this"], List.cons_ne_nil _ _, ?_, rfl⟩
    intro w hw
    rwa [List.mem_singleton.mp hw]
  | @behindThis root words hne hwords =>
    refine ⟨"this" :: words, List.cons_ne_nil _ _, ?_, by rw [joined_cons "this" hne]; rfl⟩
    intro w hw
    rcases List.mem_cons.mp hw with rfl | hw
    · exact hthis
    · exact hwords w hw
  | @words root words hne hwords halone hmark => exact ⟨words, hne, hwords, rfl⟩

/-- A point is followed by a word. -/
theorem not_concat_point (hne : words ≠ []) (hwords : ∀ w ∈ words, IsWord w.toList)
    (s : List Char) : joined words ≠ s ++ ['.'] := by
  intro h
  refine splitWhere_joined_ne_nil hne hwords ?_
  rw [h, Text.splitWhere_eq_splitOnP, List.splitOnP_append_cons s [] rfl, List.splitOnP_nil]
  exact List.mem_append_right _ List.mem_cons_self

/-- Two points never follow each other. -/
theorem not_infix_joined (hne : words ≠ []) (hwords : ∀ w ∈ words, IsWord w.toList) :
    ¬['.', '.'] <:+: joined words := by
  rintro ⟨a, b, h⟩
  refine splitWhere_joined_ne_nil hne hwords ?_
  rw [← h, List.append_assoc, List.cons_append, List.cons_append, List.nil_append,
    Text.splitWhere_eq_splitOnP, List.splitOnP_append_cons a _ rfl,
    List.splitOnP_cons_eq_if_modifyHead, if_pos (beq_self_eq_true '.')]
  exact List.mem_append_right _ List.mem_cons_self

theorem refused_of_not_written (h : ∀ p : FieldPath, ¬p.Written raw) : Refused raw :=
  fun p hp ↦ h p (parse_eq_ok_iff.mp hp)

/-- Any character but those of words, points and the slash of `../` is refused. -/
theorem refused_of_mem {c : Char} (hc : c ∈ raw) (hword : isWordChar c = false) (hpoint : c ≠ '.')
    (hslash : c ≠ '/') : Refused raw := by
  refine refused_of_not_written fun p hp ↦ ?_
  obtain ⟨words, hne, hwords, rfl⟩ := hp.exists_joined
  rcases List.mem_append.mp hc with hc | hc
  · have hroot : c ∉ rootMark p.root := by
      cases p.root with
      | current => exact List.not_mem_nil
      | parent => simp [rootMark, upMark, hpoint, hslash]
    exact hroot hc
  · exact not_mem_joined hne hwords hword hpoint hc

/-- A slash behind `../` is refused, so there is no way two levels up. -/
theorem refused_upMark_append {rest : List Char} (h : '/' ∈ rest) : Refused (upMark ++ rest) := by
  refine refused_of_not_written fun p hp ↦ ?_
  obtain ⟨words, hne, hwords, hraw⟩ := hp.exists_joined
  have hjoined : '/' ∉ joined words := not_mem_joined hne hwords rfl (by decide)
  obtain ⟨root, segments⟩ := p
  cases root with
  | current =>
    have hraw' : upMark ++ rest = joined words := hraw
    exact hjoined (hraw' ▸ List.mem_append_right upMark h)
  | parent => exact hjoined (List.append_cancel_left hraw ▸ h)

/-- A slash is refused where no `../` leads. -/
theorem refused_of_slash (h : '/' ∈ raw) (hup : ¬upMark <+: raw) : Refused raw := by
  refine refused_of_not_written fun p hp ↦ ?_
  obtain ⟨words, hne, hwords, hraw⟩ := hp.exists_joined
  obtain ⟨root, segments⟩ := p
  cases root with
  | current =>
    have hraw' : raw = joined words := hraw
    exact not_mem_joined hne hwords rfl (by decide) (hraw' ▸ h)
  | parent => exact hup ⟨joined words, hraw.symm⟩

/-- A path ends in a word, so one that breaks off behind a point or behind `../` is refused. -/
theorem refused_concat {c : Char} (hc : isWordChar c = false) (s : List Char) :
    Refused (s ++ [c]) := by
  refine refused_of_not_written fun p hp ↦ ?_
  obtain ⟨words, hne, hwords, hraw⟩ := hp.exists_joined
  obtain hnil | ⟨t, d, hlast⟩ := (joined words).eq_nil_or_concat
  · exact joined_ne_nil hne hwords hnil
  · rw [List.concat_eq_append] at hlast
    rw [hlast, ← List.append_assoc] at hraw
    obtain ⟨-, rfl⟩ := List.append_singleton_inj.mp hraw
    have hpoint : c ≠ '.' := fun h ↦ not_concat_point hne hwords t (h ▸ hlast)
    refine not_mem_joined hne hwords hc hpoint ?_
    rw [hlast]
    exact List.mem_append_right t List.mem_cons_self

/-- Two points in a row are refused, unless they are those of `../`. -/
theorem refused_of_points {a : List Char} (ha : a ≠ []) (b : List Char) :
    Refused (a ++ (['.', '.'] ++ b)) := by
  refine refused_of_not_written fun p hp ↦ ?_
  obtain ⟨words, hne, hwords, hraw⟩ := hp.exists_joined
  have hjoined := not_infix_joined hne hwords
  obtain ⟨root, segments⟩ := p
  cases root with
  | current => exact hjoined ⟨a, b, by rw [List.append_assoc]; exact hraw⟩
  | parent =>
    obtain ⟨c, a, rfl⟩ := List.exists_cons_of_ne_nil ha
    have htail : a ++ (['.', '.'] ++ b) = '.' :: '/' :: joined words := (List.cons.inj hraw).2
    have hin : ['.', '.'] <:+: '.' :: '/' :: joined words :=
      ⟨a, b, by rw [List.append_assoc, htail]⟩
    rw [List.infix_cons_iff, List.infix_cons_iff] at hin
    rcases hin with h | h | h
    · simp at h
    · simp at h
    · exact hjoined h

/-! ### A path is one word of a tag -/

theorem Written.solid (h : p.Written raw) : Text.Solid raw := by
  intro c hc
  cases hblank : Text.isBlank c with
  | false => rfl
  | true =>
    -- a character that is white space is none of those a path is made of
    have hne : ∀ d, Text.isBlank d = false → c ≠ d := by
      rintro d hd rfl
      rw [hblank] at hd
      contradiction
    have hword : isWordChar c = false := by
      rw [Bool.eq_false_iff]
      intro hword
      rw [isBlank_of_isWordChar hword] at hblank
      contradiction
    exact absurd h.parse_eq (refused_of_mem hc hword (hne '.' rfl) (hne '/' rfl) p)

theorem Written.ne_nil (h : p.Written raw) : raw ≠ [] := by
  obtain ⟨words, hne, hwords, rfl⟩ := h.exists_joined
  exact List.append_ne_nil_of_right_ne_nil _ (joined_ne_nil hne hwords)

/-- A path does not begin with the mark of an opening or of a closing. -/
theorem Written.head_ne (h : p.Written raw) : raw.head? ≠ some '#' ∧ raw.head? ≠ some '/' := by
  constructor
  · intro hhead
    exact refused_of_mem (List.mem_of_head? hhead) rfl (by decide) (by decide) p h.parse_eq
  · intro hhead
    refine refused_of_slash (List.mem_of_head? hhead) ?_ p h.parse_eq
    rintro ⟨t, rfl⟩
    have hhead' : some '.' = some '/' := hhead
    contradiction

/-! ## The text of a path -/

/-- The path `p` without a first word `this`. -/
def withoutThis (p : FieldPath) : FieldPath :=
  ⟨p.root, if p.segments.head? = some "this" then p.segments.tail else p.segments⟩

theorem withoutThis_eq_self_iff : p.withoutThis = p ↔ p.segments.head? ≠ some "this" := by
  obtain ⟨root, words⟩ := p
  constructor
  · intro h hthis
    obtain ⟨ws, rfl⟩ := List.head?_eq_some_iff.mp hthis
    have hlength := congrArg (·.segments.length) h
    simp [withoutThis] at hlength
  · intro hthis
    rw [withoutThis, if_neg hthis]

theorem toList_text (p : FieldPath) :
    p.text.toList =
      rootMark p.root ++ if p.segments.isEmpty then thisWord else joined p.segments := by
  have hpoint : ".".toList = ['.'] := rfl
  obtain ⟨root, words⟩ := p
  cases words with
  | nil => cases root <;> rfl
  | cons w ws =>
    rw [text, String.toList_append, List.isEmpty_cons, if_neg Bool.false_ne_true,
      if_neg Bool.false_ne_true, String.toList_intercalate, hpoint, ← joined]
    cases root <;> rfl

/-- **What the text of a path says.** It is a path by the grammar, and by the grammar a first word
`this` is the mark that may be left out. -/
theorem written_text (hp : p.Spellable) : p.withoutThis.Written p.text.toList := by
  rw [toList_text]
  obtain ⟨root, words⟩ := p
  cases words with
  | nil => exact .this root
  | cons w ws =>
    rw [List.isEmpty_cons, if_neg Bool.false_ne_true]
    by_cases hthis : w = "this"
    · subst hthis
      by_cases hne : ws = []
      · subst hne
        exact .this root
      · rw [joined_cons "this" hne]
        exact .behindThis root hne fun v hv ↦ hp v (List.mem_cons_of_mem _ hv)
    · obtain ⟨halone, hmark⟩ := joined_ne_this hthis hp
      have hself : withoutThis ⟨root, w :: ws⟩ = ⟨root, w :: ws⟩ :=
        withoutThis_eq_self_iff.mpr fun h ↦ hthis (Option.some.inj h)
      rw [hself]
      exact .words root (List.cons_ne_nil w ws) hp halone hmark

/-- **Reading a text back.** The text of a path that was read can be read again, and is the same
path exactly if the first word is not `this`. Otherwise that word is lost, and the text names
another path. -/
theorem parse_text_of_parse (h : parse raw = .ok p) :
    parse p.text.toList = .ok p.withoutThis ∧
      (parse p.text.toList = .ok p ↔ p.segments.head? ≠ some "this") := by
  have hwritten := written_text (spellable_of_parse h)
  have hread : parse p.text.toList = .ok p.withoutThis := hwritten.parse_eq
  refine ⟨hread, ?_⟩
  rw [hread, Except.ok.injEq, withoutThis_eq_self_iff]

/-- The path `../this.a.b` is shown as `../a.b`, which is the same path. -/
theorem parse_text_of_enclosing :
    parse "../this.a.b".toList = .ok ⟨.parent, ["a", "b"]⟩ ∧
      text ⟨.parent, ["a", "b"]⟩ = "../a.b" ∧
      parse "../a.b".toList = .ok ⟨.parent, ["a", "b"]⟩ := by
  have hread : parse "../this.a.b".toList = .ok ⟨.parent, ["a", "b"]⟩ := by decide
  exact ⟨hread, by decide, (parse_text_of_parse hread).1⟩

/-- A field named `this` is shown as the scope it stands in. -/
theorem not_forall_parse_text :
    ¬∀ raw p, parse raw = .ok p → parse p.text.toList = .ok p := by
  intro h
  have hread : parse "this.this".toList = .ok ⟨.current, ["this"]⟩ := by decide
  have hback := h _ _ hread
  exact absurd hback (by decide)

end FieldPath

/-! ## Tags -/

namespace Directive

/-- **The grammar of tags,** without the white space around them. -/
inductive Written : Directive → List Char → Prop
  | else_ : Written else_ elseWord
  | close (helper : Helper) {gap : List Char} (hgap : Text.AllBlank gap) :
    Written (close helper) ('/' :: (gap ++ helper.name.toList))
  | openSection (helper : Helper) {path : FieldPath} {gap between raw : List Char}
    (hgap : Text.AllBlank gap) (hbetween : Text.AllBlank between) (hne : between ≠ [])
    (hpath : path.Written raw) :
    Written (openSection helper path) ('#' :: (gap ++ (helper.name.toList ++ (between ++ raw))))
  | field {path : FieldPath} {raw : List Char} (hpath : path.Written raw) (helse : raw ≠ elseWord) :
    Written (field path) raw

theorem solid_name (helper : Helper) : Text.Solid helper.name.toList := by
  cases helper <;> decide

theorem name_ne_nil (helper : Helper) : helper.name.toList ≠ [] := by
  cases helper <;> decide

theorem ofName?_name (helper : Helper) : Helper.ofName? helper.name.toList = some helper := by
  cases helper <;> rfl

theorem name_of_ofName? {name : List Char} {helper : Helper}
    (h : Helper.ofName? name = some helper) : name = helper.name.toList := by
  rw [Helper.ofName?] at h
  split at h
  · next hname => rw [hname, Option.some.inj h]
  · split at h
    · next hname => rw [hname, Option.some.inj h]
    · contradiction

variable {d : Directive} {s body : List Char}

theorem map_pathOf_eq_ok_iff {f : FieldPath → Directive} :
    ((FieldPath.parse s).mapError TagFault.path).map f = .ok d ↔
      ∃ path : FieldPath, path.Written s ∧ f path = d := by
  simp only [← FieldPath.parse_eq_ok_iff]
  cases FieldPath.parse s with
  | error fault => exact ⟨nofun, nofun⟩
  | ok path =>
    constructor
    · rintro ⟨⟩
      exact ⟨path, rfl, rfl⟩
    · rintro ⟨path', hpath, rfl⟩
      cases hpath
      rfl

/-! ### What is written is read -/

theorem Written.ne_nil (h : d.Written s) : s ≠ [] := by
  cases h with
  | else_ => decide
  | close helper hgap => exact List.cons_ne_nil _ _
  | openSection helper hgap hbetween hne hpath => exact List.cons_ne_nil _ _
  | field hpath helse => exact hpath.ne_nil

theorem Written.trimmed (h : d.Written s) : Text.Trimmed s := by
  cases h with
  | else_ => exact Text.Solid.trimmed (by decide)
  | close helper hgap => exact (solid_name helper).trimmed_cons_append (name_ne_nil helper) rfl _
  | @openSection helper path gap between raw hgap hbetween hne hpath =>
    have htrimmed := hpath.solid.trimmed_cons_append hpath.ne_nil (c := '#') rfl
      (gap ++ (helper.name.toList ++ between))
    simpa only [List.append_assoc] using htrimmed
  | field hpath helse => exact hpath.solid.trimmed

theorem ofOpening_of_written (helper : Helper) {path : FieldPath} {gap between raw : List Char}
    (hgap : Text.AllBlank gap) (hbetween : Text.AllBlank between) (hne : between ≠ [])
    (hpath : path.Written raw) :
    ofOpening (gap ++ (helper.name.toList ++ (between ++ raw))) =
      .ok (openSection helper path) := by
  have hwords := Text.words_pair hgap (solid_name helper) (name_ne_nil helper) hbetween hne
    hpath.solid hpath.ne_nil
  rw [ofOpening, hwords]
  simp only [ofName?_name]
  exact map_pathOf_eq_ok_iff.mpr ⟨path, hpath, rfl⟩

theorem ofClosing_of_written (helper : Helper) {gap : List Char} (hgap : Text.AllBlank gap) :
    ofClosing (gap ++ helper.name.toList) = .ok (close helper) := by
  have htrim := Text.trim_append hgap Text.allBlank_nil (solid_name helper).trimmed
    (name_ne_nil helper)
  rw [List.append_nil] at htrim
  rw [ofClosing, htrim]
  simp only [ofName?_name]

theorem ofPlain_of_written {path : FieldPath} {raw : List Char} (hpath : path.Written raw)
    (helse : raw ≠ elseWord) : ofPlain raw = .ok (field path) := by
  rw [ofPlain, if_neg helse, Text.words_of_solid hpath.ne_nil hpath.solid]
  exact map_pathOf_eq_ok_iff.mpr ⟨path, hpath, rfl⟩

/-- A tag that begins with neither mark is read as one without mark. -/
theorem ofBody_of_no_mark (hne : Text.trim body ≠ []) (hopen : (Text.trim body).head? ≠ some '#')
    (hclose : (Text.trim body).head? ≠ some '/') : ofBody body = ofPlain (Text.trim body) := by
  rw [ofBody]
  split
  · next h => exact absurd h hne
  · next h => rw [h] at hopen; exact absurd rfl hopen
  · next h => rw [h] at hclose; exact absurd rfl hclose
  · rfl

theorem Written.ofBody_eq (h : d.Written s) (hbody : Text.trim body = s) : ofBody body = .ok d := by
  cases h with
  | else_ =>
    rw [ofBody, hbody]
    rfl
  | close helper hgap =>
    rw [ofBody, hbody]
    exact ofClosing_of_written helper hgap
  | openSection helper hgap hbetween hne hpath =>
    rw [ofBody, hbody]
    exact ofOpening_of_written helper hgap hbetween hne hpath
  | field hpath helse =>
    subst hbody
    rw [ofBody_of_no_mark hpath.ne_nil hpath.head_ne.1 hpath.head_ne.2]
    exact ofPlain_of_written hpath helse

/-! ### What is read is written -/

theorem written_of_ofOpening (h : ofOpening s = .ok d) :
    ∃ inner after, Text.AllBlank after ∧ '#' :: s = inner ++ after ∧ d.Written inner := by
  rw [ofOpening] at h
  split at h
  · contradiction
  · next name args hwords =>
    split at h
    · contradiction
    · next helper raw hname =>
      obtain ⟨path, hpath, rfl⟩ := map_pathOf_eq_ok_iff.mp h
      obtain rfl := name_of_ofName? hname
      obtain ⟨gap, between, after, hgap, hbetween, hne, hafter, rfl⟩ :=
        Text.exists_of_words_eq_pair hwords
      refine ⟨_, after, hafter, ?_, .openSection helper hgap hbetween hne hpath⟩
      simp only [List.cons_append, List.append_assoc]
    · contradiction
    · contradiction

theorem written_of_ofClosing (h : ofClosing s = .ok d) :
    ∃ inner after, Text.AllBlank after ∧ '/' :: s = inner ++ after ∧ d.Written inner := by
  obtain ⟨gap, after, hgap, hafter, hs⟩ := Text.exists_eq_append_trim s
  rw [ofClosing] at h
  split at h
  · next helper hname =>
    obtain rfl := Except.ok.inj h
    refine ⟨'/' :: (gap ++ helper.name.toList), after, hafter, ?_, .close helper hgap⟩
    rw [← name_of_ofName? hname, List.cons_append, List.append_assoc, ← hs]
  · contradiction

theorem written_of_ofPlain (h : ofPlain s = .ok d) : d.Written s := by
  rw [ofPlain] at h
  split at h
  · next helse =>
    obtain rfl := Except.ok.inj h
    rw [helse]
    exact .else_
  · next helse =>
    split at h
    · contradiction
    · obtain ⟨path, hpath, rfl⟩ := map_pathOf_eq_ok_iff.mp h
      exact .field hpath helse

/-- **Tags.** Reading accepts what the grammar writes with white space around it, and nothing
else. -/
theorem ofBody_eq_ok_iff : ofBody body = .ok d ↔ ∃ before inner after, Text.AllBlank before ∧
    Text.AllBlank after ∧ body = before ++ (inner ++ after) ∧ d.Written inner := by
  constructor
  · intro h
    obtain ⟨before, after, hbefore, hafter, hbody⟩ := Text.exists_eq_append_trim body
    rw [ofBody] at h
    -- white space that reading an opening or a closing leaves at the end joins that behind it
    have hjoin : ∀ {inner after'}, Text.AllBlank after' → Text.trim body = inner ++ after' →
        d.Written inner → ∃ before inner after, Text.AllBlank before ∧ Text.AllBlank after ∧
          body = before ++ (inner ++ after) ∧ d.Written inner := by
      intro inner after' hafter' htrim hwritten
      refine ⟨before, inner, after' ++ after, hbefore, hafter'.append hafter, ?_, hwritten⟩
      rw [hbody, htrim, List.append_assoc]
    split at h
    · contradiction
    · next s htrim =>
      obtain ⟨inner, after', hafter', hs, hwritten⟩ := written_of_ofOpening h
      exact hjoin hafter' (htrim.trans hs) hwritten
    · next s htrim =>
      obtain ⟨inner, after', hafter', hs, hwritten⟩ := written_of_ofClosing h
      exact hjoin hafter' (htrim.trans hs) hwritten
    · exact hjoin Text.allBlank_nil (List.append_nil _).symm (written_of_ofPlain h)
  · rintro ⟨before, inner, after, hbefore, hafter, rfl, hwritten⟩
    exact hwritten.ofBody_eq (Text.trim_append hbefore hafter hwritten.trimmed hwritten.ne_nil)

/-! ### Spelling a tag -/

/-- To spell a tag is one way of writing it. -/
theorem written_spelling (hd : d.Spellable) : d.Written d.spelling := by
  cases d with
  | field p =>
    refine .field (FieldPath.written_spelling hd) ?_
    obtain ⟨root, segments⟩ := p
    cases root <;> exact fun h ↦ absurd (List.head_eq_of_cons_eq h) (by decide)
  | openSection helper p =>
    have hbetween : Text.AllBlank [' '] := by decide
    exact .openSection helper Text.allBlank_nil hbetween (List.cons_ne_nil _ _)
      (FieldPath.written_spelling hd)
  | else_ => exact .else_
  | close helper => exact .close helper Text.allBlank_nil

/-- **A tag says what was spelled in it.** -/
theorem ofBody_spelling (hd : d.Spellable) : ofBody d.spelling = .ok d :=
  ofBody_eq_ok_iff.mpr ⟨[], d.spelling, [], Text.allBlank_nil, Text.allBlank_nil,
    (List.append_nil _).symm, written_spelling hd⟩

theorem Written.spellable (h : d.Written s) : d.Spellable := by
  cases h with
  | else_ => trivial
  | close helper hgap => trivial
  | openSection helper hgap hbetween hne hpath => exact hpath.spellable
  | field hpath helse => exact hpath.spellable

/-- **Whatever a tag says can be spelled.** -/
theorem spellable_of_ofBody (h : ofBody body = .ok d) : d.Spellable := by
  obtain ⟨before, inner, after, -, -, -, hwritten⟩ := ofBody_eq_ok_iff.mp h
  exact hwritten.spellable

/-! ### The whole grammar -/

/-- **The grammar.** A tag is accepted exactly if it is written by the grammar, with white space
around it, and is read as what is written; the word `else` alone is never a path. A path is accepted
exactly if it is written by the grammar. In particular no other character can be part of one, no
slash but that of `../`, no point at the end, and no two points in a row. -/
theorem reads_exactly_written :
    (∀ body d, ofBody body = .ok d ↔ ∃ before inner after, Text.AllBlank before ∧
      Text.AllBlank after ∧ body = before ++ (inner ++ after) ∧ d.Written inner) ∧
    (∀ before after, Text.AllBlank before → Text.AllBlank after →
      ofBody (before ++ (elseWord ++ after)) = .ok else_) ∧
    (∀ raw p, FieldPath.parse raw = .ok p ↔ p.Written raw) ∧
    (∀ raw, ∀ c ∈ raw, ¬(c.isAlphanum ∨ c = '_' ∨ c = '-') → c ≠ '.' → c ≠ '/' →
      FieldPath.Refused raw) ∧
    (∀ rest, '/' ∈ rest → FieldPath.Refused (FieldPath.upMark ++ rest)) ∧
    (∀ raw, '/' ∈ raw → ¬FieldPath.upMark <+: raw → FieldPath.Refused raw) ∧
    (∀ s, FieldPath.Refused (s ++ ['.']) ∧ FieldPath.Refused (s ++ ['/'])) ∧
    ∀ a b, a ≠ [] → FieldPath.Refused (a ++ (['.', '.'] ++ b)) := by
  refine ⟨fun body d ↦ ofBody_eq_ok_iff, ?_, fun raw p ↦ FieldPath.parse_eq_ok_iff, ?_,
    fun rest h ↦ FieldPath.refused_upMark_append h,
    fun raw h hup ↦ FieldPath.refused_of_slash h hup, ?_,
    fun a b ha ↦ FieldPath.refused_of_points ha b⟩
  · intro before after hbefore hafter
    exact ofBody_eq_ok_iff.mpr ⟨before, elseWord, after, hbefore, hafter, rfl, .else_⟩
  · intro raw c hc hword hpoint hslash
    have hword' : FieldPath.isWordChar c = false := by
      rwa [Bool.eq_false_iff, ne_eq, FieldPath.isWordChar_iff]
    exact FieldPath.refused_of_mem hc hword' hpoint hslash
  · exact fun s ↦ ⟨FieldPath.refused_concat rfl s, FieldPath.refused_concat rfl s⟩

end Directive

end Pagesmith
