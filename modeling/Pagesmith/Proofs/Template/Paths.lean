import Pagesmith.Proofs.Text.Cutting
import Pagesmith.Template.Directive

/-!
# Paths and tags as they are spelled

Every path has one spelling that is always read as that path: `../` where it begins in the scope
around, then `this`, then each segment behind a point. The word `this` is spelled even where it
could be left out, so no segment is mistaken for a keyword: a field named `else` is spelled
`this.else`, and one named `this` is `this.this`.

A spelling has no braces, so it can stand in a tag, alone or behind the name of a helper.
-/

namespace Pagesmith

/-! ## Words -/

/-- A non-empty run of ASCII letters, digits, `_` and `-`. -/
def IsWord (w : List Char) : Prop := w ≠ [] ∧ ∀ c ∈ w, c.isAlphanum ∨ c = '_' ∨ c = '-'

instance (w : List Char) : Decidable (IsWord w) :=
  have : Decidable (∀ c ∈ w, c.isAlphanum ∨ c = '_' ∨ c = '-') := List.decidableBAll _ w
  inferInstanceAs (Decidable (_ ∧ _))

namespace FieldPath

theorem isAlphanum_iff (c : Char) :
    c.isAlphanum = true ↔
      (('A' ≤ c ∧ c ≤ 'Z') ∨ ('a' ≤ c ∧ c ≤ 'z')) ∨ ('0' ≤ c ∧ c ≤ '9') := by
  have hupper : c.isUpper = decide ('A' ≤ c ∧ c ≤ 'Z') := rfl
  have hlower : c.isLower = (decide ('a' ≤ c) && decide (c ≤ 'z')) := rfl
  have hdigit : c.isDigit = (decide ('0' ≤ c) && decide (c ≤ '9')) := rfl
  have hkinds : c.isAlphanum = ((c.isUpper || c.isLower) || c.isDigit) := rfl
  rw [hkinds, hupper, hlower, hdigit]
  simp only [Bool.or_eq_true, Bool.and_eq_true, decide_eq_true_eq]

theorem isWordChar_iff (c : Char) :
    isWordChar c = true ↔ c.isAlphanum ∨ c = '_' ∨ c = '-' := by
  rw [isAlphanum_iff]
  simp only [isWordChar, Bool.or_eq_true, Bool.and_eq_true, decide_eq_true_eq, beq_iff_eq]
  grind

theorem isWord_iff (w : List Char) : isWord w = true ↔ IsWord w := by
  rw [isWord, IsWord, Bool.and_eq_true, List.all_eq_true]
  simp only [isWordChar_iff, Bool.not_eq_true', List.isEmpty_eq_false_iff, ne_eq]

/-- No character of a word is white space. -/
theorem isBlank_of_isWordChar {c : Char} (h : isWordChar c = true) : Text.isBlank c = false := by
  have hrange : 45 ≤ c.toNat ∧ c.toNat ≤ 122 := by
    rcases (isWordChar_iff c).mp h with halnum | rfl | rfl
    · simp only [isAlphanum_iff, Char.le_def, UInt32.le_iff_toNat_le] at halnum
      have hval : c.toNat = c.val.toNat := rfl
      have hA : 'A'.val.toNat = 65 := rfl
      have hZ : 'Z'.val.toNat = 90 := rfl
      have ha : 'a'.val.toNat = 97 := rfl
      have hz : 'z'.val.toNat = 122 := rfl
      have h0 : '0'.val.toNat = 48 := rfl
      have h9 : '9'.val.toNat = 57 := rfl
      omega
    · decide
    · decide
  simp only [Text.isBlank, Bool.or_eq_false_iff, Bool.and_eq_false_iff, decide_eq_false_iff_not,
    beq_eq_false_iff_ne]
  omega

end FieldPath

/-- A word has none of the characters that mean something in a tag. -/
theorem IsWord.not_mem {w : List Char} (h : IsWord w) {c : Char}
    (hc : FieldPath.isWordChar c = false) : c ∉ w := by
  intro hmem
  rw [(FieldPath.isWordChar_iff c).mpr (h.2 c hmem)] at hc
  contradiction

/-! ## Spelling a path -/

namespace FieldPath

def rootMark : PathRoot → List Char
  | .current => []
  | .parent => upMark

def pointed (segments : List String) : List Char := segments.flatMap fun w ↦ '.' :: w.toList

/-- The path as it is spelled in full. -/
def spelling (p : FieldPath) : List Char := rootMark p.root ++ (thisWord ++ pointed p.segments)

/-- Whether the segments of `p` are words. -/
def Spellable (p : FieldPath) : Prop := ∀ w ∈ p.segments, IsWord w.toList

instance (p : FieldPath) : Decidable p.Spellable :=
  inferInstanceAs (Decidable (∀ w ∈ p.segments, IsWord w.toList))

theorem pointed_cons (w : String) (ws : List String) :
    pointed (w :: ws) = '.' :: ['.'].intercalate ((w :: ws).map String.toList) := by
  induction ws generalizing w with
  | nil => rw [List.map_singleton, List.intercalate_singleton, pointed, List.flatMap_singleton]
  | cons v ws ih =>
    rw [pointed, List.flatMap_cons, ← pointed, ih, List.map_cons, List.map_cons, List.map_cons,
      List.intercalate_cons_cons]
    simp only [List.cons_append, List.append_assoc, List.nil_append]

/-- What stands behind `this` in a spelling holds no character but points and those of words. -/
theorem not_mem_pointed {p : FieldPath} (hp : p.Spellable) {c : Char} (hc : isWordChar c = false)
    (hpoint : c ≠ '.') : c ∉ pointed p.segments := by
  intro hmem
  obtain ⟨w, hw, hcw⟩ := List.mem_flatMap.mp hmem
  rcases List.mem_cons.mp hcw with rfl | hcw
  · exact hpoint rfl
  · exact (hp w hw).not_mem hc hcw

/-- A spelling has no character outside words but points and the slash of `../`. -/
theorem not_mem_spelling {p : FieldPath} (hp : p.Spellable) {c : Char} (hc : isWordChar c = false)
    (hpoint : c ≠ '.') (hslash : c ≠ '/') : c ∉ p.spelling := by
  have hthis : c ∉ thisWord := by
    intro hmem
    have hword : IsWord thisWord := by decide
    exact hword.not_mem hc hmem
  have hroot : c ∉ rootMark p.root := by
    cases p.root with
    | current => exact List.not_mem_nil
    | parent => simp [rootMark, upMark, hpoint, hslash]
  rw [spelling, List.mem_append, List.mem_append]
  exact fun h ↦ h.elim hroot fun h ↦ h.elim hthis (not_mem_pointed hp hc hpoint)

/-! ## Reading a path

Two steps, whichever scope the path starts in: `../` is taken off, and then `this`. -/

/-- What becomes of a path of which `rest` stands behind the mark of its root. -/
private def parseBehind (root : PathRoot) (raw rest : List Char) : Except PathFault FieldPath :=
  match dropThis rest with
  | [] =>
    if thisWord.isSuffixOf raw then .ok ⟨root, []⟩ else .error (.notAField (String.ofList raw))
  | c :: inner =>
    if (Text.splitWhere (· == '.') (c :: inner)).all isWord then
      .ok ⟨root, (Text.splitWhere (· == '.') (c :: inner)).map String.ofList⟩
    else .error (.notAField (String.ofList raw))

private theorem parse_rootMark_append {root : PathRoot} {rest : List Char}
    (hup : upMark.isPrefixOf rest = false) :
    parse (rootMark root ++ rest) = parseBehind root (rootMark root ++ rest) rest := by
  cases root with
  | current =>
    have hnone : Text.dropMark? upMark rest = none := by
      rw [Text.dropMark?_eq_none_iff, ← List.isPrefixOf_iff_prefix, hup]
      exact Bool.false_ne_true
    simp only [parse, parseBehind, rootMark, List.nil_append, hnone, hup, Bool.false_eq_true,
      if_false]
    cases dropThis rest <;> rfl
  | parent =>
    simp only [parse, parseBehind, rootMark, Text.dropMark?_append, hup, Bool.false_eq_true,
      if_false]
    cases dropThis rest <;> rfl

theorem parse_of_dropThis_eq_nil {root : PathRoot} {rest : List Char}
    (hup : upMark.isPrefixOf rest = false) (hthis : dropThis rest = []) :
    parse (rootMark root ++ rest) =
      if thisWord.isSuffixOf (rootMark root ++ rest) then .ok ⟨root, []⟩
      else .error (.notAField (String.ofList (rootMark root ++ rest))) := by
  rw [parse_rootMark_append hup, parseBehind, hthis]

theorem parse_of_dropThis_ne_nil {root : PathRoot} {rest : List Char}
    (hup : upMark.isPrefixOf rest = false) (hthis : dropThis rest ≠ []) :
    parse (rootMark root ++ rest) =
      if (Text.splitWhere (· == '.') (dropThis rest)).all isWord then
        .ok ⟨root, (Text.splitWhere (· == '.') (dropThis rest)).map String.ofList⟩
      else .error (.notAField (String.ofList (rootMark root ++ rest))) := by
  rw [parse_rootMark_append hup, parseBehind]
  cases h : dropThis rest with
  | nil => exact absurd h hthis
  | cons c inner => rfl

/-- A path that is read does not lead two levels up. -/
theorem exists_rootMark_of_parse {raw : List Char} {p : FieldPath} (h : parse raw = .ok p) :
    ∃ root rest, raw = rootMark root ++ rest ∧ upMark.isPrefixOf rest = false := by
  cases hd : Text.dropMark? upMark raw with
  | none =>
    refine ⟨.current, raw, rfl, ?_⟩
    rw [Text.dropMark?_eq_none_iff, ← List.isPrefixOf_iff_prefix] at hd
    exact Bool.eq_false_iff.mpr hd
  | some rest =>
    refine ⟨.parent, rest, Text.eq_of_dropMark?_eq_some hd, ?_⟩
    cases hup : upMark.isPrefixOf rest with
    | false => rfl
    | true =>
      simp only [parse, hd, hup, if_true] at h
      contradiction

/-- **Inversion.** A path that is read names the value of its scope, or has the words between the
points as its segments. -/
theorem segments_of_parse {raw : List Char} {p : FieldPath} (h : parse raw = .ok p) :
    ∃ rest, raw = rootMark p.root ++ rest ∧ upMark.isPrefixOf rest = false ∧
      (dropThis rest = [] ∧ thisWord.isSuffixOf raw ∧ p.segments = [] ∨
        dropThis rest ≠ [] ∧ (Text.splitWhere (· == '.') (dropThis rest)).all isWord ∧
          p.segments = (Text.splitWhere (· == '.') (dropThis rest)).map String.ofList) := by
  obtain ⟨root, rest, rfl, hup⟩ := exists_rootMark_of_parse h
  by_cases hthis : dropThis rest = []
  · rw [parse_of_dropThis_eq_nil hup hthis] at h
    split at h
    · next hsuffix =>
      cases h
      exact ⟨rest, rfl, hup, Or.inl ⟨hthis, hsuffix, rfl⟩⟩
    · contradiction
  · rw [parse_of_dropThis_ne_nil hup hthis] at h
    split at h
    · next hwords =>
      cases h
      exact ⟨rest, rfl, hup, Or.inr ⟨hthis, hwords, rfl⟩⟩
    · contradiction

/-- **Whatever is read can be spelled.** -/
theorem spellable_of_parse {raw : List Char} {p : FieldPath} (h : parse raw = .ok p) :
    p.Spellable := by
  intro w hw
  obtain ⟨rest, -, -, ⟨-, -, hnil⟩ | ⟨-, hwords, hsegments⟩⟩ := segments_of_parse h
  · rw [hnil] at hw
    contradiction
  · rw [hsegments] at hw
    obtain ⟨v, hv, rfl⟩ := List.mem_map.mp hw
    rw [String.toList_ofList, ← isWord_iff]
    exact List.all_eq_true.mp hwords v hv

end FieldPath

/-! ## Spelling a tag -/

namespace Directive

def spelling : Directive → List Char
  | field path => path.spelling
  | openSection helper path => '#' :: (helper.name.toList ++ ' ' :: path.spelling)
  | else_ => elseWord
  | close helper => '/' :: helper.name.toList

/-- The path of a directive, if it has one, can be spelled. -/
def Spellable : Directive → Prop
  | field path => path.Spellable
  | openSection _ path => path.Spellable
  | else_ => True
  | close _ => True

/-- No tag is closed by what is spelled in it. -/
theorem not_mem_spelling {d : Directive} (hd : d.Spellable) : '\x7d' ∉ d.spelling := by
  have hpath : ∀ {p : FieldPath}, p.Spellable → '\x7d' ∉ p.spelling := fun hp ↦
    FieldPath.not_mem_spelling hp rfl (by decide) (by decide)
  cases d with
  | field p => exact hpath hd
  | openSection helper p =>
    have hname : '\x7d' ∉ helper.name.toList := by cases helper <;> decide
    rw [spelling, List.mem_cons, List.mem_append, List.mem_cons]
    rintro (h | h | h | h)
    · exact absurd h (by decide)
    · exact hname h
    · exact absurd h (by decide)
    · exact hpath hd h
  | else_ => decide
  | close helper => cases helper <;> decide

end Directive

end Pagesmith
