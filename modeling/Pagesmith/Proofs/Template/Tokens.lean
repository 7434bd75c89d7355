import Mathlib.Data.List.DropRight
import Pagesmith.Proofs.Text.Cutting
import Pagesmith.Template.Compile

/-!
# Writing tokens and scanning them

Tokens can be written back as text. Scanning gives tokens from which the text is written back, and
scanning what has been written gives the tokens back, provided that the list of tokens is *legible*
(`Legible`): no literal text is empty or holds an opening mark, two literal texts never meet, a
literal text in front of a tag does not end in a brace, and no tag holds its closing mark or ends in
a brace.

Positions are no choice. They are determined by what stands in front, so a list of tokens is
*placed* at the position where its text begins, and scanning returns lists that are placed.

The text of a legible list may be followed by another text. What is scanned is the list and then the
tokens of the other text, with two literal texts at the seam joined, unless a brace on either side
makes an opening mark there.
-/

namespace Pagesmith

theorem Position.after_append (p : Position) (s t : List Char) :
    p.after (s ++ t) = (p.after s).after t := List.foldl_append

namespace Token

/-! ## Writing -/

def write : Token → List Char
  | text s => s
  | tag body _ => openMark ++ body ++ closeMark

def writeAll (ts : List Token) : List Char := ts.flatMap write

@[simp] theorem writeAll_nil : writeAll [] = [] := rfl

@[simp] theorem writeAll_cons (t : Token) (ts : List Token) :
    writeAll (t :: ts) = t.write ++ writeAll ts := List.flatMap_cons

@[simp] theorem writeAll_append (ts us : List Token) :
    writeAll (ts ++ us) = writeAll ts ++ writeAll us := List.flatMap_append

/-! ## Placing -/

/-- The token with its position, if it has one, set. -/
def placeAt (pos : Position) : Token → Token
  | text s => text s
  | tag body _ => tag body pos

/-- The tokens with the positions they have in their text, when that begins at `pos`. -/
def placed (pos : Position) : List Token → List Token
  | [] => []
  | t :: ts => t.placeAt pos :: placed (pos.after t.write) ts

theorem placed_append (pos : Position) (ts us : List Token) :
    placed pos (ts ++ us) = placed pos ts ++ placed (pos.after (writeAll ts)) us := by
  induction ts generalizing pos with
  | nil => rfl
  | cons t ts ih =>
    rw [List.cons_append, placed, ih, placed, writeAll_cons, Position.after_append,
      List.cons_append]

/-! ## Legible lists -/

/-- Lists of tokens that can be read back from their text. -/
inductive Legible : List Token → Prop
  | nil : Legible []
  | last {s : List Char} (hne : s ≠ []) (hmark : ¬openMark <:+: s) : Legible [text s]
  | text {s body : List Char} {pos : Position} {ts : List Token} (hne : s ≠ [])
      (hclear : Text.ClearOf '\x7b' s) (htail : Legible (tag body pos :: ts)) :
      Legible (text s :: tag body pos :: ts)
  | tag {body : List Char} {pos : Position} {ts : List Token}
      (hclear : Text.ClearOf '\x7d' body) (htail : Legible ts) : Legible (tag body pos :: ts)

/-! ## One step of scanning -/

theorem scanFrom_of_no_tag {pos : Position} {s : List Char}
    (h : Text.cut openMark s = none) : scanFrom pos s = .ok (ofText s) := by
  rw [scanFrom]
  split
  · rfl
  · next heq => rw [h] at heq; contradiction

theorem scanFrom_of_unclosed {pos : Position} {s front inner : List Char}
    (ho : Text.cut openMark s = some (front, inner)) (hc : Text.cut closeMark inner = none) :
    scanFrom pos s = .error (pos.after front) := by
  rw [scanFrom]
  split
  · next heq => rw [ho] at heq; contradiction
  · next heq =>
    rw [ho] at heq
    cases heq
    split
    · rfl
    · next heq => rw [hc] at heq; contradiction

theorem scanFrom_of_tag {pos : Position} {s front inner body rest : List Char}
    (ho : Text.cut openMark s = some (front, inner))
    (hc : Text.cut closeMark inner = some (body, rest)) :
    scanFrom pos s =
      (scanFrom ((pos.after front).after (write (tag body pos))) rest).map fun ts ↦
        ofText front ++ tag body (pos.after front) :: ts := by
  rw [scanFrom]
  split
  · next heq => rw [ho] at heq; contradiction
  · next heq =>
    rw [ho] at heq
    cases heq
    split
    · next heq => rw [hc] at heq; contradiction
    · next heq =>
      rw [hc] at heq
      cases heq
      rfl

/-! ## Literal text -/

theorem ofText_of_ne_nil {s : List Char} (h : s ≠ []) : ofText s = [text s] := by
  rw [ofText, if_neg (by simpa using h)]

theorem writeAll_ofText (s : List Char) : writeAll (ofText s) = s := by
  cases s with
  | nil => rfl
  | cons c s => rw [ofText_of_ne_nil (by simp), writeAll_cons, write, writeAll_nil, List.append_nil]

theorem placed_ofText (pos : Position) (s : List Char) : placed pos (ofText s) = ofText s := by
  cases s <;> rfl

/-! ## Reading on

What stands behind the text of a legible list is scanned as if it stood alone, but for its place,
and but for literal text at the seam: two literal texts that meet there are found as one, as `join`
makes them. -/

/-- One list of tokens behind another. Two literal texts that meet are one. -/
def join : List Token → List Token → List Token
  | [], us => us
  | [text s], text t :: us => text (s ++ t) :: us
  | t :: ts, us => t :: join ts us

theorem join_nil (ts : List Token) : join ts [] = ts := by
  induction ts with
  | nil => rfl
  | cons t ts ih =>
    have hcons : join (t :: ts) [] = t :: join ts [] := by
      cases t <;> cases ts <;> rfl
    rw [hcons, ih]

theorem join_ofText (s : List Char) {t : List Char} {us : List Token}
    (hus : ∀ u ∈ us.head?, ∃ body pos, u = tag body pos) :
    join (ofText s) (ofText t ++ us) = ofText (s ++ t) ++ us := by
  cases s with
  | nil => rfl
  | cons c s =>
    cases t with
    | cons d t => rfl
    | nil =>
      rw [List.append_nil]
      cases us with
      | nil => rfl
      | cons u us =>
        obtain ⟨body, pos, rfl⟩ := hus u rfl
        rfl

/-- Literal text does not change what is found behind it, unless an opening mark begins in it. -/
theorem scanFrom_append {s t : List Char} (hmark : ¬openMark <:+: s)
    (hseam : s.getLast? = some '\x7b' → t.head? ≠ some '\x7b') (pos : Position) :
    scanFrom pos (s ++ t) = (scanFrom (pos.after s) t).map (join (ofText s)) := by
  have hcut := Text.cut_pair_append hmark hseam
  cases ho : Text.cut openMark t with
  | none =>
    rw [openMark] at ho
    rw [ho] at hcut
    have hfound : join (ofText s) (ofText t ++ []) = ofText (s ++ t) ++ [] := join_ofText s nofun
    rw [List.append_nil, List.append_nil] at hfound
    rw [scanFrom_of_no_tag hcut, scanFrom_of_no_tag ho, ← hfound]
    rfl
  | some parts =>
    obtain ⟨before, inner⟩ := parts
    rw [openMark] at ho
    rw [ho] at hcut
    cases hc : Text.cut closeMark inner with
    | none =>
      rw [scanFrom_of_unclosed hcut hc, scanFrom_of_unclosed ho hc, Position.after_append]
      rfl
    | some parts =>
      obtain ⟨body, rest⟩ := parts
      rw [scanFrom_of_tag hcut hc, scanFrom_of_tag ho hc, Position.after_append, write, write]
      generalize scanFrom _ rest = found
      cases found with
      | error p => rfl
      | ok us =>
        refine congrArg Except.ok (join_ofText s ?_).symm
        rintro u ⟨⟩
        exact ⟨_, _, rfl⟩

/-- A tag ends at the first closing mark, whatever follows. -/
theorem scanFrom_tag_append {body : List Char} (hbody : Text.ClearOf '\x7d' body)
    (p : Position) (rest : List Char) (pos : Position) :
    scanFrom pos (write (tag body p) ++ rest) =
      (scanFrom (pos.after (write (tag body p))) rest).map (tag body pos :: ·) := by
  have ho : Text.cut openMark (write (tag body p) ++ rest) =
      some ([], body ++ closeMark ++ rest) := by
    refine Text.cut_pair_eq_some_iff.mpr ⟨?_, Text.clearOf_of_not_mem List.not_mem_nil⟩
    simp only [write, openMark, List.append_assoc, List.nil_append]
  have hc : Text.cut closeMark (body ++ closeMark ++ rest) = some (body, rest) :=
    Text.cut_pair_eq_some_iff.mpr ⟨rfl, hbody⟩
  rw [scanFrom_of_tag ho hc]
  rfl

/-- Whether the text `t` may stand behind `ts`: no opening mark is made of the last character of a
literal text and the first one of `t`. -/
def MayPrecede (ts : List Token) (t : List Char) : Prop :=
  ∀ s, ts.getLast? = some (text s) → s.getLast? = some '\x7b' → t.head? ≠ some '\x7b'

theorem MayPrecede.of_cons_tag {body t : List Char} {pos : Position} {ts : List Token}
    (h : MayPrecede (tag body pos :: ts) t) : MayPrecede ts t := by
  intro s hs
  refine h s ?_
  rw [List.getLast?_cons, hs]
  rfl

theorem MayPrecede.of_cons_text {s body t : List Char} {pos : Position} {ts : List Token}
    (h : MayPrecede (text s :: tag body pos :: ts) t) : MayPrecede (tag body pos :: ts) t :=
  fun s' hs' ↦ h s' (by rwa [List.getLast?_cons_cons])

/-- Whether `ts` may stand in front of an opening mark: no brace of its own comes right before the
mark. -/
def EndsClear (ts : List Token) : Prop :=
  ∀ s, ts.getLast? = some (text s) → s.getLast? ≠ some '\x7b'

theorem EndsClear.mayPrecede {ts : List Token} (h : EndsClear ts) (t : List Char) :
    MayPrecede ts t := fun s hs hlast ↦ absurd hlast (h s hs)

/-- **Reading on.** A legible list is found in its text whatever may follow, and scanning goes on
behind it. -/
theorem scanFrom_writeAll_append : ∀ {ts : List Token}, Legible ts → ∀ {t : List Char},
    MayPrecede ts t → ∀ pos : Position, scanFrom pos (writeAll ts ++ t) =
      (scanFrom (pos.after (writeAll ts)) t).map (join (placed pos ts))
  | _, .nil, t, _, pos => by
    show scanFrom pos t = (scanFrom pos t).map (join [])
    cases scanFrom pos t <;> rfl
  | _, .last (s := s) hne hmark, t, hseam, pos => by
    rw [writeAll_cons, writeAll_nil, List.append_nil, write, scanFrom_append hmark (hseam s rfl),
      ofText_of_ne_nil hne]
    rfl
  | _, @Legible.text s body p ts hne hclear htail, t, hseam, pos => by
    rw [writeAll_cons, List.append_assoc, write,
      scanFrom_append hclear.1 (fun hlast ↦ absurd hlast hclear.2),
      scanFrom_writeAll_append htail hseam.of_cons_text, Position.after_append,
      ofText_of_ne_nil hne]
    generalize scanFrom _ t = found
    cases found <;> rfl
  | _, @Legible.tag body p ts hbody htail, t, hseam, pos => by
    rw [writeAll_cons, List.append_assoc, scanFrom_tag_append hbody,
      scanFrom_writeAll_append htail hseam.of_cons_tag, Position.after_append]
    generalize scanFrom _ t = found
    cases found <;> rfl

/-- **Reading back.** A legible list is what scanning finds in its text. -/
theorem scanFrom_writeAll {ts : List Token} (h : Legible ts) (pos : Position) :
    scanFrom pos (writeAll ts) = .ok (placed pos ts) := by
  have hend : MayPrecede ts [] := fun _ _ _ ↦ nofun
  have hread := scanFrom_writeAll_append h hend pos
  have hnothing : scanFrom (pos.after (writeAll ts)) [] = .ok [] := scanFrom_of_no_tag rfl
  rw [List.append_nil, hnothing] at hread
  rw [hread]
  exact congrArg Except.ok (join_nil _)

/-! ## Scanning gives legible lists -/

theorem Legible.ofText_append_tag {front body : List Char} {pos : Position} {ts : List Token}
    (hfront : Text.ClearOf '\x7b' front) (hbody : Text.ClearOf '\x7d' body) (htail : Legible ts) :
    Legible (ofText front ++ Token.tag body pos :: ts) := by
  cases front with
  | nil => exact .tag hbody htail
  | cons c front => exact .text (List.cons_ne_nil c front) hfront (.tag hbody htail)

theorem legible_ofText {s : List Char} (h : Text.cut openMark s = none) : Legible (ofText s) := by
  cases s with
  | nil => exact .nil
  | cons c s => exact .last (List.cons_ne_nil c s) (Text.cut_pair_eq_none_iff.mp h)

/-- **What scanning finds.** The tokens are legible, they write the text, and they stand where their
positions say. -/
theorem legible_of_scanFrom {pos : Position} {s : List Char} {ts : List Token}
    (h : scanFrom pos s = .ok ts) : Legible ts ∧ writeAll ts = s ∧ placed pos ts = ts := by
  fun_induction scanFrom pos s generalizing ts with
  | case1 pos s ho =>
    cases h
    exact ⟨legible_ofText ho, writeAll_ofText s, placed_ofText pos s⟩
  | case2 pos s front inner ho hc =>
    contradiction
  | case3 pos s front inner ho here body rest hc =>
    rename_i ih
    cases hrest : scanFrom (here.after (openMark ++ body ++ closeMark)) rest with
    | error e => rw [hrest] at h; contradiction
    | ok us =>
      rw [hrest] at h
      cases h
      obtain ⟨hlegible, hwrite, hplaced⟩ := ih hrest
      obtain ⟨hs, hfront⟩ := Text.cut_pair_eq_some_iff.mp ho
      obtain ⟨hinner, hbody⟩ := Text.cut_pair_eq_some_iff.mp hc
      refine ⟨.ofText_append_tag hfront hbody hlegible, ?_, ?_⟩
      · rw [writeAll_append, writeAll_ofText, writeAll_cons, write, hwrite, hs, hinner]
        simp only [List.append_assoc, openMark, closeMark]
      · rw [placed_append, placed_ofText, writeAll_ofText, placed, placeAt, write, hplaced]

end Token

/-! ## The one way to take a template apart

A template can be taken apart into literal text and tags in one way only, and scanning finds it. The
conditions on the parts are those of `Legible` lists, and they make no mention of how the parts are
found. A text that cannot be taken apart is legible up to an opening mark behind which there is no
closing mark; it has one such place, and this is what is reported.

### Places

Scanning carries a place along and moves it over every character it passes. Where it has got to can
be said without following it: the line is told by the line breaks in front, the column by the
characters since the last of them. Nothing is assumed of what stands in front, which may be literal
text or tags, and tags may run over several lines. -/

namespace Position

/-- The place behind `s`, from its line breaks and the characters since the last of them. -/
def behind (s : List Char) : Position :=
  ⟨1 + s.count '\n', 1 + (s.rtakeWhile (· ≠ '\n')).length⟩

theorem behind_concat (s : List Char) (c : Char) : behind (s ++ [c]) = (behind s).step c := by
  rw [behind, step, List.rtakeWhile_concat, List.count_append]
  by_cases hc : c = '\n'
  · simp [hc, behind, Nat.add_assoc]
  · simp [hc, behind, Nat.add_assoc]

/-- The place that `after` has got to is the place `behind` the text. -/
theorem start_after (s : List Char) : start.after s = behind s := by
  -- from the end, since the last line break is what counts
  induction s using List.reverseRecOn with
  | nil => rfl
  | append_singleton s c ih =>
    rw [after_append, ih, behind_concat]
    rfl

example : start.after "ä\n\x7b\x7b#if\nx\x7d\x7dé".toList = ⟨3, 5⟩ := by decide

end Position

namespace Token

variable {ts us : List Token}

/-! ### Well-placed lists -/

/-- Whether every tag stands where its position says, in the text that the tokens write. -/
def WellPlaced (ts : List Token) : Prop :=
  ∀ front body pos rest, ts = front ++ tag body pos :: rest → pos = .behind (writeAll front)

theorem placed_eq_self_iff (pos : Position) (ts : List Token) :
    placed pos ts = ts ↔ ∀ front body p rest, ts = front ++ tag body p :: rest →
      p = pos.after (writeAll front) := by
  -- over all places, since every token leads to another one
  induction ts generalizing pos with
  | nil => simp [placed]
  | cons t ts ih =>
    rw [placed, List.cons.injEq, ih]
    constructor
    · rintro ⟨hhead, htail⟩ front body p rest hsplit
      cases front with
      | nil =>
        obtain ⟨rfl, rfl⟩ : t = tag body p ∧ ts = rest := by simpa using hsplit
        exact (Token.tag.inj hhead).2.symm
      | cons u front =>
        obtain ⟨rfl, htail'⟩ : t = u ∧ ts = front ++ tag body p :: rest := by simpa using hsplit
        rw [writeAll_cons, Position.after_append]
        exact htail front body p rest htail'
    · intro h
      refine ⟨?_, fun front body p rest hsplit ↦ ?_⟩
      · cases t with
        | text s => rfl
        | tag body p => rw [placeAt, h [] body p ts rfl, writeAll_nil]; rfl
      · have hplace := h (t :: front) body p rest (by rw [hsplit, List.cons_append])
        rwa [writeAll_cons, Position.after_append] at hplace

theorem wellPlaced_iff : WellPlaced ts ↔ placed .start ts = ts := by
  simp only [placed_eq_self_iff, Position.start_after, WellPlaced]

/-- Moving tokens to other places changes nothing but the places. -/
theorem map_placeAt_placed (p pos : Position) (ts : List Token) :
    (placed pos ts).map (placeAt p) = ts.map (placeAt p) := by
  induction ts generalizing pos with
  | nil => rfl
  | cons t ts ih =>
    rw [placed, List.map_cons, List.map_cons, ih]
    cases t <;> rfl

/-! ### One decomposition -/

theorem scan_eq_ok_iff {s : List Char} :
    scan s = .ok ts ↔ Legible ts ∧ writeAll ts = s ∧ WellPlaced ts := by
  rw [wellPlaced_iff]
  constructor
  · exact legible_of_scanFrom
  · rintro ⟨hlegible, rfl, hplaced⟩
    rw [scan, scanFrom_writeAll hlegible, hplaced]

/-- Legible lists that write the same text are the same, but for the positions of their tags. -/
theorem Legible.eq_of_writeAll_eq (hts : Legible ts) (hus : Legible us)
    (h : writeAll ts = writeAll us) : ts.map (placeAt .start) = us.map (placeAt .start) := by
  have hplaced : placed .start ts = placed .start us := by
    have hscan := scanFrom_writeAll hts .start
    rw [h, scanFrom_writeAll hus .start] at hscan
    exact (Except.ok.inj hscan).symm
  rw [← map_placeAt_placed .start .start ts, hplaced, map_placeAt_placed]

/-! ### No decomposition -/

theorem scanFrom_of_not_infix {inner : List Char} (h : ¬closeMark <:+: inner) (pos : Position) :
    scanFrom pos (openMark ++ inner) = .error pos :=
  scanFrom_of_unclosed
    (Text.cut_pair_eq_some_iff.mpr ⟨rfl, Text.clearOf_of_not_mem List.not_mem_nil⟩)
    (Text.cut_pair_eq_none_iff.mpr h)

theorem EndsClear.cons_tag (h : EndsClear ts) (body : List Char) (pos : Position) :
    EndsClear (tag body pos :: ts) := by
  intro s hs
  cases ts with
  | nil => cases hs
  | cons t ts => exact h s hs

theorem EndsClear.ofText_append {front : List Char} {t : Token} (h : EndsClear (t :: ts)) :
    EndsClear (ofText front ++ t :: ts) := by
  cases front with
  | nil => exact h
  | cons c front => exact h

/-- **The open tag.** Scanning that fails has found a legible list in front of an opening mark that
is never closed, and says where the mark is. -/
theorem exists_open_of_scanFrom {pos p : Position} {s : List Char} (h : scanFrom pos s = .error p) :
    ∃ ts inner, Legible ts ∧ EndsClear ts ∧ ¬closeMark <:+: inner ∧
      s = writeAll ts ++ (openMark ++ inner) ∧ p = pos.after (writeAll ts) := by
  fun_induction scanFrom pos s with
  | case1 pos s ho => contradiction
  | case2 pos s front inner ho here hc =>
    obtain rfl : here = p := Except.error.inj h
    obtain ⟨hs, hfront⟩ := Text.cut_pair_eq_some_iff.mp ho
    refine ⟨ofText front, inner, ?_, ?_, Text.cut_pair_eq_none_iff.mp hc, ?_, ?_⟩
    · exact legible_ofText (Text.cut_pair_eq_none_iff.mpr hfront.1)
    · intro t ht
      cases front with
      | nil => cases ht
      | cons c front =>
        obtain rfl : c :: front = t := by simpa [ofText] using ht
        exact hfront.2
    · rw [writeAll_ofText, hs, List.append_assoc, openMark]
    · rw [writeAll_ofText]
  | case3 pos s front inner ho here body rest hc ih =>
    obtain ⟨hs, hfront⟩ := Text.cut_pair_eq_some_iff.mp ho
    obtain ⟨hinner, hbody⟩ := Text.cut_pair_eq_some_iff.mp hc
    have hrest : scanFrom (here.after (openMark ++ body ++ closeMark)) rest = .error p := by
      cases hrest : scanFrom (here.after (openMark ++ body ++ closeMark)) rest with
      | ok us => rw [hrest] at h; contradiction
      | error q => rw [hrest] at h; exact h
    obtain ⟨ts, inner', hlegible, hend, hclosed, hwrite, hplace⟩ := ih hrest
    refine ⟨ofText front ++ tag body here :: ts, inner', .ofText_append_tag hfront hbody hlegible,
      (hend.cons_tag body here).ofText_append, hclosed, ?_, ?_⟩
    · rw [writeAll_append, writeAll_ofText, writeAll_cons, write, hs, hinner, hwrite]
      simp only [List.append_assoc, openMark, closeMark]
    · rw [writeAll_append, writeAll_ofText, writeAll_cons, write, Position.after_append,
        Position.after_append, hplace]

theorem scan_eq_error_iff {s : List Char} {pos : Position} :
    scan s = .error pos ↔ ∃ ts inner, Legible ts ∧ EndsClear ts ∧ ¬closeMark <:+: inner ∧
      s = writeAll ts ++ (openMark ++ inner) ∧ pos = .behind (writeAll ts) := by
  constructor
  · intro h
    obtain ⟨ts, inner, hlegible, hend, hclosed, hwrite, hplace⟩ := exists_open_of_scanFrom h
    rw [Position.start_after] at hplace
    exact ⟨ts, inner, hlegible, hend, hclosed, hwrite, hplace⟩
  · rintro ⟨ts, inner, hlegible, hend, hclosed, rfl, rfl⟩
    rw [scan, scanFrom_writeAll_append hlegible (hend.mayPrecede _), scanFrom_of_not_infix hclosed,
      Position.start_after]
    rfl

/-- **One decomposition.** Scanning finds the one legible list that writes the text, with every tag
where it stands. It fails exactly if the text is that of a legible list, an opening mark and no
closing mark behind it, and then says where this opening mark is. -/
theorem scan_decomposes (s : List Char) :
    (∀ ts, scan s = .ok ts ↔ Legible ts ∧ writeAll ts = s ∧ WellPlaced ts) ∧
    (∀ ts us, Legible ts → Legible us → writeAll ts = s → writeAll us = s →
      ts.map (placeAt .start) = us.map (placeAt .start)) ∧
    ∀ pos, scan s = .error pos ↔ ∃ ts inner, Legible ts ∧ EndsClear ts ∧ ¬closeMark <:+: inner ∧
      s = writeAll ts ++ (openMark ++ inner) ∧ pos = .behind (writeAll ts) := by
  refine ⟨fun ts ↦ scan_eq_ok_iff, ?_, fun pos ↦ scan_eq_error_iff⟩
  intro ts us hts hus hwts hwus
  exact hts.eq_of_writeAll_eq hus (hwts.trans hwus.symm)

end Token

end Pagesmith
