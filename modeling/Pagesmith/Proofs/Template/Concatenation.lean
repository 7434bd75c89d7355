import Pagesmith.Proofs.Template.Sections
import Pagesmith.Proofs.Template.Tokens
import Pagesmith.Template.Render

/-!
# Templates one behind the other

The text of a template may be followed by that of another one. The whole compiles if both do, and
is filled in as the one and then the other; a fault in the second is found where it stands in the
whole. There is one exception: a brace at the end of the first and a brace at the beginning of the
second make an opening mark, which belongs to neither.

## The seam

Three things are carried over the seam by scanning and reading, and all three are as at the
beginning of a text. No tag is open behind a text that compiles, so scanning goes on with literal
text. No section is open, so the sections of the second text are nested as deep as they would be
alone. And the place is behind the first text, which moves the places of all tags of the second by
the same `shift`. What is not as at the beginning is literal text: if the first ends in it and the
second begins with it, it becomes one node.
-/

namespace Pagesmith

/-! ## Places behind a text -/

namespace Position

/-- A place in a text, when the text `front` comes before: the line moves by the line breaks of
`front`, and the column, on the first line, by the characters of its last line. -/
def shift (front : List Char) (p : Position) : Position :=
  ⟨p.line + front.count '\n',
    if p.line = 1 then p.column + (front.rtakeWhile (· ≠ '\n')).length else p.column⟩

@[simp] theorem shift_nil (p : Position) : p.shift [] = p := by
  obtain ⟨line, column⟩ := p
  rw [shift]
  split <;> rfl

theorem start_after_eq_shift (front : List Char) : start.after front = start.shift front := by
  rw [start_after, behind, shift, start, if_pos rfl]

theorem one_le_line_after {p : Position} (h : 1 ≤ p.line) (s : List Char) :
    1 ≤ (p.after s).line := by
  induction s generalizing p with
  | nil => exact h
  | cons c s ih =>
    refine ih (p := p.step c) ?_
    rw [step]
    split
    · exact Nat.le_add_left 1 p.line
    · exact h

theorem step_shift {p : Position} (h : 1 ≤ p.line) (front : List Char) (c : Char) :
    (p.shift front).step c = (p.step c).shift front := by
  rw [step, step]
  by_cases hc : c = '\n'
  · have hline : p.line + 1 ≠ 1 := by omega
    rw [if_pos hc, if_pos hc, shift, shift, if_neg hline, Nat.add_right_comm]
  · rw [if_neg hc, if_neg hc, shift, shift]
    by_cases hline : p.line = 1
    · simp only [if_pos hline, Nat.add_right_comm]
    · simp only [if_neg hline]

theorem after_shift {p : Position} (h : 1 ≤ p.line) (front s : List Char) :
    (p.shift front).after s = (p.after s).shift front := by
  induction s generalizing p with
  | nil => rfl
  | cons c s ih =>
    have hstep : 1 ≤ (p.step c).line := one_le_line_after h [c]
    show ((p.shift front).step c).after s = ((p.step c).after s).shift front
    rw [step_shift h, ih hstep]

end Position

/-! ## Scanning behind a text -/

namespace Token

def shift (front : List Char) : Token → Token
  | text s => text s
  | tag body pos => tag body (pos.shift front)

@[simp] theorem shift_nil (t : Token) : t.shift [] = t := by
  cases t with
  | text s => rfl
  | tag body pos => rw [shift, Position.shift_nil]

theorem map_shift_ofText (front s : List Char) : (ofText s).map (shift front) = ofText s := by
  cases s <;> rfl

/-- Behind a text the same tokens are found, or the same mark that is never closed. -/
theorem scanFrom_shift (front : List Char) {p : Position} (h : 1 ≤ p.line) (s : List Char) :
    scanFrom (p.shift front) s =
      ((scanFrom p s).map (List.map (shift front))).mapError (Position.shift front) := by
  fun_induction scanFrom p s with
  | case1 p s ho =>
    rw [scanFrom_of_no_tag ho]
    exact congrArg Except.ok (map_shift_ofText front s).symm
  | case2 p s before inner ho here hc =>
    rw [scanFrom_of_unclosed ho hc, Position.after_shift h]
    rfl
  | case3 p s before inner ho here body rest hc ih =>
    have hhere : 1 ≤ here.line := Position.one_le_line_after h before
    have hbehind := Position.one_le_line_after hhere (openMark ++ body ++ closeMark)
    rw [scanFrom_of_tag ho hc, Position.after_shift h, write, Position.after_shift hhere,
      ih hbehind]
    cases scanFrom (here.after (openMark ++ body ++ closeMark)) rest with
    | error q => rfl
    | ok ts =>
      show Except.ok _ = Except.ok (List.map (shift front) (ofText before ++ tag body here :: ts))
      rw [List.map_append, map_shift_ofText]
      rfl

/-- What two lists of tokens are joined to: they stand one behind the other, or two literal texts
that meet have become one. -/
theorem join_cases (ts us : List Token) :
    join ts us = ts ++ us ∨ ∃ front s t back, ts = front ++ [text s] ∧ us = text t :: back ∧
      join ts us = front ++ text (s ++ t) :: back := by
  induction ts with
  | nil => exact .inl rfl
  | cons u ts ih =>
    have hstep (hjoin : join (u :: ts) us = u :: join ts us) :
        join (u :: ts) us = u :: ts ++ us ∨ ∃ front s t back,
          u :: ts = front ++ [text s] ∧ us = text t :: back ∧
            join (u :: ts) us = front ++ text (s ++ t) :: back := by
      rw [hjoin]
      obtain hjoin | ⟨front, s, t, back, rfl, rfl, hjoin⟩ := ih
      · exact .inl (congrArg (u :: ·) hjoin)
      · exact .inr ⟨u :: front, s, t, back, rfl, rfl, congrArg (u :: ·) hjoin⟩
    -- only a last literal text is joined to what follows
    cases u with
    | tag body pos => exact hstep rfl
    | text s =>
      cases ts with
      | cons v ts => exact hstep rfl
      | nil =>
        cases us with
        | nil => exact .inl rfl
        | cons v us =>
          cases v with
          | tag body pos => exact .inl rfl
          | text t => exact .inr ⟨[], s, t, us, rfl, rfl, rfl⟩

end Token

/-! ## Reading behind a text -/

def SyntaxError.shift (front : List Char) (e : SyntaxError) : SyntaxError :=
  ⟨e.pos.shift front, e.cause⟩

namespace SectionStack

/-- The state with these open sections, when the text `front` and its `nodes` come before everything
that has been read. -/
def shiftIn (front : List Char) (nodes : List Node) : List OpenSection → List Node → SectionStack
  | [], read => ⟨[], nodes ++ read⟩
  | top :: below, read =>
    let outside := shiftIn front nodes below top.before
    ⟨{ top with pos := top.pos.shift front, before := outside.nodes } :: outside.sections, read⟩

/-- The state of a pass, when the text `front` and its `nodes` come before everything that has been
read. -/
def shift (front : List Char) (nodes : List Node) (s : SectionStack) : SectionStack :=
  shiftIn front nodes s.sections s.nodes

/-- What a part of a pass comes to, when the text `front` and its `nodes` come before everything
that is read. -/
def shiftResult (front : List Char) (nodes : List Node) (r : Except SyntaxError SectionStack) :
    Except SyntaxError SectionStack :=
  (r.map (shift front nodes)).mapError (.shift front)

variable (front : List Char) (nodes : List Node)

theorem length_sections_shift (s : SectionStack) :
    (s.shift front nodes).sections.length = s.sections.length := by
  obtain ⟨sections, read⟩ := s
  induction sections generalizing read with
  | nil => rfl
  | cons top below ih => exact congrArg (· + 1) (ih top.before)

theorem shift_push (s : SectionStack) (node : Node) :
    (s.push node).shift front nodes = (s.shift front nodes).push node := by
  obtain ⟨sections, read⟩ := s
  cases sections with
  | nil => exact congrArg (SectionStack.mk []) (List.append_assoc nodes read [node]).symm
  | cons top below => rfl

theorem openSection_shift (s : SectionStack) (helper : Helper) (path : FieldPath)
    (pos : Position) : (s.shift front nodes).openSection helper path (pos.shift front) =
      shiftResult front nodes (s.openSection helper path pos) := by
  rw [openSection, openSection, length_sections_shift]
  by_cases h : 32 ≤ s.sections.length
  · rw [if_pos h, if_pos h]
    rfl
  · rw [if_neg h, if_neg h]
    rfl

theorem switchBranch_shift (s : SectionStack) (pos : Position) :
    (s.shift front nodes).switchBranch (pos.shift front) =
      shiftResult front nodes (s.switchBranch pos) := by
  obtain ⟨sections, read⟩ := s
  cases sections with
  | nil => rfl
  | cons top below =>
    obtain ⟨part, opened, path, before⟩ := top
    cases part <;> rfl

theorem closeSection_shift (s : SectionStack) (helper : Helper) (pos : Position) :
    (s.shift front nodes).closeSection helper (pos.shift front) =
      shiftResult front nodes (s.closeSection helper pos) := by
  obtain ⟨sections, read⟩ := s
  cases sections with
  | nil => rfl
  | cons top below =>
    rw [shift, shiftIn, closeSection, closeSection]
    by_cases h : top.part.helper = helper
    · simp only [if_pos h]
      -- the section becomes a node of the list it was opened in, which has moved along
      have hpush := shift_push front nodes ⟨below, top.before⟩ (top.part.node top.path read)
      exact congrArg Except.ok hpush.symm
    · simp only [if_neg h]
      rfl

/-- **The step.** One token is read behind a text as it would be read without it, up to `shift`. -/
theorem read_shift (s : SectionStack) (token : Token) :
    (s.shift front nodes).read (token.shift front) = shiftResult front nodes (s.read token) := by
  cases token with
  | text t => exact congrArg Except.ok (shift_push front nodes s _).symm
  | tag body pos =>
    rw [Token.shift, read, read]
    cases Directive.ofBody body with
    | error fault => rfl
    | ok directive =>
      cases directive with
      | field path => exact congrArg Except.ok (shift_push front nodes s _).symm
      | openSection helper path => exact openSection_shift front nodes s helper path pos
      | else_ => exact switchBranch_shift front nodes s pos
      | close helper => exact closeSection_shift front nodes s helper pos

theorem foldlM_read_shift (tokens : List Token) (s : SectionStack) :
    (tokens.map (Token.shift front)).foldlM read (s.shift front nodes) =
      shiftResult front nodes (tokens.foldlM read s) := by
  induction tokens generalizing s with
  | nil => rfl
  | cons token tokens ih =>
    rw [List.map_cons, List.foldlM_cons, List.foldlM_cons, read_shift]
    cases s.read token with
    | error e => rfl
    | ok t => exact ih t

theorem finish_shift (s : SectionStack) :
    (s.shift front nodes).finish = (s.finish.map (nodes ++ ·)).mapError (.shift front) := by
  obtain ⟨sections, read⟩ := s
  cases sections <;> rfl

/-- What `tokens` are read as from the state `s`. -/
def parseFrom (s : SectionStack) (tokens : List Token) : Except SyntaxError (List Node) := do
  let last ← tokens.foldlM read s
  last.finish

/-- **The run.** The tokens of a text are read behind another text as they would be read alone: the
nodes are those of both, and a fault is where it is in the whole. -/
theorem parseFrom_shift (tokens : List Token) :
    parseFrom ⟨[], nodes⟩ (tokens.map (Token.shift front)) =
      ((parse tokens).map (nodes ++ ·)).mapError (.shift front) := by
  have hempty : empty.shift front nodes = ⟨[], nodes⟩ :=
    congrArg (SectionStack.mk []) (List.append_nil nodes)
  rw [← hempty, parseFrom, foldlM_read_shift, parse]
  cases tokens.foldlM read empty with
  | error e => rfl
  | ok last => exact finish_shift front nodes last

theorem parseFrom_nodes (tokens : List Token) :
    parseFrom ⟨[], nodes⟩ tokens = (parse tokens).map (nodes ++ ·) := by
  have hshift := parseFrom_shift [] nodes tokens
  have htokens : tokens.map (Token.shift []) = tokens := by
    rw [List.map_congr_left (fun t _ ↦ t.shift_nil), List.map_id']
  rw [htokens] at hshift
  rw [hshift]
  cases parse tokens with
  | error e => exact congrArg Except.error (by rw [SyntaxError.shift, Position.shift_nil])
  | ok ms => rfl

/-! ## Over the seam -/

theorem parseFrom_append {s s' : SectionStack} {ts : List Token} (h : ts.foldlM read s = .ok s')
    (us : List Token) : parseFrom s (ts ++ us) = parseFrom s' us := by
  rw [parseFrom, List.foldlM_append, h]
  rfl

theorem parseFrom_text_cons (s : SectionStack) (t : List Char) (us : List Token) :
    parseFrom s (.text t :: us) = parseFrom (s.push (.text (String.ofList t))) us := rfl

/-- Behind tokens that are a whole template, no section is open. -/
theorem foldlM_read_of_parse {ts : List Token} {ns : List Node} (h : parse ts = .ok ns) :
    ts.foldlM read empty = .ok ⟨[], ns⟩ := by
  rw [parse] at h
  cases hlast : ts.foldlM read empty with
  | error e =>
    rw [hlast] at h
    contradiction
  | ok last =>
    rw [hlast] at h
    obtain ⟨sections, nodes⟩ := last
    cases sections with
    | nil =>
      obtain rfl : nodes = ns := Except.ok.inj h
      rfl
    | cons top below => contradiction

theorem foldlM_read_of_parse_concat {ts : List Token} {s : List Char} {ns : List Node}
    (h : parse (ts ++ [.text s]) = .ok ns) :
    ∃ before, ts.foldlM read empty = .ok ⟨[], before⟩ ∧
      ns = before ++ [.text (String.ofList s)] := by
  have hlast := foldlM_read_of_parse h
  rw [List.foldlM_append] at hlast
  cases hbefore : ts.foldlM read empty with
  | error e =>
    rw [hbefore] at hlast
    contradiction
  | ok state =>
    rw [hbefore] at hlast
    obtain ⟨sections, before⟩ := state
    cases Except.ok.inj hlast
    exact ⟨before, rfl, rfl⟩

end SectionStack

/-- One list of nodes behind another, as one list. Two literal texts that meet may have become
one. -/
inductive Node.Joined : List Node → List Node → List Node → Prop
  | apart (ns ms : List Node) : Joined ns ms (ns ++ ms)
  | within (ns : List Node) (s t : String) (ms : List Node) :
    Joined (ns ++ [.text s]) (.text t :: ms) (ns ++ .text (s ++ t) :: ms)

namespace SectionStack

/-- Joined tokens are read to joined nodes, or to the fault in those behind. -/
theorem parse_join {ts : List Token} {ns : List Node} (h : parse ts = .ok ns) (front : List Char)
    (us : List Token) :
    (∀ e, parse us = .error e →
      parse (Token.join ts (us.map (Token.shift front))) = .error (e.shift front)) ∧
    ∀ ms, parse us = .ok ms →
      ∃ ks, parse (Token.join ts (us.map (Token.shift front))) = .ok ks ∧ Node.Joined ns ms ks := by
  obtain hjoin | ⟨ts, s, t, back, rfl, hus, hjoin⟩ :=
    Token.join_cases ts (us.map (Token.shift front))
  · have hparse := (parseFrom_append (foldlM_read_of_parse h) _).trans (parseFrom_shift front ns us)
    rw [hjoin]
    constructor
    · intro e he
      rw [he] at hparse
      exact hparse
    · intro ms hms
      rw [hms] at hparse
      exact ⟨ns ++ ms, hparse, .apart ns ms⟩
  · obtain ⟨before, hbefore, rfl⟩ := foldlM_read_of_parse_concat h
    obtain ⟨u, us, rfl, hu, rfl⟩ := List.map_eq_cons_iff.mp hus
    obtain rfl : u = .text t := by
      cases u with
      | text t' => exact hu
      | tag body pos => contradiction
    -- the literal text is read first, by itself or with the one in front of it
    have halone : parse (.text t :: us) =
        (parse us).map ([.text (String.ofList t)] ++ ·) :=
      (parseFrom_text_cons empty t us).trans (parseFrom_nodes _ us)
    have hparse : parse (ts ++ .text (s ++ t) :: us.map (Token.shift front)) =
        ((parse us).map (before ++ [.text (String.ofList (s ++ t))] ++ ·)).mapError
          (.shift front) :=
      (parseFrom_append hbefore _).trans
        ((parseFrom_text_cons _ (s ++ t) _).trans (parseFrom_shift front _ us))
    rw [hjoin, hparse, halone]
    cases parse us with
    | error e =>
      constructor
      · rintro e' ⟨⟩
        rfl
      · intro ms hms
        contradiction
    | ok rest =>
      constructor
      · intro e he
        contradiction
      · rintro ms ⟨⟩
        refine ⟨_, rfl, ?_⟩
        show Node.Joined _ _ (before ++ [.text (String.ofList (s ++ t))] ++ rest)
        rw [List.append_assoc, String.ofList_append]
        exact .within before _ _ rest

end SectionStack

/-! ## Filling in -/

namespace Node

theorem renderAll_append (s : Scope) (ns ms : List Node) :
    renderAll s (ns ++ ms) =
      (do
        let first ← renderAll s ns
        let second ← renderAll s ms
        .ok (first ++ second)) := by
  induction ns with
  | nil =>
    show renderAll s ms = (renderAll s ms).bind fun second ↦ .ok ("" ++ second)
    cases renderAll s ms with
    | error cause => rfl
    | ok text => exact congrArg Except.ok (String.empty_append).symm
  | cons node ns ih =>
    rw [List.cons_append, renderAll, ih, renderAll]
    cases node.render s with
    | error cause => rfl
    | ok first =>
      cases renderAll s ns with
      | error cause => rfl
      | ok rest =>
        cases renderAll s ms with
        | error cause => rfl
        | ok second => exact congrArg Except.ok (String.append_assoc).symm

/-- A literal text comes to the same in one piece and in two. -/
theorem renderAll_text_append (s : Scope) (a b : String) (ms : List Node) :
    renderAll s (.text (a ++ b) :: ms) = renderAll s ([.text a] ++ .text b :: ms) := by
  rw [List.singleton_append, renderAll, renderAll, renderAll]
  show (renderAll s ms).bind (fun rest ↦ .ok (a ++ b ++ rest)) =
    ((renderAll s ms).bind fun rest ↦ .ok (b ++ rest)).bind fun rest ↦ .ok (a ++ rest)
  cases renderAll s ms with
  | error cause => rfl
  | ok text => exact congrArg Except.ok String.append_assoc

theorem Joined.renderAll_eq {ns ms ks : List Node} (h : Joined ns ms ks) (s : Scope) :
    renderAll s ks =
      (do
        let first ← renderAll s ns
        let second ← renderAll s ms
        .ok (first ++ second)) := by
  rw [← renderAll_append]
  cases h with
  | apart ns ms => rfl
  | within ns a b ms =>
    rw [List.append_assoc, renderAll_append, renderAll_text_append, ← renderAll_append]

end Node

/-! ## Texts -/

namespace Token

/-- A literal text at the end of some tokens is the end of their text. -/
theorem mayPrecede_of_getLast? {ts : List Token} {t : List Char}
    (hseam : (writeAll ts).getLast? = some '\x7b' → t.head? ≠ some '\x7b') : MayPrecede ts t := by
  intro s hs hlast
  refine hseam ?_
  obtain ⟨ts, rfl⟩ := List.getLast?_eq_some_iff.mp hs
  rw [writeAll_append, writeAll_cons, writeAll_nil, List.append_nil, write,
    List.getLast?_append, hlast]
  rfl

/-- **Scanning over the seam.** Behind a text that can be scanned, another text is scanned as it
would be alone. -/
theorem scan_append {s t : List Char} {ts : List Token} (hs : scan s = .ok ts)
    (hseam : s.getLast? = some '\x7b' → t.head? ≠ some '\x7b') :
    scan (s ++ t) =
      ((scan t).map fun us ↦ join ts (us.map (shift s))).mapError (Position.shift s) := by
  obtain ⟨hlegible, rfl, hplaced⟩ := legible_of_scanFrom hs
  rw [scan, scanFrom_writeAll_append hlegible (mayPrecede_of_getLast? hseam), hplaced,
    Position.start_after_eq_shift, scanFrom_shift _ (Nat.le_refl 1), scan]
  cases scanFrom .start t <;> rfl

end Token

namespace Template

theorem compile_eq_map_parse {source : String} {ts : List Token}
    (h : Token.scan source.toList = .ok ts) :
    compile source = (SectionStack.parse ts).map mk := by
  rw [compile_eq_map_of_scan h, SectionStack.parse_eq_ofTokens]

theorem exists_tokens_of_compile {source : String} {a : Template} (h : compile source = .ok a) :
    ∃ ts, Token.scan source.toList = .ok ts ∧ SectionStack.parse ts = .ok a.nodes := by
  cases hts : Token.scan source.toList with
  | error pos =>
    rw [compile_eq_error_of_scan hts] at h
    contradiction
  | ok ts =>
    rw [compile_eq_map_parse hts] at h
    refine ⟨ts, rfl, ?_⟩
    cases hparse : SectionStack.parse ts with
    | error e =>
      rw [hparse] at h
      contradiction
    | ok ns =>
      rw [hparse] at h
      exact congrArg (Except.ok ∘ nodes) (Except.ok.inj h)

/-- **Templates compose.** Behind a text that compiles, unless an opening mark is made at the seam,
another text that compiles makes a whole that compiles and is filled in as the one and then the
other, or fails as the first of them that fails; and a fault in another text is found in the whole,
where it stands there. -/
theorem compile_append {s t : String} {a : Template} (hs : compile s = .ok a)
    (hseam : s.toList.getLast? = some '\x7b' → t.toList.head? ≠ some '\x7b') :
    (∀ b, compile t = .ok b → ∃ c, compile (s ++ t) = .ok c ∧ ∀ data,
      c.render data =
        (do
          let first ← a.render data
          let second ← b.render data
          .ok (first ++ second))) ∧
    ∀ e, compile t = .error e → compile (s ++ t) = .error (e.shift s.toList) := by
  obtain ⟨ts, hts, hns⟩ := exists_tokens_of_compile hs
  have happend := Token.scan_append hts hseam
  rw [← String.toList_append] at happend
  constructor
  · intro b hb
    obtain ⟨us, hus, hms⟩ := exists_tokens_of_compile hb
    obtain ⟨ks, hks, hjoined⟩ := (SectionStack.parse_join hns s.toList us).2 _ hms
    rw [hus] at happend
    refine ⟨⟨ks⟩, ?_, fun data ↦ hjoined.renderAll_eq (.root data)⟩
    rw [compile_eq_map_parse happend, hks]
    rfl
  · intro e he
    cases hus : Token.scan t.toList with
    | error pos =>
      rw [hus] at happend
      rw [compile_eq_error_of_scan hus] at he
      cases he
      exact compile_eq_error_of_scan happend
    | ok us =>
      rw [hus] at happend
      have hparse : SectionStack.parse us = .error e := by
        rw [compile_eq_map_parse hus] at he
        cases hms : SectionStack.parse us with
        | error e' =>
          rw [hms] at he
          exact congrArg Except.error (Except.error.inj he)
        | ok ms =>
          rw [hms] at he
          contradiction
      rw [compile_eq_map_parse happend, (SectionStack.parse_join hns s.toList us).1 e hparse]
      rfl

/-- A brace at the end of the first text is no exception, and literal text meets at the seam. The
second text closes a section on its second line. -/
theorem compile_append_closing :
    let s := "a\n\x7b\x7bx\x7d\x7d \x7b"
    let t := "b\x7b\x7by\x7d\x7d"
    let u := "b\n c\x7b\x7b/if\x7d\x7d"
    let v := "b\x7b\x7b/if\x7d\x7d"
    (∃ c, compile (s ++ t) = .ok c ∧
      c.render (.object [("x", .bool true), ("y", .null)]) = .ok "a\ntrue \x7bb") ∧
    compile (s ++ u) = .error ⟨⟨3, 3⟩, .closeWithoutOpen .if_⟩ ∧
    compile (s ++ v) = .error ⟨⟨2, 9⟩, .closeWithoutOpen .if_⟩ := by
  intro s t u v
  have hs : compile s = .ok ⟨[.text "a\n", .field ⟨.current, ["x"]⟩, .text " \x7b"]⟩ := by
    decide +kernel
  have ht : compile t = .ok ⟨[.text "b", .field ⟨.current, ["y"]⟩]⟩ := by decide +kernel
  have hu : compile u = .error ⟨⟨2, 3⟩, .closeWithoutOpen .if_⟩ := by decide +kernel
  have hv : compile v = .error ⟨⟨1, 2⟩, .closeWithoutOpen .if_⟩ := by decide +kernel
  obtain ⟨c, hc, hrender⟩ := (compile_append hs (t := t) (by decide)).1 _ ht
  have hsu := (compile_append hs (t := u) (by decide)).2 _ hu
  have hsv := (compile_append hs (t := v) (by decide)).2 _ hv
  exact ⟨⟨c, hc, (hrender _).trans (by decide)⟩, hsu.trans (by decide), hsv.trans (by decide)⟩

/-- Where both texts have their brace at the seam, the whole need not compile. -/
example : compile ("\x7b" ++ "\x7b") = .error ⟨⟨1, 1⟩, .unclosedTag⟩ := by decide +kernel

end Template

end Pagesmith
