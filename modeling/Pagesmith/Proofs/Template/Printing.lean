import Pagesmith.Proofs.Template.Grammar
import Pagesmith.Proofs.Template.Stretches
import Pagesmith.Proofs.Template.Tokens

/-!
# Printing templates and compiling them

A tree is printed as the tokens it stands for, with every path spelled in full and an `else` only
where there is a second branch to print. Compiling what has been printed gives the tree back, for
exactly the trees that are *well formed*, and these are exactly the trees that compiling gives at
all. So printing loses nothing, and a compiled template, printed, compiles to itself.

## What is well formed

Three conditions are about text. It is not empty and holds no opening mark; two texts never follow
each other, since they would be read as one; and a text does not end in a brace, which together with
the first brace of a tag behind it would be read as an opening mark. The last condition is lifted
where nothing is printed behind the text, that is, at the end of the outermost list. The other two
conditions are that paths can be spelled, and that sections nest no deeper than 32.
-/

namespace Pagesmith

namespace Node

/-! ## Printing -/

def tag (d : Directive) : Token := .tag d.spelling .start

mutual

/-- The tokens that a node is printed as. -/
def tokens : Node → List Token
  | text s => [.text s.toList]
  | field path => [tag (.field path)]
  | conditional path thenBranch elseBranch =>
    tag (.openSection .if_ path) :: (tokensAll thenBranch ++
      ((if elseBranch.isEmpty then [] else tag .else_ :: tokensAll elseBranch) ++
        [tag (.close .if_)]))
  | iteration path body =>
    tag (.openSection .each path) :: (tokensAll body ++ [tag (.close .each)])

def tokensAll : List Node → List Token
  | [] => []
  | node :: nodes => tokens node ++ tokensAll nodes

end

/-! ## Well-formed trees -/

def isText : Node → Bool
  | text _ => true
  | field _ => false
  | conditional .. => false
  | iteration .. => false

def startsWithText (nodes : List Node) : Bool := nodes.head?.any isText

mutual

/-- Whether a node can be read back where `room` more sections may be opened; `atEnd` says that
nothing is printed behind it. -/
def WellFormed (room : Nat) (atEnd : Bool) : Node → Prop
  | text s =>
    s.toList ≠ [] ∧ ¬Token.openMark <:+: s.toList ∧
      (atEnd = false → s.toList.getLast? ≠ some '\x7b')
  | field path => path.Spellable
  | conditional path thenBranch elseBranch =>
    0 < room ∧ path.Spellable ∧ AllWellFormed (room - 1) false thenBranch ∧
      AllWellFormed (room - 1) false elseBranch
  | iteration path body =>
    0 < room ∧ path.Spellable ∧ AllWellFormed (room - 1) false body

def AllWellFormed (room : Nat) (atEnd : Bool) : List Node → Prop
  | [] => True
  | node :: nodes =>
    WellFormed room (atEnd && nodes.isEmpty) node ∧
      ¬(node.isText = true ∧ startsWithText nodes = true) ∧ AllWellFormed room atEnd nodes

end

/-! Both can be decided, by the recursion that defines them. -/

mutual

def decidableWellFormed (room : Nat) (atEnd : Bool) :
    (node : Node) → Decidable (node.WellFormed room atEnd)
  | text s =>
    inferInstanceAs (Decidable (s.toList ≠ [] ∧ ¬Token.openMark <:+: s.toList ∧
      (atEnd = false → s.toList.getLast? ≠ some '\x7b')))
  | field path => inferInstanceAs (Decidable path.Spellable)
  | conditional path thenBranch elseBranch =>
    have := decidableAllWellFormed (room - 1) false thenBranch
    have := decidableAllWellFormed (room - 1) false elseBranch
    inferInstanceAs (Decidable (0 < room ∧ path.Spellable ∧
      AllWellFormed (room - 1) false thenBranch ∧ AllWellFormed (room - 1) false elseBranch))
  | iteration path body =>
    have := decidableAllWellFormed (room - 1) false body
    inferInstanceAs (Decidable (0 < room ∧ path.Spellable ∧ AllWellFormed (room - 1) false body))

def decidableAllWellFormed (room : Nat) (atEnd : Bool) :
    (nodes : List Node) → Decidable (AllWellFormed room atEnd nodes)
  | [] => isTrue trivial
  | node :: nodes =>
    have := decidableWellFormed room (atEnd && nodes.isEmpty) node
    have := decidableAllWellFormed room atEnd nodes
    inferInstanceAs (Decidable (WellFormed room (atEnd && nodes.isEmpty) node ∧
      ¬(node.isText = true ∧ startsWithText nodes = true) ∧ AllWellFormed room atEnd nodes))

end

end Node

namespace Template

/-- The text of a template. -/
def print (t : Template) : String := String.ofList (Token.writeAll (Node.tokensAll t.nodes))

/-- Whether a template can be read back from its text. -/
def WellFormed (t : Template) : Prop := Node.AllWellFormed 32 true t.nodes

instance (t : Template) : Decidable t.WellFormed := Node.decidableAllWellFormed 32 true t.nodes

end Template

/-! ## What is printed is legible -/

namespace Node

def StartsWithTag (ts : List Token) : Prop := ∃ body pos us, ts = .tag body pos :: us

theorem startsWithTag_tag (d : Directive) (ts : List Token) : StartsWithTag (tag d :: ts) :=
  ⟨d.spelling, .start, ts, rfl⟩

/-- Every node but text is printed with a tag in front. -/
theorem startsWithTag_tokens_append {node : Node} (h : node.isText = false) (ts : List Token) :
    StartsWithTag (node.tokens ++ ts) := by
  cases node with
  | text s => contradiction
  | field path => exact startsWithTag_tag _ _
  | conditional path thenBranch elseBranch => exact startsWithTag_tag _ _
  | iteration path body => exact startsWithTag_tag _ _

theorem legible_tag_cons (d : Directive) (hd : d.Spellable) {ts : List Token}
    (hts : Token.Legible ts) : Token.Legible (tag d :: ts) :=
  .tag (Text.clearOf_of_not_mem (Directive.not_mem_spelling hd)) hts

/-- What may be printed behind a text: nothing with `atEnd`, and a tag otherwise. -/
def MayFollow (atEnd : Bool) (ts : List Token) : Prop :=
  (atEnd = true → ts = []) ∧ (atEnd = false → StartsWithTag ts)

theorem mayFollow_false {ts : List Token} (h : StartsWithTag ts) : MayFollow false ts :=
  ⟨fun h ↦ absurd h Bool.false_ne_true, fun _ ↦ h⟩

theorem mayFollow_true : MayFollow true [] :=
  ⟨fun _ ↦ rfl, fun h ↦ absurd h.symm Bool.false_ne_true⟩

theorem legible_text_cons {s : String} {room : Nat} {atEnd : Bool}
    (h : (text s).WellFormed room atEnd) {ts : List Token} (hts : Token.Legible ts)
    (hfollow : MayFollow atEnd ts) : Token.Legible (.text s.toList :: ts) := by
  obtain ⟨hne, hmark, hbrace⟩ := h
  cases atEnd with
  | true =>
    rw [hfollow.1 rfl]
    exact .last hne hmark
  | false =>
    obtain ⟨body, pos, us, rfl⟩ := hfollow.2 rfl
    exact .text hne ⟨hmark, hbrace rfl⟩ hts

/-- What follows a text in a well-formed list may follow it in print. -/
theorem mayFollow_tokensAll {atEnd : Bool} {nodes : List Node} {ts : List Token}
    (happart : startsWithText nodes = false) (hfollow : MayFollow atEnd ts) :
    MayFollow (atEnd && nodes.isEmpty) (tokensAll nodes ++ ts) := by
  cases nodes with
  | nil =>
    rw [List.isEmpty_nil, Bool.and_true]
    exact hfollow
  | cons next nodes =>
    rw [List.isEmpty_cons, Bool.and_false, tokensAll, List.append_assoc]
    exact mayFollow_false (startsWithTag_tokens_append (by simpa [startsWithText] using happart) _)

mutual

/-- A well-formed node is legible in front of legible tokens, if they may follow it. -/
theorem legible_tokens_append {room : Nat} {atEnd : Bool} {ts : List Token}
    (hts : Token.Legible ts) : ∀ {node : Node}, node.WellFormed room atEnd →
    (node.isText = true → MayFollow atEnd ts) → Token.Legible (node.tokens ++ ts)
  | text s, h, hfollow => legible_text_cons h hts (hfollow rfl)
  | field path, h, _ => legible_tag_cons (.field path) h hts
  | conditional path thenBranch elseBranch, ⟨_, hpath, hthen, helse⟩, _ => by
    have hclose : Token.Legible (tag (.close .if_) :: ts) :=
      legible_tag_cons (.close .if_) trivial hts
    have hrest : Token.Legible
        ((if elseBranch.isEmpty then [] else tag .else_ :: tokensAll elseBranch) ++
          tag (.close .if_) :: ts) := by
      split
      · exact hclose
      · exact legible_tag_cons .else_ trivial
          (legible_tokensAll_append hclose helse (mayFollow_false (startsWithTag_tag _ _)))
    have htag : StartsWithTag
        ((if elseBranch.isEmpty then [] else tag .else_ :: tokensAll elseBranch) ++
          tag (.close .if_) :: ts) := by
      split <;> exact startsWithTag_tag _ _
    rw [tokens, List.cons_append, List.append_assoc, List.append_assoc, List.singleton_append]
    exact legible_tag_cons (.openSection .if_ path) hpath
      (legible_tokensAll_append hrest hthen (mayFollow_false htag))
  | iteration path body, ⟨_, hpath, hbody⟩, _ => by
    have hclose : Token.Legible (tag (.close .each) :: ts) :=
      legible_tag_cons (.close .each) trivial hts
    rw [tokens, List.cons_append, List.append_assoc, List.singleton_append]
    exact legible_tag_cons (.openSection .each path) hpath
      (legible_tokensAll_append hclose hbody (mayFollow_false (startsWithTag_tag _ _)))

/-- Well-formed nodes are legible in front of legible tokens that may follow them. -/
theorem legible_tokensAll_append {room : Nat} {atEnd : Bool} {ts : List Token}
    (hts : Token.Legible ts) : ∀ {nodes : List Node}, AllWellFormed room atEnd nodes →
    MayFollow atEnd ts → Token.Legible (tokensAll nodes ++ ts)
  | [], _, _ => hts
  | node :: nodes, ⟨hnode, hapart, hnodes⟩, hfollow => by
    rw [tokensAll, List.append_assoc]
    refine legible_tokens_append (legible_tokensAll_append hts hnodes hfollow) hnode fun htext ↦
      mayFollow_tokensAll ?_ hfollow
    exact Bool.eq_false_iff.mpr fun h ↦ hapart ⟨htext, h⟩

end

/-- **Legibility.** What a well-formed tree is printed as can be scanned. -/
theorem legible_tokensAll {room : Nat} {nodes : List Node} (h : AllWellFormed room true nodes) :
    Token.Legible (tokensAll nodes) := by
  rw [← List.append_nil (tokensAll nodes)]
  exact legible_tokensAll_append .nil h mayFollow_true

end Node

/-! ## What is printed is read as what it was -/

namespace Stretch

theorem ofTokens_tag_cons (depth : Nat) {d : Directive} (hd : d.Spellable) (pos : Position)
    (ts : List Token) :
    ofTokens depth (.tag d.spelling pos :: ts) =
      match d with
      | .field path => (ofTokens depth ts).cons (.field path)
      | .openSection helper path =>
        if maxNesting ≤ depth then failAt pos .tooDeep
        else (ofTokens (depth + 1) ts).takeSection helper pos path
      | .else_ => upTo [] .else_ pos (ofTokens depth ts)
      | .close helper => upTo [] (.close helper) pos (ofTokens (depth - 1) ts) := by
  rw [ofTokens, Directive.ofBody_spelling hd]
  cases d <;> rfl

end Stretch

namespace Node

theorem placed_tag_cons (pos : Position) (d : Directive) (ts : List Token) :
    Token.placed pos (tag d :: ts) =
      .tag d.spelling pos :: Token.placed (pos.after (tag d).write) ts := rfl

/-- Whether `nodes` are read as what they are with `depth` sections open, whatever follows them. -/
def ReadBackAt (depth : Nat) (nodes : List Node) : Prop :=
  ∀ (pos : Position) (ts : List Token),
    Stretch.ofTokens depth (Token.placed pos (tokensAll nodes) ++ ts) =
      (Stretch.ofTokens depth ts).prepend nodes

/-- The last part of a section ends at its closing tag, behind which the depth is one less. -/
theorem ReadBackAt.close {depth : Nat} {nodes : List Node} (h : ReadBackAt (depth + 1) nodes)
    (helper : Helper) (pos : Position) (ts : List Token) :
    ∃ stopPos, Stretch.ofTokens (depth + 1)
      (Token.placed pos (tokensAll nodes ++ [tag (.close helper)]) ++ ts) =
        .upTo nodes (.close helper) stopPos (Stretch.ofTokens depth ts) := by
  refine ⟨pos.after (Token.writeAll (tokensAll nodes)), ?_⟩
  rw [Token.placed_append, List.append_assoc, h, placed_tag_cons, List.cons_append,
    Stretch.ofTokens_tag_cons (depth + 1) (d := .close helper) trivial, Stretch.prepend_upTo,
    List.append_nil]
  rfl

/-- The first branch of a conditional ends at the `else`, behind which the depth is the same. -/
theorem ReadBackAt.switch {depth : Nat} {nodes : List Node} (h : ReadBackAt depth nodes)
    (us : List Token) (pos : Position) (ts : List Token) :
    ∃ stopPos restPos, Stretch.ofTokens depth
      (Token.placed pos (tokensAll nodes ++ tag .else_ :: us) ++ ts) =
        .upTo nodes .else_ stopPos (Stretch.ofTokens depth (Token.placed restPos us ++ ts)) := by
  refine ⟨pos.after (Token.writeAll (tokensAll nodes)),
    (pos.after (Token.writeAll (tokensAll nodes))).after (tag .else_).write, ?_⟩
  rw [Token.placed_append, List.append_assoc, h, placed_tag_cons, List.cons_append,
    Stretch.ofTokens_tag_cons depth (d := .else_) trivial, Stretch.prepend_upTo, List.append_nil]

theorem ofTokens_openSection_cons (depth : Nat) (hdepth : depth < 32) (helper : Helper)
    {path : FieldPath} (hpath : path.Spellable) (pos : Position) (us ts : List Token) :
    ∃ restPos, Stretch.ofTokens depth
      (Token.placed pos (tag (.openSection helper path) :: us) ++ ts) =
        (Stretch.ofTokens (depth + 1) (Token.placed restPos us ++ ts)).takeSection helper pos
          path := by
  have hroom : ¬maxNesting ≤ depth := by rw [maxNesting]; omega
  refine ⟨pos.after (tag (.openSection helper path)).write, ?_⟩
  rw [placed_tag_cons, List.cons_append,
    Stretch.ofTokens_tag_cons depth (d := .openSection helper path) hpath]
  exact if_neg hroom

mutual

/-- A printed node is read as that node, in front of whatever follows. -/
theorem ofTokens_tokens_append {room : Nat} (depth : Nat) (hroom : depth + room ≤ 32) :
    ∀ {atEnd : Bool} {node : Node}, node.WellFormed room atEnd →
    ∀ (pos : Position) (ts : List Token),
    Stretch.ofTokens depth (Token.placed pos node.tokens ++ ts) =
      (Stretch.ofTokens depth ts).cons node
  | _, text s, _, pos, ts => by
    show (Stretch.ofTokens depth ts).cons (text (String.ofList s.toList)) = _
    rw [String.ofList_toList]
  | _, field path, h, pos, ts => Stretch.ofTokens_tag_cons depth (d := .field path) h pos ts
  | _, conditional path thenBranch elseBranch, ⟨hpos, hpath, hthen, helse⟩, pos, ts => by
    have hthen' := readBackAt_of_allWellFormed (depth + 1) (by omega) hthen
    have helse' := readBackAt_of_allWellFormed (depth + 1) (by omega) helse
    obtain ⟨openPos, hopen⟩ := ofTokens_openSection_cons depth (by omega) .if_ hpath pos
      (tokensAll thenBranch ++
        ((if elseBranch.isEmpty then [] else tag .else_ :: tokensAll elseBranch) ++
          [tag (.close .if_)])) ts
    rw [tokens, hopen]
    -- without a second branch there is no `else`, and the closing tag ends the first one
    cases elseBranch with
    | nil =>
      obtain ⟨stopPos, hclose⟩ := hthen'.close .if_ openPos ts
      rw [List.isEmpty_nil, if_pos rfl, List.nil_append, hclose]
      rfl
    | cons node nodes =>
      rw [List.isEmpty_cons, if_neg Bool.false_ne_true, List.cons_append]
      obtain ⟨elsePos, restPos, hswitch⟩ := hthen'.switch
        (tokensAll (node :: nodes) ++ [tag (.close .if_)]) openPos ts
      obtain ⟨stopPos, hclose⟩ := helse'.close .if_ restPos ts
      rw [hswitch, hclose]
      rfl
  | _, iteration path body, ⟨hpos, hpath, hbody⟩, pos, ts => by
    have hbody' := readBackAt_of_allWellFormed (depth + 1) (by omega) hbody
    obtain ⟨openPos, hopen⟩ := ofTokens_openSection_cons depth (by omega) .each hpath pos
      (tokensAll body ++ [tag (.close .each)]) ts
    obtain ⟨stopPos, hclose⟩ := hbody'.close .each openPos ts
    rw [tokens, hopen, hclose]
    rfl

/-- Printed nodes are read as those nodes, in front of whatever follows. -/
theorem readBackAt_of_allWellFormed {room : Nat} (depth : Nat) (hroom : depth + room ≤ 32) :
    ∀ {atEnd : Bool} {nodes : List Node}, AllWellFormed room atEnd nodes → ReadBackAt depth nodes
  | _, [], _ => fun _ _ ↦ rfl
  | _, node :: nodes, ⟨hnode, _, hnodes⟩ => by
    intro pos ts
    rw [tokensAll, Token.placed_append, List.append_assoc, ofTokens_tokens_append depth hroom hnode,
      readBackAt_of_allWellFormed depth hroom hnodes, Stretch.prepend_cons]

end

end Node

/-- **Printing and compiling.** A well-formed tree is compiled from its text. -/
theorem Template.compile_print_of_wellFormed {t : Template} (h : t.WellFormed) :
    Template.compile t.print = .ok t := by
  have hscan : Token.scan t.print.toList = .ok (Token.placed .start (Node.tokensAll t.nodes)) := by
    rw [print, String.toList_ofList]
    exact Token.scanFrom_writeAll (Node.legible_tokensAll h) .start
  have hread : Stretch.ofTokens 0 (Token.placed .start (Node.tokensAll t.nodes)) =
      .done t.nodes := by
    have := Node.readBackAt_of_allWellFormed 0 (by omega) h .start []
    rwa [List.append_nil, Stretch.ofTokens, Stretch.prepend_done, List.append_nil] at this
  rw [Template.compile_eq_map_of_scan hscan, Node.ofTokens_eq, hread]
  rfl

end Pagesmith
