import Pagesmith.Proofs.Template.Printing

/-!
# The trees that compiling gives

Every tree that compiling gives is well formed. The invariant is carried by stretches: at depth `d`
the nodes of a stretch are well formed with room for `32 - d` more sections, and so is what follows
the tag that ends them, at the depth behind that tag. Only the nodes in front of the end of the text
may end in a brace, because a stretch that a tag ends has that tag behind its last node.

That two texts never meet comes from the tokens: a text is followed by a tag, and no stretch that
starts with a tag has a text in front.
-/

namespace Pagesmith

namespace Node

/-- What is well formed in front of a tag is well formed at the end. -/
theorem WellFormed.mono {room : Nat} {node : Node} (h : node.WellFormed room false)
    (atEnd : Bool) : node.WellFormed room atEnd := by
  cases node with
  | text s => exact ⟨h.1, h.2.1, fun _ ↦ h.2.2 rfl⟩
  | field path => exact h
  | conditional path thenBranch elseBranch => exact h
  | iteration path body => exact h

end Node

namespace Stretch

/-- The nodes in front of the first thing that ends them. -/
def front : Stretch → List Node
  | done nodes => nodes
  | failed _ => []
  | upTo nodes _ _ _ => nodes

def Stop.depthBehind (depth : Nat) : Stop → Nat
  | .else_ => depth
  | .close _ => depth - 1

/-- Whether all nodes of a stretch are well formed, when `depth` sections are open before it. -/
def WellFormed (depth : Nat) : Stretch → Prop
  | done nodes => Node.AllWellFormed (32 - depth) true nodes
  | failed _ => True
  | upTo nodes stop _ rest =>
    Node.AllWellFormed (32 - depth) false nodes ∧ rest.WellFormed (Stop.depthBehind depth stop)

/-! ## Nodes in front -/

/-- A node that is well formed in front of a tag may stand in front of any stretch, except that a
text may not stand in front of a text. -/
theorem WellFormed.cons {depth : Nat} {s : Stretch} (hs : s.WellFormed depth) {node : Node}
    (hnode : node.WellFormed (32 - depth) false)
    (hapart : node.isText = true → Node.startsWithText s.front = false) :
    (s.cons node).WellFormed depth := by
  have hapart' : ¬(node.isText = true ∧ Node.startsWithText s.front = true) := by
    rintro ⟨htext, hstarts⟩
    rw [hapart htext] at hstarts
    contradiction
  cases s with
  | done nodes => exact ⟨hnode.mono _, hapart', hs⟩
  | failed error => trivial
  | upTo nodes stop pos rest => exact ⟨⟨hnode.mono _, hapart', hs.1⟩, hs.2⟩

theorem WellFormed.cons_section {depth : Nat} {s : Stretch} (hs : s.WellFormed depth) {node : Node}
    (hnode : node.WellFormed (32 - depth) false) (hsection : node.isText = false) :
    (s.cons node).WellFormed depth := by
  refine hs.cons hnode fun htext ↦ ?_
  rw [hsection] at htext
  contradiction

/-! ## Sections -/

variable {depth : Nat} {pos : Position} {path : FieldPath} {s : Stretch}

theorem WellFormed.takeElse (hdepth : depth < 32) (hpath : path.Spellable) {thenBranch : List Node}
    (hthen : Node.AllWellFormed (32 - depth - 1) false thenBranch)
    (hs : s.WellFormed (depth + 1)) : (s.takeElse pos path thenBranch).WellFormed depth := by
  cases s with
  | done nodes => trivial
  | failed error => trivial
  | upTo nodes stop stopPos rest =>
    obtain ⟨hnodes, hrest⟩ := hs
    cases stop with
    | else_ => trivial
    | close helper =>
      cases helper with
      | each => trivial
      | if_ =>
        have hnode : (Node.conditional path thenBranch nodes).WellFormed (32 - depth) false :=
          ⟨by omega, hpath, hthen, hnodes⟩
        exact hrest.cons_section hnode rfl

theorem WellFormed.takeIf (hdepth : depth < 32) (hpath : path.Spellable)
    (hs : s.WellFormed (depth + 1)) : (s.takeIf pos path).WellFormed depth := by
  cases s with
  | done nodes => trivial
  | failed error => trivial
  | upTo nodes stop stopPos rest =>
    obtain ⟨hnodes, hrest⟩ := hs
    cases stop with
    | else_ => exact WellFormed.takeElse hdepth hpath hnodes hrest
    | close helper =>
      cases helper with
      | each => trivial
      | if_ =>
        have hnode : (Node.conditional path nodes []).WellFormed (32 - depth) false :=
          ⟨by omega, hpath, hnodes, trivial⟩
        exact hrest.cons_section hnode rfl

theorem WellFormed.takeEach (hdepth : depth < 32) (hpath : path.Spellable)
    (hs : s.WellFormed (depth + 1)) : (s.takeEach pos path).WellFormed depth := by
  cases s with
  | done nodes => trivial
  | failed error => trivial
  | upTo nodes stop stopPos rest =>
    obtain ⟨hnodes, hrest⟩ := hs
    cases stop with
    | else_ => trivial
    | close helper =>
      cases helper with
      | if_ => trivial
      | each =>
        have hnode : (Node.iteration path nodes).WellFormed (32 - depth) false :=
          ⟨by omega, hpath, hnodes⟩
        exact hrest.cons_section hnode rfl

/-- **Sections.** What a section is taken off at one depth more leaves a well-formed stretch. -/
theorem WellFormed.takeSection (hdepth : depth < 32) (hpath : path.Spellable) (helper : Helper)
    (hs : s.WellFormed (depth + 1)) : (s.takeSection helper pos path).WellFormed depth := by
  cases helper with
  | if_ => exact hs.takeIf hdepth hpath
  | each => exact hs.takeEach hdepth hpath

/-! ## Tags in front -/

theorem startsWithText_front_cons {node : Node} (h : node.isText = false) (s : Stretch) :
    Node.startsWithText (s.cons node).front = false := by
  cases s with
  | done nodes => exact h
  | failed error => rfl
  | upTo nodes stop pos rest => exact h

/-- The node of a section is in front of what is left, or there is a fault. -/
theorem startsWithText_front_takeElse (pos : Position) (path : FieldPath) (thenBranch : List Node)
    (s : Stretch) : Node.startsWithText (s.takeElse pos path thenBranch).front = false := by
  cases s with
  | done nodes => rfl
  | failed error => rfl
  | upTo nodes stop stopPos rest =>
    cases stop with
    | else_ => rfl
    | close helper =>
      cases helper with
      | if_ => exact startsWithText_front_cons rfl rest
      | each => rfl

theorem startsWithText_front_takeSection (helper : Helper) (pos : Position) (path : FieldPath)
    (s : Stretch) : Node.startsWithText (s.takeSection helper pos path).front = false := by
  cases s with
  | done nodes => cases helper <;> rfl
  | failed error => cases helper <;> rfl
  | upTo nodes stop stopPos rest =>
    cases helper with
    | if_ =>
      cases stop with
      | else_ => exact startsWithText_front_takeElse pos path nodes rest
      | close closed =>
        cases closed with
        | if_ => exact startsWithText_front_cons rfl rest
        | each => rfl
    | each =>
      cases stop with
      | else_ => rfl
      | close closed =>
        cases closed with
        | if_ => rfl
        | each => exact startsWithText_front_cons rfl rest

/-- A stretch that begins with a tag has no text in front. -/
theorem startsWithText_front_ofTokens (depth : Nat) (body : List Char) (pos : Position)
    (ts : List Token) :
    Node.startsWithText (ofTokens depth (.tag body pos :: ts)).front = false := by
  rw [ofTokens]
  cases Directive.ofBody body with
  | error cause => rfl
  | ok d =>
    cases d with
    | field path => exact startsWithText_front_cons rfl _
    | openSection helper path =>
      show Node.startsWithText (if maxNesting ≤ depth then failAt pos .tooDeep else
        (ofTokens (depth + 1) ts).takeSection helper pos path).front = false
      split
      · rfl
      · exact startsWithText_front_takeSection helper pos path _
    | else_ => rfl
    | close helper => rfl

/-! ## The invariant -/

/-- A stretch that begins with a tag is well formed if what follows the tag is, at any depth. -/
theorem wellFormed_ofTokens_tag {ts : List Token}
    (hts : ∀ depth, (ofTokens depth ts).WellFormed depth) (depth : Nat) (body : List Char)
    (pos : Position) : (ofTokens depth (.tag body pos :: ts)).WellFormed depth := by
  rw [ofTokens]
  cases hd : Directive.ofBody body with
  | error cause => trivial
  | ok d =>
    have hspell := Directive.spellable_of_ofBody hd
    cases d with
    | field path => exact (hts depth).cons_section hspell rfl
    | openSection helper path =>
      show (if maxNesting ≤ depth then failAt pos .tooDeep else
        (ofTokens (depth + 1) ts).takeSection helper pos path).WellFormed depth
      split
      · trivial
      · next hroom =>
        have hdepth : depth < 32 := Nat.lt_of_not_le hroom
        exact WellFormed.takeSection hdepth hspell helper (hts (depth + 1))
    | else_ => exact ⟨trivial, hts depth⟩
    | close helper => exact ⟨trivial, hts (depth - 1)⟩

/-- **The invariant.** What can be scanned is read as a well-formed stretch. -/
theorem wellFormed_ofTokens {ts : List Token} (h : Token.Legible ts) (depth : Nat) :
    (ofTokens depth ts).WellFormed depth := by
  -- over all depths, since what follows a tag is read at another one
  induction h generalizing depth with
  | nil => trivial
  | @last s hne hmark =>
    have hs : (Node.text (String.ofList s)).WellFormed (32 - depth) true := by
      refine ⟨?_, ?_, fun h ↦ absurd h.symm Bool.false_ne_true⟩
      · rwa [String.toList_ofList]
      · rwa [String.toList_ofList]
    exact ⟨hs, fun h ↦ absurd h.2 Bool.false_ne_true, trivial⟩
  | @text s body pos ts hne hclear htail ih =>
    have hs : (Node.text (String.ofList s)).WellFormed (32 - depth) false := by
      refine ⟨?_, ?_, fun _ ↦ ?_⟩
      · rwa [String.toList_ofList]
      · rw [String.toList_ofList]
        exact hclear.1
      · rw [String.toList_ofList]
        exact hclear.2
    -- what follows begins with a tag, so this text is not next to another one
    exact (ih depth).cons hs fun _ ↦ startsWithText_front_ofTokens depth body pos ts
  | @tag body pos ts hclear htail ih => exact wellFormed_ofTokens_tag ih depth body pos

theorem WellFormed.of_toNodes {s : Stretch} (hs : s.WellFormed 0) {nodes : List Node}
    (h : s.toNodes = .ok nodes) : Node.AllWellFormed 32 true nodes := by
  cases s with
  | done inner =>
    cases h
    exact hs
  | failed error => contradiction
  | upTo inner stop pos rest => cases stop <;> contradiction

end Stretch

/-! ## Whole templates -/

namespace Template

theorem wellFormed_of_compile {source : String} {t : Template} (h : compile source = .ok t) :
    t.WellFormed := by
  cases hscan : Token.scan source.toList with
  | error pos =>
    rw [compile_eq_error_of_scan hscan] at h
    contradiction
  | ok ts =>
    rw [compile_eq_map_of_scan hscan] at h
    obtain ⟨hlegible, -, -⟩ := Token.legible_of_scanFrom hscan
    rw [Node.ofTokens_eq] at h
    cases hnodes : (Stretch.ofTokens 0 ts).toNodes with
    | error error =>
      rw [hnodes] at h
      contradiction
    | ok nodes =>
      rw [hnodes] at h
      cases h
      exact Stretch.WellFormed.of_toNodes (Stretch.wellFormed_ofTokens hlegible 0) hnodes

/-- **Compiling undoes printing, exactly on the well-formed trees**, and these are exactly the trees
that compiling gives. So compiling a text, printing its tree and compiling again is the same as
compiling once. -/
theorem compile_print_iff_wellFormed (t : Template) (source : String) :
    (compile t.print = .ok t ↔ t.WellFormed) ∧
      ((∃ text, compile text = .ok t) ↔ t.WellFormed) ∧
      (compile source).bind (fun u ↦ compile u.print) = compile source := by
  have hback : ∀ {u : Template}, u.WellFormed → compile u.print = .ok u :=
    compile_print_of_wellFormed
  refine ⟨⟨wellFormed_of_compile, hback⟩, ⟨?_, fun h ↦ ⟨t.print, hback h⟩⟩, ?_⟩
  · rintro ⟨text, htext⟩
    exact wellFormed_of_compile htext
  · cases h : compile source with
    | error error => rfl
    | ok u => exact hback (wellFormed_of_compile h)

/-- A brace may end a text at the very end, where it cannot become part of a tag. -/
example :
    WellFormed ⟨[.text "a\x7b"]⟩ ∧ ¬WellFormed ⟨[.text "a\x7b", .field ⟨.current, []⟩]⟩ := by
  decide

end Template

end Pagesmith
