import Pagesmith.Proofs.Template.Stretches

/-!
# Reading sections with a stack

`Node.ofTokens` finds the tree of a template by descent. Here the same tokens are read in one loop,
with the open sections on a stack. The two agree on every text: they find the same tree, or the same
fault at the same place.

## The correspondence

A stretch stands for what is still to be read, the stack for what has been read. A state *resumes* a
stretch: the nodes of the innermost section go in front of it, the section is taken off, and what is
left is resumed by the section around. Reading one token is then one equation of
`Stretch.ofTokens`, seen through `SectionStack.resume`, and a fault in a stretch passes through all
open sections unchanged.

## Which section is unclosed

At the end of the text the pass reports the innermost open section. Resuming reports the same one
because a section that finds no end fails before the sections around it are asked.
-/

namespace Pagesmith

/-! ## Open sections -/

/-- What is being read of an open section. The second branch of a conditional carries the first. -/
inductive SectionPart
  | thenBranch
  | elseBranch (thenNodes : List Node)
  | body
deriving DecidableEq, Repr

namespace SectionPart

def ofHelper : Helper → SectionPart
  | .if_ => thenBranch
  | .each => body

def helper : SectionPart → Helper
  | thenBranch => .if_
  | elseBranch _ => .if_
  | body => .each

/-- The node of a section whose last part has these `nodes`. -/
def node (path : FieldPath) (nodes : List Node) : SectionPart → Node
  | thenBranch => .conditional path nodes []
  | elseBranch thenNodes => .conditional path thenNodes nodes
  | body => .iteration path nodes

end SectionPart

/-- A section that has been opened and not closed. -/
structure OpenSection where
  /-- The part that is being read. -/
  part : SectionPart
  /-- The place of the opening tag. -/
  pos : Position
  /-- The path of the opening tag. -/
  path : FieldPath
  /-- The nodes in front of the section, in the list the section will belong to. -/
  before : List Node
deriving DecidableEq, Repr

/-- The state of one pass over the tokens of a template. -/
structure SectionStack where
  /-- The open sections, the innermost first. -/
  sections : List OpenSection
  /-- The nodes read since the innermost part began. -/
  nodes : List Node
deriving DecidableEq, Repr

namespace SectionStack

/-! ## One pass -/

def empty : SectionStack := ⟨[], []⟩

/-- One more node in the innermost part. -/
def push (s : SectionStack) (node : Node) : SectionStack := ⟨s.sections, s.nodes ++ [node]⟩

/-- Read an opening tag. At most 32 sections are open at once. -/
def openSection (s : SectionStack) (helper : Helper) (path : FieldPath) (pos : Position) :
    Except SyntaxError SectionStack :=
  if 32 ≤ s.sections.length then .error ⟨pos, .tooDeep⟩
  else .ok ⟨⟨.ofHelper helper, pos, path, s.nodes⟩ :: s.sections, []⟩

/-- Read an `else`, which belongs to the first branch of a conditional and to nothing else. -/
def switchBranch (s : SectionStack) (pos : Position) : Except SyntaxError SectionStack :=
  match s.sections with
  | [] => .error ⟨pos, .elseOutside⟩
  | top :: below =>
    match top.part with
    | .thenBranch => .ok ⟨{ top with part := .elseBranch s.nodes } :: below, []⟩
    | .elseBranch _ => .error ⟨pos, .duplicateElse⟩
    | .body => .error ⟨pos, .elseInEach⟩

/-- Read a closing tag, which closes the innermost section if it is of its kind. -/
def closeSection (s : SectionStack) (helper : Helper) (pos : Position) :
    Except SyntaxError SectionStack :=
  match s.sections with
  | [] => .error ⟨pos, .closeWithoutOpen helper⟩
  | top :: below =>
    if top.part.helper = helper then .ok ⟨below, top.before ++ [top.part.node top.path s.nodes]⟩
    else .error ⟨pos, .wrongClose helper top.part.helper⟩

def read (s : SectionStack) : Token → Except SyntaxError SectionStack
  | .text t => .ok (s.push (.text (String.ofList t)))
  | .tag body pos =>
    match Directive.ofBody body with
    | .error fault => .error ⟨pos, .tag fault⟩
    | .ok (.field path) => .ok (s.push (.field path))
    | .ok (.openSection helper path) => s.openSection helper path pos
    | .ok .else_ => s.switchBranch pos
    | .ok (.close helper) => s.closeSection helper pos

/-- The nodes at the end of the text, where no section may be open. The innermost one is reported,
at its opening tag. -/
def finish (s : SectionStack) : Except SyntaxError (List Node) :=
  match s.sections with
  | [] => .ok s.nodes
  | top :: _ => .error ⟨top.pos, .unclosed top.part.helper⟩

/-- The tree of `tokens`, by one pass from the front. -/
def parse (tokens : List Token) : Except SyntaxError (List Node) := do
  let last ← tokens.foldlM read empty
  last.finish

end SectionStack

/-- Compile a template's text in one pass over its tokens. -/
def Template.compileInOnePass (source : String) : Except SyntaxError Template :=
  match Token.scan source.toList with
  | .error pos => .error ⟨pos, .unclosedTag⟩
  | .ok tokens => (SectionStack.parse tokens).map Template.mk

/-! ## Resuming a stretch -/

/-- The section, taken off the stretch that follows its opening tag or its `else`. -/
def OpenSection.takeOff (o : OpenSection) : Stretch → Stretch :=
  match o.part with
  | .thenBranch => Stretch.takeIf o.pos o.path
  | .elseBranch thenNodes => Stretch.takeElse o.pos o.path thenNodes
  | .body => Stretch.takeEach o.pos o.path

namespace OpenSection

variable (o : OpenSection)

@[simp] theorem takeOff_failed (error : SyntaxError) :
    o.takeOff (.failed error) = .failed error := by
  obtain ⟨part, pos, path, before⟩ := o
  cases part <;> rfl

/-- A section that meets the end of the text is unclosed. -/
theorem takeOff_done (nodes : List Node) :
    o.takeOff (.done nodes) = .failed ⟨o.pos, .unclosed o.part.helper⟩ := by
  obtain ⟨part, pos, path, before⟩ := o
  cases part <;> rfl

theorem takeOff_close (nodes : List Node) (helper : Helper) (pos : Position) (rest : Stretch) :
    o.takeOff (.upTo nodes (.close helper) pos rest) =
      if o.part.helper = helper then rest.cons (o.part.node o.path nodes)
      else .failed ⟨pos, .wrongClose helper o.part.helper⟩ := by
  obtain ⟨part, opened, path, before⟩ := o
  cases part <;> cases helper <;> rfl

theorem takeOff_ofHelper (helper : Helper) (pos : Position) (path : FieldPath)
    (before : List Node) :
    takeOff ⟨.ofHelper helper, pos, path, before⟩ = Stretch.takeSection helper pos path := by
  cases helper <;> rfl

end OpenSection

namespace SectionStack

/-- What becomes of a stretch behind the nodes and inside the sections of a state. -/
def resumeIn : List OpenSection → List Node → Stretch → Except SyntaxError (List Node)
  | [], nodes, s => (s.prepend nodes).toNodes
  | top :: below, nodes, s => resumeIn below top.before (top.takeOff (s.prepend nodes))

/-- What becomes of a stretch that follows the state `s`. -/
def resume (s : SectionStack) : Stretch → Except SyntaxError (List Node) :=
  resumeIn s.sections s.nodes

/-- The stretch that `tokens` start with, behind the state `s`. -/
def ahead (s : SectionStack) (tokens : List Token) : Stretch :=
  Stretch.ofTokens s.sections.length tokens

theorem resumeIn_failed (sections : List OpenSection) (nodes : List Node) (error : SyntaxError) :
    resumeIn sections nodes (.failed error) = .error error := by
  induction sections generalizing nodes with
  | nil => rw [resumeIn, Stretch.prepend_failed, Stretch.toNodes]
  | cons top below ih => rw [resumeIn, Stretch.prepend_failed, top.takeOff_failed, ih]

/-- **A fault passes through.** No open section changes a fault in what follows it. -/
theorem resume_failed (s : SectionStack) (error : SyntaxError) :
    s.resume (.failed error) = .error error := resumeIn_failed _ _ _

theorem resumeIn_cons (sections : List OpenSection) (nodes : List Node) (node : Node)
    (s : Stretch) :
    resumeIn sections nodes (s.cons node) = resumeIn sections (nodes ++ [node]) s := by
  have hprepend : s.prepend (nodes ++ [node]) = (s.cons node).prepend nodes := by
    rw [Stretch.prepend_append, Stretch.prepend_cons, Stretch.prepend_nil]
  cases sections with
  | nil => rw [resumeIn, resumeIn, hprepend]
  | cons top below => rw [resumeIn, resumeIn, hprepend]

/-- A node in front of what follows may as well have been read already. -/
theorem resume_cons (s : SectionStack) (node : Node) (rest : Stretch) :
    s.resume (rest.cons node) = (s.push node).resume rest := resumeIn_cons _ _ _ _

/-- At the end of the text the innermost open section is the one that is reported. -/
theorem resume_done (s : SectionStack) : s.resume (.done []) = s.finish := by
  obtain ⟨sections, nodes⟩ := s
  cases sections with
  | nil => rw [resume, resumeIn, Stretch.prepend_done, List.append_nil, Stretch.toNodes, finish]
  | cons top below =>
    rw [resume, resumeIn, Stretch.prepend_done, top.takeOff_done, resumeIn_failed, finish]

/-! ## One token -/

theorem resume_openSection (s : SectionStack) (helper : Helper) (path : FieldPath)
    (pos : Position) (tokens : List Token) :
    s.resume
        (if maxNesting ≤ s.sections.length then .failAt pos .tooDeep
          else (Stretch.ofTokens (s.sections.length + 1) tokens).takeSection helper pos path) =
      (do
        let t ← s.openSection helper path pos
        t.resume (t.ahead tokens)) := by
  rw [openSection, show maxNesting = 32 from rfl]
  by_cases h : 32 ≤ s.sections.length
  · rw [if_pos h, if_pos h, Stretch.failAt, resume_failed]
    rfl
  · rw [if_neg h, if_neg h, ← OpenSection.takeOff_ofHelper helper pos path s.nodes]
    rfl

theorem resume_else (s : SectionStack) (pos : Position) (tokens : List Token) :
    s.resume (.upTo [] .else_ pos (s.ahead tokens)) =
      (do
        let t ← s.switchBranch pos
        t.resume (t.ahead tokens)) := by
  obtain ⟨sections, nodes⟩ := s
  cases sections with
  | nil =>
    rw [resume, resumeIn, Stretch.prepend_upTo]
    rfl
  | cons top below =>
    obtain ⟨part, opened, path, before⟩ := top
    rw [resume, resumeIn, Stretch.prepend_upTo, List.append_nil]
    cases part with
    | thenBranch => rfl
    | elseBranch thenNodes => exact resumeIn_failed below before ⟨pos, .duplicateElse⟩
    | body => exact resumeIn_failed below before ⟨pos, .elseInEach⟩

theorem resume_close (s : SectionStack) (helper : Helper) (pos : Position) (tokens : List Token) :
    s.resume (.upTo [] (.close helper) pos (Stretch.ofTokens (s.sections.length - 1) tokens)) =
      (do
        let t ← s.closeSection helper pos
        t.resume (t.ahead tokens)) := by
  obtain ⟨sections, nodes⟩ := s
  cases sections with
  | nil =>
    rw [resume, resumeIn, Stretch.prepend_upTo]
    rfl
  | cons top below =>
    rw [resume, resumeIn, Stretch.prepend_upTo, List.append_nil, top.takeOff_close]
    -- a section that is closed is a node of the list it was opened in
    by_cases h : top.part.helper = helper
    · rw [if_pos h, resumeIn_cons]
      simp only [closeSection, if_pos h]
      rfl
    · rw [if_neg h, resumeIn_failed]
      simp only [closeSection, if_neg h]
      rfl

/-- **The step.** To `resume` what starts with a token is to `read` the token and resume the rest.
-/
theorem resume_ahead_cons (s : SectionStack) (token : Token) (tokens : List Token) :
    s.resume (s.ahead (token :: tokens)) =
      (do
        let t ← s.read token
        t.resume (t.ahead tokens)) := by
  cases token with
  | text t => exact s.resume_cons _ _
  | tag body pos =>
    rw [ahead, Stretch.ofTokens, read]
    cases Directive.ofBody body with
    | error fault => exact s.resume_failed _
    | ok directive =>
      cases directive with
      | field path => exact s.resume_cons _ _
      | openSection helper path => exact s.resume_openSection helper path pos tokens
      | else_ => exact s.resume_else pos tokens
      | close helper => exact s.resume_close helper pos tokens

/-- **The run.** The pass finds what `resume` finds, from any state and for any tokens. -/
theorem foldlM_read_finish (s : SectionStack) (tokens : List Token) :
    (do
      let last ← tokens.foldlM read s
      last.finish) = s.resume (s.ahead tokens) := by
  -- over all states, since every token leads to another one
  induction tokens generalizing s with
  | nil => exact s.resume_done.symm
  | cons token tokens ih =>
    rw [resume_ahead_cons, List.foldlM_cons, bind_assoc]
    exact bind_congr fun t ↦ ih t

theorem parse_eq_ofTokens (tokens : List Token) : parse tokens = Node.ofTokens tokens := by
  rw [Node.ofTokens_eq]
  exact foldlM_read_finish empty tokens

end SectionStack

/-- **One pass is enough.** Every text compiles to the same tree, or fails for the same cause at the
same place, whether its sections are read by descent or in one loop with a stack. -/
theorem Template.compile_eq_compileInOnePass (source : String) :
    Template.compile source = Template.compileInOnePass source := by
  rw [Template.compileInOnePass]
  cases h : Token.scan source.toList with
  | error pos => exact Template.compile_eq_error_of_scan h
  | ok tokens =>
    rw [Template.compile_eq_map_of_scan h]
    exact congrArg _ (SectionStack.parse_eq_ofTokens tokens).symm

end Pagesmith
