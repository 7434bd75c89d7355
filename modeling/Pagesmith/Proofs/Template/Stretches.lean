import Pagesmith.Proofs.Results
import Pagesmith.Template.Compile

/-!
# Stretches

The descent that finds the tree of a template counts open sections and hands the tokens it has not
read from call to call. Here the same tree is found by recursion on the tokens alone, from the end
of the text. What follows a token is a *stretch* (`Stretch`): the nodes up to the next tag that
belongs to an enclosing section, that tag, and the stretch behind it. An opening tag takes the first
one or two stretches off what follows it and becomes a node; every other token becomes a node or the
end of a stretch.

The descent finds what a stretch begins with (`Begins`), and everything else about compiling is
derived from stretches. A list of nodes can be put in front of a stretch, which leaves a fault alone
and adds to the nodes of the first tag that ends one.

## Which fault is reported

A fault stands at the place in the stretches where reading from the front would meet it: what lies
behind a fault is never looked at, because a section that is wrongly closed drops its rest.
-/

namespace Pagesmith

/-- A tag that ends a stretch. -/
inductive Stop
  | else_
  | close (helper : Helper)
deriving DecidableEq, Repr

/-- Nodes up to the end of the text, up to a fault, or up to a tag that ends them and what follows
that tag. -/
inductive Stretch
  | done (nodes : List Node)
  | failed (error : SyntaxError)
  | upTo (nodes : List Node) (stop : Stop) (pos : Position) (rest : Stretch)
deriving Repr

namespace Stretch

/-- A node in front of a stretch. A fault stays a fault. -/
def cons (node : Node) : Stretch → Stretch
  | done nodes => done (node :: nodes)
  | failed error => failed error
  | upTo nodes stop pos rest => upTo (node :: nodes) stop pos rest

def failAt (pos : Position) (cause : SyntaxCause) : Stretch := failed ⟨pos, cause⟩

/-- The second branch of a conditional that opens at `pos`, taken off what follows its `else`. -/
def takeElse (pos : Position) (path : FieldPath) (thenBranch : List Node) : Stretch → Stretch
  | failed error => failed error
  | done _ => failAt pos (.unclosed .if_)
  | upTo nodes (.close .if_) _ rest => rest.cons (.conditional path thenBranch nodes)
  | upTo _ (.close .each) stopPos _ => failAt stopPos (.wrongClose .each .if_)
  | upTo _ .else_ stopPos _ => failAt stopPos .duplicateElse

/-- A conditional that opens at `pos`, taken off what follows its opening tag. -/
def takeIf (pos : Position) (path : FieldPath) : Stretch → Stretch
  | failed error => failed error
  | done _ => failAt pos (.unclosed .if_)
  | upTo nodes (.close .if_) _ rest => rest.cons (.conditional path nodes [])
  | upTo _ (.close .each) stopPos _ => failAt stopPos (.wrongClose .each .if_)
  | upTo nodes .else_ _ rest => rest.takeElse pos path nodes

/-- An iteration that opens at `pos`, taken off what follows its opening tag. -/
def takeEach (pos : Position) (path : FieldPath) : Stretch → Stretch
  | failed error => failed error
  | done _ => failAt pos (.unclosed .each)
  | upTo nodes (.close .each) _ rest => rest.cons (.iteration path nodes)
  | upTo _ (.close .if_) stopPos _ => failAt stopPos (.wrongClose .if_ .each)
  | upTo _ .else_ stopPos _ => failAt stopPos .elseInEach

def takeSection : Helper → Position → FieldPath → Stretch → Stretch
  | .if_ => takeIf
  | .each => takeEach

/-- The stretch that a list of tokens starts with, when `depth` sections are open before it. -/
def ofTokens (depth : Nat) : List Token → Stretch
  | [] => done []
  | .text s :: tokens => (ofTokens depth tokens).cons (.text (String.ofList s))
  | .tag body pos :: tokens =>
    match Directive.ofBody body with
    | .error fault => failAt pos (.tag fault)
    | .ok (.field path) => (ofTokens depth tokens).cons (.field path)
    | .ok (.openSection helper path) =>
      if maxNesting ≤ depth then failAt pos .tooDeep
      else (ofTokens (depth + 1) tokens).takeSection helper pos path
    | .ok .else_ => upTo [] .else_ pos (ofTokens depth tokens)
    | .ok (.close helper) => upTo [] (.close helper) pos (ofTokens (depth - 1) tokens)

/-- The nodes of a whole text, which is one stretch that nothing but the end of the text ends. -/
def toNodes : Stretch → Except SyntaxError (List Node)
  | done nodes => .ok nodes
  | failed error => .error error
  | upTo _ .else_ pos _ => .error ⟨pos, .elseOutside⟩
  | upTo _ (.close helper) pos _ => .error ⟨pos, .closeWithoutOpen helper⟩

/-! ## Nodes in front of a stretch -/

def prepend (nodes : List Node) (s : Stretch) : Stretch := nodes.foldr cons s

@[simp] theorem prepend_nil (s : Stretch) : s.prepend [] = s := rfl

@[simp] theorem prepend_cons (node : Node) (nodes : List Node) (s : Stretch) :
    s.prepend (node :: nodes) = (s.prepend nodes).cons node := rfl

theorem prepend_append (front back : List Node) (s : Stretch) :
    s.prepend (front ++ back) = (s.prepend back).prepend front := by
  rw [prepend, List.foldr_append, ← prepend, ← prepend]

@[simp] theorem prepend_done (nodes rest : List Node) :
    (done rest).prepend nodes = done (nodes ++ rest) := by
  induction nodes with
  | nil => rfl
  | cons node nodes ih => rw [prepend_cons, ih, cons, List.cons_append]

@[simp] theorem prepend_failed (nodes : List Node) (error : SyntaxError) :
    (failed error).prepend nodes = failed error := by
  induction nodes with
  | nil => rfl
  | cons node nodes ih => rw [prepend_cons, ih, cons]

@[simp] theorem prepend_upTo (nodes inner : List Node) (stop : Stop) (pos : Position)
    (rest : Stretch) :
    (upTo inner stop pos rest).prepend nodes = upTo (nodes ++ inner) stop pos rest := by
  induction nodes with
  | nil => rfl
  | cons node nodes ih => rw [prepend_cons, ih, cons, List.cons_append]

end Stretch

/-! ## The descent -/

namespace Descent

variable {depth : Nat} {tokens : List Token} {s : Stretch} {r : Except SyntaxError (Run tokens)}

/-- Whether a descent has found what a stretch begins with, and goes on where the stretch does. A
tag that closes a section leaves it open for the descent, which counts it out later. -/
inductive Begins (depth : Nat) {tokens : List Token} :
    Stretch → Except SyntaxError (Run tokens) → Prop
  | done (nodes : List Node) (le : [].length ≤ tokens.length) :
    Begins depth (.done nodes) (.ok ⟨nodes, .eof, [], depth, le⟩)
  | failed (error : SyntaxError) : Begins depth (.failed error) (.error error)
  | else_ (nodes : List Node) (pos : Position) (rest : List Token)
    (le : rest.length ≤ tokens.length) :
    Begins depth (.upTo nodes .else_ pos (.ofTokens depth rest))
      (.ok ⟨nodes, .else_ pos, rest, depth, le⟩)
  | close (nodes : List Node) (helper : Helper) (pos : Position) (rest : List Token)
    (le : rest.length ≤ tokens.length) :
    Begins depth (.upTo nodes (.close helper) pos (.ofTokens (depth - 1) rest))
      (.ok ⟨nodes, .close helper pos, rest, depth, le⟩)

theorem Begins.cons (h : Begins depth s r) (node : Node) {longer : List Token}
    (hle : tokens.length ≤ longer.length) :
    Begins depth (s.cons node) (do let found ← r; return (found.cons node hle : Run longer)) := by
  cases h with
  | done nodes le => exact .done ..
  | failed error => exact .failed error
  | else_ nodes pos rest le => exact .else_ ..
  | close nodes helper pos rest le => exact .close ..

/-- A section that would be too deep is not read, and any other is read one deeper. -/
theorem begins_enter {next : Nat → Except SyntaxError (Run tokens)} (pos : Position)
    (h : Begins depth s (next (depth + 1))) :
    Begins depth (if maxNesting ≤ depth then .failAt pos .tooDeep else s)
      (enter depth pos >>= next) := by
  rw [enter]
  by_cases hdeep : maxNesting ≤ depth
  · rw [if_pos hdeep, if_pos hdeep]
    exact .failed _
  · rw [if_neg hdeep, if_neg hdeep]
    exact h

section Sections

variable {token : Token} (pos : Position) (path : FieldPath)
  {read : Nat → (rest : List Token) → rest.length ≤ tokens.length → Except SyntaxError (Run rest)}

/-- What `parseIf` reads is what `takeIf` takes off, if `read` finds what shorter stretches begin
with. -/
theorem begins_parseIf
    (hread : ∀ depth rest hle, Begins depth (.ofTokens depth rest) (read depth rest hle)) :
    Begins depth
      (if maxNesting ≤ depth then .failAt pos .tooDeep
        else (Stretch.ofTokens (depth + 1) tokens).takeIf pos path)
      (@parseIf token tokens pos path read depth) := by
  have hthen := hread (depth + 1) tokens (Nat.le_refl _)
  rw [parseIf]
  refine begins_enter pos ?_
  generalize Stretch.ofTokens (depth + 1) tokens = s, read (depth + 1) tokens _ = r at hthen ⊢
  cases hthen with
  | done nodes le => exact .failed _
  | failed error => exact .failed _
  | close nodes helper closePos rest le =>
    cases helper with
    | each => exact .failed _
    | if_ => exact (hread depth rest le).cons _ _
  | else_ nodes elsePos rest le =>
    have helse := hread (depth + 1) rest le
    change Begins depth (Stretch.takeElse pos path nodes _)
      (parsePart .else_ pos (read (depth + 1) rest le) >>= _)
    generalize Stretch.ofTokens (depth + 1) rest = s, read (depth + 1) rest le = r at helse ⊢
    cases helse with
    | done nodes le => exact .failed _
    | failed error => exact .failed _
    | else_ nodes elsePos rest le => exact .failed _
    | close elseNodes helper closePos rest' le' =>
      cases helper with
      | each => exact .failed _
      | if_ => exact (hread depth rest' (Nat.le_trans le' le)).cons _ _

/-- What `parseEach` reads is what `takeEach` takes off, if `read` finds what shorter stretches
begin with. -/
theorem begins_parseEach
    (hread : ∀ depth rest hle, Begins depth (.ofTokens depth rest) (read depth rest hle)) :
    Begins depth
      (if maxNesting ≤ depth then .failAt pos .tooDeep
        else (Stretch.ofTokens (depth + 1) tokens).takeEach pos path)
      (@parseEach token tokens pos path read depth) := by
  have hbody := hread (depth + 1) tokens (Nat.le_refl _)
  rw [parseEach]
  refine begins_enter pos ?_
  generalize Stretch.ofTokens (depth + 1) tokens = s, read (depth + 1) tokens _ = r at hbody ⊢
  cases hbody with
  | done nodes le => exact .failed _
  | failed error => exact .failed _
  | else_ nodes elsePos rest le => exact .failed _
  | close nodes helper closePos rest le =>
    cases helper with
    | if_ => exact .failed _
    | each => exact (hread depth rest le).cons _ _

end Sections

/-- **The descent** finds what the stretch of its tokens begins with. -/
theorem begins_parseNodes (depth : Nat) (tokens : List Token) :
    Begins depth (.ofTokens depth tokens) (parseNodes depth tokens) := by
  induction hlength : tokens.length using Nat.strongRecOn generalizing depth tokens with
  | ind length ih =>
    subst hlength
    cases tokens with
    | nil =>
      rw [parseNodes]
      exact .done ..
    | cons token tokens =>
      have hread (depth : Nat) (rest : List Token) (hle : rest.length ≤ tokens.length) :
          Begins depth (.ofTokens depth rest) (parseNodes depth rest) :=
        ih _ (Nat.lt_succ_of_le hle) depth rest rfl
      have htail := hread depth tokens (Nat.le_refl _)
      cases token with
      | text t =>
        rw [parseNodes, Stretch.ofTokens]
        exact htail.cons _ _
      | tag body pos =>
        rw [parseNodes, Stretch.ofTokens]
        cases Directive.ofBody body with
        | error fault => exact .failed _
        | ok d =>
          cases d with
          | field path => exact htail.cons _ _
          | else_ => exact .else_ [] pos tokens _
          | close helper => exact .close [] helper pos tokens _
          | openSection helper path =>
            cases helper with
            | if_ => exact begins_parseIf pos path hread
            | each => exact begins_parseEach pos path hread

end Descent

/-- The tree of a template is read off the stretch its tokens begin with. -/
theorem Node.ofTokens_eq (tokens : List Token) :
    Node.ofTokens tokens = (Stretch.ofTokens 0 tokens).toNodes := by
  have h := Descent.begins_parseNodes 0 tokens
  rw [Node.ofTokens]
  generalize Stretch.ofTokens 0 tokens = s, Descent.parseNodes 0 tokens = r at h ⊢
  cases h <;> rfl

/-! ## Compiling -/

theorem Template.compile_eq_map_of_scan {source : String} {tokens : List Token}
    (h : Token.scan source.toList = .ok tokens) :
    Template.compile source = (Node.ofTokens tokens).map Template.mk := by
  rw [Template.compile, h]
  show (Node.ofTokens tokens).bind (fun nodes ↦ .ok (Template.mk nodes)) = _
  cases Node.ofTokens tokens <;> rfl

theorem Template.compile_eq_error_of_scan {source : String} {pos : Position}
    (h : Token.scan source.toList = .error pos) :
    Template.compile source = .error ⟨pos, .unclosedTag⟩ := by
  rw [Template.compile, h]
  rfl

end Pagesmith
