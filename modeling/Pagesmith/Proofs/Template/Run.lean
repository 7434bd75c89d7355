import Mathlib.Data.List.Forall2
import Pagesmith.Template.Render

/-!
# Runs of a template

A template asks three things of a scope: whether a path counts as true, over which scopes an
iteration at a path passes, and what text a path has. A *view* (`View`) answers them for scopes of
some type, and a template can be run over any view. Rendering is the run over the scopes it is
defined with.

A run keeps more than its result: the branch of every conditional and the number of passes of every
iteration, in the order in which they are decided, up to a failure if there is one. So two runs that
are equal have not only come to the same text.

## Simulation

Two runs of one template are compared by relating their scopes. If related scopes answer alike, and
hand out related scopes to iterate over, the runs are equal. They need to answer alike only about
the `paths` that stand in the template.
-/

namespace Pagesmith

/-- What scopes of some type tell a template. -/
structure View (σ : Type) where
  isTrue : σ → FieldPath → Bool
  itemsAt : σ → FieldPath → Except RenderCause (List σ)
  textAt : σ → FieldPath → Except RenderCause String

/-- What is decided on the way through a template. -/
inductive Decision
  | branch (path : FieldPath) (taken : Bool)
  | passes (path : FieldPath) (count : Nat)
deriving DecidableEq, Repr

/-- The decisions of a run, in order, and what it comes to. -/
structure Run where
  decisions : List Decision
  result : Except RenderCause String

/-- Where the second of two comes after the first unless that one fails, several come to their texts
one after the other. -/
theorem result_foldr_andThen {R : Type} (result : R → Except RenderCause String)
    {andThen : R → R → R} {nothing : R} (hnothing : result nothing = .ok "")
    (handThen : ∀ first rest, result (andThen first rest) =
      (result first).bind fun text ↦ (result rest).map (text ++ ·)) (runs : List R) :
    result (runs.foldr andThen nothing) = (runs.mapM result).map String.join := by
  induction runs with
  | nil => exact hnothing
  | cons r runs ih =>
    rw [List.foldr_cons, handThen, ih, List.mapM_cons]
    cases result r with
    | error cause => rfl
    | ok text =>
      cases runs.mapM result with
      | error cause => rfl
      | ok texts =>
        show Except.ok (text ++ String.join texts) = Except.ok (String.join (text :: texts))
        rw [String.join_cons]

namespace Run

def of (result : Except RenderCause String) : Run := ⟨[], result⟩

def after (d : Decision) (r : Run) : Run := ⟨d :: r.decisions, r.result⟩

/-- The run `first` and then `rest`, unless `first` fails. -/
def andThen (first rest : Run) : Run :=
  match first.result with
  | .error cause => ⟨first.decisions, .error cause⟩
  | .ok text => ⟨first.decisions ++ rest.decisions, rest.result.map (text ++ ·)⟩

def all (runs : List Run) : Run := runs.foldr andThen (of (.ok ""))

theorem result_after (d : Decision) (r : Run) : (after d r).result = r.result := rfl

theorem result_andThen (first rest : Run) :
    (first.andThen rest).result = first.result.bind fun text ↦ rest.result.map (text ++ ·) := by
  rw [andThen]
  cases first.result with
  | error cause => rfl
  | ok text => rfl

theorem result_all (runs : List Run) :
    (all runs).result = (runs.mapM result).map String.join :=
  result_foldr_andThen result rfl result_andThen runs

end Run

/-! ## Running -/

namespace Node

variable {σ : Type}

mutual

/-- The run through one node. -/
def run (v : View σ) (s : σ) : Node → Run
  | text t => .of (.ok t)
  | field path => .of (v.textAt s path)
  | conditional path thenBranch elseBranch =>
    .after (.branch path (v.isTrue s path))
      (if v.isTrue s path then runAll v s thenBranch else runAll v s elseBranch)
  | iteration path body =>
    match v.itemsAt s path with
    | .error cause => .of (.error cause)
    | .ok items =>
      .after (.passes path items.length) (.all (items.map fun item ↦ runAll v item body))

def runAll (v : View σ) (s : σ) : List Node → Run
  | [] => .of (.ok "")
  | node :: nodes => (run v s node).andThen (runAll v s nodes)

end

end Node

/-! ## What a run comes to

A run puts together what the `leaves` of the tree come to, so every property of texts that survives
concatenation is inherited from them. -/

/-- Whether a property of texts survives concatenation. -/
structure ClosedUnderAppend (C : String → Prop) : Prop where
  nil : C ""
  append : ∀ {s t}, C s → C t → C (s ++ t)

namespace Run

/-- Whether the text of `r`, if it comes to one, satisfies `C`. -/
def ComesTo (C : String → Prop) (r : Run) : Prop := ∀ text, r.result = .ok text → C text

variable {C : String → Prop}

theorem comesTo_of_ok {text : String} (h : C text) : (of (.ok text)).ComesTo C := by
  rintro text' heq
  cases heq
  exact h

theorem comesTo_of_error (cause : RenderCause) : (of (.error cause)).ComesTo C := by
  rintro text heq
  cases heq

theorem ComesTo.andThen (hC : ClosedUnderAppend C) {first rest : Run} (hfirst : first.ComesTo C)
    (hrest : rest.ComesTo C) : (first.andThen rest).ComesTo C := by
  intro text h
  rw [result_andThen] at h
  cases hs : first.result with
  | error cause =>
    rw [hs] at h
    contradiction
  | ok s =>
    rw [hs] at h
    cases ht : rest.result with
    | error cause =>
      rw [ht] at h
      contradiction
    | ok t =>
      rw [ht] at h
      cases h
      exact hC.append (hfirst s hs) (hrest t ht)

theorem comesTo_all (hC : ClosedUnderAppend C) {runs : List Run} (h : ∀ r ∈ runs, r.ComesTo C) :
    (all runs).ComesTo C := by
  induction runs with
  | nil => exact comesTo_of_ok hC.nil
  | cons r runs ih =>
    have hruns : (all runs).ComesTo C := ih fun r' hr' ↦ h r' (List.mem_cons_of_mem r hr')
    exact (h r List.mem_cons_self).andThen hC hruns

end Run

namespace Node

mutual

/-- The nodes of a tree that put something out themselves. -/
def leaves : Node → List Node
  | text s => [text s]
  | field path => [field path]
  | conditional _ thenBranch elseBranch => leavesAll thenBranch ++ leavesAll elseBranch
  | iteration _ body => leavesAll body

def leavesAll : List Node → List Node
  | [] => []
  | node :: nodes => leaves node ++ leavesAll nodes

end

variable {σ : Type} {v : View σ} {I : σ → Prop} {C : String → Prop}

/-- Whether `leaves` come to texts of the class `C` over all scopes of the invariant `I`. -/
structure LeavesComeTo (v : View σ) (I : σ → Prop) (C : String → Prop) (leaves : List Node) :
    Prop where
  text : ∀ t, .text t ∈ leaves → C t
  field : ∀ path, .field path ∈ leaves → ∀ s, I s → ∀ t, v.textAt s path = .ok t → C t

theorem LeavesComeTo.mono {leaves more : List Node} (h : LeavesComeTo v I C more)
    (hsub : leaves ⊆ more) : LeavesComeTo v I C leaves :=
  ⟨fun t ht ↦ h.text t (hsub ht), fun path hpath ↦ h.field path (hsub hpath)⟩

mutual

theorem comesTo_run (hC : ClosedUnderAppend C)
    (hI : ∀ s, I s → ∀ path items, v.itemsAt s path = .ok items → ∀ item ∈ items, I item) :
    ∀ node : Node, LeavesComeTo v I C node.leaves → ∀ s, I s → (run v s node).ComesTo C
  | text t, h, _, _ => Run.comesTo_of_ok (h.text t List.mem_cons_self)
  | field path, h, s, hs => h.field path List.mem_cons_self s hs
  | conditional path thenBranch elseBranch, h, s, hs => by
    have hthen := comesTo_runAll hC hI thenBranch (h.mono (List.subset_append_left _ _))
    have helse := comesTo_runAll hC hI elseBranch (h.mono (List.subset_append_right _ _))
    rw [run]
    split
    · exact hthen s hs
    · exact helse s hs
  | iteration path body, h, s, hs => by
    have hbody := comesTo_runAll hC hI body h
    rw [run]
    split
    · exact Run.comesTo_of_error _
    · next items hitems =>
      refine Run.comesTo_all hC fun r hr ↦ ?_
      obtain ⟨item, hitem, rfl⟩ := List.mem_map.mp hr
      exact hbody item (hI s hs path items hitems item hitem)

/-- **What a run comes to.** If the leaves come to texts of a class closed under concatenation, over
all scopes of an invariant that is handed on to the scopes of iterations, so does the run. -/
theorem comesTo_runAll (hC : ClosedUnderAppend C)
    (hI : ∀ s, I s → ∀ path items, v.itemsAt s path = .ok items → ∀ item ∈ items, I item) :
    ∀ nodes : List Node, LeavesComeTo v I C (leavesAll nodes) →
    ∀ s, I s → (runAll v s nodes).ComesTo C
  | [], _, _, _ => Run.comesTo_of_ok hC.nil
  | node :: nodes, h, s, hs => by
    have hnode := comesTo_run hC hI node (h.mono (List.subset_append_left _ _))
    have hnodes := comesTo_runAll hC hI nodes (h.mono (List.subset_append_right _ _))
    exact (hnode s hs).andThen hC (hnodes s hs)

end

end Node

/-! ## Rendering is a run -/

/-- What scopes tell a template that is rendered. -/
def Scope.view : View Scope where
  isTrue s path := isTruthy (s.lookup path)
  itemsAt s path := (s.itemsAt path).map fun items ↦ items.map s.child
  textAt := textAt

namespace Node

mutual

theorem result_run_view (s : Scope) : ∀ node : Node, (run Scope.view s node).result = node.render s
  | text t => rfl
  | field path => rfl
  | conditional path thenBranch elseBranch => by
    rw [run, render, Run.result_after]
    show (if isTruthy (s.lookup path) = true then _ else _ : Run).result = _
    split
    · exact result_runAll_view s thenBranch
    · exact result_runAll_view s elseBranch
  | iteration path body => by
    have hview : Scope.view.itemsAt s path = (s.itemsAt path).map fun items ↦ items.map s.child :=
      rfl
    rw [run, render, hview]
    cases s.itemsAt path with
    | error cause => rfl
    | ok items =>
      have hpasses : ((items.map s.child).map fun item ↦ runAll Scope.view item body).mapM
          Run.result = items.mapM fun item ↦ renderAll (s.child item) body := by
        rw [List.map_map, List.mapM_map]
        congr 1
        funext item
        exact result_runAll_view (s.child item) body
      show (Run.all ((items.map s.child).map fun item ↦ runAll Scope.view item body)).result = _
      rw [Run.result_all, hpasses]
      rfl

/-- **Rendering.** The result of the run over scopes is what rendering gives. -/
theorem result_runAll_view (s : Scope) :
    ∀ nodes : List Node, (runAll Scope.view s nodes).result = renderAll s nodes
  | [] => rfl
  | node :: nodes => by
    rw [runAll, renderAll, Run.result_andThen, result_run_view s node, result_runAll_view s nodes]
    cases node.render s with
    | error cause => rfl
    | ok text => cases renderAll s nodes <;> rfl

end

end Node

theorem Template.render_eq_result_run (t : Template) (data : Json) :
    t.render data = (Node.runAll Scope.view (.root data) t.nodes).result :=
  (Node.result_runAll_view (.root data) t.nodes).symm

/-! ## Simulation -/

namespace View

variable {σ τ : Type}

/-- What two views give an iteration to pass over: related scopes, or the same failure. -/
inductive ItemsAgree (R : σ → τ → Prop) :
    Except RenderCause (List σ) → Except RenderCause (List τ) → Prop
  | error (cause : RenderCause) : ItemsAgree R (.error cause) (.error cause)
  | ok {xs : List σ} {ys : List τ} (h : List.Forall₂ R xs ys) : ItemsAgree R (.ok xs) (.ok ys)

/-- Two views that answer alike about `path`, whenever their scopes are related by `R`. -/
structure AgreesAt (v : View σ) (w : View τ) (R : σ → τ → Prop) (path : FieldPath) : Prop where
  isTrue : ∀ {s t}, R s t → v.isTrue s path = w.isTrue t path
  itemsAt : ∀ {s t}, R s t → ItemsAgree R (v.itemsAt s path) (w.itemsAt t path)
  textAt : ∀ {s t}, R s t → v.textAt s path = w.textAt t path

/-- Two views that answer alike about scopes related by `R`. -/
structure Simulates (v : View σ) (w : View τ) (R : σ → τ → Prop) : Prop where
  isTrue : ∀ {s t}, R s t → ∀ path, v.isTrue s path = w.isTrue t path
  itemsAt : ∀ {s t}, R s t → ∀ path, ItemsAgree R (v.itemsAt s path) (w.itemsAt t path)
  textAt : ∀ {s t}, R s t → ∀ path, v.textAt s path = w.textAt t path

theorem Simulates.agreesAt {v : View σ} {w : View τ} {R : σ → τ → Prop} (h : v.Simulates w R)
    (path : FieldPath) : v.AgreesAt w R path where
  isTrue hst := h.isTrue hst path
  itemsAt hst := h.itemsAt hst path
  textAt hst := h.textAt hst path

end View

namespace Node

mutual

/-- The paths that stand in a node. -/
def paths : Node → List FieldPath
  | text _ => []
  | field path => [path]
  | conditional path thenBranch elseBranch => path :: (pathsAll thenBranch ++ pathsAll elseBranch)
  | iteration path body => path :: pathsAll body

def pathsAll : List Node → List FieldPath
  | [] => []
  | node :: nodes => paths node ++ pathsAll nodes

end

variable {σ τ : Type} {v : View σ} {w : View τ} {R : σ → τ → Prop}

/-- The passes of an iteration over related scopes are equal, if each of them is. -/
theorem map_eq_map_of_forall₂ {α : Type} {f : σ → α} {g : τ → α} (hfg : ∀ s t, R s t → f s = g t)
    {xs : List σ} {ys : List τ} (h : List.Forall₂ R xs ys) : xs.map f = ys.map g := by
  induction h with
  | nil => rfl
  | cons hxy _ ih => rw [List.map_cons, List.map_cons, hfg _ _ hxy, ih]

mutual

theorem run_eq_of_agreesAt : ∀ node : Node, (∀ path ∈ node.paths, v.AgreesAt w R path) →
    ∀ {s : σ} {t : τ}, R s t → run v s node = run w t node
  | text _, _, _, _, _ => rfl
  | field path, h, s, t, hst => by
    rw [run, run, (h path List.mem_cons_self).textAt hst]
  | conditional path thenBranch elseBranch, h, s, t, hst => by
    have hpath := h path List.mem_cons_self
    have hthen : ∀ path ∈ pathsAll thenBranch, v.AgreesAt w R path := fun path hmem ↦
      h path (List.mem_cons_of_mem _ (List.mem_append_left _ hmem))
    have helse : ∀ path ∈ pathsAll elseBranch, v.AgreesAt w R path := fun path hmem ↦
      h path (List.mem_cons_of_mem _ (List.mem_append_right _ hmem))
    rw [run, run, hpath.isTrue hst, runAll_eq_of_agreesAt thenBranch hthen hst,
      runAll_eq_of_agreesAt elseBranch helse hst]
  | iteration path body, h, s, t, hst => by
    have hagree := (h path List.mem_cons_self).itemsAt hst
    have hinner : ∀ path ∈ pathsAll body, v.AgreesAt w R path := fun path hmem ↦
      h path (List.mem_cons_of_mem _ hmem)
    rw [run, run]
    generalize v.itemsAt s path = left, w.itemsAt t path = right at hagree ⊢
    cases hagree with
    | error cause => rfl
    | @ok xs ys hitems =>
      have hbody : ∀ x y, R x y → runAll v x body = runAll w y body :=
        fun _ _ hxy ↦ runAll_eq_of_agreesAt body hinner hxy
      have hpasses : (xs.map fun item ↦ runAll v item body) =
          ys.map fun item ↦ runAll w item body := map_eq_map_of_forall₂ hbody hitems
      show Run.after _ (.all _) = .after _ (.all _)
      rw [hitems.length_eq, hpasses]

/-- **Agreement.** Over related scopes a template runs alike if the views answer alike about the
paths that stand in it. -/
theorem runAll_eq_of_agreesAt :
    ∀ nodes : List Node, (∀ path ∈ pathsAll nodes, v.AgreesAt w R path) →
    ∀ {s : σ} {t : τ}, R s t → runAll v s nodes = runAll w t nodes
  | [], _, _, _, _ => rfl
  | node :: nodes, h, s, t, hst => by
    have hnode : ∀ path ∈ node.paths, v.AgreesAt w R path := fun path hmem ↦
      h path (List.mem_append_left _ hmem)
    have hnodes : ∀ path ∈ pathsAll nodes, v.AgreesAt w R path := fun path hmem ↦
      h path (List.mem_append_right _ hmem)
    rw [runAll, runAll, run_eq_of_agreesAt node hnode hst, runAll_eq_of_agreesAt nodes hnodes hst]

end

/-- **Simulation.** Over related scopes a template runs alike. -/
theorem runAll_eq_of_simulates (hsim : v.Simulates w R) (nodes : List Node) {s : σ} {t : τ}
    (hst : R s t) : runAll v s nodes = runAll w t nodes :=
  runAll_eq_of_agreesAt nodes (fun path _ ↦ hsim.agreesAt path) hst

end Node

/-! ## Writing as far as it goes

A template writes its texts one after the other, and something may fail when some of them have been
written already. A *writing* (`Writing`) keeps both: what is there, and why there is no more.
Rendering takes the text of a writing that has come to its end, and of any other only why it has
not. -/

/-- What has been written, and what has put an end to it if something has failed. -/
structure Writing where
  written : String := ""
  failure : Option RenderCause := none
deriving DecidableEq, Repr

namespace Writing

def of : Except RenderCause String → Writing
  | .ok text => { written := text }
  | .error cause => { failure := some cause }

def andThen (first rest : Writing) : Writing :=
  match first.failure with
  | none => { written := first.written ++ rest.written, failure := rest.failure }
  | some _ => first

def all (writings : List Writing) : Writing := writings.foldr andThen {}

/-- The text of a writing that has come to its end, or why it has not. -/
def result (w : Writing) : Except RenderCause String :=
  match w.failure with
  | none => .ok w.written
  | some cause => .error cause

variable {w : Writing} {text : String} {cause : RenderCause}

theorem result_of (x : Except RenderCause String) : (of x).result = x := by
  cases x <;> rfl

theorem result_eq_ok_iff : w.result = .ok text ↔ w = ⟨text, none⟩ := by
  obtain ⟨written, _ | cause⟩ := w
  · show Except.ok written = .ok text ↔ _
    rw [Except.ok.injEq, Writing.mk.injEq, and_iff_left rfl]
  · exact ⟨nofun, nofun⟩

theorem result_eq_error_iff : w.result = .error cause ↔ ∃ written, w = ⟨written, some cause⟩ := by
  obtain ⟨written, _ | cause'⟩ := w
  · exact ⟨nofun, nofun⟩
  · constructor
    · rintro ⟨⟩
      exact ⟨written, rfl⟩
    · rintro ⟨_, ⟨⟩⟩
      rfl

theorem result_andThen (first rest : Writing) :
    (first.andThen rest).result = first.result.bind fun text ↦ rest.result.map (text ++ ·) := by
  obtain ⟨written, _ | cause⟩ := first
  · obtain ⟨written', _ | cause⟩ := rest <;> rfl
  · rfl

theorem result_all (writings : List Writing) :
    (all writings).result = (writings.mapM result).map String.join :=
  result_foldr_andThen result rfl result_andThen writings

end Writing

namespace Node

mutual

/-- What one node writes. -/
def write (s : Scope) : Node → Writing
  | text t => { written := t }
  | field path => .of (s.textAt path)
  | conditional path thenBranch elseBranch =>
    if isTruthy (s.lookup path) then writeAll s thenBranch else writeAll s elseBranch
  | iteration path body =>
    match s.itemsAt path with
    | .error cause => { failure := some cause }
    | .ok items => .all (items.map fun item ↦ writeAll (s.child item) body)

def writeAll (s : Scope) : List Node → Writing
  | [] => {}
  | node :: nodes => (write s node).andThen (writeAll s nodes)

end

mutual

theorem result_write (s : Scope) : ∀ node : Node, (write s node).result = node.render s
  | text t => rfl
  | field path => Writing.result_of _
  | conditional path thenBranch elseBranch => by
    rw [write, render]
    split
    · exact result_writeAll s thenBranch
    · exact result_writeAll s elseBranch
  | iteration path body => by
    rw [write, render]
    cases s.itemsAt path with
    | error cause => rfl
    | ok items =>
      have hpasses : (items.map fun item ↦ writeAll (s.child item) body).mapM Writing.result =
          items.mapM fun item ↦ renderAll (s.child item) body := by
        rw [List.mapM_map]
        congr 1
        funext item
        exact result_writeAll (s.child item) body
      show (Writing.all (items.map fun item ↦ writeAll (s.child item) body)).result = _
      rw [Writing.result_all, hpasses]
      rfl

theorem result_writeAll (s : Scope) :
    ∀ nodes : List Node, (writeAll s nodes).result = renderAll s nodes
  | [] => rfl
  | node :: nodes => by
    rw [writeAll, renderAll, Writing.result_andThen, result_write s node, result_writeAll s nodes]
    cases node.render s with
    | error cause => rfl
    | ok text => cases renderAll s nodes <;> rfl

end

end Node

namespace Template

/-- What a template writes when it is filled in against `data`. -/
def write (t : Template) (data : Json) : Writing := Node.writeAll (.root data) t.nodes

variable {t : Template} {data : Json} {text : String} {cause : RenderCause}

theorem render_eq_ok_iff_write : t.render data = .ok text ↔ t.write data = ⟨text, none⟩ := by
  rw [render, ← Node.result_writeAll, Writing.result_eq_ok_iff, write]

/-- **Failure.** A template that fails gives nothing of what it has written. -/
theorem render_eq_error_iff_write :
    t.render data = .error cause ↔ ∃ written, t.write data = ⟨written, some cause⟩ := by
  rw [render, ← Node.result_writeAll, Writing.result_eq_error_iff, write]

example :
    let items : FieldPath := ⟨.current, ["items"]⟩
    let t : Template := ⟨[.text "<ul>", .iteration items [.text "<li>"], .text "</ul>"]⟩
    let data : Json := .object [("items", .bool true)]
    t.write data = ⟨"<ul>", some (.notAnArray items .boolean)⟩ ∧
      t.render data = .error (.notAnArray items .boolean) := by
  decide

end Template

end Pagesmith
