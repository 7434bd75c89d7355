import Mathlib.Data.List.Forall2
import Pagesmith.Block.Definitions
import Pagesmith.Check.Program
import Pagesmith.Proofs.Block.Registry
import Pagesmith.Proofs.Results

/-!
# What the checker reports

The checker reports on each of its definition files, in the order of its arguments and whatever
comes of the others. It fails if one of them is not in order, and when it is to show a page, also
if there is something wrong with the page file or with all types taken together. Nothing else makes
it fail; the warnings about default configurations stand in front of a report and count for nothing.

## Reports one by one

By `Reported`, a report on one file is described without the files in front of it. A run has put
these reports one after the other on its two outputs, and behind them comes the page, if there is
one.

All this holds for any `Sources`, so for any reader of definitions.
-/

namespace Pagesmith.Check

open CommandLine

/-! ## Definition files -/

/-- Whether the schemas of all types can be read. -/
def ReadableSchemas (types : List BlockType) : Prop :=
  ∀ t ∈ types, ∃ schema, BlockSchema.ofJson t.schema = .ok schema

/-- Whether the file at `path` is in order, and holds `types`. -/
structure Valid (sources : Sources) (path : String) (types : List BlockType) : Prop where
  reads : ∃ text, sources.file path = .ok text ∧ sources.definitions text = .ok types
  loads : ∃ registry, Registry.load types = .ok registry
  schemas : ReadableSchemas types

/-- The first thing that is wrong with the file at `path`, behind the types that were warned about
before it was found. -/
inductive Fails (sources : Sources) (path : String) : List BlockType → BlockError → Prop
  | unreadable {reason : String} (h : sources.file path = .error reason) :
    Fails sources path [] (.deserialization s!"Failed to read file: {reason}")
  | undefined {text : String} {e : BlockError} (h : sources.file path = .ok text)
    (hdefinitions : sources.definitions text = .error e) : Fails sources path [] e
  | unloaded {text : String} {types : List BlockType} {e : BlockError}
    (h : sources.file path = .ok text) (hdefinitions : sources.definitions text = .ok types)
    (hload : Registry.load types = .error e) : Fails sources path [] e
  | schema {text : String} {front back : List BlockType} {t : BlockType} {f : Record.Fault}
    (h : sources.file path = .ok text)
    (hdefinitions : sources.definitions text = .ok (front ++ t :: back))
    (hload : ∃ registry, Registry.load (front ++ t :: back) = .ok registry)
    (hfront : ReadableSchemas front) (hschema : BlockSchema.ofJson t.schema = .error f) :
    Fails sources path front (.ofRecord f)

/-- The warnings about types whose schemas can be read. -/
def warningLines (types : List BlockType) : List String :=
  types.flatMap fun t ↦ (warnings t).toOption.getD []

/-- The report on the definition file at `path`. -/
inductive Reported (sources : Sources) (path : String) : Report → Prop
  | valid {types : List BlockType} (h : Valid sources path types) :
    Reported sources path
      { stdout := validText path types, stderr := String.join (warningLines types) }
  | invalid {front : List BlockType} {e : BlockError} (h : Fails sources path front e) :
    Reported sources path
      { stderr := String.join (warningLines front) ++ invalidText path e, exit := 1 }

/-! ## What is asked for -/

/-- Whether the page file at `path` can be read as `blocks`. -/
def HoldsBlocks (sources : Sources) (path : String) (blocks : List Block) : Prop :=
  ∃ text, sources.file path = .ok text ∧ Block.listOfText text = .ok blocks

/-- Whether nothing is wrong: with any of the definition files, and if a page is asked for, with the
page file and with the types of all definition files together. -/
def AllInOrder (sources : Sources) (q : Request) : Prop :=
  ∃ lists, List.Forall₂ (Valid sources) q.files lists ∧ ∀ path ∈ q.page,
    (∃ blocks, HoldsBlocks sources path blocks) ∧
      ∃ registry, Registry.load lists.flatten = .ok registry

/-- What comes behind the reports on the definition files: `shown` on the first output, `said` on
the second. -/
structure Closes (sources : Sources) (year : Int) (q : Request) (exit : Nat) (shown said : String) :
    Prop where
  page : ∀ path ∈ q.page, exit = 0 → ∃ lists blocks registry,
    List.Forall₂ (Valid sources) q.files lists ∧ HoldsBlocks sources path blocks ∧
      Registry.load lists.flatten = .ok registry ∧
      shown = framed q.title (Page.render registry year blocks)
  nothing : q.page = none ∨ exit ≠ 0 → shown = ""
  silent : exit = 0 → said = ""
  /-- If there is nothing wrong but with all types together, it is this that is said. -/
  refused : ∀ path ∈ q.page, ∀ lists blocks e, List.Forall₂ (Valid sources) q.files lists →
    HoldsBlocks sources path blocks → Registry.load lists.flatten = .error e →
    said = unrenderedText path e

/-- What a run reports. -/
structure Reports (sources : Sources) (year : Int) (q : Request) (r : Report) : Prop where
  exit : r.exit = 0 ∨ r.exit = 1
  exit_iff : r.exit = 0 ↔ AllInOrder sources q
  outputs : ∃ reports shown said, List.Forall₂ (Reported sources) q.files reports ∧
    r.stdout = String.join (reports.map Report.stdout) ++ shown ∧
    r.stderr = String.join (reports.map Report.stderr) ++ said ∧
    Closes sources year q r.exit shown said
  /-- What can be wrong with all types together where each file is in order. -/
  together : ∀ lists, List.Forall₂ (Valid sources) q.files lists →
    (∀ e, Registry.load lists.flatten = .error e → ∃ name,
      e = .invalidType name "defined more than once" ∧ EnabledTwice name lists) ∧
    ((∃ registry, Registry.load lists.flatten = .ok registry) ↔ ∀ name, ¬EnabledTwice name lists)

/-! ## One definition file -/

section

variable {sources : Sources} {path : String} {types front : List BlockType} {e : BlockError}

theorem Valid.not_fails (h : Valid sources path types) : ¬Fails sources path front e := by
  obtain ⟨⟨text, hread, hdefinitions⟩, ⟨registry, hload⟩, hschemas⟩ := h
  intro hfails
  cases hfails with
  | unreadable h => exact nomatch hread.symm.trans h
  | undefined h hfault =>
    cases hread.symm.trans h
    exact nomatch hdefinitions.symm.trans hfault
  | unloaded h hother herror =>
    cases hread.symm.trans h
    cases hdefinitions.symm.trans hother
    exact nomatch hload.symm.trans herror
  | @schema _ _ _ t _ h hother _ _ hfault =>
    cases hread.symm.trans h
    cases hdefinitions.symm.trans hother
    obtain ⟨schema, hschema⟩ := hschemas t (List.mem_append_right _ List.mem_cons_self)
    exact nomatch hschema.symm.trans hfault

theorem valid_rightUnique (sources : Sources) : Relator.RightUnique (Valid sources) := by
  intro path types types' h h'
  obtain ⟨text, hread, hdefinitions⟩ := h.reads
  obtain ⟨text', hread', hdefinitions'⟩ := h'.reads
  cases hread.symm.trans hread'
  exact Except.ok.inj (hdefinitions.symm.trans hdefinitions')

/-- What `loadDefinitions` gives can be loaded, or this is what is wrong with the file. -/
theorem loadDefinitions_cases (sources : Sources) (path : String) :
    (∃ text types, sources.file path = .ok text ∧ sources.definitions text = .ok types ∧
      (∃ registry, Registry.load types = .ok registry) ∧
      loadDefinitions sources path = .ok types) ∨
    ∃ e, Fails sources path [] e ∧ loadDefinitions sources path = .error e := by
  cases hload : loadDefinitions sources path with
  | ok types =>
    obtain ⟨text, hread, hrest⟩ := bind_eq_ok_iff.mp hload
    obtain ⟨_, hdefinitions, hrest⟩ := bind_eq_ok_iff.mp hrest
    obtain ⟨registry, hregistry, hpure⟩ := bind_eq_ok_iff.mp hrest
    cases hpure
    exact .inl ⟨text, types, mapError_eq_ok_iff.mp hread, hdefinitions, ⟨registry, hregistry⟩, rfl⟩
  | error e =>
    refine .inr ⟨e, ?_, rfl⟩
    obtain hread | ⟨text, hread, hrest⟩ := bind_eq_error_iff.mp hload
    · obtain ⟨reason, hreason, rfl⟩ := mapError_eq_error_iff.mp hread
      exact .unreadable hreason
    have hfile := mapError_eq_ok_iff.mp hread
    obtain hdefinitions | ⟨types, hdefinitions, hrest⟩ := bind_eq_error_iff.mp hrest
    · exact .undefined hfile hdefinitions
    obtain hregistry | ⟨registry, -, hpure⟩ := bind_eq_error_iff.mp hrest
    · exact .unloaded hfile hdefinitions hregistry
    · cases hpure

/-- The warnings go up to the first schema that cannot be read. -/
theorem allWarnings_cases (types : List BlockType) :
    (ReadableSchemas types ∧ allWarnings types = (warningLines types, .ok ())) ∨
    ∃ front t back f, types = front ++ t :: back ∧ ReadableSchemas front ∧
      BlockSchema.ofJson t.schema = .error f ∧
      allWarnings types = (warningLines front, .error (.ofRecord f)) := by
  induction types with
  | nil => exact .inl ⟨nofun, rfl⟩
  | cons t types ih =>
    rw [allWarnings]
    cases hschema : BlockSchema.ofJson t.schema with
    | error f =>
      have hwarnings : warnings t = .error (.ofRecord f) := by
        rw [warnings, hschema]
        rfl
      rw [hwarnings]
      exact .inr ⟨[], t, types, f, rfl, nofun, hschema, rfl⟩
    | ok schema =>
      have hlines (front : List BlockType) {ws : List String} (hws : warnings t = .ok ws) :
          warningLines (t :: front) = ws ++ warningLines front := by
        rw [warningLines, List.flatMap_cons, hws]
        rfl
      obtain ⟨ws, hws⟩ : ∃ ws, warnings t = .ok ws := by
        rw [warnings, hschema]
        exact ⟨_, rfl⟩
      rw [hws]
      rcases ih with ⟨hschemas, hall⟩ | ⟨front, u, back, f, rfl, hfront, hu, hall⟩
      · refine .inl ⟨List.forall_mem_cons.mpr ⟨⟨schema, hschema⟩, hschemas⟩, ?_⟩
        simp only [hall, hlines types hws]
      · refine .inr ⟨t :: front, u, back, f, rfl, ?_, hu, ?_⟩
        · exact List.forall_mem_cons.mpr ⟨⟨schema, hschema⟩, hfront⟩
        · simp only [hall, hlines front hws]

theorem foldl_warn (lines : List String) (r : Report) :
    lines.foldl Report.warn r = r.warn (String.join lines) := by
  induction lines generalizing r with
  | nil => simp [Report.warn]
  | cons line lines ih => simp [ih, Report.warn, String.append_assoc]

/-- A step of `checkFiles` adds a report to those there are, and gives the types of a file that is
in order. -/
theorem checkFile_cases (sources : Sources) (path : String) (r : Report) :
    (∃ types, Valid sources path types ∧ checkFile sources path r =
      ((r.warn (String.join (warningLines types))).print (validText path types), types)) ∨
    ∃ front e, Fails sources path front e ∧ checkFile sources path r =
      (((r.warn (String.join (warningLines front))).warn (invalidText path e)).fail, []) := by
  rw [checkFile]
  obtain ⟨text, types, hread, hdefinitions, hload, htypes⟩ | ⟨e, hfails, herror⟩ :=
    loadDefinitions_cases sources path
  · rw [htypes]
    rcases allWarnings_cases types with
      ⟨hschemas, hall⟩ | ⟨front, t, back, f, rfl, hfront, hf, hall⟩
    · refine .inl ⟨types, ⟨⟨text, hread, hdefinitions⟩, hload, hschemas⟩, ?_⟩
      rw [reportLoaded, hall, ← foldl_warn]
    · refine .inr ⟨front, _, .schema hread hdefinitions hload hfront hf, ?_⟩
      rw [reportLoaded, hall, ← foldl_warn]
  · rw [herror]
    refine .inr ⟨[], e, hfails, ?_⟩
    simp [reportLoaded, warningLines, Report.warn]

end

/-! ## All definition files -/

section

variable {sources : Sources} {paths : List String}

/-- What has become of the report `r` when the definition files at `paths` were checked: it is `r'`,
and the valid ones hold `types`. -/
structure Checked (sources : Sources) (paths : List String) (r r' : Report) (types : List BlockType)
    (reports : List Report) : Prop where
  reported : List.Forall₂ (Reported sources) paths reports
  stdout : r'.stdout = r.stdout ++ String.join (reports.map Report.stdout)
  stderr : r'.stderr = r.stderr ++ String.join (reports.map Report.stderr)
  exit : (∃ lists, List.Forall₂ (Valid sources) paths lists ∧ types = lists.flatten ∧
      r'.exit = r.exit) ∨
    (∀ lists, ¬List.Forall₂ (Valid sources) paths lists) ∧ r'.exit = 1

theorem checked_checkFiles (sources : Sources) (paths : List String) (r : Report) :
    ∃ reports, Checked sources paths r (checkFiles sources paths r).1 (checkFiles sources paths r).2
      reports := by
  induction paths generalizing r with
  | nil => exact ⟨[], .nil, by simp [checkFiles], by simp [checkFiles], .inl ⟨[], .nil, rfl, rfl⟩⟩
  | cons path paths ih =>
    have hcons : checkFiles sources (path :: paths) r =
        ((checkFiles sources paths (checkFile sources path r).1).1, (checkFile sources path r).2 ++
          (checkFiles sources paths (checkFile sources path r).1).2) := rfl
    obtain ⟨reports, hreported, hout, herr, hexit⟩ := ih (checkFile sources path r).1
    rw [hcons]
    rcases checkFile_cases sources path r with ⟨types, hvalid, hcheck⟩ | ⟨front, e, hfails, hcheck⟩
    · rw [hcheck] at hout herr hexit ⊢
      refine ⟨_ :: reports, .cons (.valid hvalid) hreported, ?_, ?_, ?_⟩
      · rw [hout]
        simp [Report.print, Report.warn, String.append_assoc]
      · rw [herr]
        simp [Report.print, Report.warn, String.append_assoc]
      · obtain ⟨lists, hlists, hflatten, hexit⟩ | ⟨hnone, hexit⟩ := hexit
        · exact .inl ⟨types :: lists, .cons hvalid hlists, congrArg (types ++ ·) hflatten, hexit⟩
        · refine .inr ⟨fun lists h ↦ ?_, hexit⟩
          cases h with
          | cons _ h => exact hnone _ h
    · rw [hcheck] at hout herr hexit ⊢
      refine ⟨_ :: reports, .cons (.invalid hfails) hreported, ?_, ?_, .inr ⟨fun lists h ↦ ?_, ?_⟩⟩
      · rw [hout]
        simp [Report.fail, Report.warn]
      · rw [herr]
        simp [Report.fail, Report.warn, String.append_assoc]
      · cases h with
        | cons hvalid _ => exact hvalid.not_fails hfails
      · obtain ⟨_, _, _, hexit⟩ | ⟨_, hexit⟩ := hexit <;> exact hexit

theorem load_of_forall₂_valid {lists : List (List BlockType)}
    (h : List.Forall₂ (Valid sources) paths lists) :
    ∀ types ∈ lists, ∃ registry, Registry.load types = .ok registry := by
  induction h with
  | nil => exact nofun
  | cons hvalid _ ih => exact List.forall_mem_cons.mpr ⟨hvalid.loads, ih⟩

end

/-! ## The page -/

section

variable {sources : Sources} {year : Int} {path : String} {types : List BlockType}
  {title : Option String} {blocks : List Block}

theorem showPage_of_holdsBlocks (h : HoldsBlocks sources path blocks) :
    showPage sources year path types title = (Registry.load types).map fun registry ↦
      framed title (Page.render registry year blocks) := by
  obtain ⟨text, hread, hblocks⟩ := h
  rw [showPage, readFile, hread]
  show (Block.listOfText text >>= _) = _
  rw [hblocks]
  rfl

theorem holdsBlocks_of_showPage {page : String}
    (h : showPage sources year path types title = .ok page) :
    ∃ blocks, HoldsBlocks sources path blocks := by
  obtain ⟨text, hread, h⟩ := bind_eq_ok_iff.mp h
  obtain ⟨blocks, hblocks, -⟩ := bind_eq_ok_iff.mp h
  exact ⟨blocks, text, mapError_eq_ok_iff.mp hread, hblocks⟩

end

/-! ## Runs -/

section

variable {sources : Sources} {year : Int} {q : Request} {r : Report} {types : List BlockType}
  {reports : List Report} {lists : List (List BlockType)}

theorem closes_of_not_valid (hnone : ∀ lists, ¬List.Forall₂ (Valid sources) q.files lists)
    {exit : Nat} (hexit : exit ≠ 0) (said : String) : Closes sources year q exit "" said where
  page _ _ h := absurd h hexit
  nothing _ := rfl
  silent h := absurd h hexit
  refused _ _ lists _ _ h := absurd h (hnone lists)

theorem closes_of_none (hpage : q.page = none) {exit : Nat} : Closes sources year q exit "" "" where
  page _ h := nomatch hpage.symm.trans h
  nothing _ := rfl
  silent _ := rfl
  refused _ h := nomatch hpage.symm.trans h

theorem closes_of_showPage {path page : String} (hpage : q.page = some path)
    (hlists : List.Forall₂ (Valid sources) q.files lists)
    (hshow : showPage sources year path lists.flatten q.title = .ok page) :
    Closes sources year q 0 page "" ∧ AllInOrder sources q := by
  obtain ⟨blocks, hblocks⟩ := holdsBlocks_of_showPage hshow
  rw [showPage_of_holdsBlocks hblocks] at hshow
  cases hload : Registry.load lists.flatten with
  | error e =>
    rw [hload] at hshow
    exact nomatch hshow
  | ok registry =>
    rw [hload] at hshow
    have honly {path' : String} (h : path' ∈ q.page) : path' = path :=
      Option.some.inj (h.symm.trans hpage)
    refine ⟨⟨?_, ?_, fun _ ↦ rfl, ?_⟩, lists, hlists, ?_⟩
    · intro path' h _
      rw [honly h]
      exact ⟨lists, blocks, registry, hlists, hblocks, hload, (Except.ok.inj hshow).symm⟩
    · rintro (h | h)
      · exact nomatch hpage.symm.trans h
      · exact absurd rfl h
    · intro path' _ lists' _ e hlists' _ herror
      cases List.right_unique_forall₂' (valid_rightUnique sources) hlists' hlists
      exact nomatch hload.symm.trans herror
    · intro path' h
      rw [honly h]
      exact ⟨⟨blocks, hblocks⟩, registry, hload⟩

theorem closes_of_showPage_error {path : String} {e : BlockError} (hpage : q.page = some path)
    (hlists : List.Forall₂ (Valid sources) q.files lists)
    (hshow : showPage sources year path lists.flatten q.title = .error e) :
    Closes sources year q 1 "" (unrenderedText path e) ∧ ¬AllInOrder sources q := by
  have hload {blocks : List Block} (hblocks : HoldsBlocks sources path blocks) :
      Registry.load lists.flatten = .error e := by
    rw [showPage_of_holdsBlocks hblocks] at hshow
    cases hload : Registry.load lists.flatten with
    | error d =>
      rw [hload] at hshow
      cases hshow
      rfl
    | ok registry =>
      rw [hload] at hshow
      exact nomatch hshow
  have hfailed {P : Prop} (h : 1 = 0) : P := absurd h Nat.one_ne_zero
  refine ⟨⟨fun _ _ ↦ hfailed, fun _ ↦ rfl, hfailed, ?_⟩, ?_⟩
  · intro path' h lists' blocks d hlists' hblocks herror
    cases Option.some.inj (h.symm.trans hpage)
    cases List.right_unique_forall₂' (valid_rightUnique sources) hlists' hlists
    cases (hload hblocks).symm.trans herror
    rfl
  · rintro ⟨lists', hlists', h⟩
    obtain ⟨⟨blocks, hblocks⟩, registry, hok⟩ := h path hpage
    cases List.right_unique_forall₂' (valid_rightUnique sources) hlists' hlists
    exact nomatch hok.symm.trans (hload hblocks)

/-- To the reports on the definition files something was added, and whether all is in order is
known. -/
theorem Checked.reports_of_closes {r' : Report} {shown said : String}
    (h : Checked sources q.files {} r types reports) (hout : r'.stdout = r.stdout ++ shown)
    (herr : r'.stderr = r.stderr ++ said) (hcloses : Closes sources year q r'.exit shown said)
    (hexit : r'.exit = 0 ∧ AllInOrder sources q ∨ r'.exit = 1 ∧ ¬AllInOrder sources q) :
    Reports sources year q r' where
  exit := hexit.imp And.left And.left
  exit_iff := by
    obtain ⟨hexit, hin⟩ | ⟨hexit, hout⟩ := hexit
    · exact iff_of_true hexit hin
    · exact iff_of_false (hexit ▸ Nat.one_ne_zero) hout
  outputs := by
    refine ⟨reports, shown, said, h.reported, ?_, ?_, hcloses⟩
    · rw [hout, h.stdout, String.empty_append]
    · rw [herr, h.stderr, String.empty_append]
  together lists hlists :=
    have hloads := load_of_forall₂_valid hlists
    ⟨fun _ ↦ Registry.enabledTwice_of_load_flatten hloads,
      Registry.exists_load_flatten_iff hloads⟩

theorem allInOrder_of_none (hpage : q.page = none)
    (hlists : List.Forall₂ (Valid sources) q.files lists) : AllInOrder sources q :=
  ⟨lists, hlists, fun _ h ↦ nomatch hpage.symm.trans h⟩

theorem not_allInOrder (hnone : ∀ lists, ¬List.Forall₂ (Valid sources) q.files lists) :
    ¬AllInOrder sources q := fun ⟨lists, hlists, _⟩ ↦ hnone lists hlists

theorem reports_finish (h : Checked sources q.files {} r types reports) :
    Reports sources year q (finish sources year q r types) := by
  rw [finish]
  -- where every file is in order the page decides, and otherwise it is not looked at
  obtain ⟨lists, hlists, rfl, hexit⟩ | ⟨hnone, hexit⟩ := h.exit
  · change r.exit = 0 at hexit
    split
    · next hpage =>
      exact h.reports_of_closes (String.append_empty ..).symm (String.append_empty ..).symm
        (closes_of_none hpage) (.inl ⟨hexit, allInOrder_of_none hpage hlists⟩)
    · next path hpage =>
      rw [if_neg (not_not_intro hexit)]
      split
      · next page hshow =>
        obtain ⟨hcloses, hinorder⟩ := closes_of_showPage hpage hlists hshow
        rw [← hexit] at hcloses
        exact h.reports_of_closes rfl (String.append_empty ..).symm hcloses (.inl ⟨hexit, hinorder⟩)
      · next e hshow =>
        obtain ⟨hcloses, hinorder⟩ := closes_of_showPage_error hpage hlists hshow
        exact h.reports_of_closes (String.append_empty ..).symm rfl hcloses (.inr ⟨rfl, hinorder⟩)
  · have hne : r.exit ≠ 0 := hexit ▸ Nat.one_ne_zero
    have hinorder := not_allInOrder hnone
    split
    · exact h.reports_of_closes (String.append_empty ..).symm (String.append_empty ..).symm
        (closes_of_not_valid hnone hne _) (.inr ⟨hexit, hinorder⟩)
    · rw [if_pos hne]
      exact h.reports_of_closes (String.append_empty ..).symm rfl (closes_of_not_valid hnone hne _)
        (.inr ⟨hexit, hinorder⟩)

end

/-- Definitions of one type, and a page without blocks. -/
def heroFiles : Sources where
  file path := .ok (if path = "page.json" then "[]" else "name: hero\ntemplate: <h1>Hello</h1>\n")
  definitions := BlockType.readDefinitions

example : run heroFiles 2026 ["hero.yaml", "hero.yaml", "--render", "page.json"] = {
    stdout := validText "hero.yaml" [⟨"hero", "", "", .null, .null, true⟩] ++
      validText "hero.yaml" [⟨"hero", "", "", .null, .null, true⟩]
    stderr := unrenderedText "page.json" (.invalidType "hero" "defined more than once")
    exit := 1 } := by
  decide +kernel

end Pagesmith.Check
