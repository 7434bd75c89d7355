import Pagesmith.Page.Document
import Pagesmith.Proofs.Html.Inert
import Pagesmith.Proofs.Page.ThemeLeaves

/-!
# The head of a document

A page's title, its search settings and its theme reach the head of the document in three ways: as
text of an element, as the value of an attribute, and as a style sheet. In all three they stay what
they are. The tags of the head are a fixed sequence, in which the description, the robots entry and
the style sheet are there or not; and from the title and the description what they were made of is
read back.

The head is written as tags with texts behind them, so the tags of the head are found as soon as no
text has a `<` and no tag a bracket of its own. For what was escaped this is so because it is inert,
and for the style sheet because no declaration has a `<`.
-/

/-! ## The tags of a text

A tag goes from a `<` to the next `>`, and every `<` of a text begins one. Each tag is found with
the text behind it up to the next tag; what stands in front of the first is passed over. Nothing is
known here of names, attributes or quotation marks.

Tags can be written one behind the other with text between them. If brackets stand nowhere else,
they are found again as they were written, and no others. -/

namespace Pagesmith.Html

/-- A tag, without its brackets, and the text behind it up to the next tag. -/
structure Tag where
  inside : List Char
  behind : List Char
deriving DecidableEq, Repr

namespace Tag

/-- The tag that is opened in front of `s`. -/
def openedBefore (s : List Char) : Tag where
  inside := s.takeWhile (· != '>')
  behind := ((s.dropWhile (· != '>')).drop 1).takeWhile (· != '<')

/-- A tag as it is written, with the text behind it. -/
def text (t : Tag) : List Char := '<' :: (t.inside ++ '>' :: t.behind)

/-- Whether a tag has no brackets but its own, and the text behind it opens no other. -/
structure Legible (t : Tag) : Prop where
  noOpening : '<' ∉ t.inside
  noClosing : '>' ∉ t.inside
  behind : '<' ∉ t.behind

theorem legible_iff {t : Tag} :
    t.Legible ↔ '<' ∉ t.inside ∧ '>' ∉ t.inside ∧ '<' ∉ t.behind :=
  ⟨fun h ↦ ⟨h.noOpening, h.noClosing, h.behind⟩, fun h ↦ ⟨h.1, h.2.1, h.2.2⟩⟩

instance (t : Tag) : Decidable t.Legible := decidable_of_iff _ legible_iff.symm

end Tag

/-- The tags of a text, in order: one from each `<` to the next `>`. -/
def tags : List Char → List Tag
  | [] => []
  | c :: s => if c = '<' then .openedBefore s :: tags s else tags s

/-! ### Finding tags that were written -/

theorem tags_append_of_not_mem {front : List Char} (h : '<' ∉ front) (s : List Char) :
    tags (front ++ s) = tags s := by
  induction front with
  | nil => rfl
  | cons c front ih =>
    rw [List.mem_cons, not_or] at h
    rw [List.cons_append, tags, if_neg (Ne.symm h.1), ih h.2]

theorem bne_of_not_mem {c : Char} {s : List Char} (h : c ∉ s) : ∀ d ∈ s, (d != c) = true := by
  intro d hd
  rw [bne_iff_ne]
  rintro rfl
  exact h hd

/-- A written tag is the one that is opened where it begins, if the next tag follows or nothing. -/
theorem Tag.Legible.openedBefore_eq {t : Tag} (h : t.Legible) {rest : List Char}
    (hrest : rest.takeWhile (· != '<') = []) :
    openedBefore (t.inside ++ '>' :: (t.behind ++ rest)) = t := by
  have hinside := bne_of_not_mem h.noClosing
  rw [openedBefore, List.takeWhile_append_of_pos hinside, List.dropWhile_append_of_pos hinside,
    List.takeWhile_cons_of_neg (by decide), List.dropWhile_cons_of_neg (by decide),
    List.drop_succ_cons, List.drop_zero, List.takeWhile_append_of_pos (bne_of_not_mem h.behind),
    hrest, List.append_nil, List.append_nil]

/-- **Tags are found as they were written**, and no others. -/
theorem tags_flatMap_text {ts : List Tag} (h : ∀ t ∈ ts, t.Legible) :
    tags (ts.flatMap Tag.text) = ts := by
  induction ts with
  | nil => rfl
  | cons t ts ih =>
    have hlegible := h t List.mem_cons_self
    have hnext : (ts.flatMap Tag.text).takeWhile (· != '<') = [] := by
      cases ts <;> rfl
    have hfront : '<' ∉ t.inside ++ '>' :: t.behind := by
      rw [List.mem_append, List.mem_cons, not_or, not_or]
      exact ⟨hlegible.noOpening, by decide, hlegible.behind⟩
    have htext : t.text ++ ts.flatMap Tag.text =
        '<' :: (t.inside ++ '>' :: (t.behind ++ ts.flatMap Tag.text)) := by
      rw [Tag.text, List.cons_append, List.append_assoc, List.cons_append]
    rw [List.flatMap_cons, htext, tags, if_pos rfl, hlegible.openedBefore_eq hnext]
    -- behind the bracket that opens it the tag is a text like any other
    rw [← List.cons_append, ← List.append_assoc, tags_append_of_not_mem hfront,
      ih fun u hu ↦ h u (List.mem_cons_of_mem t hu)]

end Pagesmith.Html

/-! ## Heads -/

namespace Pagesmith

namespace PageMeta

/-- Whether `title` is the title of the document: the title of the search settings if they have one
that is not empty, and otherwise that of the page. -/
def HasTitle (m : PageMeta) (title : String) : Prop :=
  (m.seo.field? "title" = some (.string title) ∧ title ≠ "") ∨
    ((∀ t, m.seo.field? "title" = some (.string t) → t = "") ∧ title = m.title)

variable (m : PageMeta)

theorem bind_string?_eq_some_iff {v? : Option Json} {s : String} :
    v?.bind Json.string? = some s ↔ v? = some (.string s) := by
  rw [Option.bind_eq_some_iff]
  constructor
  · rintro ⟨v, rfl, hv⟩
    cases v with
    | string t => exact congrArg (fun t ↦ some (Json.string t)) (Option.some.inj hv)
    | _ => contradiction
  · intro h
    exact ⟨.string s, h, rfl⟩

theorem description?_eq_some_iff {d : String} :
    m.description? = some d ↔ m.seo.field? "description" = some (.string d) :=
  bind_string?_eq_some_iff

theorem noindex_iff : m.noindex = true ↔ m.seo.field? "noindex" = some (.bool true) := by
  rw [noindex, beq_iff_eq, Option.bind_eq_some_iff]
  constructor
  · rintro ⟨v, hfield, hv⟩
    cases v with
    | bool b => rw [hfield, Option.some.inj hv]
    | _ => contradiction
  · intro h
    exact ⟨.bool true, h, rfl⟩

theorem hasTitle_documentTitle : m.HasTitle m.documentTitle := by
  rw [HasTitle, documentTitle]
  simp only [← bind_string?_eq_some_iff]
  cases (m.seo.field? "title").bind Json.string? with
  | none => exact .inr ⟨nofun, rfl⟩
  | some t =>
    by_cases ht : t = ""
    · subst ht
      exact .inr ⟨fun t ht ↦ (Option.some.inj ht).symm, rfl⟩
    · have hempty : t.isEmpty = false := by simpa using ht
      simp only [hempty]
      exact .inl ⟨rfl, ht⟩

end PageMeta

namespace Document

open Html (Tag)

/-! ### What a head is -/

/-- The tags in front of the title. -/
def fixedTags : List Tag :=
  ["!DOCTYPE html", "html lang=\"en\"", "head", "meta charset=\"UTF-8\"",
    "meta name=\"viewport\" content=\"width=device-width, initial-scale=1\""].map
      fun inside ↦ ⟨inside.toList, ['\n']⟩

/-- The tags of the title: the title is read from the text between them. -/
inductive TitleTags (m : PageMeta) : List Tag → Prop
  | intro {title : String} {text : List Char} (htitle : m.HasTitle title)
      (hread : Html.unescapeChars text = title.toList) :
    TitleTags m [⟨"title".toList, text⟩, ⟨"/title".toList, ['\n']⟩]

/-- The tag of the description, if the search settings have one: cut at its quotation marks it is
two attributes, and the description is read from the value of the second. -/
inductive DescriptionTags (m : PageMeta) : List Tag → Prop
  | given {description : String} {inside value : List Char}
      (hgiven : m.seo.field? "description" = some (.string description))
      (hcut : Text.splitWhere (· == '"') inside =
        ["meta name=".toList, "description".toList, " content=".toList, value, []])
      (hquotation : '\'' ∉ inside) (hread : Html.unescapeChars value = description.toList) :
    DescriptionTags m [⟨inside, ['\n']⟩]
  | absent (h : ∀ description, m.seo.field? "description" ≠ some (.string description)) :
    DescriptionTags m []

/-- The tag for robots, if the search settings ask for it. -/
inductive RobotsTags (m : PageMeta) : List Tag → Prop
  | given (h : m.seo.field? "noindex" = some (.bool true)) :
    RobotsTags m [⟨"meta name=\"robots\" content=\"noindex\"".toList, ['\n']⟩]
  | absent (h : m.seo.field? "noindex" ≠ some (.bool true)) : RobotsTags m []

/-- The tags of the style sheet, if there is a theme with something to declare. -/
inductive StyleTags : Option Json → List Tag → Prop
  | given {settings : Json} (h : Theme.css settings ≠ "") :
    StyleTags (some settings)
      [⟨"style".toList, (Theme.css settings).toList⟩, ⟨"/style".toList, ['\n']⟩]
  | absent {theme : Option Json} (h : ∀ settings, theme = some settings → Theme.css settings = "") :
    StyleTags theme []

/-- The tags of a head. -/
inductive HeadTags (m : PageMeta) (theme : Option Json) : List Tag → Prop
  | intro {title description robots style : List Tag} (htitle : TitleTags m title)
      (hdescription : DescriptionTags m description) (hrobots : RobotsTags m robots)
      (hstyle : StyleTags theme style) :
    HeadTags m theme
      (fixedTags ++ title ++ description ++ robots ++ style ++ [⟨"/head".toList, ['\n']⟩])

/-! ### Each part of the head -/

/-- Whether `s` consists of the tags `ts`, with texts behind them, and these are found in it. -/
structure WrittenAs (s : String) (ts : List Tag) : Prop where
  toList_eq : s.toList = ts.flatMap Tag.text
  legible : ∀ t ∈ ts, t.Legible

theorem WrittenAs.tags_eq {s : String} {ts : List Tag} (h : WrittenAs s ts) :
    Html.tags s.toList = ts := by
  rw [h.toList_eq, Html.tags_flatMap_text h.legible]

theorem writtenAs_empty : WrittenAs "" [] := ⟨rfl, fun _ h ↦ absurd h List.not_mem_nil⟩

theorem WrittenAs.append {s s' : String} {ts ts' : List Tag} (h : WrittenAs s ts)
    (h' : WrittenAs s' ts') : WrittenAs (s ++ s') (ts ++ ts') where
  toList_eq := by rw [String.toList_append, h.toList_eq, h'.toList_eq, List.flatMap_append]
  legible t ht := (List.mem_append.mp ht).elim (h.legible t) (h'.legible t)

theorem writtenAs_opening : WrittenAs opening fixedTags where
  toList_eq := by decide +kernel
  legible := by decide +kernel

theorem writtenAs_headEnd : WrittenAs "</head>\n" [⟨"/head".toList, ['\n']⟩] where
  toList_eq := by decide
  legible := by decide

/-- What is escaped opens and closes no tag. -/
theorem not_mem_escapeChars (s : String) :
    '<' ∉ Html.escapeChars s.toList ∧ '>' ∉ Html.escapeChars s.toList ∧
      '"' ∉ Html.escapeChars s.toList ∧ '\'' ∉ Html.escapeChars s.toList :=
  have h := Html.inert_escapeChars s.toList
  ⟨h.noBracket.1, h.noBracket.2, h.noQuotation.1, h.noQuotation.2⟩

variable (m : PageMeta)

def titleLine : String := s!"<title>{Html.escape m.documentTitle}</title>\n"

def descriptionLines : List String :=
  match m.description? with
  | some d => [s!"<meta name=\"description\" content=\"{Html.escape d}\">\n"]
  | none => []

def robotsLines : List String :=
  if m.noindex then ["<meta name=\"robots\" content=\"noindex\">\n"] else []

def styleLines (theme : Option Json) : List String :=
  match theme.map Theme.css with
  | some css => if css.isEmpty then [] else [s!"<style>{css}</style>\n"]
  | none => []

theorem exists_titleTags : ∃ ts, TitleTags m ts ∧ WrittenAs (titleLine m) ts := by
  refine ⟨_, .intro m.hasTitle_documentTitle (Html.unescapeChars_escapeChars _), ?_, ?_⟩
  · have hline : titleLine m = "<title>" ++ Html.escape m.documentTitle ++ "</title>\n" := rfl
    simp [hline, Html.escape, Tag.text]
  · have hnone : '<' ∉ "title".toList ∧ '>' ∉ "title".toList := by decide
    have hclosing : (⟨"/title".toList, ['\n']⟩ : Tag).Legible := by decide
    rw [List.forall_mem_cons, List.forall_mem_singleton]
    exact ⟨⟨hnone.1, hnone.2, (not_mem_escapeChars _).1⟩, hclosing⟩

def descriptionFront : List Char := "meta name=\"description\" content=\"".toList

/-- The tag of a description with `value` in quotation marks. -/
def descriptionTag (value : List Char) : Tag := ⟨descriptionFront ++ (value ++ ['"']), ['\n']⟩

theorem not_mem_descriptionTag {c : Char} (hfront : c ∉ descriptionFront) (hc : c ≠ '"')
    {value : List Char} (hvalue : c ∉ value) : c ∉ (descriptionTag value).inside := by
  rw [descriptionTag, List.mem_append, List.mem_append, List.mem_singleton]
  exact not_or.mpr ⟨hfront, not_or.mpr ⟨hvalue, hc⟩⟩

theorem splitWhere_descriptionTag {value : List Char} (h : '"' ∉ value) :
    Text.splitWhere (· == '"') (descriptionTag value).inside =
      ["meta name=".toList, "description".toList, " content=".toList, value, []] := by
  have hfront : descriptionFront =
      "meta name=".toList ++ '"' :: "description".toList ++ '"' :: " content=".toList ++ ['"'] := by
    decide +kernel
  have hjoined : (descriptionTag value).inside = ['"'].intercalate
      ["meta name=".toList, "description".toList, " content=".toList, value, []] := by
    rw [descriptionTag, hfront]
    simp only [List.intercalate_cons_cons, List.intercalate_singleton, List.append_assoc,
      List.cons_append, List.nil_append, List.append_nil]
  rw [hjoined]
  refine Text.splitWhere_intercalate (List.cons_ne_nil _ _) ?_
  have hname : '"' ∉ "meta name=".toList ∧ '"' ∉ "description".toList ∧
      '"' ∉ " content=".toList := by decide
  simp only [List.forall_mem_cons]
  exact ⟨hname.1, hname.2.1, hname.2.2, h, List.not_mem_nil, fun _ h ↦ absurd h List.not_mem_nil⟩

theorem writtenAs_description (d : String) :
    WrittenAs s!"<meta name=\"description\" content=\"{Html.escape d}\">\n"
      [descriptionTag (Html.escapeChars d.toList)] where
  toList_eq := by
    have hfront : "<meta name=\"description\" content=\"".toList = '<' :: descriptionFront := by
      decide +kernel
    have hend : "\">\n".toList = ['"', '>', '\n'] := by decide
    have hline : s!"<meta name=\"description\" content=\"{Html.escape d}\">\n" =
      "<meta name=\"description\" content=\"" ++ Html.escape d ++ "\">\n" := rfl
    rw [hline, String.toList_append, String.toList_append, hfront, hend, Html.escape,
      String.toList_ofList, List.flatMap_singleton, Tag.text, descriptionTag]
    simp only [List.append_assoc, List.cons_append, List.nil_append]
  legible := by
    rw [List.forall_mem_singleton]
    obtain ⟨hopening, hclosing, -⟩ := not_mem_escapeChars d
    refine ⟨not_mem_descriptionTag ?_ ?_ hopening, not_mem_descriptionTag ?_ ?_ hclosing, ?_⟩
    · decide +kernel
    · decide
    · decide +kernel
    · decide
    · exact fun h ↦ absurd (List.mem_singleton.mp h) (by decide)

theorem exists_descriptionTags :
    ∃ ts, DescriptionTags m ts ∧ WrittenAs (String.join (descriptionLines m)) ts := by
  rw [descriptionLines]
  cases hd : m.description? with
  | none =>
    refine ⟨[], .absent fun d hfield ↦ ?_, writtenAs_empty⟩
    rw [m.description?_eq_some_iff.mpr hfield] at hd
    contradiction
  | some d =>
    obtain ⟨-, -, hdouble, hsingle⟩ := not_mem_escapeChars d
    refine ⟨_, .given (m.description?_eq_some_iff.mp hd) (splitWhere_descriptionTag hdouble) ?_
      (Html.unescapeChars_escapeChars _), ?_⟩
    · exact not_mem_descriptionTag (by decide +kernel) (by decide) hsingle
    · rw [String.join_cons, String.join_nil, String.append_empty]
      exact writtenAs_description d

theorem exists_robotsTags :
    ∃ ts, RobotsTags m ts ∧ WrittenAs (String.join (robotsLines m)) ts := by
  rw [robotsLines]
  split
  · next h => exact ⟨_, .given (m.noindex_iff.mp h), by decide +kernel, by decide +kernel⟩
  · next h => exact ⟨[], .absent fun hfield ↦ h (m.noindex_iff.mpr hfield), writtenAs_empty⟩

theorem exists_styleTags (theme : Option Json) :
    ∃ ts, StyleTags theme ts ∧ WrittenAs (String.join (styleLines theme)) ts := by
  cases theme with
  | none => exact ⟨[], .absent nofun, writtenAs_empty⟩
  | some settings =>
    rw [styleLines, Option.map_some]
    by_cases hcss : Theme.css settings = ""
    · rw [hcss]
      exact ⟨[], .absent fun _ h ↦ Option.some.inj h ▸ hcss, writtenAs_empty⟩
    · have hempty : (Theme.css settings).isEmpty = false := by simpa using hcss
      refine ⟨_, .given hcss, ?_, ?_⟩
      · have hline : s!"<style>{Theme.css settings}</style>\n" =
            "<style>" ++ Theme.css settings ++ "</style>\n" := rfl
        simp [hempty, hline, Tag.text]
      · have hnone : '<' ∉ "style".toList ∧ '>' ∉ "style".toList := by decide
        have hclosing : (⟨"/style".toList, ['\n']⟩ : Tag).Legible := by decide
        rw [List.forall_mem_cons, List.forall_mem_singleton]
        exact ⟨⟨hnone.1, hnone.2, Theme.not_mem_css settings⟩, hclosing⟩

/-! ### The whole head -/

/-- What a document has in front of its body. -/
def head (m : PageMeta) (theme : Option Json) : String :=
  opening ++ String.join (headLines m theme) ++ "</head>\n"

theorem render_eq (body : String) (theme : Option Json) :
    render m body theme = head m theme ++ "<body>\n" ++ body ++ "\n</body>" ++ "\n</html>\n" := by
  have hopening : bodyOpening = "</head>\n" ++ "<body>\n" := rfl
  have hclosing : closing = "\n</body>" ++ "\n</html>\n" := rfl
  rw [render, head, hopening, hclosing]
  simp only [String.append_assoc]

theorem join_headLines (theme : Option Json) :
    String.join (headLines m theme) = titleLine m ++ String.join (descriptionLines m) ++
      String.join (robotsLines m) ++ String.join (styleLines theme) := by
  have hlines : headLines m theme =
      [titleLine m] ++ descriptionLines m ++ robotsLines m ++ styleLines theme := rfl
  simp [hlines, String.join_append, String.append_assoc]

theorem exists_headTags (theme : Option Json) :
    ∃ ts, HeadTags m theme ts ∧ WrittenAs (head m theme) ts := by
  obtain ⟨title, htitle, htitleText⟩ := exists_titleTags m
  obtain ⟨description, hdescription, hdescriptionText⟩ := exists_descriptionTags m
  obtain ⟨robots, hrobots, hrobotsText⟩ := exists_robotsTags m
  obtain ⟨style, hstyle, hstyleText⟩ := exists_styleTags theme
  refine ⟨_, .intro htitle hdescription hrobots hstyle, ?_⟩
  rw [head, join_headLines]
  have hlines := ((htitleText.append hdescriptionText).append hrobotsText).append hstyleText
  simpa only [List.append_assoc] using (writtenAs_opening.append hlines).append writtenAs_headEnd

/-- **Metadata cannot change the structure of a document.** Whatever the title, the search settings
and the theme are, a document is a head, the body as it is between its own two tags, and a fixed
end. The tags of the head are the ones a head has, and it consists of them and the texts behind
them. -/
theorem metadata_keeps_structure (theme : Option Json) :
    ∃ head : String, HeadTags m theme (Html.tags head.toList) ∧
      head.toList = (Html.tags head.toList).flatMap Tag.text ∧
      ∀ body : String, render m body theme =
        head ++ "<body>\n" ++ body ++ "\n</body>" ++ "\n</html>\n" := by
  obtain ⟨ts, hts, hwritten⟩ := exists_headTags m theme
  refine ⟨head m theme, ?_, ?_, fun body ↦ render_eq m body theme⟩
  · rwa [hwritten.tags_eq]
  · rw [hwritten.tags_eq, hwritten.toList_eq]

end Document

end Pagesmith
