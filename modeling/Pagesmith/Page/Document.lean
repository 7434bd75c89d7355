import Pagesmith.Html.Escape
import Pagesmith.Json.Text

/-!
# Whole documents

A rendered page stands in the body of an HTML document. Its head holds the title, and a description
and a robots entry where the page's search settings ask for them, and the variables of the theme.
Everything that comes from the page or its settings goes through `Html.escape`; the body is taken as
it is.
-/

/-! ## Theme settings as style variables

A theme is a JSON object whose leaves become custom properties on `:root`: the keys on the way to a
leaf, joined with hyphens, are the property's name. Only numbers and strings of harmless characters
are taken, and only below keys that are themselves names; everything else is left out, a whole
object below a bad key included. -/

namespace Pagesmith

/-- A custom property. -/
structure Declaration where
  name : String
  value : String
deriving DecidableEq, Repr

def Declaration.text (d : Declaration) : String := s!"--{d.name}:{d.value};"

namespace Theme

def isLetter (c : Char) : Bool := ('a' ≤ c && c ≤ 'z') || ('A' ≤ c && c ≤ 'Z')

def isDigit (c : Char) : Bool := '0' ≤ c && c ≤ '9'

def isNameChar (c : Char) : Bool := isLetter c || isDigit c || c == '_' || c == '-'

/-- An ASCII letter followed by letters, digits, `_` and `-`. -/
def isName : List Char → Bool
  | [] => false
  | c :: s => isLetter c && s.all isNameChar

def isValueChar (c : Char) : Bool :=
  isLetter c || isDigit c || "#%.,()/ _-".toList.contains c

/-- A non-empty text of `isValueChar`. -/
def isValue (s : List Char) : Bool := !s.isEmpty && s.all isValueChar

/-- The name of the property `key` below `above`, which is empty at the root. -/
def join (above key : String) : String := if above.isEmpty then key else s!"{above}-{key}"

mutual

/-- The declarations of a value that stands under `name`: one if it is a leaf, those of its fields
if it is an object, none otherwise. -/
def declarationsUnder (name : String) : Json → List Declaration
  | .object fields => declarationsOf name fields
  | .string s => if isValue s.toList then [⟨name, s⟩] else []
  | .number n => [⟨name, String.ofList n.jsonText⟩]
  | .null | .bool _ | .array _ => []

/-- The declarations of the fields of an object that stands under `above`. -/
def declarationsOf (above : String) : List (String × Json) → List Declaration
  | [] => []
  | (key, x) :: fields =>
    (if isName key.toList then declarationsUnder (join above key) x else []) ++
      declarationsOf above fields

end

def declarations : Json → List Declaration
  | .object fields => declarationsOf "" fields
  | _ => []

/-- The style sheet of a theme: one rule for `:root`, or nothing if there is nothing to declare. -/
def css (settings : Json) : String :=
  match declarations settings with
  | [] => ""
  | ds => ":root\x7b" ++ String.join (ds.map Declaration.text) ++ "\x7d"

end Theme

/-! ## Documents -/

/-- What the head of a document is made from: the page's title and its search settings. -/
structure PageMeta where
  title : String
  seo : Json

namespace PageMeta

/-- The `title` of the search settings, or that of the page if it is empty or missing. -/
def documentTitle (m : PageMeta) : String :=
  match (m.seo.field? "title").bind Json.string? with
  | some t => if t.isEmpty then m.title else t
  | none => m.title

def description? (m : PageMeta) : Option String := (m.seo.field? "description").bind Json.string?

/-- Whether search engines are asked to stay away, by `noindex` being `true`. -/
def noindex (m : PageMeta) : Bool := (m.seo.field? "noindex").bind Json.bool? == some true

end PageMeta

namespace Document

/-- The variable part of the head, line by line. -/
def headLines (m : PageMeta) (theme : Option Json) : List String :=
  [s!"<title>{Html.escape m.documentTitle}</title>\n"] ++
    (match m.description? with
      | some d => [s!"<meta name=\"description\" content=\"{Html.escape d}\">\n"]
      | none => []) ++
    (if m.noindex then ["<meta name=\"robots\" content=\"noindex\">\n"] else []) ++
    (match theme.map Theme.css with
      | some css => if css.isEmpty then [] else [s!"<style>{css}</style>\n"]
      | none => [])

def opening : String :=
  "<!DOCTYPE html>\n<html lang=\"en\">\n<head>\n<meta charset=\"UTF-8\">\n" ++
    "<meta name=\"viewport\" content=\"width=device-width, initial-scale=1\">\n"

def bodyOpening : String := "</head>\n<body>\n"

def closing : String := "\n</body>\n</html>\n"

/-- The document around `body`. -/
def render (m : PageMeta) (body : String) (theme : Option Json) : String :=
  opening ++ String.join (headLines m theme) ++ bodyOpening ++ body ++ closing

end Document

end Pagesmith
