import Pagesmith.Json.Basic

/-!
# Escaping for HTML

Configuration is escaped once, before a template sees it: every string of a value is replaced by
its escaped image. The one exception is a string that is the direct content of a field named
`content`; it is trusted rich text and stays as it is. The exception belongs to the field and not
to what lies below it: a list or an object under `content` is escaped like any other.
-/

namespace Pagesmith

namespace Html

/-- One character as it may stand in HTML text or in a quoted attribute. -/
def escapeChar (c : Char) : List Char :=
  if c = '&' then "&amp;".toList
  else if c = '<' then "&lt;".toList
  else if c = '>' then "&gt;".toList
  else if c = '"' then "&quot;".toList
  else if c = '\'' then "&#039;".toList
  else [c]

def escapeChars (s : List Char) : List Char := s.flatMap escapeChar

/-- A string with each of `&`, `<`, `>`, `"` and the apostrophe replaced by an entity. -/
def escape (s : String) : String := String.ofList (escapeChars s.toList)

/-- The name `content`, whose strings are trusted. -/
def trustedField : String := "content"

end Html

namespace Json

mutual

/-- The value with every string escaped, trusted ones excepted. -/
def sanitize : Json → Json
  | null => null
  | bool b => bool b
  | number n => number n
  | string s => string (Html.escape s)
  | array items => array (sanitizeItems items)
  | object fields => object (sanitizeFields fields)

def sanitizeItems : List Json → List Json
  | [] => []
  | x :: xs => sanitize x :: sanitizeItems xs

/-- Fields with their contents escaped, but for a string that is the content of `trustedField`. -/
def sanitizeFields : List (String × Json) → List (String × Json)
  | [] => []
  | (k, string s) :: fs =>
    (k, if k = Html.trustedField then string s else string (Html.escape s)) :: sanitizeFields fs
  | (k, x) :: fs => (k, sanitize x) :: sanitizeFields fs

end

end Json

end Pagesmith
