import Pagesmith.Json.Basic

/-!
# JSON text

Values are written without blanks between tokens. In strings the quotation mark, the backslash and
the characters below U+0020 are escaped, five of these by a letter and the others by their number;
everything else stands for itself, the solidus and non-ASCII characters included.

`Json.prettyText` is the same text spread over lines with two blanks per level; empty arrays and
objects stay on one line.
-/

namespace Pagesmith.Json

private def hexChar (n : Nat) : Char := Nat.digitChar n

/-- One character of a string, escaped where it has to be. -/
def escapeChar (c : Char) : List Char :=
  if c = '"' then ['\\', '"']
  else if c = '\\' then ['\\', '\\']
  else if c = '\x08' then ['\\', 'b']
  else if c = '\x0c' then ['\\', 'f']
  else if c = '\n' then ['\\', 'n']
  else if c = '\r' then ['\\', 'r']
  else if c = '\t' then ['\\', 't']
  else if c.toNat < 0x20 then
    ['\\', 'u', '0', '0', hexChar (c.toNat / 16), hexChar (c.toNat % 16)]
  else [c]

def stringText (s : String) : List Char := '"' :: s.toList.flatMap escapeChar ++ ['"']

mutual

/-- The compact text of a value. -/
def compact : Json → List Char
  | null => "null".toList
  | bool true => "true".toList
  | bool false => "false".toList
  | number n => n.jsonText
  | string s => stringText s
  | array [] => ['[', ']']
  | array (x :: xs) => '[' :: compact x ++ compactItems xs
  | object [] => ['\x7b', '\x7d']
  | object ((k, x) :: fs) => '\x7b' :: stringText k ++ ':' :: compact x ++ compactFields fs

def compactItems : List Json → List Char
  | [] => [']']
  | x :: xs => ',' :: compact x ++ compactItems xs

def compactFields : List (String × Json) → List Char
  | [] => ['\x7d']
  | (k, x) :: fs => ',' :: stringText k ++ ':' :: compact x ++ compactFields fs

end

/-- The `compact` text as a string. -/
def text (v : Json) : String := String.ofList v.compact

/-- A new line, indented by two blanks per `level`. -/
private def newLine (level : Nat) : List Char := '\n' :: List.replicate (2 * level) ' '

mutual

/-- The text of a value over several lines, its first line continuing the current one. -/
def pretty (level : Nat) : Json → List Char
  | array (x :: xs) =>
    '[' :: newLine (level + 1) ++ pretty (level + 1) x ++ prettyItems level xs
  | object ((k, x) :: fs) =>
    '\x7b' :: newLine (level + 1) ++ stringText k ++ ':' :: ' ' :: pretty (level + 1) x ++
      prettyFields level fs
  | array [] => ['[', ']']
  | object [] => ['\x7b', '\x7d']
  | null => compact null
  | bool b => compact (bool b)
  | number n => compact (number n)
  | string s => compact (string s)

def prettyItems (level : Nat) : List Json → List Char
  | [] => newLine level ++ [']']
  | x :: xs => ',' :: newLine (level + 1) ++ pretty (level + 1) x ++ prettyItems level xs

def prettyFields (level : Nat) : List (String × Json) → List Char
  | [] => newLine level ++ ['\x7d']
  | (k, x) :: fs =>
    ',' :: newLine (level + 1) ++ stringText k ++ ':' :: ' ' :: pretty (level + 1) x ++
      prettyFields level fs

end

def prettyText (v : Json) : String := String.ofList (pretty 0 v)

end Pagesmith.Json
