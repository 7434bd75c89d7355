import Pagesmith.Block.Basic
import Pagesmith.Text.Words

/-!
# Records of the store

Pages, their versions, themes and block types as the database holds them. A version is the block
list a page had before an update; it is never changed.

Records are written by `toJson` with their fields in the declared order.
-/

/-! ## Identifiers

Pages, versions, themes, tenants and editors are known by identifiers of 128 bits, of type `Uuid`.
An identifier is written in lower case with four hyphens. It is read in either case, with the
hyphens or without, and with the hyphens also between braces or as a URN, whose scheme may be in
either case too. -/

namespace Pagesmith.Store

/-- An identifier. -/
structure Uuid where
  bits : BitVec 128
deriving DecidableEq, Repr

namespace Uuid

def nil : Uuid := ⟨0⟩

def groups : List Nat := [8, 4, 4, 4, 12]

def digits (u : Uuid) : List Char := Text.padStart 32 '0' (Nat.toDigits 16 u.bits.toNat)

def hyphenate : List Nat → List Char → List Char
  | [], ds => ds
  | [_], ds => ds
  | n :: ns, ds => ds.take n ++ '-' :: hyphenate ns (ds.drop n)

/-- An identifier in writing: in lower case, with hyphens between the `groups`. -/
def text (u : Uuid) : String := String.ofList (hyphenate groups u.digits)

/-- The digits between hyphens that stand where the `groups` end. -/
def joinGroups? : List Nat → List Char → Option (List Char)
  | [], [] => some []
  | [], _ :: _ => none
  | [n], s => if s.length = n then some s else none
  | n :: ns, s =>
    if (s.drop n).head? = some '-' then (joinGroups? ns (s.drop (n + 1))).map (s.take n ++ ·)
    else none

/-- The identifier with the given digits, 32 of them. -/
def ofDigits? (ds : List Char) : Option Uuid :=
  if ds.length = 32 then
    (ds.foldlM (fun n c ↦ (Text.hexDigit? c).map (16 * n + ·)) 0).map fun n ↦ ⟨BitVec.ofNat 128 n⟩
  else none

def ofHyphenated? (s : List Char) : Option Uuid := do ofDigits? (← joinGroups? groups s)

def urnScheme : List Char := "urn:uuid:".toList

/-- Read an identifier: bare, with hyphens, between braces, or behind `urn:uuid:`. -/
def ofText? (s : String) : Option Uuid :=
  match s.toList with
  | '\x7b' :: rest =>
    if rest.getLast? = some '\x7d' then ofHyphenated? rest.dropLast else none
  | s =>
    if s.length = 32 then ofDigits? s
    else if (s.take 9).map Char.toLower = urnScheme then ofHyphenated? (s.drop 9)
    else ofHyphenated? s

end Uuid

/-! ## Points in time

The store keeps an `Instant` in UTC, to the nanosecond. It is read from a date and a time of day
with an offset, and written in UTC with the fewest groups of three decimals that lose nothing.

A leap second is the second after the 59th of a minute. It has the number of the 59th second and
nanoseconds beyond a thousand million, so it sorts between its neighbours.

### The calendar

Days are counted from the first of January 1970. A year is taken to begin in March, so that the day
a leap year has more is its last one, and four hundred years are always the same number of days. -/

/-- A point in time. -/
structure Instant where
  /-- Seconds since the beginning of 1970. -/
  second : Int
  /-- Nanoseconds in this second; from `10 ^ 9` up they are in the leap second behind it. -/
  nano : Nat
deriving DecidableEq, Repr

/-- A day of the calendar. -/
structure Date where
  year : Int
  month : Nat
  day : Nat
deriving DecidableEq, Repr

namespace Date

def isLeapYear (y : Int) : Bool := y % 4 == 0 && (y % 100 != 0 || y % 400 == 0)

/-- The number of days of a month. -/
def daysInMonth (y : Int) (m : Nat) : Nat :=
  if m = 2 then (if isLeapYear y then 29 else 28)
  else if m = 4 ∨ m = 6 ∨ m = 9 ∨ m = 11 then 30
  else 31

/-- Whether the calendar has this day. -/
def isValid (d : Date) : Bool :=
  1 ≤ d.month && d.month ≤ 12 && 1 ≤ d.day && d.day ≤ daysInMonth d.year d.month

/-- The number of the day `d`, counted from the beginning of 1970. -/
def toDays (d : Date) : Int :=
  let y := if d.month ≤ 2 then d.year - 1 else d.year
  let era := y / 400
  let yearOfEra := y % 400
  let monthFromMarch : Int := (d.month + 9) % 12
  let dayOfYear := (153 * monthFromMarch + 2) / 5 + d.day - 1
  let dayOfEra := yearOfEra * 365 + yearOfEra / 4 - yearOfEra / 100 + dayOfYear
  era * 146097 + dayOfEra - 719468

/-- The day with the number `n`. It undoes `toDays`. -/
def ofDays (n : Int) : Date :=
  let z := n + 719468
  let era := z / 146097
  let dayOfEra := z % 146097
  let yearOfEra := (dayOfEra - dayOfEra / 1460 + dayOfEra / 36524 - dayOfEra / 146096) / 365
  let dayOfYear := dayOfEra - (365 * yearOfEra + yearOfEra / 4 - yearOfEra / 100)
  let monthFromMarch := (5 * dayOfYear + 2) / 153
  let day := dayOfYear - (153 * monthFromMarch + 2) / 5 + 1
  let month := if monthFromMarch < 10 then monthFromMarch + 3 else monthFromMarch - 9
  ⟨yearOfEra + era * 400 + (if month ≤ 2 then 1 else 0), month.toNat, day.toNat⟩

end Date

namespace Instant

def nanosPerSecond : Nat := 1000000000

/-- The beginning of 1970. -/
def epoch : Instant := ⟨0, 0⟩

/-! ### Writing -/

def padded (width n : Nat) : List Char := Text.padStart width '0' (Text.decimalDigits n)

/-- A year: four digits, or a sign and more of them. -/
def yearText (y : Int) : List Char :=
  if 0 ≤ y ∧ y ≤ 9999 then padded 4 y.toNat
  else (if y < 0 then '-' else '+') :: padded 4 y.natAbs

/-- The date of a point in time in UTC, and the second of that day. -/
def dateAndSecond (t : Instant) : Date × Nat :=
  (Date.ofDays (t.second / 86400), (t.second % 86400).toNat)

def dateText (t : Instant) : List Char :=
  let (d, _) := t.dateAndSecond
  yearText d.year ++ '-' :: padded 2 d.month ++ '-' :: padded 2 d.day

def timeText (t : Instant) : List Char :=
  let (_, s) := t.dateAndSecond
  let leap := if nanosPerSecond ≤ t.nano then 1 else 0
  padded 2 (s / 3600) ++ ':' :: padded 2 (s / 60 % 60) ++ ':' :: padded 2 (s % 60 + leap)

/-- The decimals, in groups of three. -/
def fractionText (t : Instant) : List Char :=
  let n := t.nano % nanosPerSecond
  if n = 0 then []
  else if n % 1000000 = 0 then '.' :: padded 3 (n / 1000000)
  else if n % 1000 = 0 then '.' :: padded 6 (n / 1000)
  else '.' :: padded 9 n

/-- A point in time in writing, as in `2024-05-01T12:00:00Z`. -/
def text (t : Instant) : String :=
  String.ofList (t.dateText ++ 'T' :: t.timeText ++ t.fractionText ++ ['Z'])

/-- Date and time of day, as they stand in lists. -/
def listText (t : Instant) : String := String.ofList (t.dateText ++ ' ' :: t.timeText)

/-! ### Reading -/

/-- The value of exactly `n` digits, and what follows them. -/
def digits? (n : Nat) (s : List Char) : Option (Nat × List Char) :=
  if (s.take n).length = n then
    ((s.take n).foldlM (fun v c ↦ (Text.digit? c).map (10 * v + ·)) 0).map (·, s.drop n)
  else none

/-- What follows one of `marks`. -/
def mark? (marks : List Char) : List Char → Option (List Char)
  | c :: s => if marks.contains c then some s else none
  | [] => none

def date? (s : List Char) : Option (Date × List Char) := do
  let (y, s) ← digits? 4 s
  let (m, s) ← digits? 2 (← mark? ['-'] s)
  let (d, s) ← digits? 2 (← mark? ['-'] s)
  let date : Date := ⟨y, m, d⟩
  if date.isValid then return (date, s) else none

/-- A time of day: the second of the day, and whether it is the leap second behind it. -/
def time? (s : List Char) : Option ((Nat × Bool) × List Char) := do
  let (h, s) ← digits? 2 s
  let (m, s) ← digits? 2 (← mark? [':'] s)
  let (sec, s) ← digits? 2 (← mark? [':'] s)
  if h < 24 ∧ m < 60 ∧ sec < 60 then return ((3600 * h + 60 * m + sec, false), s)
  else if h < 24 ∧ m < 60 ∧ sec = 60 then return ((3600 * h + 60 * m + 59, true), s)
  else none

/-- Decimals behind a point, those beyond nanoseconds dropped. Without a point there are none. -/
def fraction? : List Char → Option (Nat × List Char)
  | '.' :: s =>
    let run := s.takeWhile fun c ↦ (Text.digit? c).isSome
    if run.isEmpty then none
    else do
      let kept := run.take 9
      let (n, _) ← digits? kept.length kept
      return (n * Nat.pow 10 (9 - kept.length), s.drop run.length)
  | s => some (0, s)

/-- An offset from UTC in seconds. -/
def offset? : List Char → Option (Int × List Char)
  | 'Z' :: s | 'z' :: s => some (0, s)
  | sign :: s => do
    let negative ← if sign = '+' then some false
      else if sign = '-' ∨ sign = '\u2212' then some true else none
    let (h, s) ← digits? 2 s
    let (m, s) ← digits? 2 (← mark? [':'] s)
    if h < 24 ∧ m < 60 then
      let n : Int := 3600 * h + 60 * m
      return (if negative then -n else n, s)
    else none
  | [] => none

/-- Read a point in time: a date, a time of day and an offset. -/
def ofText? (s : String) : Option Instant := do
  let (date, s) ← date? s.toList
  let ((second, leap), s) ← time? (← mark? ['T', 't', ' '] s)
  let (nano, s) ← fraction? s
  let (offset, s) ← offset? s
  if s.isEmpty then
    return ⟨86400 * date.toDays + second - offset, if leap then nanosPerSecond + nano else nano⟩
  else none

end Instant

/-! ## Records -/

/-- A page of a tenant. -/
structure Page where
  id : Uuid
  tenant : Uuid
  slug : String
  title : String
  blocks : List Block
  published : Bool
  seo : Json
  created : Instant
  updated : Instant
deriving DecidableEq, Repr

/-- The block list of a page as it was before an update. -/
structure PageVersion where
  id : Uuid
  page : Uuid
  version : Int
  snapshot : List Block
  editor : Uuid
  created : Instant
deriving DecidableEq, Repr

/-- A page that has been written, and the version that keeps what was there before. A page that has
been created has none. -/
structure PageUpdate where
  page : Page
  version : Option PageVersion
deriving DecidableEq, Repr

/-- A theme of a tenant. -/
structure Theme where
  id : Uuid
  tenant : Uuid
  name : String
  settings : Json
  active : Bool
  created : Instant
deriving DecidableEq, Repr

/-- A block type as the database holds it. -/
structure TypeRecord where
  name : String
  category : String
  template : String
  defaultConfig : Json
  schema : Option Json
  enabled : Bool
  created : Instant
  updated : Instant
deriving DecidableEq, Repr

/-- The block type of a record. Without a schema, the schema is null. -/
def TypeRecord.blockType (r : TypeRecord) : BlockType where
  name := r.name
  category := r.category
  template := r.template
  defaultConfig := r.defaultConfig
  schema := r.schema.getD .null
  enabled := r.enabled

/-! ### Writing -/

def Uuid.toJson (u : Uuid) : Json := .string u.text

def Instant.toJson (t : Instant) : Json := .string t.text

def Page.toJson (p : Page) : Json := .object [
  ("id", p.id.toJson), ("tenantId", p.tenant.toJson), ("slug", .string p.slug),
  ("title", .string p.title), ("blocks", Block.listToJson p.blocks),
  ("isPublished", .bool p.published), ("seoSettings", p.seo), ("createdAt", p.created.toJson),
  ("updatedAt", p.updated.toJson)]

def PageVersion.toJson (v : PageVersion) : Json := .object [
  ("id", v.id.toJson), ("pageId", v.page.toJson), ("versionNumber", .int v.version),
  ("blocksSnapshot", Block.listToJson v.snapshot), ("createdBy", v.editor.toJson),
  ("createdAt", v.created.toJson)]

def PageVersion.listToJson (vs : List PageVersion) : Json := .array (vs.map toJson)

/-- A page that has been written as JSON. Its `version` is null if it was created. -/
def PageUpdate.toJson (u : PageUpdate) : Json := .object [
  ("page", u.page.toJson), ("version", (u.version.map PageVersion.toJson).getD .null)]

def Theme.toJson (t : Theme) : Json := .object [
  ("id", t.id.toJson), ("tenantId", t.tenant.toJson), ("name", .string t.name),
  ("settings", t.settings), ("isActive", .bool t.active), ("createdAt", t.created.toJson)]

def TypeRecord.toJson (r : TypeRecord) : Json := .object [
  ("name", .string r.name), ("category", .string r.category), ("template", .string r.template),
  ("defaultConfig", r.defaultConfig), ("configSchema", r.schema.getD .null),
  ("enabled", .bool r.enabled), ("createdAt", r.created.toJson), ("updatedAt", r.updated.toJson)]

end Pagesmith.Store
