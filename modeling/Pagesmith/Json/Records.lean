import Pagesmith.Json.Reader
import Pagesmith.Record

/-!
# Records in a text

By `recordsOfText` a list of records can be read from a JSON text without a value for the whole text
in between. Then every fault has a place: that of a value of the wrong kind is behind the value, or
in front of its bracket; that of a field that is missing, of one that comes twice and of a list that
is too short is behind the record, or as far as the record could be read.

A record of more items than it has fields does not end where it should, and this is a fault of the
text.
-/

namespace Pagesmith.Json.Reader

open Record

/-- Why a text does not hold the wanted records. -/
inductive RecordsFault
  | text (f : SyntaxFault)
  | record (f : Record.Fault)
deriving DecidableEq, Repr

def RecordsFault.message : RecordsFault → String
  | text f => f.message
  | record f => f.message

abbrev RecordsReading := Except (Failure RecordsFault)

/-- A step of `Reading` as one of `RecordsReading`. -/
def asText {α : Type} (r : Reading α) : RecordsReading α :=
  r.mapError fun f ↦ { fault := .text f.fault, rest := f.rest, ahead := f.ahead }

/-- The fault of a record, placed in front of `rest`. -/
def faultAt {α : Type} (rest : List Char) (r : Record.Reading α) : RecordsReading α :=
  r.mapError fun f ↦ { fault := .record f, rest }

/-- Read a value and `use` it, say as a field. If an empty list or object would not do, then no
other one will, and the fault is found in front of it. -/
def valueFor {α : Type} (use : Json → Record.Reading α) (depth : Nat) (s : List Char) :
    RecordsReading (α × List Char) := do
  let s := skipBlanks s
  match s with
  | '[' :: _ => let _ ← faultAt s (use (.array []))
  | '\x7b' :: _ => let _ ← faultAt s (use (.object []))
  | _ => pure ()
  let (v, rest) ← asText (value (2 * s.length + 2) depth s)
  return (← faultAt rest (use v), rest)

section

variable {δ ρ : Type} (shape : Shape Json δ ρ)

/-- The record that `draft` amounts to, or the first field that is missing, and the text behind the
bracket. -/
def finishRecord (draft : δ) (missing : String → Record.Fault)
    (ending : List Char × Option (Failure SyntaxFault)) : RecordsReading (ρ × List Char) := do
  let record ← faultAt ending.1 ((shape.finish draft).mapError missing)
  match ending.2 with
  | some f => asText (.error f)
  | none => return (record, ending.1)

/-- Items of a record that is a list, where `fields` are still to come. -/
def recordItems (depth : Nat) : (fields : List String) → (first : Bool) → δ → List Char →
    RecordsReading (δ × List Char)
  | [], _, draft, s => return (draft, s)
  | name :: fields, first, draft, s => do
    match ← asText (nextItem first s) with
    | none => return (draft, s)
    | some s =>
      let (draft, s) ← valueFor (fun v ↦ shape.set draft (name, v)) depth s
      recordItems depth fields false draft s

/-- Fields of a record that is an object, up to the brace that ends it. The names in `seen` were
read before, and no field of the record may come twice. The fuel is the length of the text. -/
def recordFields (depth : Nat) : (fuel : Nat) → (first : Bool) → (seen : List String) → δ →
    List Char → RecordsReading (δ × List Char)
  | 0, _, _, _, _ => asText (failAt .endInObject [])
  | fuel + 1, first, seen, draft, s => do
    match ← asText (nextName first s) with
    | none => return (draft, s)
    | some s =>
      let (name, s) ← asText (stringBody s)
      if !shape.fields.contains name then
        let s ← asText (do skipValue (2 * s.length + 2) (← colon s))
        recordFields depth fuel false seen draft s
      else if seen.contains name then
        faultAt (endOfObject s).1 (.error (.duplicateField name))
      else
        let (draft, s) ← valueFor (fun v ↦ shape.set draft (name, v)) depth (← asText (colon s))
        recordFields depth fuel false (name :: seen) draft s

def record (depth : Nat) (s : List Char) : RecordsReading (ρ × List Char) := do
  let s := skipBlanks s
  match depth, s with
  | 0, '[' :: _ | 0, '\x7b' :: _ => asText (failPeeking .tooDeep s)
  | depth + 1, '[' :: rest =>
    let (draft, rest) ← recordItems shape depth shape.fields true shape.empty rest
    finishRecord shape draft
      (fun field ↦ .tooShort (shape.fields.idxOf field) shape.name shape.fields.length)
      (endOfList rest)
  | depth + 1, '\x7b' :: rest =>
    let (draft, rest) ← recordFields shape depth (rest.length + 1) true [] shape.empty rest
    finishRecord shape draft .missingField (endOfObject rest)
  | depth, _ => valueFor (·.unlike (.record shape.name)) depth s

/-- The records of a list up to its end. The fuel is the length of the text. -/
def records (depth : Nat) : (fuel : Nat) → (first : Bool) → List Char →
    RecordsReading (List ρ × List Char)
  | 0, _, _ => asText (failAt .endInList [])
  | fuel + 1, first, s => do
    match ← asText (nextItem first s) with
    | none => return ([], (skipBlanks s).tail)
    | some s =>
      let (r, s) ← record shape depth s
      let (rs, s) ← records depth fuel false s
      return (r :: rs, s)

/-- The list of records that a text holds. -/
def recordsOfText (s : List Char) : RecordsReading (List ρ) := do
  match skipBlanks s with
  | '[' :: rest =>
    let (rs, rest) ← records shape (maxDepth - 1) (rest.length + 1) true rest
    asText (endOfText rs rest)
  | s => return (← valueFor (·.unlike .sequence) maxDepth s).1

end

end Pagesmith.Json.Reader
