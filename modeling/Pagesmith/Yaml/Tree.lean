import Pagesmith.Yaml.Token
import Pagesmith.Yaml.Value

/-!
# Trees

The tokens of a text make up one document: a tree of scalars, sequences and mappings, where a name
may stand for a node that was given that name before. Collections are written with brackets or by
indentation; the tree is the same.

An empty place stands for the empty plain scalar, so `a:` is a mapping with a value. A sequence may
stand at the indentation of the mapping it is a value of.

## Trees that break off

A text that is not well formed has a tree as well, up to where it breaks off: there stands a node
that says why. What follows such a node has no meaning.
-/

namespace Pagesmith.Yaml

/-- What may stand in front of a node: its name, and its tag with the handle resolved. -/
structure Properties (ν : Type) where
  anchor : Option ν := none
  tag : Option Tag := none

/-- A tree whose nodes may have names of some kind. Every node has the place where it begins. -/
inductive Node (ν : Type)
  | reference (place : Mark) (name : ν)
  | scalar (place : Mark) (properties : Properties ν) (text : List Char) (plain : Bool)
  | sequence (place : Mark) (properties : Properties ν) (items : List (Node ν))
  | mapping (place : Mark) (properties : Properties ν) (entries : List (Node ν × Node ν))
  | fault (f : Fault)

/-- A tree as it was written. -/
abbrev Tree := Node (List Char)

namespace Tree

/-- The node of an empty place. -/
def empty : Tree := .scalar {} {} [] true

/-! ## Where a text breaks off -/

/-- Why the next token is not what it has to be: it is another one, or there is none. -/
def complain (what : Flaw) (passage : Option (Passage × Mark)) : List Placed → Malformation
  | [] => .flaw what {} passage
  | ⟨.fault m, _⟩ :: _ => m
  | ⟨_, place⟩ :: _ => .flaw what place passage

/-- The node where a text breaks off, and tokens from which nothing else can be read. -/
def broken (m : Malformation) : Tree × List Placed := (.fault (.malformed m), [⟨.fault m, {}⟩])

/-- The node where a text breaks off, if it does so here. -/
def broken? : List Placed → List Tree
  | ⟨.fault m, _⟩ :: _ => [.fault (.malformed m)]
  | _ => []

/-! ## Properties and handles -/

/-- What the handles of tags stand for. -/
abbrev Handles := List (List Char × List UInt8)

/-- The handles every document may use. -/
def commonHandles : Handles :=
  [(['!'], [0x21]), (['!', '!'], "tag:yaml.org,2002:".toUTF8.toList)]

/-- A tag with its handle resolved. -/
def resolveTag (handles : Handles) (handle : List Char) (suffix : List UInt8) : Option Tag :=
  let octets? := if handle.isEmpty then some suffix else (handles.lookup handle).map (· ++ suffix)
  octets?.map Tag.ofOctets

/-- The properties of a node that begins at `start`, given its name and its tag, and what follows
them. -/
def withProperties (handles : Handles) (start : Mark) (anchor : Option (List Char))
    (tag : Option (Mark × List Char × List UInt8)) (ts : List Placed) :
    Scanned (Properties (List Char) × List Placed) :=
  match ts, tag with
  | ⟨.fault m, _⟩ :: _, _ => .error m
  | _, none => .ok (⟨anchor, none⟩, ts)
  | _, some (place, handle, suffix) =>
    match resolveTag handles handle suffix with
    | some t => .ok (⟨anchor, some t⟩, ts)
    | none => .error (.flaw .unknownHandle place (some (.properties, start)))

/-- The properties in front of a node: an anchor and a tag, in either order. -/
def properties (handles : Handles) : List Placed →
    Scanned (Properties (List Char) × List Placed)
  | ⟨.anchor a, start⟩ :: ⟨.tag h s, place⟩ :: ts =>
    withProperties handles start (some a) (some (place, h, s)) ts
  | ⟨.tag h s, start⟩ :: ⟨.anchor a, _⟩ :: ts =>
    withProperties handles start (some a) (some (start, h, s)) ts
  | ⟨.anchor a, start⟩ :: ts => withProperties handles start (some a) none ts
  | ⟨.tag h s, start⟩ :: ts => withProperties handles start none (some (start, h, s)) ts
  | ts => withProperties handles {} none none ts

/-! ## Reading tokens

All readers, from `read` on, take fuel that bounds the depth of their calls. A call that reads no
token is followed by at most two more that read none, so four times the number of tokens is enough.
-/

/-- Where a node stands: between brackets, as an item of lines, or as a key or value of lines, which
may be a sequence without indentation of its own. -/
inductive Place
  | flow
  | item
  | entry
deriving DecidableEq

/-- Whether one of some tokens comes next. -/
def startsWith (stops : List Token) (ts : List Placed) : Bool :=
  ts.head?.any fun t ↦ stops.contains t.token

/-- The next element of brackets. -/
inductive Element
  /-- There is none, and the closing mark is passed. -/
  | done (rest : List Placed)
  /-- It begins with the first of `rest`. -/
  | here (rest : List Placed)
  | fault (m : Malformation)

/-- Brackets that are being read: their closing mark, and how a message speaks of them. -/
structure Brackets where
  close : Token
  missing : Flaw
  passage : Passage

def Brackets.sequence : Brackets := ⟨.flowSequenceEnd, .noItemEnd, .flowSequence⟩

def Brackets.mapping : Brackets := ⟨.flowMappingEnd, .noEntryEnd, .flowMapping⟩

/-- The next element of brackets that begin at `start`. All elements but the first have a comma in
front, and one may stand behind the last. -/
def Brackets.element (b : Brackets) (start : Mark) (first : Bool) (ts : List Placed) : Element :=
  if startsWith [b.close] ts then .done ts.tail
  else if first then .here ts
  else if startsWith [.flowEntry] ts then
    if startsWith [b.close] ts.tail then .done ts.tail.tail else .here ts.tail
  else .fault (complain b.missing (some (b.passage, start)) ts)

mutual

/-- A node. -/
def read (handles : Handles) (place : Place) : (fuel : Nat) → List Placed → Tree × List Placed
  | 0, ts => (empty, ts)
  | _ + 1, ⟨.reference name, m⟩ :: ts => (.reference m name, ts)
  | fuel + 1, ts =>
    let start := (ts.head?.map (·.mark)).getD {}
    match properties handles ts with
    | .error m => broken m
    | .ok (p, ts) =>
      match place, ts with
      | _, ⟨.scalar text plain, _⟩ :: ts => (.scalar start p text plain, ts)
      | _, ⟨.flowSequenceStart, m⟩ :: ts =>
        let (items, ts) := readFlowItems handles m fuel true ts
        (.sequence start p items, ts)
      | _, ⟨.flowMappingStart, m⟩ :: ts =>
        let (entries, ts) := readFlowEntries handles m fuel true ts
        (.mapping start p entries, ts)
      | .item, ⟨.blockSequenceStart, m⟩ :: ts | .entry, ⟨.blockSequenceStart, m⟩ :: ts =>
        let (items, ts) := readItems handles m fuel ts
        (.sequence start p items, ts)
      | .item, ⟨.blockMappingStart, m⟩ :: ts | .entry, ⟨.blockMappingStart, m⟩ :: ts =>
        let (entries, ts) := readEntries handles m fuel ts
        (.mapping start p entries, ts)
      | .entry, ⟨.blockEntry, _⟩ :: _ =>
        let (items, ts) := readUnindented handles fuel ts
        (.sequence start p items, ts)
      | _, _ =>
        if p.anchor.isSome || p.tag.isSome then (.scalar start p [] true, ts)
        else
          let passage := if place = .flow then .flowNode else .blockNode
          broken (complain .noContent (some (passage, start)) ts)

/-- A node, or the empty node if one of the tokens `stops` comes first. -/
def readUnless (handles : Handles) (place : Place) (stops : List Token) : (fuel : Nat) →
    List Placed → Tree × List Placed
  | 0, ts => (empty, ts)
  | fuel + 1, ts =>
    if startsWith stops ts then (empty, ts) else read handles place fuel ts

/-- The value of an entry: behind its mark, or the empty node without one. -/
def readValue (handles : Handles) (place : Place) (stops : List Token) : (fuel : Nat) →
    List Placed → Tree × List Placed
  | 0, ts => (empty, ts)
  | fuel + 1, ⟨.value, _⟩ :: ts => readUnless handles place stops fuel ts
  | _ + 1, ⟨.fault m, _⟩ :: _ => broken m
  | _ + 1, ts => (empty, ts)

/-- The items of an indented sequence that begins at `start`. -/
def readItems (handles : Handles) (start : Mark) : (fuel : Nat) → List Placed →
    List Tree × List Placed
  | 0, ts => ([], ts)
  | fuel + 1, ⟨.blockEntry, _⟩ :: ts =>
    let (n, ts) := readUnless handles .item [.blockEntry, .blockEnd] fuel ts
    let (ns, ts) := readItems handles start fuel ts
    (n :: ns, ts)
  | _ + 1, ⟨.blockEnd, _⟩ :: ts => ([], ts)
  | _ + 1, ts =>
    let (n, ts) := broken (complain .noItem (some (.blockSequence, start)) ts)
    ([n], ts)

/-- The items of a sequence at the indentation of the mapping around it. -/
def readUnindented (handles : Handles) : (fuel : Nat) → List Placed → List Tree × List Placed
  | 0, ts => ([], ts)
  | fuel + 1, ⟨.blockEntry, _⟩ :: ts =>
    let (n, ts) := readUnless handles .item [.blockEntry, .key, .value, .blockEnd] fuel ts
    let (ns, ts) := readUnindented handles fuel ts
    (n :: ns, ts)
  | _ + 1, ts => (broken? ts, ts)

/-- The entries of an indented mapping that begins at `start`. -/
def readEntries (handles : Handles) (start : Mark) : (fuel : Nat) → List Placed →
    List (Tree × Tree) × List Placed
  | 0, ts => ([], ts)
  | fuel + 1, ⟨.key, _⟩ :: ts =>
    let stops : List Token := [.key, .value, .blockEnd]
    let (k, ts) := readUnless handles .entry stops fuel ts
    let (v, ts) := readValue handles .entry stops fuel ts
    let (es, ts) := readEntries handles start fuel ts
    ((k, v) :: es, ts)
  | _ + 1, ⟨.blockEnd, _⟩ :: ts => ([], ts)
  | _ + 1, ts =>
    let (n, ts) := broken (complain .noKey (some (.blockMapping, start)) ts)
    ([(n, empty)], ts)

/-- The items of a sequence between brackets. An entry among them is a mapping of its own; where its
key is marked but empty, the mark that shows this belongs to the key. -/
def readFlowItems (handles : Handles) (start : Mark) : (fuel : Nat) → (first : Bool) →
    List Placed → List Tree × List Placed
  | 0, _, ts => ([], ts)
  | fuel + 1, first, ts =>
    match Brackets.sequence.element start first ts with
    | .done ts => ([], ts)
    | .fault m =>
      let (n, ts) := broken m
      ([n], ts)
    | .here (⟨.key, place⟩ :: ts) =>
      let stops : List Token := [.flowEntry, .flowSequenceEnd]
      let (k, rest) := readUnless handles .flow (.value :: stops) fuel ts
      let rest := if startsWith (.value :: stops) ts then rest.tail else rest
      let (v, ts) := readValue handles .flow stops fuel rest
      let more := (broken? ts).map fun n ↦ (n, empty)
      let (ns, ts) := readFlowItems handles start fuel false ts
      (.mapping place {} ((k, v) :: more) :: ns, ts)
    | .here ts =>
      let (n, ts) := read handles .flow fuel ts
      let (ns, ts) := readFlowItems handles start fuel false ts
      (n :: ns, ts)

/-- The entries of a mapping between brackets. What is not marked as a key has the empty value. -/
def readFlowEntries (handles : Handles) (start : Mark) : (fuel : Nat) → (first : Bool) →
    List Placed → List (Tree × Tree) × List Placed
  | 0, _, ts => ([], ts)
  | fuel + 1, first, ts =>
    match Brackets.mapping.element start first ts with
    | .done ts => ([], ts)
    | .fault m =>
      let (n, ts) := broken m
      ([(n, empty)], ts)
    | .here (⟨.key, _⟩ :: ts) =>
      let stops : List Token := [.flowEntry, .flowMappingEnd]
      let (k, ts) := readUnless handles .flow (.value :: stops) fuel ts
      let (v, ts) := readValue handles .flow stops fuel ts
      let (es, ts) := readFlowEntries handles start fuel false ts
      ((k, v) :: es, ts)
    | .here ts =>
      let (n, ts) := read handles .flow fuel ts
      let (es, ts) := readFlowEntries handles start fuel false ts
      ((n, empty) :: es, ts)

end

/-! ## Documents -/

/-- The directives in front of a document: the handles they define. There is at most one version,
1.1 or 1.2, and one meaning for a handle. -/
def directives (version : Bool) (handles : Handles) : List Placed →
    Scanned (Handles × List Placed)
  | ⟨.versionDirective major minor, place⟩ :: ts =>
    if version then .error (.flaw .secondVersion place none)
    else if major != 1 || !(minor = 1 || minor = 2) then .error (.flaw .unknownVersion place none)
    else directives true handles ts
  | ⟨.tagDirective handle start, place⟩ :: ts =>
    if (handles.lookup handle).isSome then .error (.flaw .secondHandle place none)
    else directives version ((handle, start) :: handles) ts
  | ts => .ok (handles, ts)

/-- Whether a token stands between documents. -/
def betweenDocuments : Token → Bool
  | .versionDirective .. | .tagDirective .. | .documentStart | .documentEnd | .textEnd => true
  | _ => false

/-- The content of a document. It may be empty behind an explicit start. -/
def content (explicit : Bool) (handles : Handles) (ts : List Placed) : Tree × List Placed :=
  if explicit && ts.head?.any (betweenDocuments ·.token) then (empty, ts)
  else read (handles ++ commonHandles) .item (4 * ts.length + 4) ts

/-- The tree of the first document that the tokens of a text make up, and what follows it. A text
without tokens is the empty document. -/
def ofTokens (ts : List Placed) : Tree × List Placed :=
  if startsWith [.textEnd] ts then (empty, ts)
  else match directives false [] ts with
    | .error m => broken m
    | .ok (handles, ⟨.documentStart, _⟩ :: rest) => content true handles rest
    | .ok (handles, rest) =>
      if rest.length < ts.length then broken (complain .noDocumentStart none rest)
      else content false handles rest

/-- What is wrong with the tokens behind the first document: only marks that end it may follow. -/
def trailingFault? : List Placed → Option Fault
  | ⟨.fault m, _⟩ :: _ => some (.malformed m)
  | ts =>
    let rest := ts.dropWhile fun t ↦ decide (t.token = .documentEnd)
    if startsWith [.textEnd] rest then none else some .secondDocument

end Tree

/-! ## Numbers for names

A name may be given again. By `numbered` nodes with names are numbered in the order in which they
begin, each with the number of different names met before it; a name stands for the number its last
node got, and a number for the last node that got it.

A name that has not been given before it is used is a fault. As with every fault, what follows it
has no meaning: the tree ends there. -/

/-- The names met so far. -/
structure Names where
  /-- The names with their numbers, the last one first. -/
  numbers : List (List Char × Nat) := []
  /-- How many different names there are. -/
  distinct : Nat := 0
  /-- The fault at which the tree ends. -/
  fault? : Option Fault := none

/-- The properties of a node that begins, with a number for its name. -/
def Names.number (names : Names) (p : Properties (List Char)) : Properties Nat × Names :=
  match p.anchor with
  | none => (⟨none, p.tag⟩, names)
  | some name =>
    let known := (names.numbers.lookup name).isSome
    (⟨some names.distinct, p.tag⟩,
      { names with
        numbers := (name, names.distinct) :: names.numbers
        distinct := names.distinct + if known then 0 else 1 })

namespace Tree

def endAt (names : Names) (f : Fault) : Node Nat × Names :=
  (.fault f, { names with fault? := some f })

mutual

/-- A tree with numbers for names, up to the first fault in it. -/
def numbered (names : Names) : Tree → Node Nat × Names
  | .fault f => endAt names (names.fault?.getD f)
  | .reference place name =>
    match names.fault?, names.numbers.lookup name with
    | some f, _ => endAt names f
    | none, some n => (.reference place n, names)
    | none, none => endAt names (.unknownName place)
  | .scalar place p text plain =>
    match names.fault? with
    | some f => endAt names f
    | none =>
      let (p, names) := names.number p
      (.scalar place p text plain, names)
  | .sequence place p items =>
    match names.fault? with
    | some f => endAt names f
    | none =>
      let (p, names) := names.number p
      let (items, names) := numberedItems names items
      (.sequence place p items, names)
  | .mapping place p entries =>
    match names.fault? with
    | some f => endAt names f
    | none =>
      let (p, names) := names.number p
      let (entries, names) := numberedEntries names entries
      (.mapping place p entries, names)

/-- The items of a sequence with numbers for names; a fault is the last item. -/
def numberedItems (names : Names) : List Tree → List (Node Nat) × Names
  | [] => ((names.fault?.map .fault).toList, names)
  | t :: ts =>
    let (n, names) := numbered names t
    let (ns, names) := numberedItems names ts
    (n :: ns, names)

/-- The entries of a mapping with numbers for names; a fault is the last key. -/
def numberedEntries (names : Names) : List (Tree × Tree) →
    List (Node Nat × Node Nat) × Names
  | [] => ((names.fault?.map fun f ↦ (.fault f, .fault f)).toList, names)
  | (k, v) :: ts =>
    let (k, names) := numbered names k
    let (v, names) := numbered names v
    let (ns, names) := numberedEntries names ts
    ((k, v) :: ns, names)

end

end Tree

namespace Node

mutual

/-- The nodes with numbers, in the order in which they begin. -/
def named : Node Nat → List (Nat × Node Nat)
  | reference _ _ | fault _ => []
  | scalar place p text plain => (p.anchor.map (·, scalar place p text plain)).toList
  | sequence place p items => (p.anchor.map (·, sequence place p items)).toList ++ namedItems items
  | mapping place p entries =>
    (p.anchor.map (·, mapping place p entries)).toList ++ namedEntries entries

def namedItems : List (Node Nat) → List (Nat × Node Nat)
  | [] => []
  | n :: ns => named n ++ namedItems ns

def namedEntries : List (Node Nat × Node Nat) → List (Nat × Node Nat)
  | [] => []
  | (k, v) :: ns => named k ++ named v ++ namedEntries ns

end

/-! ### The length of a tree -/

mutual

/-- How many beginnings and ends a tree has; a name or a scalar counts as one. A collection in which
the tree breaks off does not end. -/
def ends {ν : Type} : Node ν → Nat
  | fault _ => 0
  | reference _ _ => 1
  | scalar .. => 1
  | sequence _ _ items => 1 + endsItems items
  | mapping _ _ entries => 1 + endsEntries entries

/-- How many beginnings and ends the items of a sequence have, and its own end. -/
def endsItems {ν : Type} : List (Node ν) → Nat
  | [] => 1
  | fault _ :: _ => 0
  | n :: ns => ends n + endsItems ns

/-- How many beginnings and ends the entries of a mapping have, and its own end. -/
def endsEntries {ν : Type} : List (Node ν × Node ν) → Nat
  | [] => 1
  | (k, v) :: ns =>
    match v with
    | fault _ => ends k
    | v => ends k + ends v + endsEntries ns

end

end Node

end Pagesmith.Yaml
