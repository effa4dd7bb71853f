import VirtualUsers.Toml.Written
/-!
# TOML documents

A document is a list of lines, each with all the characters that it is written in, and it describes
a table.
-/

namespace VirtualUsers.Toml

/-! ## Lines

A document is a list of lines, each with all the characters that it is written in. A line with a
value may reach over several lines of text. -/

/-- A line of a document. The last part of its text is the white space, the comment and the line end
after what it says. -/
inductive Line where
  | blank (text : List Char)
  | comment (text : List Char)
  /-- An entry: the characters up to its value, the key, the value and its characters. -/
  | entry (before : List Char) (path : List String) (meaning : Toml) (written after : List Char)
  /-- The beginning of a table, or of one more table of an array. -/
  | header (indent written : List Char) (path : List String) (many : Bool) (after : List Char)

abbrev Document := List Line

namespace Line

def text : Line → List Char
  | blank text => text
  | comment text => text
  | entry before _ _ written after => before ++ written ++ after
  | header indent written _ _ after => indent ++ written ++ after

def isHeader : Line → Bool
  | header .. => true
  | _ => false

def isBlank : Line → Bool
  | blank _ => true
  | _ => false

def headerPath? : Line → Option (List String)
  | header _ _ path _ _ => some path
  | _ => none

def entryPath? : Line → Option (List String)
  | entry _ path _ _ _ => some path
  | _ => none

def sectionFrom (section_ : List String) (l : Line) : List String :=
  l.headerPath?.getD section_

end Line

namespace Document

def text (d : Document) : List Char :=
  d.flatMap Line.text

def sectionOf (d : Document) : List String :=
  d.foldl (fun section_ l => l.sectionFrom section_) []

end Document

def skipLineRest (cs : List Char) : Option (List Char) := do
  match ← skipComment (cs.dropWhile isSpace) with
  | '\n' :: rest => return rest
  | [] => return []
  | _ => none

def takeHeader : Reader (List String × Bool)
  | '[' :: '[' :: cs => do
    let (names, cs) ← takeKey (cs.length + 1) cs
    match cs with
    | ']' :: ']' :: rest => return ((names, true), rest)
    | _ => none
  | '[' :: cs => do
    let (names, cs) ← takeKey (cs.length + 1) cs
    match cs with
    | ']' :: rest => return ((names, false), rest)
    | _ => none
  | _ => none

def takeLine (cs : List Char) : Option (Line × List Char) :=
  let start := cs.dropWhile isSpace
  let indent := readPart cs start
  match start with
  | [] => some (.blank indent, [])
  | '\n' :: rest => some (.blank (indent ++ ['\n']), rest)
  | '#' :: _ => do
    let rest ← skipLineRest start
    return (.comment (readPart cs rest), rest)
  | '[' :: _ => do
    let ((path, many), next) ← takeHeader start
    let rest ← skipLineRest next
    return (.header indent (readPart start next) path many (readPart next rest), rest)
  | _ => do
    let (path, value) ← takeKeyAndSign start
    let (meaning, next) ← readValue value
    let rest ← skipLineRest next
    let entry := .entry (readPart cs value) path meaning (readPart value next) (readPart next rest)
    return (entry, rest)

def takeLines : Nat → List Char → Option Document
  | _, [] => some []
  | 0, _ => none
  | fuel + 1, cs => do
    let (line, rest) ← takeLine cs
    return line :: (← takeLines fuel rest)

def Document.parse? (cs : List Char) : Option Document :=
  takeLines (cs.length + 1) cs

/-! ## Meaning

The table that a document describes. A table is begun at most once, and neither an entry nor a
header reaches into a value or into a table that a key with points began in an earlier section. -/

/-- How far a document was read: the table so far, where the section is, which tables no entry and
no header may begin again, those that will be among them after the section, and which values are
closed. -/
structure Reading where
  entries : List (String × Toml) := []
  section_ : List String := []
  begun : List (List String) := []
  beginning : List (List String) := []
  closed : List (List String) := []

namespace Reading

def isClosed (r : Reading) (path : List String) : Bool :=
  r.closed.any (startsWith path)

def enterTable : Option Toml → Option Toml
  | none => some (.table [])
  | some (.table entries) => some (.table entries)
  | some (.array items) =>
    match items.getLast? with
    | some (.table _) => some (.array items)
    | _ => none
  | some _ => none

def enterItem : Option Toml → Option Toml
  | none => some (.array [.table []])
  | some (.array items) => some (.array (items ++ [.table []]))
  | some _ => none

def beginTable (r : Reading) (path : List String) : Option Reading := do
  let begun := r.beginning ++ r.begun
  if begun.contains path || r.isClosed path then none
  else
    let entries ← alter enterTable path r.entries
    return { r with entries, section_ := path, begun := path :: begun, beginning := [] }

/-- Begins one more table of an array. What was begun within the last one may be begun again. -/
def beginItem (r : Reading) (path : List String) : Option Reading := do
  let others (paths : List (List String)) := paths.filter fun p => !startsWith p path
  if r.isClosed path then none
  else
    let entries ← alter enterItem path r.entries
    return { r with
      entries, section_ := path, begun := path :: others (r.beginning ++ r.begun)
      beginning := [], closed := others r.closed }

/-- The paths of the tables on the way to a key with points, from a section on. -/
def waypoints (section_ : List String) : List String → List (List String)
  | name :: next :: rest =>
    (section_ ++ [name]) :: waypoints (section_ ++ [name]) (next :: rest)
  | _ => []

def enter (r : Reading) (path : List String) (v : Toml) : Option Reading := do
  let way := waypoints r.section_ path
  let full := r.section_ ++ path
  if way.any r.begun.contains || r.isClosed full.dropLast then none
  else
    let entries ← alter (enterNew v) full r.entries
    let closed := match v with
      | .array _ | .table _ => full :: r.closed
      | _ => r.closed
    return { r with entries, closed, beginning := way ++ r.beginning }

def line (r : Reading) : Line → Option Reading
  | .blank _ | .comment _ => some r
  | .entry _ path v _ _ => r.enter path v
  | .header _ _ path many _ => if many then r.beginItem path else r.beginTable path

end Reading

def Document.meaning? (d : Document) : Option Toml :=
  (d.foldlM Reading.line ({} : Reading)).map fun r => .table r.entries

def read? (cs : List Char) : Option Toml :=
  Document.parse? cs >>= Document.meaning?

end VirtualUsers.Toml
