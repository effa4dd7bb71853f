import VirtualUsers.Failure
import VirtualUsers.Toml.Document
/-!
# The registry

A TOML document that keeps the ids of registered users in the `users` array of its `registered`
table. When the array is written, everything else in the document stays as it is written.
-/

namespace VirtualUsers.Registry

open Toml

def tableName := "registered"

def usersName := "users"

/-- The ids among the items of an array, without white space around. -/
def idsOf (items : List Toml) : List String :=
  items.filterMap fun item =>
    match item with
    | .text s => if Text.blank s then none else some (Text.strip s)
    | _ => none

def users (document : Toml) : List String :=
  match (document.get? tableName).bind (Toml.get? usersName) with
  | some (.array items) => idsOf items
  | _ => []

def read (text : String) : Except Failure (List String) :=
  match read? text.toList with
  | some document => .ok (users document)
  | none => .error .registrySyntax

def writeArray (indent : List Char) (ids : List String) : List Char :=
  ['[', '\n'] ++ ids.flatMap (fun id => indent ++ "    ".toList ++ writeString id ++ [',', '\n'])
    ++ indent ++ [']']

def arrayOf (ids : List String) : Toml :=
  .array (ids.map .text)

def newEntry (indent : List Char) (path : List String) (ids : List String) : Line :=
  .entry (indent ++ (".".intercalate path ++ " = ").toList) path (arrayOf ids)
    (writeArray indent ids) ['\n']

def refill (ids : List String) : Line → Line
  | .entry before path _ _ after =>
    .entry before path (arrayOf ids) (writeArray (before.takeWhile isSpace) ids) after
  | l => l

def withEnd (after : List Char) : List Char :=
  if after.contains '\n' then after else after ++ ['\n']

def endLine : Line → Line
  | .blank cs => .blank (withEnd cs)
  | .comment cs => .comment (withEnd cs)
  | .entry before path meaning written after => .entry before path meaning written (withEnd after)
  | .header indent written path many after => .header indent written path many (withEnd after)

def endLast (d : Document) : Document :=
  match d.getLast? with
  | some l => d.dropLast ++ [endLine l]
  | none => d

/-! ## Lines of the table -/

def usersPath : List String := [tableName, usersName]

def begins (path : List String) : Line → Bool
  | .header _ _ p many _ => p == path && !many
  | _ => false

def beginsItem (path : List String) : Line → Bool
  | .header _ _ p many _ => p == path && many
  | _ => false

/-- The header is one of a table within the given one, or of that table itself. -/
def isWithin (path : List String) (l : Line) : Bool :=
  l.headerPath?.any (startsWith · path)

def entersWithin (path : List String) (l : Line) : Bool :=
  l.entryPath?.any (startsWith · path)

def enters (path section_ : List String) (l : Line) : Bool :=
  l.entryPath?.any (section_ ++ · == path)

/-- The line, in a section, says something of what is at the path of the array. -/
def concerns (section_ : List String) (l : Line) : Bool :=
  startsWith (section_ ++ l.entryPath?.getD []) usersPath

def withoutUsers : List String → Document → Document
  | _, [] => []
  | section_, l :: rest =>
    let section_ := l.sectionFrom section_
    if concerns section_ l then withoutUsers section_ rest else l :: withoutUsers section_ rest

/-- A document, from a section on, cut at the first line that satisfies the test there. -/
def cut (p : List String → Line → Bool) : List String → Document →
    Option (Document × Line × Document)
  | _, [] => none
  | section_, l :: rest =>
    let section_ := l.sectionFrom section_
    if p section_ l then some ([], l, rest)
    else (cut p section_ rest).map fun (before, found, rest) => (l :: before, found, rest)

/-! ## The place of the array -/

/-- A document with new lines between two parts of it. -/
structure Place where
  before : Document
  new : Document
  rest : Document

/-- The document with the new lines and without all else that it says of the array. -/
def Place.fill (p : Place) : Document :=
  endLast (withoutUsers [] p.before) ++ p.new ++ withoutUsers (Document.sectionOf p.before) p.rest

/-- An empty line, if a header of a table within that of the array follows. -/
def gap (following : Document) : Document :=
  match following.head? with
  | some (.header _ _ path false _) =>
    if startsWith path [tableName] then [.blank ['\n']] else []
  | _ => []

def indentOf : Line → List Char
  | .header indent .. => (indent.dropWhile (· != ' ')).takeWhile (· == ' ')
  | _ => []

/-- The lines of a section up to the last one that is neither empty nor of the array. -/
def bodyOf (rest : Document) : Document :=
  ((rest.takeWhile (!·.isHeader)).reverse.dropWhile
    fun l => l.isBlank || entersWithin [usersName] l).reverse

/-- The array at the end of the section of the table, whose header is given with what is around. -/
def placeInSection (ids : List String) (before : Document) (header : Line) (rest : Document) :
    Place :=
  let body := bodyOf rest
  let after := rest.drop body.length
  ⟨before ++ header :: body, newEntry (indentOf header) [usersName] ids ::
    gap (withoutUsers [tableName] after), after⟩

/-- The line, in a section, is one of the top level whose key leads into the table, as tested. -/
def pointsInto (test : List String → Bool) (section_ : List String) (l : Line) : Bool :=
  section_.isEmpty && l.entryPath?.any fun path => startsWith path [tableName] && test path

/-- Where keys with points make up the table, cut at one of them: at best at one of a value in the
table, and at one of the array only if there is no other. -/
def cutPointed (d : Document) : Option (Document × Line × Document) :=
  cut (pointsInto (·.length == 2)) [] d <|> cut (pointsInto (!startsWith · usersPath)) [] d <|>
    cut (pointsInto fun _ => true) [] d

/-- The header of the table, with what comes before and after it on its line. -/
def tableHeader (indent after : List Char) : Line :=
  .header indent ('[' :: tableName.toList ++ [']']) [tableName] false after

def headerEnd : Line → List Char
  | .header _ _ _ _ after => withEnd after
  | _ => ['\n']

/-- The array in a section of the table before those of the tables within it. -/
def placeBefore (ids : List String) (before : Document) (first : Line) (rest : Document) : Place :=
  let following := if isWithin usersPath first then [] else [first]
  ⟨before, tableHeader [] (headerEnd first) :: newEntry [] [usersName] ids :: gap following,
    first :: rest⟩

/-- The document without an empty line at its end that has no line end, and that line. -/
def openBlank (d : Document) : Document × List Char :=
  match d.getLast? with
  | some (.blank cs) => if cs.contains '\n' then (d, []) else (d.dropLast, cs)
  | _ => (d, [])

/-- The last line has no line end. -/
def isOpen (d : Document) : Bool :=
  d.getLast?.any fun l => l.text.getLast? != some '\n'

/-- The document ends in an empty line of the top level or of a section with a single name. -/
def endsInBlank (d : Document) : Bool :=
  d.getLast?.any Line.isBlank &&
    match d.reverse.find? Line.isHeader with
    | some (.header _ _ path many _) => path.length == 1 && !many
    | _ => true

def placeAtEnd (ids : List String) (d : Document) : Place :=
  let (before, indent) := openBlank d
  let entry := newEntry [] [usersName] ids
  if d.isEmpty || endsInBlank d then ⟨before, [tableHeader indent ['\n'], entry], []⟩
  else
    let blank : Document := if isOpen before then [] else [.blank (indent ++ ['\n'])]
    ⟨before, blank ++ [tableHeader [] ['\n'], entry], []⟩

/-- The place of the array in a document that has no value in place of its table. -/
def place (ids : List String) (d : Document) : Place :=
  match cut (enters usersPath) [] d with
  | some (before, l, rest) => ⟨before ++ [l], [refill ids l], rest⟩
  | none =>
    match cut (fun _ => begins [tableName]) [] d with
    | some (before, header, rest) => placeInSection ids before header rest
    | none =>
      match cutPointed d with
      | some (before, l, rest) => ⟨before ++ [l], [newEntry [] usersPath ids], rest⟩
      | none =>
        match cut (fun _ => isWithin [tableName]) [] d with
        | some (before, first, rest) => placeBefore ids before first rest
        | none => placeAtEnd ids d

/-! ## Inline tables -/

/-- The entries of an inline table as they are written, with commas between them. -/
def writeInline : List InlineEntry → List Char
  | [] => []
  | [e] => e.before ++ e.written ++ e.after
  | e :: rest => e.before ++ e.written ++ ',' :: e.after ++ writeInline rest

def withoutInlineUsers (entries : List InlineEntry) : List InlineEntry :=
  entries.filter (!startsWith ·.path [usersName])

/-- The entry of the array has the given ids, in its place or at the end, and nothing else is said
of the array. -/
def setUsers (ids : List String) (entries : List InlineEntry) : List InlineEntry :=
  let array := writeArray [] ids
  let (before, rest) := entries.span (·.path != [usersName])
  match rest with
  | e :: rest => withoutInlineUsers before ++
      { e with meaning := arrayOf ids, written := array } :: withoutInlineUsers rest
  | [] => withoutInlineUsers before ++
      [⟨(usersName ++ " = ").toList, [usersName], arrayOf ids, array, []⟩]

/-- Writes the array into an inline table, given by the characters after its opening brace. -/
def editInline (ids : List String) (cs : List Char) : Option (Toml × List Char) := do
  let (entries, _) ← takeInline (takeValue (cs.length + 1)) cs
  let start := if entries.isEmpty then cs.takeWhile isSpace else []
  let entries := setUsers ids entries
  return (← inlineMeaning [] [] entries, start ++ writeInline entries ++ ['\x7d'])

def editValue (ids : List String) : Line → Option Line
  | .entry before path _ ('\x7b' :: cs) after => do
    let (meaning, cs) ← editInline ids cs
    return .entry before path meaning ('\x7b' :: cs) after
  | _ => none

/-! ## Documents -/

/-- Writes the array into a document. There is no place for it if what should be the table is
something else. -/
def edit (ids : List String) (d : Document) : Option Document :=
  match cut (enters [tableName]) [] d with
  | some (before, l, rest) => (editValue ids l).map fun l => before ++ l :: rest
  | none => if d.any (beginsItem [tableName]) then none else some (place ids d).fill

/-- The text of a registry with the given ids in the place of those that it has. -/
def write (ids : List String) (text : String) : Except Failure String :=
  match Document.parse? text.toList with
  | some d =>
    if d.meaning?.isNone then .error .registrySyntax
    else match edit ids d with
      | some d => .ok (String.ofList d.text)
      | none => .error .wrongType
  | none => .error .registrySyntax

end VirtualUsers.Registry
