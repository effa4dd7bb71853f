import VirtualUsers.Toml
/-!
# Written values of TOML documents

Values with the characters that they are written in. The entries of an inline table can be told
apart, so that one of them can be changed without touching the others.
-/

namespace VirtualUsers.Toml

def isBareKeyChar (c : Char) : Bool :=
  c.isAlphanum || c == '_' || c == '-'

def takeName : Reader String
  | '"' :: cs => (takeBasic (cs.length + 1) cs).map fun (s, cs) => (String.ofList s, cs)
  | '\'' :: cs => (takeLiteral cs).map fun (s, cs) => (String.ofList s, cs)
  | cs =>
    let name := cs.takeWhile isBareKeyChar
    if name.isEmpty then none else some (String.ofList name, cs.drop name.length)

def takeKey : Nat → Reader (List String)
  | 0, _ => none
  | fuel + 1, cs => do
    let (name, cs) ← takeName (cs.dropWhile isSpace)
    match cs.dropWhile isSpace with
    | '.' :: rest =>
      let (names, rest) ← takeKey fuel rest
      return (name :: names, rest)
    | rest => return ([name], rest)

def takeKeyAndSign : Reader (List String) := fun cs => do
  let (names, cs) ← takeKey (cs.length + 1) cs
  match cs with
  | '=' :: rest => return (names, rest.dropWhile isSpace)
  | _ => none

def skipComment : List Char → Option (List Char)
  | '#' :: cs =>
    let body := cs.takeWhile (· != '\n')
    if body.any isControl then none else some (cs.drop body.length)
  | cs => some cs

def skipLines : Nat → List Char → Option (List Char)
  | 0, _ => none
  | fuel + 1, cs => do
    let rest := cs.dropWhile isSpaceOrLine
    match rest with
    | '#' :: _ => skipLines fuel (← skipComment rest)
    | _ => return rest

/-- Changes what is at a path within tables; tables on the way are made where there are none. -/
def alter (f : Option Toml → Option Toml) : List String → List (String × Toml) →
    Option (List (String × Toml))
  | [], _ => none
  | [name], entries => do return put name (← f (entries.lookup name)) entries
  | name :: path, entries =>
    match entries.lookup name with
    | none => do return put name (.table (← alter f path [])) entries
    | some (.table inner) => do return put name (.table (← alter f path inner)) entries
    | some (.array items) =>
      match items.getLast? with
      | some (.table inner) => do
        return put name (.array (items.dropLast ++ [.table (← alter f path inner)])) entries
      | _ => none
    | some _ => none
where
  put (name : String) (v : Toml) : List (String × Toml) → List (String × Toml)
    | [] => [(name, v)]
    | (k, w) :: rest => if k = name then (k, v) :: rest else (k, w) :: put name v rest

def enterNew (v : Toml) : Option Toml → Option Toml
  | none => some v
  | some _ => none

/-- An entry of an inline table: the characters up to its value, the key, the value, the characters
of the value and the white space after it. -/
structure InlineEntry where
  before : List Char
  path : List String
  meaning : Toml
  written : List Char
  after : List Char

def startsWith (path : List String) (start : List String) : Bool :=
  start.isPrefixOf path

/-- The table that inline entries make up. No entry reaches into the value of an earlier one. -/
def inlineMeaning (closed : List (List String)) (entries : List (String × Toml)) :
    List InlineEntry → Option Toml
  | [] => some (.table entries)
  | e :: rest =>
    if closed.any (startsWith e.path.dropLast) then none
    else
      match alter (enterNew e.meaning) e.path entries with
      | none => none
      | some entries =>
        match e.meaning with
        | .array _ | .table _ => inlineMeaning (e.path :: closed) entries rest
        | _ => inlineMeaning closed entries rest

/-- Entries of an inline table after its opening brace or a comma, up to its closing brace. -/
def takeInlineEntries (value : Reader Toml) : Nat → Reader (List InlineEntry)
  | 0, _ => none
  | fuel + 1, cs => do
    let (path, start) ← takeKeyAndSign cs
    let (meaning, rest) ← value start
    let next := rest.dropWhile isSpace
    let e : InlineEntry :=
      ⟨readPart cs start, path, meaning, readPart start rest, readPart rest next⟩
    match next with
    | '\x7d' :: rest => return ([e], rest)
    | ',' :: rest =>
      let (es, rest) ← takeInlineEntries value fuel rest
      return (e :: es, rest)
    | _ => none

/-- The entries of an inline table, read after its opening brace. An empty one may hold white
space. -/
def takeInline (value : Reader Toml) : Reader (List InlineEntry) := fun cs =>
  match cs.dropWhile isSpace with
  | '\x7d' :: rest => some ([], rest)
  | _ => takeInlineEntries value (cs.length + 1) cs

/-- Items of an array after its opening bracket or a comma, up to its closing bracket. -/
def takeItems (value : Reader Toml) : Nat → Reader (List Toml)
  | 0, _ => none
  | fuel + 1, cs => do
    let cs ← skipLines (cs.length + 1) cs
    match cs with
    | ']' :: rest => return ([], rest)
    | _ =>
      let (item, cs) ← value cs
      let cs ← skipLines (cs.length + 1) cs
      match cs with
      | ']' :: rest => return ([item], rest)
      | ',' :: rest =>
        let (items, rest) ← takeItems value fuel rest
        return (item :: items, rest)
      | _ => none

def takeValue : Nat → Reader Toml
  | 0, _ => none
  | depth + 1, cs =>
    match cs with
    | '"' :: _ | '\'' :: _ => (takeString cs).map fun (s, cs) => (.text s, cs)
    | '[' :: rest =>
      (takeItems (takeValue depth) (rest.length + 1) rest).map fun (items, cs) => (.array items, cs)
    | '\x7b' :: rest => do
      let (entries, cs) ← takeInline (takeValue depth) rest
      return (← inlineMeaning [] [] entries, cs)
    | _ => takeScalar cs

def readValue : Reader Toml := fun cs =>
  takeValue (cs.length + 1) cs

end VirtualUsers.Toml
