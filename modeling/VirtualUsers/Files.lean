import VirtualUsers.Failure
import VirtualUsers.Table
/-!
# Files

Paths, and the files and directories that they lead to.
-/

namespace VirtualUsers.Path

/-! ## Paths

Paths are texts with slashes between names. A path is shown without empty names and without names
of a single dot; two slashes at its front, and no more, are kept. -/

def pieces (path : List Char) : List (List Char) :=
  path.splitOn '/'

/-- The names on the way, without those that stay in place. -/
def names (path : String) : List String :=
  ((pieces path.toList).filter fun p => p != [] && p != ['.']).map String.ofList

/-- The slashes that an absolute path begins with in its normal form. -/
def root (path : String) : String :=
  match path.toList with
  | '/' :: '/' :: '/' :: _ => "/"
  | '/' :: '/' :: _ => "//"
  | '/' :: _ => "/"
  | _ => ""

def normalize (path : String) : String :=
  let body := root path ++ String.intercalate "/" (names path)
  if body == "" then "." else body

def child (directory name : String) : String :=
  root directory ++ String.intercalate "/" (names directory ++ names name)

def parent (path : String) : String :=
  let body := root path ++ String.intercalate "/" (names path).dropLast
  if body == "" then "." else body

/-- What stands before the last slash, without slashes at its end unless it is all slashes. -/
def directoryPart (path : String) : String :=
  let head := (path.toList.reverse.dropWhile (· != '/')).reverse
  if head.all (· == '/') then String.ofList head
  else String.ofList ((head.reverse.dropWhile (· == '/')).reverse)

end VirtualUsers.Path

namespace VirtualUsers

/-! ## The tree of files

Files and directories under absolute paths. A path that does not begin with a slash starts at the
root as well. Modes are the nine permission bits. -/

/-- A file with its text, or a directory. -/
inductive FileNode where
  | file (text : String) (mode : Nat)
  | directory (mode : Nat)
deriving DecidableEq, Inhabited

/-- The files and directories below the root, each under the names that lead to it. -/
structure FileTree where
  nodes : Table (List String) FileNode := []
deriving Inhabited

namespace FileTree

def fileMode : Nat := 0o644

def directoryMode : Nat := 0o755

def privateFileMode : Nat := 0o600
def privateDirectoryMode : Nat := 0o700

/-- What is at a place. The root is a directory. -/
def node? (place : List String) (t : FileTree) : Option FileNode :=
  if place.isEmpty then some (.directory directoryMode) else Table.get? place t.nodes

def setNode (place : List String) (node : FileNode) (t : FileTree) : FileTree :=
  ⟨Table.put place node t.nodes⟩

/-- Follows names from a directory. Every name but the last has to be one of a directory. -/
def follow (t : FileTree) (place : List String) : List String → Except FileProblem (List String)
  | [] => .ok place
  | name :: rest =>
    match t.node? place with
    | none => .error .missing
    | some (.file ..) => .error .notDirectory
    | some (.directory _) =>
      follow t (if name == ".." then place.dropLast else place ++ [name]) rest

def place (t : FileTree) (path : String) : Except FileProblem (List String) := do
  let place ← t.follow [] (Path.names path)
  match t.node? place with
  | some (.file ..) => if path.endsWith "/" then throw .notDirectory else return place
  | _ => if path.isEmpty then throw .missing else return place

def explain (path : String) : Except FileProblem α → Except Failure α
  | .ok a => .ok a
  | .error p => .error (.file p path)

def find? (t : FileTree) (path : String) : Except FileProblem (Option FileNode) :=
  match t.place path with
  | .ok place => .ok (t.node? place)
  | .error .missing => .ok none
  | .error p => .error p

def exists? (t : FileTree) (path : String) : Bool :=
  match t.find? path with
  | .ok (some _) => true
  | _ => false

def read (t : FileTree) (path : String) : Except Failure String :=
  explain path do
    match t.node? (← t.place path) with
    | some (.file text _) => return text
    | some (.directory _) => throw .isDirectory
    | none => throw .missing

/-- Lines end in a line feed: a carriage return, with a line feed after it or not, counts as one. -/
def unifyLines : List Char → List Char
  | '\r' :: '\n' :: rest => '\n' :: unifyLines rest
  | '\r' :: rest => '\n' :: unifyLines rest
  | c :: rest => c :: unifyLines rest
  | [] => []

def readLines (t : FileTree) (path : String) : Except Failure String :=
  (t.read path).map fun text => String.ofList (unifyLines text.toList)

def update (t : FileTree) (path : String) (f : String → String) : Except Failure FileTree :=
  explain path do
    let place ← t.place path
    match t.node? place with
    | some (.file text mode) => return t.setNode place (.file (f text) mode)
    | some (.directory _) => throw .isDirectory
    | none =>
      if path.endsWith "/" then throw .isDirectory
      else return t.setNode place (.file (f "") fileMode)

def write (t : FileTree) (path text : String) : Except Failure FileTree :=
  t.update path fun _ => text

def append (t : FileTree) (path text : String) : Except Failure FileTree :=
  t.update path (· ++ text)

def setMode (t : FileTree) (path : String) (mode : Nat) : FileTree :=
  match t.place path with
  | .error _ => t
  | .ok place =>
    match t.node? place with
    | some (.file text _) => t.setNode place (.file text mode)
    | some (.directory _) => if place.isEmpty then t else t.setNode place (.directory mode)
    | none => t

def makeFrom (t : FileTree) (place : List String) : List String → Except FileProblem FileTree
  | [] => .ok t
  | name :: rest =>
    let next := if name == ".." then place.dropLast else place ++ [name]
    match t.node? next with
    | some (.directory _) => makeFrom t next rest
    | some (.file ..) => .error (if rest.isEmpty then .present else .notDirectory)
    | none => makeFrom (t.setNode next (.directory directoryMode)) next rest

def makeDirectory (t : FileTree) (path : String) : Except Failure FileTree :=
  explain path (t.makeFrom [] (Path.names path))

def makePrivateDirectory (t : FileTree) (path : String) : Except Failure FileTree :=
  (t.makeDirectory path).map (·.setMode path privateDirectoryMode)

def remove (t : FileTree) (path : String) : FileTree :=
  match t.place path with
  | .error _ => t
  | .ok place => ⟨t.nodes.filter (·.1 != place)⟩

end FileTree

end VirtualUsers
