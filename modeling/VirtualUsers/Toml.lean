import VirtualUsers.Number.Decimal
import VirtualUsers.Text
import VirtualUsers.Value
/-!
# TOML values

The values that a TOML document holds, and how strings, numbers and dates of it are read and
written. Tables keep the order in which their keys came.
-/

namespace VirtualUsers

inductive Toml where
  | text (s : String)
  | int (n : Int)
  | real (x : Double)
  | bool (b : Bool)
  /-- A date, a time, or both, as it is written. -/
  | moment (written : String)
  | array (items : List Toml)
  | table (entries : List (String × Toml))
deriving Inhabited

namespace Toml

def get? (key : String) : Toml → Option Toml
  | table entries => entries.lookup key
  | _ => none

mutual

/-- The value that settings take it for. A date or a time is none that they know. -/
def toValue : Toml → Value
  | text s => .text s
  | int n => .int n
  | real x => .real x
  | bool b => .bool b
  | moment _ => .foreign
  | array items => .list (itemValues items)
  | table entries => .map (entryValues entries)

def itemValues : List Toml → List Value
  | [] => []
  | v :: rest => toValue v :: itemValues rest

def entryValues : List (String × Toml) → List (Value × Value)
  | [] => []
  | e :: rest => entryValue e :: entryValues rest

def entryValue : String × Toml → Value × Value
  | (k, v) => (.text k, toValue v)

end

end Toml

end VirtualUsers

namespace VirtualUsers.Toml

/-! ## Strings

Basic strings have escapes, literal strings have none; each kind also comes between three quotes,
over several lines. Reading starts after the opening quotes and gives what follows the closing
ones. -/

abbrev Reader (α : Type) := List Char → Option (α × List Char)

def isSpace (c : Char) : Bool :=
  c == ' ' || c == '\t'

def isSpaceOrLine (c : Char) : Bool :=
  isSpace c || c == '\n'

/-- A control character that no string and no comment may hold. The tab is allowed. -/
def isControl (c : Char) : Bool :=
  (c.toNat < 0x20 && c != '\t') || c.toNat == 0x7f

def hexValue? (c : Char) : Option Nat :=
  if '0' ≤ c && c ≤ '9' then some (c.toNat - 0x30)
  else if 'a' ≤ c && c ≤ 'f' then some (c.toNat - 0x57)
  else if 'A' ≤ c && c ≤ 'F' then some (c.toNat - 0x37)
  else none

/-- The number that a given number of hexadecimal digits spell, after those already read. -/
def takeHex (n : Nat) : Nat → Reader Nat
  | 0, cs => some (n, cs)
  | digits + 1, c :: cs => do takeHex (16 * n + (← hexValue? c)) digits cs
  | _ + 1, [] => none

def scalar? (n : Nat) : Option Char :=
  if h : n.isValidChar then some (Char.ofNatAux n h) else none

def takeEscape : Reader Char
  | 'b' :: cs => some ('\x08', cs)
  | 't' :: cs => some ('\t', cs)
  | 'n' :: cs => some ('\n', cs)
  | 'f' :: cs => some ('\x0c', cs)
  | 'r' :: cs => some ('\r', cs)
  | '"' :: cs => some ('"', cs)
  | '\\' :: cs => some ('\\', cs)
  | 'u' :: cs => do
    let (n, cs) ← takeHex 0 4 cs
    return (← scalar? n, cs)
  | 'U' :: cs => do
    let (n, cs) ← takeHex 0 8 cs
    return (← scalar? n, cs)
  | _ => none

def takeBasic : Nat → Reader (List Char)
  | 0, _ => none
  | _, [] => none
  | fuel + 1, c :: cs =>
    if c == '"' then some ([], cs)
    else if c == '\\' then do
      let (d, cs) ← takeEscape cs
      let (ds, cs) ← takeBasic fuel cs
      return (d :: ds, cs)
    else if isControl c then none
    else do
      let (ds, cs) ← takeBasic fuel cs
      return (c :: ds, cs)

def takeLiteral : Reader (List Char)
  | [] => none
  | c :: cs =>
    if c == '\'' then some ([], cs)
    else if isControl c then none
    else do
      let (ds, cs) ← takeLiteral cs
      return (c :: ds, cs)

/-- Closes a string over several lines: up to two more quotes belong to it. -/
def closing (quote : Char) (cs : List Char) : List Char × List Char :=
  match cs with
  | c :: d :: rest =>
    if c == quote then if d == quote then ([quote, quote], rest) else ([quote], d :: rest)
    else ([], cs)
  | [c] => if c == quote then ([quote], []) else ([], cs)
  | [] => ([], cs)

/-- Skips the end of a line after a backslash, and all white space after that. -/
def skipLineEnd (cs : List Char) : Option (List Char) :=
  match cs.dropWhile isSpace with
  | '\n' :: rest => some (rest.dropWhile isSpaceOrLine)
  | [] => some []
  | _ => none

def takeBasicLines : Nat → Reader (List Char)
  | 0, _ => none
  | _, [] => none
  | _, '"' :: '"' :: '"' :: cs => some (closing '"' cs)
  | fuel + 1, '\\' :: c :: cs =>
    if isSpaceOrLine c then do takeBasicLines fuel (← skipLineEnd (c :: cs))
    else do
      let (d, cs) ← takeEscape (c :: cs)
      let (ds, cs) ← takeBasicLines fuel cs
      return (d :: ds, cs)
  | fuel + 1, c :: cs =>
    if c == '\\' || (isControl c && c != '\n') then none
    else do
      let (ds, cs) ← takeBasicLines fuel cs
      return (c :: ds, cs)

def takeLiteralLines : Reader (List Char)
  | [] => none
  | '\'' :: '\'' :: '\'' :: cs => some (closing '\'' cs)
  | c :: cs =>
    if isControl c && c != '\n' then none
    else do
      let (ds, cs) ← takeLiteralLines cs
      return (c :: ds, cs)

def skipFirstLine : List Char → List Char
  | '\n' :: cs => cs
  | cs => cs

def takeString : Reader String
  | '"' :: '"' :: '"' :: cs =>
    (takeBasicLines (cs.length + 1) (skipFirstLine cs)).map fun (s, cs) => (String.ofList s, cs)
  | '\'' :: '\'' :: '\'' :: cs =>
    (takeLiteralLines (skipFirstLine cs)).map fun (s, cs) => (String.ofList s, cs)
  | '"' :: cs => (takeBasic (cs.length + 1) cs).map fun (s, cs) => (String.ofList s, cs)
  | '\'' :: cs => (takeLiteral cs).map fun (s, cs) => (String.ofList s, cs)
  | _ => none

def escapeChar (c : Char) : List Char :=
  match c with
  | '"' => ['\\', '"']
  | '\\' => ['\\', '\\']
  | '\x08' => ['\\', 'b']
  | '\t' => ['\\', 't']
  | '\n' => ['\\', 'n']
  | '\x0c' => ['\\', 'f']
  | '\r' => ['\\', 'r']
  | c => if isControl c then '\\' :: 'u' :: Text.hex 4 c.toNat else [c]

def writeString (s : String) : List Char :=
  '"' :: s.toList.flatMap escapeChar ++ ['"']

end VirtualUsers.Toml

namespace VirtualUsers.Toml

open Number

/-! ## Numbers and dates

Whole numbers in four bases, numbers with a point or an exponent, and dates and times. Single
underscores may stand between digits, and decimal numbers have no zeros at the front. -/

/-- The digits at the front without the underscores between them, `inside` if one came before. -/
def takeRun (isDigit : Char → Bool) (inside : Bool) : List Char → List Char × List Char
  | [] => ([], [])
  | c :: cs =>
    if isDigit c then
      let (ds, rest) := takeRun isDigit true cs
      (c :: ds, rest)
    else if inside && c == '_' && cs.head?.any isDigit then takeRun isDigit false cs
    else ([], c :: cs)

def ofBase (base : Nat) (ds : List Char) : Nat :=
  ds.foldl (fun n c => base * n + (hexValue? c).getD 0) 0

def isDigitOf (base : Nat) (c : Char) : Bool :=
  (hexValue? c).any (· < base)

def takeBased (base : Nat) : Reader Toml := fun cs =>
  match takeRun (isDigitOf base) false cs with
  | ([], _) => none
  | (ds, rest) => some (.int (ofBase base ds), rest)

def takeWhole : Reader (List Char)
  | '0' :: cs => some (['0'], cs)
  | cs =>
    match takeRun Char.isDigit false cs with
    | ([], _) => none
    | run => some run

/-- The digits after the point, none without a point that has digits after it. -/
def takeFraction : List Char → List Char × List Char
  | '.' :: cs =>
    match takeRun Char.isDigit false cs with
    | ([], _) => ([], '.' :: cs)
    | run => run
  | cs => ([], cs)

def takeExponent (cs : List Char) : Option Int × List Char :=
  match cs with
  | c :: rest =>
    if c == 'e' || c == 'E' then
      let (negative, body) := splitSign rest
      match takeRun Char.isDigit false body with
      | ([], _) => (none, cs)
      | (ds, rest) => (some (signed negative (ofBase 10 ds)), rest)
    else (none, cs)
  | [] => (none, cs)

def takeDecimal (cs : List Char) : Option (Toml × List Char) := do
  let (negative, body) := splitSign cs
  let (whole, rest) ← takeWhole body
  let (fraction, rest) := takeFraction rest
  let (exponent, rest) := takeExponent rest
  if fraction.isEmpty && exponent.isNone then
    return (.int (signed negative (ofBase 10 whole)), rest)
  else
    let places := exponent.getD 0 - fraction.length
    return (.real (Double.ofDecimal negative (ofBase 10 (whole ++ fraction)) places), rest)

def takeNamed (cs : List Char) : Option (Toml × List Char) :=
  let (negative, body) := splitSign cs
  match body with
  | 'i' :: 'n' :: 'f' :: rest => some (.real (.infinity negative), rest)
  | 'n' :: 'a' :: 'n' :: rest => some (.real .nan, rest)
  | _ => none

def takeNumber : Reader Toml
  | cs =>
    let based := match cs with
      | '0' :: 'x' :: rest => takeBased 16 rest
      | '0' :: 'o' :: rest => takeBased 8 rest
      | '0' :: 'b' :: rest => takeBased 2 rest
      | _ => none
    based <|> takeDecimal cs <|> takeNamed cs

def takeBetween (count low high : Nat) : Reader Nat := fun cs =>
  let ds := cs.take count
  let n := ofBase 10 ds
  if ds.length = count && ds.all Char.isDigit && low ≤ n && n ≤ high then some (n, cs.drop count)
  else none

def takeChar (p : Char → Bool) : Reader Char
  | c :: cs => if p c then some (c, cs) else none
  | [] => none

def takeTime : Reader Unit := fun cs => do
  let (_, cs) ← takeBetween 2 0 23 cs
  let (_, cs) ← takeChar (· == ':') cs
  let (_, cs) ← takeBetween 2 0 59 cs
  let (_, cs) ← takeChar (· == ':') cs
  let (_, cs) ← takeBetween 2 0 59 cs
  match cs with
  | '.' :: c :: rest =>
    if c.isDigit then return ((), rest.dropWhile Char.isDigit) else return ((), cs)
  | _ => return ((), cs)

def takeOffset : Reader Unit := fun cs => do
  let (c, rest) ← takeChar (fun c => c == 'Z' || c == 'z' || c == '+' || c == '-') cs
  if c == 'Z' || c == 'z' then return ((), rest)
  let (_, rest) ← takeBetween 2 0 23 rest
  let (_, rest) ← takeChar (· == ':') rest
  let (_, rest) ← takeBetween 2 0 59 rest
  return ((), rest)

def daysOf (year month : Nat) : Nat :=
  if month = 2 then
    if year % 4 = 0 && (year % 100 ≠ 0 || year % 400 = 0) then 29 else 28
  else if month = 4 || month = 6 || month = 9 || month = 11 then 30 else 31

def takeDate : Reader (Nat × Nat × Nat) := fun cs => do
  let (year, cs) ← takeBetween 4 0 9999 cs
  let (_, cs) ← takeChar (· == '-') cs
  let (month, cs) ← takeBetween 2 1 12 cs
  let (_, cs) ← takeChar (· == '-') cs
  let (day, cs) ← takeBetween 2 1 31 cs
  return ((year, month, day), cs)

def skipPart (part : Reader Unit) (cs : List Char) : List Char :=
  (part cs).elim cs (·.2)

def takeTimeOfDay : Reader Unit := fun cs => do
  let (_, cs) ← takeChar (fun c => c == 'T' || c == 't' || c == ' ') cs
  let (_, cs) ← takeTime cs
  return ((), skipPart takeOffset cs)

/-- A date that the calendar has, with or without a time. The outer `none` means that no date
begins here, the inner one that it is in no calendar. -/
def takeMoment (cs : List Char) : Option (Option (List Char)) :=
  match takeDate cs with
  | some ((year, month, day), rest) =>
    if 1 ≤ year && day ≤ daysOf year month then some (some (skipPart takeTimeOfDay rest))
    else some none
  | none => (takeTime cs).map fun (_, rest) => some rest

def readPart (cs rest : List Char) : List Char :=
  cs.take (cs.length - rest.length)

def takePlain : Reader Toml
  | 't' :: 'r' :: 'u' :: 'e' :: cs => some (.bool true, cs)
  | 'f' :: 'a' :: 'l' :: 's' :: 'e' :: cs => some (.bool false, cs)
  | cs =>
    match takeMoment cs with
    | some rest? => rest?.map fun rest => (.moment (String.ofList (readPart cs rest)), rest)
    | none => takeNumber cs

def endsPlain (c : Char) : Bool :=
  c == '\n' || c == ',' || c == ']' || c == '\x7d' || c == '#'

/-- The characters up to the first that ends a value, without white space at the end. -/
def plainPart (cs : List Char) : List Char :=
  ((cs.takeWhile (!endsPlain ·)).reverse.dropWhile isSpace).reverse

def takeScalar : Reader Toml := fun cs =>
  match takePlain (plainPart cs) with
  | some (v, []) => some (v, cs.drop (plainPart cs).length)
  | _ => none

end VirtualUsers.Toml
