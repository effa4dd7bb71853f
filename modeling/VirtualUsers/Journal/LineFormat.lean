import VirtualUsers.Failure
import VirtualUsers.Number.Decimal
import VirtualUsers.Text
import VirtualUsers.Text.WordTable
/-!
# Lines of the journal

The levels of notes, and how a note becomes a line. A percent sign and a name in parentheses stand
for a part of the note, with flags, a least width, a precision and a letter for the kind of
conversion after it.
-/

namespace VirtualUsers.Journal

open Text Number

/-! ## Levels

How much a note matters, as a number or by name. -/

def levelNames : List (Int × String) :=
  [(50, "CRITICAL"), (40, "ERROR"), (30, "WARNING"), (20, "INFO"), (10, "DEBUG"), (0, "NOTSET")]

def levelName (level : Int) : String :=
  (levelNames.lookup level).getD ("Level " ++ toString level)

def levelOfName? (name : String) : Option Int :=
  if name == "WARN" then some 30 else (levelNames.find? (·.2 == name)).map (·.1)

/-- The level that a setting asks for, by name or as a number, or else the default. -/
def parseLevel (v : Value) (default : Int) : Value :=
  match v with
  | .null => .int default
  | .bool b => .bool b
  | .int n => .int n
  | v =>
    let name := upperName (strip v.display)
    .int ((levelOfName? name <|> parseInt? name.toList).getD default)

def hasLevel (v : Value) : Bool :=
  v.wholeNumber?.isSome || v.hasText

/-- The level that a setting asks for. The text is needed even if it turns out to name no level. -/
def readLevel (v : Value) (default : Int) : Except Failure Value :=
  if hasLevel v then .ok (parseLevel v default) else .error .badValue

def levelNumber (level : Value) : Int :=
  level.wholeNumber?.getD 0

/-! ## Fields

A field of a line format says how a part of a note is written: with flags, a least width, a
precision and a letter for the kind of conversion. -/

inductive Part where
  | text (s : String)
  | number (n : Int)
deriving DecidableEq

/-- A part of a note in a line format. -/
structure Field where
  name : List Char
  flags : List Char
  width : Nat
  precision : Option Nat
  conversion : Char
deriving Inhabited

def Part.shown : Part → String
  | text s => s
  | number n => toString n

def Part.quoted : Part → String
  | text s => Text.quoted s
  | number n => toString n

def escapeNonAscii (c : Char) : List Char :=
  if c.toNat < 0x80 then [c]
  else if c.toNat < 0x100 then ['\\', 'x'] ++ Text.hex 2 c.toNat
  else if c.toNat < 0x10000 then ['\\', 'u'] ++ Text.hex 4 c.toNat
  else ['\\', 'U'] ++ Text.hex 8 c.toNat

namespace Field

def has (f : Field) (flag : Char) : Bool :=
  f.flags.contains flag

/-- Fills up to the width: on the right, after the head with zeros, or else on the left. -/
def fill (f : Field) (zeros : Bool) (head body : List Char) : List Char :=
  let missing := f.width - (head.length + body.length)
  if f.has '-' then head ++ body ++ List.replicate missing ' '
  else if zeros && f.has '0' then head ++ List.replicate missing '0' ++ body
  else List.replicate missing ' ' ++ head ++ body

def fillText (f : Field) (text : List Char) : List Char :=
  f.fill false [] (text.take (f.precision.getD text.length))

def sign (f : Field) (n : Int) : List Char :=
  if n < 0 then ['-'] else if f.has '+' then ['+'] else if f.has ' ' then [' '] else []

/-- A whole number to a base, with a mark of the base if that is asked for. The precision is the
least count of digits. -/
def fillWhole (f : Field) (base : Nat) (mark : List Char) (n : Int) : List Char :=
  let digits := Number.padDigits (f.precision.getD 1) (Nat.toDigits base n.natAbs)
  f.fill true (f.sign n ++ if f.has '#' then mark else []) digits

/-- A number with decimal places. Those that are too large for that are left out. -/
def fillPlaces (f : Field) (write : Bool → Nat → Nat → List Char) (n : Int) : Option (List Char) :=
  (Double.ofInt? n).map fun x =>
    f.fill true (f.sign n) (write (f.has '#') (f.precision.getD 6) x.truncate.natAbs)

def toUpper (cs : List Char) : List Char :=
  cs.map Char.toUpper

def renderNumber (f : Field) (n : Int) : Option (List Char) :=
  match f.conversion with
  | 'd' | 'i' | 'u' => f.fillWhole 10 [] n
  | 'o' => f.fillWhole 8 ['0', 'o'] n
  | 'x' => f.fillWhole 16 ['0', 'x'] n
  | 'X' => toUpper (f.fillWhole 16 ['0', 'X'] n)
  | 'f' | 'F' => f.fillPlaces Number.fixed n
  | 'e' => f.fillPlaces Number.scientific n
  | 'E' => (f.fillPlaces Number.scientific n).map toUpper
  | 'g' => f.fillPlaces Number.general n
  | 'G' => (f.fillPlaces Number.general n).map toUpper
  | 'c' => if 0 ≤ n && n.toNat.isValidChar then f.fill false [] [Char.ofNat n.toNat] else none
  | _ => none

/-- What is written for a part, if the part can be converted as the letter says. -/
def render (f : Field) (p : Part) : Option (List Char) :=
  match f.conversion, p with
  | 's', p => f.fillText p.shown.toList
  | 'r', p => f.fillText p.quoted.toList
  | 'a', p => f.fillText (p.quoted.toList.flatMap escapeNonAscii)
  | 'c', .text s => if s.length = 1 then f.fill false [] s.toList else none
  | _, .text _ => none
  | _, .number n => f.renderNumber n

end Field

/-! ## Formats

How a note becomes a line. A percent sign and a name in parentheses stand for a part of the note,
with flags, a least width, a precision and a letter for the kind of conversion after it. -/

def takeNumber (cs : List Char) : Nat × List Char :=
  ((cs.takeWhile Char.isDigit).foldl (fun n c => 10 * n + (c.toNat - '0'.toNat)) 0,
    cs.dropWhile Char.isDigit)

def takePrecision : List Char → Option Nat × List Char
  | '.' :: rest =>
    let (n, rest) := takeNumber rest
    (some n, rest)
  | cs => (none, cs)

def isFlag (c : Char) : Bool :=
  c == '#' || c == '0' || c == '+' || c == ' ' || c == '-'

/-- A letter before the one for the conversion, which makes no difference. -/
def isSize (c : Char) : Bool :=
  c == 'h' || c == 'l' || c == 'L'

def takeField? : List Char → Option (Field × List Char)
  | '(' :: rest =>
    let name := rest.takeWhile (· != ')')
    let rest := rest.drop (name.length + 1)
    let flags := rest.takeWhile isFlag
    let (width, rest) := takeNumber (rest.dropWhile isFlag)
    let (precision, rest) := takePrecision rest
    match rest.dropWhile isSize with
    | conversion :: rest => some (⟨name, flags, width, precision, conversion⟩, rest)
    | [] => none
  | _ => none

def isFieldNameChar (c : Char) : Bool :=
  Text.inRanges Text.wordRanges c || c == '_'

/-- The letters of conversions. The last three turn into letters of the alphabet by a change of
case. -/
def conversions : List Char :=
  "diouxefgcrsa%DIOUXEFGCRSAİıſ".toList

def isSizeDigit (c : Char) : Bool :=
  (Text.digitValue? c).isSome

def dropSize : List Char → List Char
  | '*' :: rest => rest
  | cs => cs.dropWhile isSizeDigit

def dropPoint : List Char → List Char
  | '.' :: c :: rest => if c == '*' || isSizeDigit c then dropSize (c :: rest) else '.' :: c :: rest
  | cs => cs

/-- A whole field begins at a percent sign with the given characters after it. -/
def startsField : List Char → Bool
  | '(' :: rest =>
    let name := rest.takeWhile isFieldNameChar
    match rest.drop name.length with
    | ')' :: rest =>
      !name.isEmpty
        && ((dropPoint (dropSize (rest.dropWhile isFlag))).head?.any conversions.contains)
    | _ => false
  | _ => false

def hasField : List Char → Bool
  | '%' :: rest => startsField rest || hasField rest
  | _ :: rest => hasField rest
  | [] => false

/-- The line for a note with the given parts, unless the format asks for one that there is not or
that cannot be converted. -/
def renderLine (part : String → Option Part) : Nat → List Char → Option (List Char)
  | 0, _ => some []
  | _, [] => some []
  | fuel + 1, '%' :: '%' :: rest => (renderLine part fuel rest).map ('%' :: ·)
  | fuel + 1, '%' :: rest => do
    let (f, rest) ← takeField? rest
    let text ← f.render (← part (String.ofList f.name))
    return text ++ (← renderLine part fuel rest)
  | fuel + 1, c :: rest => (renderLine part fuel rest).map (c :: ·)

end VirtualUsers.Journal
