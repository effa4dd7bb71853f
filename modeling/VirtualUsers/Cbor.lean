import VirtualUsers.Failure
import VirtualUsers.Text
/-!
# Binary payloads

The concise binary object representation of a value, and the value at the front of a payload.
-/

namespace VirtualUsers.Cbor

open Text

/-! ## Writing

The concise binary object representation of a value. Whole numbers and lengths have the shortest
heads, other numbers have eight bytes unless they are infinite or no numbers at all. -/

def bigEndian (width n : Nat) : List UInt8 :=
  match width with
  | 0 => []
  | w + 1 => UInt8.ofNat (n / Nat.pow 256 w) :: bigEndian w n

def head (major n : Nat) : List UInt8 :=
  let first (k : Nat) : UInt8 := UInt8.ofNat (32 * major + k)
  if n < 24 then [first n]
  else if n < 0x100 then first 24 :: bigEndian 1 n
  else if n < 0x10000 then first 25 :: bigEndian 2 n
  else if n < 0x100000000 then first 26 :: bigEndian 4 n
  else first 27 :: bigEndian 8 n

/-- An item with its head. There is none for a number of more than eight bytes. -/
def headed? (major n : Nat) (content : List UInt8) : Option (List UInt8) :=
  if n < Nat.pow 2 64 then some (head major n ++ content) else none

def encodeBytes? (bs : List UInt8) : Option (List UInt8) :=
  headed? 2 bs.length bs

def byteLength (n : Nat) : Nat :=
  if n = 0 then 0 else n.log2 / 8 + 1

/-- A whole number that is given by its distance from zero or from minus one. Beyond 64 bits it is a
byte string with a tag. -/
def encodeNat? (major tag n : Nat) : Option (List UInt8) :=
  headed? major n [] <|> (encodeBytes? (bigEndian (byteLength n) n)).bind (headed? 6 tag)

def encodeInt? : Int → Option (List UInt8)
  | .ofNat n => encodeNat? 0 2 n
  | .negSucc n => encodeNat? 1 3 n

def encodeDouble (x : Double) : List UInt8 :=
  if x.isNaN then [0xf9, 0x7e, 0x00]
  else if x.isInfinite then [0xf9, if x.negative then 0xfc else 0x7c, 0x00]
  else 0xfb :: bigEndian 8 x.bits.toNat

mutual

def encode? : Value → Option (List UInt8)
  | .null => some [0xf6]
  | .bool b => some [if b then 0xf5 else 0xf4]
  | .int n => encodeInt? n
  | .real x => some (encodeDouble x)
  | .text s => headed? 3 (utf8 s).length (utf8 s)
  | .bytes bs => encodeBytes? bs
  | .list items => (encodeItems? items).bind (headed? 4 items.length)
  | .map entries => (encodeEntries? entries).bind (headed? 5 entries.length)
  | .tagged tag content => (encode? content).bind (headed? 6 tag)
  | .simple n => some (if n < 24 then [UInt8.ofNat (0xe0 + n)] else [0xf8, UInt8.ofNat n])
  | .undefined => some [0xf7]
  | _ => none

def encodeItems? : List Value → Option (List UInt8)
  | [] => some []
  | v :: rest => do return (← encode? v) ++ (← encodeItems? rest)

def encodeEntries? : List (Value × Value) → Option (List UInt8)
  | [] => some []
  | e :: rest => do return (← encodeEntry? e) ++ (← encodeEntries? rest)

def encodeEntry? : Value × Value → Option (List UInt8)
  | (k, v) => do return (← encode? k) ++ (← encode? v)

end

def encode (v : Value) : Except Failure (List UInt8) :=
  (encode? v).elim (.error (.unencodable v)) .ok

/-! ## Reading

The value at the front of a payload of the concise binary object representation. Items may be
nested 400 deep; what follows the first item is not looked at. -/

/-- How many items may be around an item. -/
def depthLimit : Nat := 400

abbrev Read (α : Type) := List UInt8 → Option (α × List UInt8)

def ofBigEndian (bs : List UInt8) : Nat :=
  bs.foldl (fun n b => 256 * n + b.toNat) 0

def takeBytes (n : Nat) : Read (List UInt8) := fun bs =>
  let taken := bs.take n
  if taken.length = n then some (taken, bs.drop n) else none

/-- What the low bits of a first byte give: a number, or none for a length that is left open. -/
def argument (low : Nat) : Read (Option Nat) := fun bs =>
  let number (width : Nat) : Option (Option Nat × List UInt8) :=
    (takeBytes width bs).map fun (taken, rest) => (some (ofBigEndian taken), rest)
  if low < 24 then some (some low, bs)
  else match low with
    | 24 => number 1
    | 25 => number 2
    | 26 => number 4
    | 27 => number 8
    | 31 => some (none, bs)
    | _ => none

/-- The chunks up to the end mark of a string of open length. All are strings of the same type with
a length of their own. -/
def chunks (major : Nat) : Nat → Read (List (List UInt8))
  | 0, _ => none
  | fuel + 1, bs =>
    match bs with
    | 0xff :: rest => some ([], rest)
    | b :: rest =>
      if b.toNat / 32 = major then do
        let (length?, rest) ← argument (b.toNat % 32) rest
        let length ← length?
        let (chunk, rest) ← takeBytes length rest
        let (others, rest) ← chunks major fuel rest
        return (chunk :: others, rest)
      else none
    | [] => none

def stringChunks (major : Nat) (length? : Option Nat) : Read (List (List UInt8)) := fun bs =>
  match length? with
  | some n => (takeBytes n bs).map fun (chunk, rest) => ([chunk], rest)
  | none => chunks major (bs.length + 1) bs

def times (part : Read α) : Nat → Read (List α)
  | 0, bs => some ([], bs)
  | n + 1, bs => do
    let (a, bs) ← part bs
    let (others, bs) ← times part n bs
    return (a :: others, bs)

def untilBreak (part : Read α) : Nat → Read (List α)
  | 0, _ => none
  | fuel + 1, bs =>
    match bs with
    | 0xff :: rest => some ([], rest)
    | _ => do
      let (a, bs) ← part bs
      let (others, bs) ← untilBreak part fuel bs
      return (a :: others, bs)

/-- The parts of a list or a map. The end mark counts as a part when it comes to how deep parts may
be nested. -/
def parts (depth : Nat) (part : Read α) (length? : Option Nat) : Read (List α) := fun bs =>
  match length? with
  | some n => times part n bs
  | none => if depth = 0 then none else untilBreak part (bs.length + 1) bs

/-- The double precision form of a number with `e` bits of exponent and `f` of fraction. -/
def widen (e f bits : Nat) : Double :=
  let negative := Nat.pow 2 (e + f) ≤ bits
  let exponent := bits / Nat.pow 2 f % Nat.pow 2 e
  let fraction := bits % Nat.pow 2 f
  let bias := Nat.pow 2 (e - 1) - 1 + f
  if exponent = Nat.pow 2 e - 1 then
    if fraction = 0 then .infinity negative else .nan
  else if exponent = 0 then .ofRatio negative fraction (Nat.pow 2 (bias - 1))
  else
    let (num, den) := Double.shift (Nat.pow 2 f + fraction) 1 (exponent - bias)
    .ofRatio negative num den

def special (low : Nat) (bs : List UInt8) : Option (Value × List UInt8) :=
  let number (width : Nat) (f : Nat → Value) : Option (Value × List UInt8) :=
    (takeBytes width bs).map fun (taken, rest) => (f (ofBigEndian taken), rest)
  match low with
  | 20 => some (.bool false, bs)
  | 21 => some (.bool true, bs)
  | 22 => some (.null, bs)
  | 23 => some (.undefined, bs)
  | 24 => do
    let (b, rest) ← takeBytes 1 bs
    let n := ofBigEndian b
    if n < 32 then none else return (.simple n, rest)
  | 25 => number 2 fun bits => .real (widen 5 10 bits)
  | 26 => number 4 fun bits => .real (widen 8 23 bits)
  | 27 => number 8 fun bits => .real ⟨UInt64.ofNat bits⟩
  | n => if n < 20 then some (.simple n, bs) else none

/-- A value under a tag. Two tags mark whole numbers of any size. -/
def ofTag (tag : Nat) (content : Value) : Option Value :=
  match tag, content with
  | 2, .bytes bs => some (.int (ofBigEndian bs))
  | 3, .bytes bs => some (.int (-1 - (ofBigEndian bs : Int)))
  | 2, _ => none
  | 3, _ => none
  | tag, content => some (.tagged tag content)

def entry (part : Read Value) : Read (Value × Value) := fun bs => do
  let (k, bs) ← part bs
  let (v, bs) ← part bs
  return ((k, v), bs)

/-- What comes after the head of an item, by the type of the item. Its parts may be nested as deep
as given. -/
def content (depth : Nat) (part : Read Value) (major : Nat) (argument? : Option Nat) : Read Value :=
  fun bs => do
  match major with
  | 0 => return (.int (← argument?), bs)
  | 1 => return (.int (-1 - ((← argument?) : Nat)), bs)
  | 2 =>
    let (chunks, bs) ← stringChunks 2 argument? bs
    return (.bytes chunks.flatten, bs)
  | 3 =>
    let (chunks, bs) ← stringChunks 3 argument? bs
    return (.text (String.join (← chunks.mapM ofUtf8?)), bs)
  | 4 =>
    let (items, bs) ← parts depth part argument? bs
    return (.list items, bs)
  | 5 =>
    let (items, bs) ← parts depth (entry part) argument? bs
    return (.ofEntries items, bs)
  | _ =>
    let tag ← argument?
    let (inner, bs) ← part bs
    return (← ofTag tag inner, bs)

def item : Nat → Read Value
  | 0, _ => none
  | _, [] => none
  | depth + 1, b :: bs =>
    if b.toNat / 32 = 7 then special (b.toNat % 32) bs
    else do
      let (argument?, bs) ← argument (b.toNat % 32) bs
      content depth (item depth) (b.toNat / 32) argument? bs

def decode (bs : List UInt8) : Except Failure Value :=
  match item (depthLimit + 1) bs with
  | some (v, _) => .ok v
  | none => .error .undecodable

end VirtualUsers.Cbor
