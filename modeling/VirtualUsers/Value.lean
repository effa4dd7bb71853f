import VirtualUsers.Number.Decimal
import VirtualUsers.Number.Double
import VirtualUsers.Text
/-!
# Values

The dynamic values that events, answers, settings and arguments consist of. Maps keep the order in
which their keys came. `Key` is the normal form of a value that may be a key.
-/

namespace VirtualUsers

inductive Value where
  | null
  | bool (b : Bool)
  | int (n : Int)
  | real (x : Double)
  | text (s : String)
  | bytes (bs : List UInt8)
  | list (items : List Value)
  | map (entries : List (Value × Value))
  /-- A value that a payload marks with a tag of unknown meaning. -/
  | tagged (tag : Nat) (content : Value)
  /-- A value that a payload gives by number only. -/
  | simple (n : Nat)
  | undefined
  /-- A member record with its three fields. -/
  | member (membership displayname avatarUrl : Value)
  /-- A power level record with its nine fields. -/
  | levels (users usersDefault events eventsDefault stateDefault ban kick redact invite : Value)
  /-- An event with its seven fields. -/
  | event (room type sender id stateKey content timestamp : Value)
  /-- An object that has no written form. -/
  | foreign
deriving Inhabited

namespace Value

/-- All values but the empty ones, zero, `false` and `null`. -/
def truthy : Value → Bool
  | null => false
  | bool b => b
  | int n => n != 0
  | real x => !x.isZero
  | text s => s != ""
  | bytes bs => !bs.isEmpty
  | list items => !items.isEmpty
  | map entries => !entries.isEmpty
  | _ => true

def isNull : Value → Bool
  | null => true
  | _ => false

def isText : Value → Bool
  | text _ => true
  | _ => false

def isMap : Value → Bool
  | map _ => true
  | _ => false

/-- The value, or the other one if it is empty, zero, `false` or `null`. -/
def orElse (v other : Value) : Value :=
  if v.truthy then v else other

/-- The value as a number, where `true` is one and `false` is zero. -/
def wholeNumber? : Value → Option Int
  | bool b => some b.toInt
  | int n => some n
  | _ => none

/-- Equality of two scalars: numbers compare by what they count, whatever their form. -/
def sameScalar (v w : Value) : Bool :=
  match v, w with
  | null, null => true
  | undefined, undefined => true
  | text s, text t => s == t
  | bytes b, bytes c => b == c
  | simple m, simple n => m == n
  | real x, real y => x.sameNumber y
  | real x, w => w.wholeNumber?.any x.isInt
  | v, real y => v.wholeNumber?.any y.isInt
  | v, w => v.wholeNumber?.isSome && v.wholeNumber? == w.wholeNumber?

mutual

/-- Equality of values: numbers compare by what they count, maps without regard to order. A foreign
object equals nothing. -/
def same : Value → Value → Bool
  | list vs, w =>
    match w with
    | list ws => sameItems vs ws
    | _ => false
  | map es, w =>
    match w with
    | map fs => es.length == fs.length && sameEntries es fs
    | _ => false
  | tagged n v, w =>
    match w with
    | tagged m w => n == m && same v w
    | _ => false
  | member a b c, w =>
    match w with
    | member a' b' c' => same a a' && same b b' && same c c'
    | _ => false
  | levels a b c d e f g h i, w =>
    match w with
    | levels a' b' c' d' e' f' g' h' i' =>
      same a a' && same b b' && same c c' && same d d' && same e e' && same f f' && same g g'
        && same h h' && same i i'
    | _ => false
  | event a b c d e f g, w =>
    match w with
    | event a' b' c' d' e' f' g' =>
      same a a' && same b b' && same c c' && same d d' && same e e' && same f f' && same g g'
    | _ => false
  | v, w => sameScalar v w

def sameItems : List Value → List Value → Bool
  | [], [] => true
  | v :: vs, w :: ws => same v w && sameItems vs ws
  | _, _ => false

def sameEntries : List (Value × Value) → List (Value × Value) → Bool
  | [], _ => true
  | e :: es, fs => fs.any (sameEntry e) && sameEntries es fs

def sameEntry : Value × Value → Value × Value → Bool
  | (k, v), (l, w) => same k l && same v w

end

/-- Enters a value under a key. A key that is there already keeps its form and its place. -/
def put (key value : Value) : List (Value × Value) → List (Value × Value)
  | [] => [(key, value)]
  | (k, v) :: rest => if k.same key then (k, value) :: rest else (k, v) :: put key value rest

/-- The map with the given entries, of which later ones win over earlier ones with the same key. -/
def ofEntries (entries : List (Value × Value)) : Value :=
  map (entries.foldl (fun es (k, v) => put k v es) [])

def lookup? (key : String) : List (Value × Value) → Option Value
  | [] => none
  | (text k, v) :: rest => if k = key then some v else lookup? key rest
  | _ :: rest => lookup? key rest

def record (fields : List (String × Value)) : Value :=
  map (fields.map fun (k, v) => (text k, v))

end Value

/-- What tells one key from another: `true` and 1.0 are the key 1. -/
inductive Key where
  | null
  | int (n : Int)
  | real (x : Double)
  | text (s : String)
  | bytes (bs : List UInt8)
deriving DecidableEq, Inhabited

namespace Key

def ofValue? : Value → Option Key
  | .null => some null
  | .bool b => some (int b.toInt)
  | .int n => some (int n)
  | .real x => some (if x.isFinite && x.isInt x.truncate then int x.truncate else real x)
  | .text s => some (text s)
  | .bytes bs => some (bytes bs)
  | _ => none

def toValue : Key → Value
  | null => .null
  | int n => .int n
  | real x => .real x
  | text s => .text s
  | bytes bs => .bytes bs

def text? : Key → Option String
  | text s => some s
  | _ => none

@[simp] theorem ofValue?_text (s : String) : ofValue? (.text s) = some (text s) := rfl

end Key

end VirtualUsers

namespace VirtualUsers.Value

open Text

/-! ## Values in messages

A value as messages show it: texts alone are shown as they are, texts within other values between
quotes. Whole numbers of too many digits are not written, and nothing that they are in. -/

def showScalar : Value → String
  | null => "None"
  | bool b => if b then "True" else "False"
  | int n => toString n
  | real x => x.write
  | text s => quoted s
  | bytes bs => quotedBytes bs
  | _ => "..."

mutual

def shown : Value → String
  | list items => "[" ++ shownItems items ++ "]"
  | map entries => "\x7b" ++ shownEntries entries ++ "\x7d"
  | v => showScalar v

def shownItems : List Value → String
  | [] => ""
  | [v] => shown v
  | v :: rest => shown v ++ ", " ++ shownItems rest

def shownEntries : List (Value × Value) → String
  | [] => ""
  | [e] => shownEntry e
  | e :: rest => shownEntry e ++ ", " ++ shownEntries rest

def shownEntry : Value × Value → String
  | (k, v) => shown k ++ ": " ++ shown v

end

def display : Value → String
  | text s => s
  | v => shown v

/-- The number has few enough digits to be written. -/
def isWritable (n : Int) : Bool :=
  n.natAbs < Nat.pow 10 Number.digitLimit

mutual

def hasText : Value → Bool
  | int n => isWritable n
  | list items => itemsHaveText items
  | map entries => entriesHaveText entries
  | _ => true

def itemsHaveText : List Value → Bool
  | [] => true
  | v :: rest => hasText v && itemsHaveText rest

def entriesHaveText : List (Value × Value) → Bool
  | [] => true
  | e :: rest => entryHasText e && entriesHaveText rest

def entryHasText : Value × Value → Bool
  | (k, v) => hasText k && hasText v

end

end VirtualUsers.Value
