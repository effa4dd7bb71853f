import VirtualUsers.Failure
import VirtualUsers.Number.Decimal
/-!
# Reading values as numbers, maps and keys

What a value counts as where a number, a map or a key is called for, and why it does not.
-/

namespace VirtualUsers.Value

open Number

/-- The characters of an ASCII byte string; any other byte stands for no part of a number. -/
def asciiChars (bs : List UInt8) : List Char :=
  bs.map fun b => if b < 0x80 then Char.ofNat b.toNat else '?'

/-- The value as a whole number. Fractions are cut off. -/
def toInt : Value → Except Failure Int
  | bool b => .ok b.toInt
  | int n => .ok n
  | real x =>
    if x.isNaN then .error .badValue
    else if x.isInfinite then .error .overflow
    else .ok x.truncate
  | text s => (parseInt? s.toList).elim (.error .badValue) .ok
  | bytes bs => (parseInt? (asciiChars bs)).elim (.error .badValue) .ok
  | _ => .error .wrongType

def toDouble : Value → Except Failure Double
  | bool b => .ok (Double.ofRatio false b.toNat 1)
  | int n => (Double.ofInt? n).elim (.error .overflow) .ok
  | real x => .ok x
  | text s => (Double.parse? s.toList).elim (.error .badValue) .ok
  | bytes bs => (Double.parse? (asciiChars bs)).elim (.error .badValue) .ok
  | _ => .error .wrongType

/-- The whole number that the value counts as, or a default for what counts as none. What is
infinite has no default. -/
def toIntOr (default : Int) : Value → Except Failure Int
  | bool _ => .ok default
  | v =>
    match v.toInt with
    | .error .overflow => .error .overflow
    | .error _ => .ok default
    | .ok n => .ok n

def positive : Value → Except Failure Bool
  | bool b => .ok b
  | int n => .ok (0 < n)
  | real x => .ok x.positive
  | _ => .error .wrongType

def field? (v : Value) (key : String) : Except Failure (Option Value) :=
  match v with
  | map entries => .ok (lookup? key entries)
  | _ => .error .noAttribute

def field (v : Value) (key : String) : Except Failure Value :=
  (v.field? key).map (·.getD .null)

def toKey (v : Value) : Except Failure Key :=
  (Key.ofValue? v).elim (.error .wrongType) .ok

@[simp] theorem toInt_int (n : Int) : (int n).toInt = .ok n := rfl

@[simp] theorem toIntOr_int (d n : Int) : (int n).toIntOr d = .ok n := rfl

@[simp] theorem toKey_text (s : String) : (text s).toKey = .ok (.text s) := rfl

@[simp] theorem field_map (key : String) (entries : List (Value × Value)) :
    (map entries).field key = .ok ((lookup? key entries).getD .null) := rfl

end VirtualUsers.Value
