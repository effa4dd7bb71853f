import VirtualUsers.Number.Double
import VirtualUsers.Text
/-!
# Decimal text of numbers

Whole numbers are written in full, with decimal places or with an exponent. Of a double precision
number the fewest digits are written that read back as it, and of those the nearest ones; reading
rounds the exact decimal value once.
-/

namespace VirtualUsers.Number

open Text

/-! ## Numerals

Whole numbers in text: an optional sign and decimal digits of any script, with single underscores
between digits and white space around. -/

/-- The most digits that a numeral may have. -/
def digitLimit : Nat := 4300

/-- White space around a number. The information separators do not count here. -/
def isMargin (c : Char) : Bool :=
  isBlank c && !(0x1c ≤ c.toNat && c.toNat ≤ 0x1f)

def trim (cs : List Char) : List Char :=
  dropRight isMargin (cs.dropWhile isMargin)

def splitSign : List Char → Bool × List Char
  | '-' :: cs => (true, cs)
  | '+' :: cs => (false, cs)
  | cs => (false, cs)

def startsWithDigit (cs : List Char) : Bool :=
  cs.head?.any fun c => (digitValue? c).isSome

/-- The values of the digits at the front and what follows, `inside` if a digit came before. One
underscore may stand between two digits. -/
def takeDigits (inside : Bool) : List Char → List Nat × List Char
  | [] => ([], [])
  | c :: cs =>
    match digitValue? c with
    | some d =>
      let (ds, rest) := takeDigits true cs
      (d :: ds, rest)
    | none =>
      if inside && c == '_' && startsWithDigit cs then takeDigits false cs else ([], c :: cs)

def ofDigits (ds : List Nat) : Nat :=
  ds.foldl (fun n d => 10 * n + d) 0

def signed (negative : Bool) (n : Nat) : Int :=
  if negative then -(n : Int) else n

def parseInt? (cs : List Char) : Option Int :=
  let (negative, body) := splitSign (trim cs)
  match takeDigits false body with
  | ([], _) => none
  | (ds, []) => if ds.length ≤ digitLimit then some (signed negative (ofDigits ds)) else none
  | _ => none

/-! ## Decimal places

Natural numbers written as numbers with decimal places, with or without an exponent. Where digits
have to go, the nearest number is written, and a half goes to the even neighbour. Unless `point` is
set, there is no decimal point without a digit after it. -/

def padDigits (least : Nat) (ds : List Char) : List Char :=
  List.replicate (least - ds.length) '0' ++ ds

def places (point : Bool) (ds : List Char) : List Char :=
  if ds.isEmpty && !point then [] else '.' :: ds

def fixed (point : Bool) (count n : Nat) : List Char :=
  Nat.toDigits 10 n ++ places point (List.replicate count '0')

/-- The first digits of a number, as many as given, and the exponent of the first of them. -/
def leading (count n : Nat) : List Char × Nat :=
  let length := (Nat.toDigits 10 n).length
  if length ≤ count then (Nat.toDigits 10 n ++ List.replicate (count - length) '0', length - 1)
  else
    let ds := Nat.toDigits 10 (Double.roundDiv n (Nat.pow 10 (length - count)))
    (ds.take count, length - 1 + (ds.length - count))

def withExponent (point : Bool) (ds : List Char) (exponent : Nat) : List Char :=
  ds.take 1 ++ places point (ds.drop 1) ++ ['e', '+'] ++ padDigits 2 (Nat.toDigits 10 exponent)

def scientific (point : Bool) (count n : Nat) : List Char :=
  let (ds, exponent) := leading (count + 1) n
  withExponent point ds exponent

/-- The number with at most the given count of digits, and with an exponent if that is too few.
Zeros at the end of the decimal places are written only if `point` is set. -/
def general (point : Bool) (count n : Nat) : List Char :=
  let count := max count 1
  let (ds, exponent) := leading count n
  if exponent < count then
    Nat.toDigits 10 n ++ if point then '.' :: ds.drop (exponent + 1) else []
  else if point then withExponent true ds exponent
  else withExponent false (ds.reverse.dropWhile (· == '0')).reverse exponent

end VirtualUsers.Number

namespace VirtualUsers.Double

open Text Number

/-! ## Double precision numbers

A finite number is written with the fewest digits that read back as it, and of those the nearest
ones. Reading rounds the exact decimal value once. -/

/-- The number of decimal digits of the whole part of a quotient that is at least one; for a
smaller quotient, minus the number of zeros after the point. -/
def decimalPoint (num den : Nat) : Int :=
  if den ≤ num then (Nat.toDigits 10 (num / den)).length
  else
    -- The zeros after the point are those that the reciprocal, rounded up to a power of ten, lacks.
    let digits := (Nat.toDigits 10 (den / num)).length
    if den ≤ num * Nat.pow 10 (digits - 1) then 2 - digits else 1 - (digits : Int)

def shiftDecimal (num den : Nat) (places : Int) : Nat × Nat :=
  if 0 ≤ places then (num * Nat.pow 10 places.toNat, den)
  else (num, den * Nat.pow 10 (-places).toNat)

/-- The decimal grid point nearest to the quotient `num / den`, among those next to it that lie
between `low / den` and `high / den`. -/
def gridPoint? (closed : Bool) (low num high den : Nat) : Option Nat :=
  let inside (k : Nat) : Bool :=
    if closed then low ≤ k * den && k * den ≤ high else low < k * den && k * den < high
  let floor := num / den
  let nearest := roundDiv num den
  if inside nearest then some nearest
  else if inside floor then some floor
  else if inside (floor + 1) then some (floor + 1)
  else none

/-- The first number of digits, counted from `digits` on, for which the grid has a point. Gives the
point and the position of its last digit. -/
def searchDigits (closed : Bool) (low num high den : Nat) (point : Int) : Nat → Nat → Nat × Int
  | 0, _ => (0, 0)
  | fuel + 1, digits =>
    let place : Int := point - digits
    let (n, d) := shiftDecimal num den (-place)
    let (l, _) := shiftDecimal low den (-place)
    let (h, _) := shiftDecimal high den (-place)
    match gridPoint? closed l n h d with
    | some k => (k, place)
    | none => searchDigits closed low num high den point fuel (digits + 1)

/-- The shortest decimal of a positive finite number: a whole number and the power of ten that it
counts. Every number within half a step of the format reads back as this one, the ends included
if the mantissa is even. -/
def shortest (x : Double) : Nat × Int :=
  let m := x.mantissa
  let below := if m = Nat.pow 2 52 && 1 < x.exponentBits then 1 else 2
  let (num, den) := shift (4 * m) 1 (x.scale - 2)
  let (low, _) := shift (4 * m - below) 1 (x.scale - 2)
  let (high, _) := shift (4 * m + 2) 1 (x.scale - 2)
  searchDigits (m % 2 == 0) low num high den (decimalPoint num den) 18 1

def trimZeros (ds : List Char) : List Char :=
  dropRight (· == '0') ds

def positional (point : Int) : Bool :=
  -4 < point && point ≤ 16

/-- A positive finite number. Very large and very small ones have an exponent of at least two
digits, all others have a digit on each side of the point. -/
def writePositive (x : Double) : List Char :=
  let (k, place) := shortest x
  let all := Nat.toDigits 10 k
  let point : Int := all.length + place
  let digits := trimZeros all
  if positional point then
    if point ≤ 0 then '0' :: '.' :: List.replicate (-point).toNat '0' ++ digits
    else
      let whole := digits.take point.toNat
      let fraction := digits.drop point.toNat
      whole ++ List.replicate (point.toNat - whole.length) '0' ++
        '.' :: (if fraction.isEmpty then ['0'] else fraction)
  else
    let exponent := point - 1
    let size := Nat.toDigits 10 exponent.natAbs
    digits.take 1 ++ (if digits.length ≤ 1 then [] else '.' :: digits.drop 1) ++
      'e' :: (if exponent < 0 then '-' else '+') ::
        (List.replicate (2 - size.length) '0' ++ size)

def write (x : Double) : String :=
  if x.isNaN then "nan"
  else
    let body := if x.isInfinite then ['i', 'n', 'f'] else if x.isZero then ['0', '.', '0']
      else writePositive x
    String.ofList (if x.negative then '-' :: body else body)

/-- A finite number with one digit after the point; a half goes to the even neighbour. -/
def writeTenths (x : Double) : String :=
  let (n, d) := x.ratio
  let tenths := roundDiv (10 * n) d
  String.ofList ((if x.negative then ['-'] else []) ++ Nat.toDigits 10 (tenths / 10) ++
    '.' :: Nat.toDigits 10 (tenths % 10))

/-- The number nearest to `n` times a power of ten. Where the exponent alone decides, the power is
not computed. -/
def ofDecimal (negative : Bool) (n : Nat) (exponent : Int) : Double :=
  let size := (Nat.toDigits 10 n).length + exponent
  if n = 0 || size < -400 then ofRatio negative 0 1
  else if 400 < size then infinity negative
  else
    let (num, den) := shiftDecimal n 1 exponent
    ofRatio negative num den

def parseExponent? : List Char → Option Int
  | [] => some 0
  | c :: cs =>
    if c == 'e' || c == 'E' then
      let (negative, body) := splitSign cs
      match takeDigits false body with
      | ([], _) => none
      | (ds, []) => some (signed negative (ofDigits ds))
      | _ => none
    else none

def parseUnsigned? (negative : Bool) (cs : List Char) : Option Double :=
  let (whole, rest) := takeDigits false cs
  let (fraction, rest) := match rest with
    | '.' :: after => takeDigits false after
    | _ => ([], rest)
  if whole.isEmpty && fraction.isEmpty then none
  else (parseExponent? rest).map fun e =>
    ofDecimal negative (ofDigits (whole ++ fraction)) (e - fraction.length)

/-- The number that the characters spell. Infinity and what is not a number have names. -/
def parse? (cs : List Char) : Option Double :=
  let (negative, body) := splitSign (trim cs)
  let name := String.ofList (body.map Char.toLower)
  if name == "inf" || name == "infinity" then some (infinity negative)
  else if name == "nan" then some nan
  else parseUnsigned? negative body

end VirtualUsers.Double
