/-!
# Double precision numbers

A number of the IEEE 754 binary64 format, given by its bits. All arithmetic on it is exact
arithmetic on whole numbers, followed by one rounding to the nearest number of the format.
-/

namespace VirtualUsers

/-- A binary64 number, given by its bits: sign, eleven bits of exponent, 52 of fraction. -/
structure Double where
  bits : UInt64
deriving DecidableEq, Inhabited

namespace Double

def negative (x : Double) : Bool :=
  Nat.pow 2 63 ≤ x.bits.toNat

def exponentBits (x : Double) : Nat :=
  x.bits.toNat / Nat.pow 2 52 % 2048

def fractionBits (x : Double) : Nat :=
  x.bits.toNat % Nat.pow 2 52

def isFinite (x : Double) : Bool :=
  x.exponentBits != 2047

def isNaN (x : Double) : Bool :=
  x.exponentBits == 2047 && x.fractionBits != 0

def isInfinite (x : Double) : Bool :=
  x.exponentBits == 2047 && x.fractionBits == 0

def isZero (x : Double) : Bool :=
  x.exponentBits == 0 && x.fractionBits == 0

/-- The whole number that the distance from zero is a multiple `scale` of a power of two of. -/
def mantissa (x : Double) : Nat :=
  if x.exponentBits = 0 then x.fractionBits else Nat.pow 2 52 + x.fractionBits

/-- The exponent of the power of two that `mantissa` counts. -/
def scale (x : Double) : Int :=
  if x.exponentBits = 0 then -1074 else x.exponentBits - 1075

/-- The distance of a finite number from zero, as a quotient. -/
def ratio (x : Double) : Nat × Nat :=
  if 0 ≤ x.scale then (x.mantissa * Nat.pow 2 x.scale.toNat, 1)
  else (x.mantissa, Nat.pow 2 (-x.scale).toNat)

/-- The number with the given sign and the given bits for its distance from zero. -/
def ofMagnitude (negative : Bool) (magnitude : Nat) : Double :=
  ⟨UInt64.ofNat (magnitude + if negative then Nat.pow 2 63 else 0)⟩

def zero : Double := ⟨0⟩

def nan : Double := ⟨0x7ff8000000000000⟩

def infiniteMagnitude : Nat := 2047 * Nat.pow 2 52

def infinity (negative : Bool) : Double :=
  ofMagnitude negative infiniteMagnitude

/-- The whole number nearest to a quotient; a half goes to the even neighbour. -/
def roundDiv (num den : Nat) : Nat :=
  let floor := num / den
  let twice := 2 * (num % den)
  if twice < den then floor
  else if den < twice then floor + 1
  else floor + floor % 2

def shift (num den : Nat) (places : Int) : Nat × Nat :=
  if 0 ≤ places then (num * Nat.pow 2 places.toNat, den) else (num, den * Nat.pow 2 (-places).toNat)

/-- The exponent of the largest power of two that a positive quotient reaches. -/
def log2 (num den : Nat) : Int :=
  let guess : Int := (num.log2 : Int) - den.log2
  let (n, d) := shift num den (-guess)
  if d ≤ n then guess else guess - 1

/-- The number nearest to a quotient with a sign; a half goes to the even neighbour, and what is
too large becomes infinite. -/
def ofRatio (negative : Bool) (num den : Nat) : Double :=
  if num = 0 then ofMagnitude negative 0
  else
    let scale := max (log2 num den - 52) (-1074)
    let (n, d) := shift num den (-scale)
    let magnitude := (scale + 1074).toNat * Nat.pow 2 52 + roundDiv n d
    ofMagnitude negative (min magnitude infiniteMagnitude)

def ofInt? (n : Int) : Option Double :=
  let x := ofRatio (n < 0) n.natAbs 1
  if x.isFinite then some x else none

/-- The whole number between zero and a finite number that is nearest to it. -/
def truncate (x : Double) : Int :=
  let (n, d) := x.ratio
  if x.negative then -((n / d : Nat) : Int) else (n / d : Nat)

def times (x : Double) (k : Nat) : Double :=
  if x.isFinite then ofRatio x.negative (x.ratio.1 * k) x.ratio.2 else x

def ofQuotient (n : Int) (d : Nat) : Double :=
  ofRatio (n < 0) n.natAbs d

/-- Equal as numbers: zero has two forms, and what is not a number equals nothing. -/
def sameNumber (x y : Double) : Bool :=
  !x.isNaN && !y.isNaN && (x == y || (x.isZero && y.isZero))

/-- A finite number with its sign is the given whole number. -/
def isInt (x : Double) (n : Int) : Bool :=
  x.isFinite && x.ratio.1 == n.natAbs * x.ratio.2
    && (x.ratio.1 == 0 || x.negative == decide (n < 0))

def positive (x : Double) : Bool :=
  !x.isNaN && !x.isZero && !x.negative

end Double

end VirtualUsers
