import ActionQuery.Decimal

namespace ActionQuery

/-- A number with a binary point: `mantissa` over two to the power of `scale`. -/
structure Binary where
  mantissa : Int
  scale : Nat
  deriving DecidableEq, Repr

namespace Binary

/-- The number that a one with `n` binary zeros behind it denotes. -/
def twoTo (n : Nat) : Nat := Nat.pow 2 n

/-- Significant binary digits of a number of double precision. -/
def precision : Nat := 53

/-- The integer nearest to `n / d`, the even one when two are. -/
def nearestEven (n d : Nat) : Nat :=
  let quotient := n / d
  let rest := n % d
  if 2 * rest < d ∨ (2 * rest = d ∧ quotient % 2 = 0) then quotient else quotient + 1

/-- The length of the integer part of `n / d` in binary digits; when that is not positive, one less
the place of the first digit that is not zero. -/
def integerLength (n d : Nat) : Int :=
  let guess : Int := (Nat.log2 n : Int) - Nat.log2 d
  let reached :=
    if 0 ≤ guess then d * twoTo guess.toNat ≤ n else d ≤ n * twoTo (-guess).toNat
  if reached then guess + 1 else guess

/-- The number nearest to `n / d` that has no more digits than the precision. -/
def nearestNat (n d : Nat) : Binary :=
  let places := (precision : Int) - integerLength n d
  if 0 ≤ places then ⟨nearestEven (n * twoTo places.toNat) d, places.toNat⟩
  else
    let step := twoTo (-places).toNat
    ⟨nearestEven n (d * step) * step, 0⟩

def nearest (n : Int) (d : Nat) : Binary :=
  if n = 0 then ⟨0, 0⟩
  else
    let size := nearestNat n.natAbs d
    if n < 0 then { size with mantissa := -size.mantissa } else size

def ofInt (n : Int) : Binary := ⟨n, 0⟩

def ofDecimal (d : Decimal) : Binary :=
  let digits : Int := if d.negative then -d.digits else d.digits
  if 0 ≤ d.exponent then nearest (digits * Text.tenTo d.exponent.toNat) 1
  else nearest digits (Text.tenTo (-d.exponent).toNat)

def floor (b : Binary) : Int := b.mantissa / (twoTo b.scale : Int)

def truncate (b : Binary) : Int := Int.tdiv b.mantissa (twoTo b.scale)

def integer? (b : Binary) : Option Int :=
  if b.mantissa % (twoTo b.scale : Int) = 0 then some b.floor else none

/-- The nearest integer, upwards between two. -/
def round (b : Binary) : Int := (2 * b.mantissa + twoTo b.scale) / (2 * twoTo b.scale : Int)

def same (a b : Binary) : Bool :=
  a.mantissa * (twoTo b.scale : Int) == b.mantissa * (twoTo a.scale : Int)

def exceeds (b : Binary) (n : Nat) : Bool := n * twoTo b.scale < b.mantissa.natAbs

def times (b : Binary) (n : Nat) : Binary := nearest (b.mantissa * n) (twoTo b.scale)

def minus (b : Binary) (n : Int) : Binary := nearest (b.mantissa - n * twoTo b.scale) (twoTo b.scale)

/-- Integers that round to this size or more have no number of double precision. -/
def limit : Nat := twoTo 1024

def holdsInt (n : Int) : Bool := (nearest n 1).mantissa.natAbs < limit

end Binary

end ActionQuery
