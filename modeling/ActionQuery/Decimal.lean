import ActionQuery.Text.Blank
import ActionQuery.Text.Digits

namespace ActionQuery

/-- A decimal number: `digits` with the point moved `exponent` places to the right. Zero has a sign,
too. -/
structure Decimal where
  negative : Bool
  digits : Nat
  exponent : Int
  deriving DecidableEq, Repr

namespace Decimal

/-- Reads an exponent with its mark; no text is the exponent zero. -/
def readExponent? (t : Text) : Option Int :=
  match t with
  | [] => some 0
  | mark :: rest => if mark = 'e' ∨ mark = 'E' then Text.readSigned? rest else none

/-- Reads digits with a point before, among or behind them, and an exponent; point and exponent may
be left out. -/
def read? (t : Text) : Option Decimal :=
  let (negative, number) := Text.readSign t
  let whole := number.takeWhile Char.isDigit
  let (fraction, rest) :=
    match number.dropWhile Char.isDigit with
    | '.' :: rest => (rest.takeWhile Char.isDigit, rest.dropWhile Char.isDigit)
    | rest => ([], rest)
  let digits := whole ++ fraction
  if digits = [] then none
  else (readExponent? rest).map fun exponent =>
    ⟨negative, Text.digitsValue digits, exponent - fraction.length⟩

/-- The place of the first digit, counted from the last one before the point. -/
def place (d : Decimal) : Int :=
  if d.digits = 0 then 0 else (Text.ofNat d.digits).length - 1 + d.exponent

def significant (d : Decimal) : Text :=
  if d.digits = 0 then ['0'] else Text.trimRightWhile (· == '0') (Text.ofNat d.digits)

/-- Digits with a point behind the first `whole` of them, and at least one digit on either side. -/
def positional (digits : Text) (whole : Int) : Text :=
  if whole ≤ 0 then "0." ++ List.replicate (-whole).toNat '0' ++ digits
  else
    let fraction := digits.drop whole.toNat
    digits.take whole.toNat ++ List.replicate (whole.toNat - digits.length) '0' ++ ['.'] ++
      (if fraction.isEmpty then ['0'] else fraction)

/-- Digits with a point behind the first, and the place of that one as an exponent. -/
def scientific (digits : Text) (place : Int) : Text :=
  let fraction := digits.drop 1
  digits.take 1 ++ (if fraction.isEmpty then [] else '.' :: fraction) ++
    ['e', if place < 0 then '-' else '+'] ++ Text.padded 2 place.natAbs

/-- First digits at this place and up to `plainBelow` are written without an exponent. -/
def plainFrom : Int := -4

def plainBelow : Int := 16

def text (d : Decimal) : Text :=
  let size :=
    if plainFrom ≤ d.place ∧ d.place < plainBelow then positional d.significant (d.place + 1)
    else scientific d.significant d.place
  if d.negative then '-' :: size else size

end Decimal

end ActionQuery
