import BoxDescent.Decimal.Binary

/-!
This module contains the choice of decimal digits for a magnitude, in exact arithmetic: a given number of
significant digits, rounded half to even, or the fewest digits that are read back as the same double.
-/

namespace BoxDescent.Decimal

structure Digits where
  significand : Nat
  exponent : Int
  deriving DecidableEq

def digitCount (k : Nat) : Nat := (Nat.toDigits 10 k).length

namespace Digits

def leading (d : Digits) : Int := d.exponent + digitCount d.significand - 1

def trimFrom (fuel : Nat) (d : Digits) : Digits :=
  match fuel with
  | 0 => d
  | fuel + 1 =>
    if d.significand ≠ 0 ∧ d.significand % 10 = 0 then
      trimFrom fuel ⟨d.significand / 10, d.exponent + 1⟩
    else d

def trim (d : Digits) : Digits := d.trimFrom (digitCount d.significand)

end Digits

def leadingPlace (num den : Nat) : Int :=
  let guess : Int := (digitCount num : Int) - digitCount den
  if num * 10 ^ (-guess).toNat ≥ den * 10 ^ guess.toNat then guess else guess - 1

def inUnits (num den : Nat) (place : Int) : Nat × Nat × Nat :=
  let scaledNum := num * 10 ^ (-place).toNat
  let scaledDen := den * 10 ^ place.toNat
  (scaledNum / scaledDen, scaledNum % scaledDen, scaledDen)

def nearestEven (whole remainder divisor : Nat) : Nat :=
  if 2 * remainder < divisor then whole
  else if 2 * remainder > divisor then whole + 1
  else if whole % 2 = 0 then whole else whole + 1

def round (count : Nat) (b : Binary) : Digits :=
  if b.mantissa = 0 then ⟨0, 0⟩
  else
    let place := leadingPlace b.numerator b.denominator - (count - 1 : Nat)
    let (whole, remainder, divisor) := inUnits b.numerator b.denominator place
    ⟨nearestEven whole remainder divisor, place⟩

def readsBack (b : Binary) (d : Digits) : Bool :=
  let (low, high) := b.interval
  let quarter := b.exponent - 2
  let number := d.significand * 10 ^ d.exponent.toNat * 2 ^ (-quarter).toNat
  let unit := 10 ^ (-d.exponent).toNat * 2 ^ quarter.toNat
  if b.isEven then low * unit ≤ number ∧ number ≤ high * unit
  else low * unit < number ∧ number < high * unit

def withDigits? (count : Nat) (b : Binary) : Option Digits :=
  let place := leadingPlace b.numerator b.denominator - (count - 1 : Nat)
  let (whole, remainder, divisor) := inUnits b.numerator b.denominator place
  let nearest := nearestEven whole remainder divisor
  let other := if nearest = whole then whole + 1 else whole
  if readsBack b ⟨nearest, place⟩ then some ⟨nearest, place⟩
  else if readsBack b ⟨other, place⟩ then some ⟨other, place⟩
  else none

/-- The fewest digits that are read back as a magnitude; 17 are always enough. -/
def shortest (b : Binary) : Digits :=
  if b.mantissa = 0 then ⟨0, 0⟩
  else
    match (List.range 17).findSome? fun k => withDigits? (k + 1) b with
    | some d => d.trim
    | none => (round 17 b).trim

end BoxDescent.Decimal
