/-!
This module contains doubles as what they denote: a sign and the exact product of a whole number and a
power of two, or an infinity, or no number at all.
-/

namespace BoxDescent.Decimal

scoped instance instPow : Pow Nat Nat := instPowNat

/-- The magnitude `mantissa * 2 ^ exponent`. -/
structure Binary where
  mantissa : Nat
  exponent : Int
  deriving DecidableEq

inductive Value where
  | undefined
  | infinite (negative : Bool)
  | finite (negative : Bool) (magnitude : Binary)
  deriving DecidableEq

def mantissaBits : Nat := 52

def exponentBits : Nat := 11

def signPlace : Nat := 63

def minExponent : Int := -1074

def Value.ofBits (bits : Nat) : Value :=
  let negative := bits / 2 ^ signPlace % 2 == 1
  let biased : Nat := bits / 2 ^ mantissaBits % 2 ^ exponentBits
  let fraction : Nat := bits % 2 ^ mantissaBits
  if biased = 2047 then
    if fraction = 0 then .infinite negative else .undefined
  else if biased = 0 then .finite negative ⟨fraction, minExponent⟩
  else .finite negative ⟨2 ^ mantissaBits + fraction, minExponent + biased - 1⟩

def Value.ofDouble (x : Float) : Value :=
  .ofBits x.toBits.toNat

namespace Binary

def numerator (b : Binary) : Nat := b.mantissa * 2 ^ b.exponent.toNat

def denominator (b : Binary) : Nat := 2 ^ (-b.exponent).toNat

theorem denominator_pos (b : Binary) : 0 < b.denominator :=
  Nat.pow_pos (by decide)

def interval (b : Binary) : Nat × Nat :=
  let below := if b.mantissa = 2 ^ mantissaBits ∧ b.exponent > minExponent then 1 else 2
  (4 * b.mantissa - below, 4 * b.mantissa + 2)

def isEven (b : Binary) : Bool := b.mantissa % 2 = 0

end Binary

end BoxDescent.Decimal
