import BoxDescent.Decimal.Digits

/-!
This module contains the ways to write a number down: which digits are shown, and when they are shown in
scientific form.
-/

namespace BoxDescent.Decimal

inductive DigitChoice where
  | shortest (limit : Nat)
  | general (count : Nat)
  | scientific (count : Nat)

structure Layout where
  digits : DigitChoice
  scientificFrom : Int
  pointZero : Bool

namespace Layout

def plain : Layout := ⟨.shortest 10, 16, true⟩

def general (count : Nat) : Layout := ⟨.general count, count, false⟩

def scientific (count : Nat) : Layout := ⟨.scientific count, 0, false⟩

end Layout

def twoDigits (k : Nat) : String :=
  if k < 10 then "0" ++ toString k else toString k

def exponentText (e : Int) : String :=
  "e" ++ (if e < 0 then "-" else "+") ++ twoDigits e.natAbs

def withPoint (k places : Nat) : String :=
  let digits := Nat.toDigits 10 k
  let digits := List.replicate (places + 1 - digits.length) '0' ++ digits
  let whole := String.ofList (digits.take (digits.length - places))
  if places = 0 then whole else whole ++ "." ++ String.ofList (digits.drop (digits.length - places))

def scientificText (d : Digits) : String :=
  withPoint d.significand (digitCount d.significand - 1) ++ exponentText d.leading

def positionalText (d : Digits) (pointZero : Bool) : String :=
  let text := withPoint (d.significand * 10 ^ d.exponent.toNat) (-d.exponent).toNat
  if pointZero ∧ 0 ≤ d.exponent then text ++ ".0" else text

def chosenDigits (l : Layout) (b : Binary) : Digits :=
  match l.digits with
  | .shortest _ => shortest b
  | .general count => (round count b).trim
  | .scientific count =>
    let d := round count b
    if d.significand = 10 ^ count then ⟨10 ^ (count - 1), d.exponent + 1⟩ else d

def digitsText (l : Layout) (d : Digits) : String :=
  match l.digits with
  | .scientific count =>
    if d.significand = 0 then withPoint 0 (count - 1) ++ exponentText 0 else scientificText d
  | _ =>
    if d.significand = 0 then positionalText ⟨0, 0⟩ l.pointZero
    else if -4 ≤ d.leading ∧ d.leading < l.scientificFrom then positionalText d l.pointZero
    else scientificText d

def signed (negative : Bool) (text : String) : String :=
  if negative then "-" ++ text else text

def valueText (l : Layout) : Value → String
  | .undefined => "nan"
  | .infinite negative => signed negative "inf"
  | .finite negative b => signed negative (digitsText l (chosenDigits l b))

def Digits.toDouble (d : Digits) : Float :=
  if d.exponent < 0 then Float.ofScientific d.significand true d.exponent.natAbs
  else Float.ofScientific d.significand false d.exponent.natAbs

/-- Rounds a double to the nearest one with `count` significant digits, if it needs more. -/
def limited (count : Nat) (x : Float) : Float :=
  match Value.ofDouble x with
  | .finite negative b =>
    if digitCount (shortest b).significand ≤ count then x
    else
      let y := (round count b).toDouble
      if negative then -y else y
  | _ => x

def text (l : Layout) (x : Float) : String :=
  match l.digits with
  | .shortest limit => valueText l (.ofDouble (limited limit x))
  | _ => valueText l (.ofDouble x)

end BoxDescent.Decimal
