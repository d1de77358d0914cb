import Bindery.Json.Fault

namespace Bindery.Json

/-! Number literals. A literal without fraction and exponent is an integer as long as it fits into
sixty-four bits; every other one is a floating-point number. -/

inductive Number
  | natural (value : Nat)
  | negative (value : Int)
  | floating (value : Float)

def Number.found : Number → Found
  | .natural value => .integer value
  | .negative value => .integer value
  | .floating value => .floating value

def digitValue (c : Char) : Nat :=
  c.toNat - '0'.toNat

/-- The number `significand * 10 ^ exponent`. -/
structure Magnitude where
  significand : Nat
  exponent : Int

def maxSignificand : Nat := UInt64.size - 1

/-- Digits before the point. Those that no longer fit only count for the exponent. -/
def Magnitude.ofDigits (significand : Nat) : List Char → Magnitude
  | [] => ⟨significand, 0⟩
  | c :: digits =>
      let next := 10 * significand + digitValue c
      if next ≤ maxSignificand then Magnitude.ofDigits next digits
      else ⟨significand, digits.length + 1⟩

/-- Digits behind the point. Those that no longer fit are dropped. -/
def Magnitude.addFraction (magnitude : Magnitude) : List Char → Magnitude
  | [] => magnitude
  | c :: digits =>
      let next := 10 * magnitude.significand + digitValue c
      if next ≤ maxSignificand then
        Magnitude.addFraction ⟨next, magnitude.exponent - 1⟩ digits
      else magnitude

def powerOfTen (power : Nat) : Float :=
  Float.ofScientific 1 false power

/-- The largest power of ten that is a floating-point number. -/
def maxPower : Nat := 308

def divideByPower (value : Float) (power : Nat) : Float :=
  if power ≤ maxPower then value / powerOfTen power
  else if value == 0 then value
  else divideByPower (value / powerOfTen maxPower) (power - maxPower)
  termination_by power
  decreasing_by
    simp only [maxPower] at *
    omega

/-- Nothing for a number beyond the largest one. Each step rounds. -/
def Magnitude.float? (magnitude : Magnitude) : Option Float :=
  let value := magnitude.significand.toUInt64.toFloat
  if magnitude.exponent < 0 then some (divideByPower value magnitude.exponent.natAbs)
  else if magnitude.exponent.toNat ≤ maxPower then
    let scaled := value * powerOfTen magnitude.exponent.toNat
    if scaled.isInf then none else some scaled
  else if value == 0 then some value
  else none

def signed (isNegative : Bool) (value : Float) : Float :=
  if isNegative then -value else value

/-- Minus zero, and what lies below the least integer of sixty-four bits, is floating. -/
def Number.ofInteger (isNegative : Bool) (significand : Nat) : Number :=
  if !isNegative then .natural significand
  else if significand = 0 || UInt64.size / 2 < significand then
    .floating (-significand.toUInt64.toFloat)
  else .negative (-significand)

def maxExponent : Nat := UInt32.size / 2 - 1

/-- The digits behind the one at which the exponent grows too large are an error's content. -/
def exponentOf (value : Nat) : List Char → Except (List Char) Nat
  | [] => .ok value
  | c :: digits =>
      let next := 10 * value + digitValue c
      if next ≤ maxExponent then exponentOf next digits else .error digits

abbrev Reader (α : Type) := List Char → Except Fault (α × List Char)

/-- The rest of a literal whose digits are read: only the value has to be found. -/
def readFloat (isNegative : Bool) (magnitude : Magnitude) : Reader Number := fun text =>
  match magnitude.float? with
  | some value => .ok (.floating (signed isNegative value), text)
  | none => .error (faultBefore .numberOutOfRange text)

/-- The text behind an optional sign, and whether the sign is a minus. -/
def exponentSign : List Char → Bool × List Char
  | '+' :: text => (false, text)
  | '-' :: text => (true, text)
  | text => (false, text)

/-- Reads behind the `e`. -/
def readExponent (isNegative : Bool) (magnitude : Magnitude) : Reader Number := fun text =>
  let (downward, text) := exponentSign text
  match text.takeWhile Char.isDigit with
  | [] =>
      if text.isEmpty then .error (faultBefore .endInValue text)
      else .error (faultAt .badNumber text)
  | digits =>
      let rest := text.dropWhile Char.isDigit
      match exponentOf 0 digits with
      | .ok exponent =>
          let exponent : Int := if downward then -exponent else exponent
          readFloat isNegative ⟨magnitude.significand, magnitude.exponent + exponent⟩ rest
      | .error unread =>
          if magnitude.significand ≠ 0 ∧ !downward then
            .error (faultBefore .numberOutOfRange (unread ++ rest))
          else .ok (.floating (signed isNegative 0), rest)

/-- Reads behind the point. -/
def readFraction (isNegative : Bool) (magnitude : Magnitude) : Reader Number := fun text =>
  match text.takeWhile Char.isDigit with
  | [] => .error (faultAt (if text.isEmpty then .endInValue else .badNumber) text)
  | digits =>
      let magnitude := magnitude.addFraction digits
      match text.dropWhile Char.isDigit with
      | 'e' :: rest | 'E' :: rest => readExponent isNegative magnitude rest
      | rest => readFloat isNegative magnitude rest

/-- Reads behind the digits in front of the point. -/
def readNumberEnd (isNegative : Bool) (magnitude : Magnitude) : Reader Number
  | '.' :: text => readFraction isNegative magnitude text
  | 'e' :: text | 'E' :: text => readExponent isNegative magnitude text
  | text =>
      if magnitude.exponent = 0 then
        .ok (Number.ofInteger isNegative magnitude.significand, text)
      else readFloat isNegative magnitude text

/-- A zero stands alone in front of the point. -/
def readUnsigned (isNegative : Bool) : Reader Number
  | [] => .error (faultBefore .endInValue [])
  | c :: text =>
      if !c.isDigit then .error (faultAt .badNumber (c :: text))
      else if c = '0' then
        if (text.head?.map Char.isDigit).getD false then .error (faultAt .badNumber text)
        else readNumberEnd isNegative ⟨0, 0⟩ text
      else
        readNumberEnd isNegative
          (Magnitude.ofDigits (digitValue c) (text.takeWhile Char.isDigit))
          (text.dropWhile Char.isDigit)

def readNumber : Reader Number
  | '-' :: text => readUnsigned true text
  | text => readUnsigned false text

def skipDigits (text : List Char) : Except Fault (List Char) :=
  if (text.head?.map Char.isDigit).getD false then .ok (text.dropWhile Char.isDigit)
  else .error (faultAt .badNumber text)

def skipExponent : List Char → Except Fault (List Char)
  | 'e' :: text | 'E' :: text => skipDigits (exponentSign text).2
  | text => .ok text

def skipFraction : List Char → Except Fault (List Char)
  | '.' :: text => do skipExponent (← skipDigits text)
  | text => skipExponent text

def skipNumber (text : List Char) : Except Fault (List Char) :=
  let unsigned :=
    match text with
    | '-' :: text => text
    | text => text
  match unsigned with
  | '0' :: rest =>
      if (rest.head?.map Char.isDigit).getD false then .error (faultAt .badNumber rest)
      else skipFraction rest
  | text => do skipFraction (← skipDigits text)

end Bindery.Json
