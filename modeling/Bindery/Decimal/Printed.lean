import Bindery.Decimal.Shortest

namespace Bindery.Decimal

/-! Floating-point numbers as text: the fewest digits that read back, positional between a hundred
thousandth and ten to the sixteenth and otherwise with a signed power of ten. -/

def zeros (count : Nat) : List Char :=
  List.replicate count '0'

def positional (digits : List Char) (point : Int) : List Char :=
  if point ≤ 0 then ['0', '.'] ++ zeros (-point).toNat ++ digits
  else if digits.length ≤ point.toNat then
    digits ++ zeros (point.toNat - digits.length) ++ ['.', '0']
  else digits.take point.toNat ++ '.' :: digits.drop point.toNat

def scientific (digits : List Char) (power : Int) : List Char :=
  let mantissa :=
    match digits with
    | first :: second :: others => first :: '.' :: second :: others
    | digits => digits
  mantissa ++ ['e', if power < 0 then '-' else '+'] ++ Nat.toDigits 10 power.natAbs

def Scaled.text (number : Scaled) : List Char :=
  let digits := Nat.toDigits 10 number.digits
  let power := number.exponent + digits.length - 1
  if -5 ≤ power ∧ power ≤ 15 then positional digits (power + 1) else scientific digits power

def floatText (number : Float) : String :=
  let bits := number.toBits
  let binary := Binary.ofBits bits
  let sign := if bits.toNat < UInt64.size / 2 then [] else ['-']
  let text := if binary.significand = 0 then ['0', '.', '0'] else binary.shortest.text
  String.ofList (sign ++ text)

end Bindery.Decimal
