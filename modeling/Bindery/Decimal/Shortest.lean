namespace Bindery.Decimal

/-! The shortest decimal that reads back as a given binary number. The reals that round to
`significand * 2 ^ exponent` form an interval; of all powers of ten the coarsest one with a multiple
in that interval gives the fewest digits. -/

structure Binary where
  significand : Nat
  exponent : Int
  /-- Whether the next smaller number is only half as far away as the next larger one. -/
  atPowerOfTwo : Bool

structure Scaled where
  digits : Nat
  exponent : Int

/-- The leading bit of a significand, which is not stored. -/
def hiddenBit : Nat := 1 <<< 52

def Binary.ofBits (bits : UInt64) : Binary :=
  let fraction : Nat := bits.toNat % hiddenBit
  let power : Nat := bits.toNat / hiddenBit % 2048
  if power = 0 then ⟨fraction, -1074, false⟩
  else ⟨hiddenBit + fraction, (power : Int) - 1075, fraction == 0 && 1 < power⟩

/-- The nearest multiple of `10 ^ power` in the interval, counted in units of `10 ^ power`. -/
def Binary.onGrid? (number : Binary) (power : Int) : Option Nat :=
  -- A quarter of the last place is `2 ^ (exponent - 2)`.
  let quarter := number.exponent - 2
  let scale := Nat.pow 10 (-power).toNat <<< quarter.toNat
  let unit := Nat.pow 10 power.toNat <<< (-quarter).toNat
  let value := 4 * number.significand * scale
  let low := value - (if number.atPowerOfTwo then 1 else 2) * scale
  let high := value + 2 * scale
  let closed := number.significand % 2 == 0
  let inside (count : Nat) : Bool :=
    if closed then low ≤ count * unit && count * unit ≤ high
    else low < count * unit && count * unit < high
  let below := value / unit
  let above := below + 1
  match inside below, inside above with
  | true, true =>
      let toBelow := value - below * unit
      let toAbove := above * unit - value
      if toBelow < toAbove || toBelow = toAbove && below % 2 = 0 then some below else some above
  | true, false => some below
  | false, true => some above
  | false, false => none

/-- No binary number is larger than `10 ^ 309`, and all of them are multiples of `10 ^ -1074`. -/
def Binary.shortest (number : Binary) : Scaled :=
  let grids := (List.range 1400).map fun step : Nat => (309 : Int) - step
  let found := grids.findSome? fun power => (number.onGrid? power).map (Scaled.mk · power)
  found.getD ⟨0, 0⟩

end Bindery.Decimal
