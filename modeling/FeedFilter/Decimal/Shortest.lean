namespace FeedFilter.Decimal

-- The numbers that binary rounding cannot tell from `middle * 2 ^ exponent`: those between `low`
-- and `high` at the same scale, with the two ends exactly if `closed`.
structure Interval where
  low : Nat
  middle : Nat
  high : Nat
  exponent : Int
  closed : Bool

-- A decimal number `digits * 10 ^ exponent`.
structure Scaled where
  digits : Nat
  exponent : Int
deriving DecidableEq, Repr

-- The interval of the finite float with the given bits, at a quarter of its unit. A float whose
-- mantissa is a power of two has a neighbour below at half the distance of the one above. The
-- ends round to the even mantissa.
def Interval.ofBits (bits : Nat) : Interval :=
  let fraction := bits % Nat.pow 2 52
  let biased := bits / Nat.pow 2 52 % Nat.pow 2 11
  let mantissa := if biased = 0 then fraction else fraction + Nat.pow 2 52
  let gap := if fraction = 0 && 1 < biased then 1 else 2
  { low := 4 * mantissa - gap
    middle := 4 * mantissa
    high := 4 * mantissa + 2
    exponent := (max biased 1 : Nat) - 1077
    closed := mantissa % 2 = 0 }

-- The multiple of `10 ^ grid` in the interval that lies nearest to its middle, if there is one.
-- Only the two neighbours of the middle have to be tried; of two equally near ones the even wins.
def Interval.onGrid (interval : Interval) (grid : Int) : Option Nat :=
  let num := Nat.pow 2 interval.exponent.toNat * Nat.pow 10 (-grid).toNat
  let den := Nat.pow 2 (-interval.exponent).toNat * Nat.pow 10 grid.toNat
  let below := interval.middle * num / den
  let inside := fun (point : Nat) =>
    let place := point * den
    if interval.closed then
      interval.low * num ≤ place && place ≤ interval.high * num
    else
      interval.low * num < place && place < interval.high * num
  let twice := 2 * (interval.middle * num - below * den)
  match inside below, inside (below + 1) with
  | true, true =>
    if twice < den || (twice = den && below % 2 = 0) then some below else some (below + 1)
  | true, false => some below
  | false, true => some (below + 1)
  | false, false => none

-- The powers of ten that floats are written in, the coarsest first. The last is finer than the
-- distance of any two floats, so that every interval meets its grid.
def grids : List Int :=
  (List.range 634).map fun (step : Nat) => 309 - (step : Int)

-- The decimal with the fewest digits that still reads back as the float with the given bits,
-- and the nearest to it of those. A coarser grid has fewer digits, so the first hit is it.
def shortest (bits : Nat) : Scaled :=
  let interval := Interval.ofBits bits
  (grids.findSome? fun grid => (interval.onGrid grid).map (Scaled.mk · grid)).getD ⟨0, 0⟩

-- One tenth, the least positive float and the greatest finite one.
example : shortest 0x3FB999999999999A = ⟨1, -1⟩ := by decide +kernel

example : shortest 1 = ⟨5, -324⟩ := by decide +kernel

example : shortest 0x7FEFFFFFFFFFFFFF = ⟨17976931348623157, 292⟩ := by decide +kernel

end FeedFilter.Decimal
