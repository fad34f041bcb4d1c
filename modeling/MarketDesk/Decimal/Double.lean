import MarketDesk.Decimal.Basic

/-!
The double next to a decimal, as it is used for shares of a whole. The whole part and the fraction
are converted on their own and the sum is rounded again at the decimal's scale, which removes the
noise of the addition.
-/

namespace MarketDesk.Decimal

/-- The power `b ^ n` by repeated squaring, one factor for each bit of `n`. -/
def floatPower (r b : Float) (n : Nat) : Float :=
  let r' := if n % 2 = 1 then r * b else r
  if n / 2 = 0 then r' else floatPower r' (b * b) (n / 2)
termination_by n

/-- A decimal as a double. -/
def toFloat (a : Decimal) : Float :=
  let m := a.magnitude
  let p := tenTo a.scale
  let whole := Float.ofNat (m / p)
  let part := Float.ofNat (m % p) / Float.ofNat p
  let size :=
    if part == 0.0 then whole
    else
      let unit := floatPower 1.0 10.0 a.scale
      ((whole + part) * unit).round / unit
  if a.isNegative then -size else size

end MarketDesk.Decimal
