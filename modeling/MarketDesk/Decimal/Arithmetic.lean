import MarketDesk.Decimal.Basic

/-!
Sum, difference and product. Each is the exact result fitted into a decimal (`Decimal.fit?`) and
`none` when no decimal is large enough. A zero operand of a sum is dropped together with its scale;
where both are zero the second one is the sum.
-/

namespace MarketDesk.Decimal

/-- The sum, at the larger of the two scales if it fits there. -/
def add? (a b : Decimal) : Option Decimal :=
  if a.isZero then some b
  else if b.isZero then some a
  else
    let s := max a.scale b.scale
    fit? (a.coefficient * tenTo (s - a.scale) + b.coefficient * tenTo (s - b.scale)) s

/-- The difference, at the larger of the two scales if it fits there. -/
def sub? (a b : Decimal) : Option Decimal :=
  add? a b.opposite

/-- Both factors have magnitudes of at most 32 bits. -/
def bothShort (a b : Decimal) : Bool :=
  decide (a.magnitude < twoTo 32 ∧ b.magnitude < twoTo 32)

/-- The product, at the sum of the scales if it fits there. A zero factor gives a plain zero, and so
do two short factors whose product has more than 47 fraction digits: it is below half a unit of the
last place there is. Other factors give their product a sign that it keeps when it is rounded to
zero. -/
def mul? (a b : Decimal) : Option Decimal :=
  if a.isZero || b.isZero then some zero
  else if bothShort a b then
    if 47 < a.scale + b.scale then some zero
    else fit? (a.coefficient * b.coefficient) (a.scale + b.scale)
  else do
    let p ← fit? (a.coefficient * b.coefficient) (a.scale + b.scale)
    pure (p.withSign (a.negative != b.negative))

end MarketDesk.Decimal
