import MarketDesk.Decimal.Rounding
import MarketDesk.Powers
import MarketDesk.Text.Digits

/-!
The shortest decimal that reads back as a given double. A finite double stands for all reals that
round to it; the digits are those of the shortest decimal among them, and of several of that length
the one nearest to the double. `FloatStyle` says how digits are laid out.
-/

namespace MarketDesk.Text

/-- A finite non-negative double, `significand * 2 ^ exponent`. -/
structure Binary where
  significand : Nat
  exponent : Int
  /-- The next smaller double is only half as far away as the next larger one. -/
  narrowBelow : Bool
deriving DecidableEq

/-- The absolute value of a finite double, from its bits. -/
def Binary.ofBits (bits : UInt64) : Binary :=
  let e : Nat := bits.toNat / twoTo 52 % twoTo 11
  let f : Nat := bits.toNat % twoTo 52
  if e = 0 then ⟨f, -1074, false⟩
  else ⟨twoTo 52 + f, (e : Int) - 1075, decide (f = 0 ∧ 1 < e)⟩

/-- `digits * 10 ^ exponent`. -/
structure Scientific where
  digits : Nat
  exponent : Int
deriving DecidableEq

/-- Compares `a * 10 ^ i` with `n * 2 ^ j`. -/
def compareScaled (a : Nat) (i : Int) (n : Nat) (j : Int) : Ordering :=
  compare (a * tenTo i.toNat * twoTo (-j).toNat) (n * twoTo j.toNat * tenTo (-i).toNat)

/-- The decimal rounds to the double: it lies between the midpoints to the double's neighbours, or
on one of them if the significand is even. -/
def Binary.standsFor (x : Binary) (d : Scientific) : Bool :=
  let below := if x.narrowBelow then 4 * x.significand - 1 else 4 * x.significand - 2
  let above := 4 * x.significand + 2
  let closed := x.significand % 2 == 0
  let low := compareScaled d.digits d.exponent below (x.exponent - 2)
  let high := compareScaled d.digits d.exponent above (x.exponent - 2)
  (low == .gt || (closed && low == .eq)) && (high == .lt || (closed && high == .eq))

/-- The double in units of `10 ^ i`, rounded down. -/
def Binary.floorAt (x : Binary) (i : Int) : Nat :=
  (x.significand * twoTo x.exponent.toNat * tenTo (-i).toNat) /
    (twoTo (-x.exponent).toNat * tenTo i.toNat)

/-- Of the two multiples of `10 ^ i` around the double, the nearer one that rounds to it. -/
def Binary.nearestAt (tie : Tie) (x : Binary) (i : Int) : Option Scientific :=
  let a := x.floorAt i
  let low : Scientific := ⟨a, i⟩
  let high : Scientific := ⟨a + 1, i⟩
  match x.standsFor low, x.standsFor high with
  | true, false => some low
  | false, true => some high
  | false, false => none
  | true, true =>
    match compareScaled (2 * a + 1) i (2 * x.significand) x.exponent with
    | .lt => some high
    | .gt => some low
    | .eq => if tie = .toEven ∧ a % 2 = 0 then some low else some high

/-- The least `k` with the double below `10 ^ k`, found upwards from `k` within `fuel` steps. -/
def Binary.magnitudeFrom (x : Binary) : Nat → Int → Int
  | 0, k => k
  | fuel + 1, k =>
    if compareScaled 1 k x.significand x.exponent == .gt then k else magnitudeFrom x fuel (k + 1)

/-- The least `k` with the double below `10 ^ k`. -/
def Binary.magnitude (x : Binary) : Int :=
  let bits : Int := (Nat.log2 x.significand : Int) + x.exponent
  magnitudeFrom x 4 (bits * 30103 / 100000 - 1)

/-- Digits without trailing zeros. -/
def Scientific.strip : Nat → Scientific → Scientific
  | 0, d => d
  | fuel + 1, d =>
    if d.digits % 10 = 0 ∧ d.digits ≠ 0 then strip fuel ⟨d.digits / 10, d.exponent + 1⟩ else d

/-- The shortest decimal for a positive double; seventeen digits are always enough. -/
def Binary.shortest (tie : Tie) (x : Binary) : Scientific :=
  let k := x.magnitude
  match (List.range 17).findSome? fun (n : Nat) => x.nearestAt tie (k - ((n + 1 : Nat) : Int)) with
  | some d => d.strip 20
  | none => ⟨x.floorAt (k - 17), k - 17⟩

/-- How a double is written. -/
structure FloatStyle where
  /-- Which of two equally near candidates is taken. -/
  tie : Tie
  /-- The exponents of the first digit that are written out as a plain row of digits; outside them
  an exponent is written. -/
  plain : Option (Int × Int)
  /-- Whole numbers get `.0`. -/
  pointZero : Bool

/-- All doubles as plain rows of digits. -/
def FloatStyle.positional : FloatStyle := ⟨.awayFromZero, none, false⟩

/-- As `positional`, and every number shows a point. -/
def FloatStyle.pointed : FloatStyle := ⟨.awayFromZero, none, true⟩

/-- Plain from `0.00001` up to sixteen digits before the point, otherwise with an exponent of at
least two digits and its sign. -/
def FloatStyle.scientific : FloatStyle := ⟨.toEven, some (-5, 15), true⟩

/-- Lays out `ds * 10 ^ e` as a plain row of digits. -/
def layoutPlain (pointZero : Bool) (ds : List Char) (e : Int) : List Char :=
  if 0 ≤ e then
    ds ++ List.replicate e.toNat '0' ++ (if pointZero then ['.', '0'] else [])
  else
    let places := (-e).toNat
    if places < ds.length then
      ds.take (ds.length - places) ++ '.' :: ds.drop (ds.length - places)
    else '0' :: '.' :: (List.replicate (places - ds.length) '0' ++ ds)

/-- Lays out digits with one of them before the point and the exponent of that digit behind. -/
def layoutScientific (ds : List Char) (lead : Int) : List Char :=
  let mantissa := match ds with
    | d :: e :: rest => d :: '.' :: e :: rest
    | _ => ds
  mantissa ++ 'e' :: (if lead < 0 then '-' else '+') :: padded '0' 2 lead.natAbs

/-- Lays out the decimal `d * 10 ^ e` of a double. -/
def FloatStyle.layout (style : FloatStyle) (d : Scientific) : List Char :=
  let ds := digits d.digits
  let lead := d.exponent + ds.length - 1
  match style.plain with
  | none => layoutPlain style.pointZero ds d.exponent
  | some (low, high) =>
    if low ≤ lead ∧ lead ≤ high then layoutPlain style.pointZero ds d.exponent
    else layoutScientific ds lead

/-- The text of a double. -/
def FloatStyle.text (style : FloatStyle) (x : Float) : String :=
  if x.isNaN then "NaN"
  else
    let sign := if x.toBits.toNat < twoTo 63 then "" else "-"
    if x.isInf then sign ++ "inf"
    else
      let b := Binary.ofBits x.toBits
      let d := if b.significand = 0 then ⟨0, 0⟩ else b.shortest style.tie
      sign ++ String.ofList (style.layout d)

end MarketDesk.Text
