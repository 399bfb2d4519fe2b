import SchemaQuery.Number.Binary64

namespace SchemaQuery

structure Digits where
  significand : Nat
  exponent : Int
deriving DecidableEq, Inhabited, Repr

namespace Digits

def trim (d : Digits) : Digits :=
  if h : d.significand ≠ 0 ∧ d.significand % 10 = 0 then
    trim ⟨d.significand / 10, d.exponent + 1⟩
  else
    d
termination_by d.significand
decreasing_by omega

end Digits

namespace Binary64

/-- A positive magnitude as a multiple of a power of two, with the distance below it to the
interval's end in quarters of that power. The distance above is always two quarters. -/
def decompose (magnitude : Nat) : Nat × Int × Nat :=
  let exponent : Nat := magnitude / Nat.pow 2 52
  let fraction : Nat := magnitude % Nat.pow 2 52
  if exponent = 0 then
    (fraction, -1074, 2)
  else
    (fraction + Nat.pow 2 52, (exponent : Int) - 1075,
      if fraction = 0 ∧ exponent ≠ 1 then 1 else 2)

/-- The place of the first digit of `n / d`: the number is at least `10 ^ place`, and less than ten
times that. -/
def leadingPlace (n d : Nat) : Int :=
  if d ≤ n then
    (Decimal.digitCount (n / d) : Int) - 1
  else
    -(Decimal.digitCount ((d - 1) / n) : Int)

/-- The fewest digits that read back as the magnitude, and of those the nearest to it. -/
def shortest (magnitude : Nat) : Digits :=
  let (m, q, below) := decompose magnitude
  let closed := m % 2 = 0
  let two := q - 2
  let value := 4 * m
  let place := leadingPlace (value * Nat.pow 2 two.toNat) (Nat.pow 2 (-two).toNat)
  let onGrid (digits : Nat) : Option Digits :=
    let k := place - digits
    let up := Nat.pow 2 two.toNat * Nat.pow 10 (-k).toNat
    let down := Nat.pow 2 (-two).toNat * Nat.pow 10 k.toNat
    let readsBack (c : Nat) : Bool :=
      if closed then
        (value - below) * up ≤ c * down && c * down ≤ (value + 2) * up
      else
        (value - below) * up < c * down && c * down < (value + 2) * up
    let floor := value * up / down
    let before := value * up - floor * down
    let after := (floor + 1) * down - value * up
    match readsBack floor, readsBack (floor + 1) with
    | false, false => none
    | true, false => some ⟨floor, k⟩
    | false, true => some ⟨floor + 1, k⟩
    | true, true =>
      if before < after ∨ (before = after ∧ floor % 2 = 0) then
        some ⟨floor, k⟩
      else
        some ⟨floor + 1, k⟩
  (((List.range 17).findSome? onGrid).getD ⟨0, 0⟩).trim

end Binary64

/-- How a number is laid out: positional while the point stands within the given places of the first
digit, else with a power of ten. -/
structure NumberLayout where
  lowestPoint : Int
  highestPoint : Int

namespace NumberLayout

private def zeros (n : Nat) : List Char := List.replicate n '0'

/-- Lays out digits. `point` counts the digits before the decimal point. A positional number has at
least one digit on either side of the point. -/
def digits (layout : NumberLayout) (d : Digits) : List Char :=
  let ds := Nat.toDigits 10 d.significand
  let point : Int := ds.length + d.exponent
  if 0 < point ∧ point ≤ layout.highestPoint then
    let whole := point.toNat
    if ds.length ≤ whole then
      ds ++ zeros (whole - ds.length) ++ ['.', '0']
    else
      ds.take whole ++ '.' :: ds.drop whole
  else if layout.lowestPoint ≤ point ∧ point ≤ 0 then
    '0' :: '.' :: zeros (-point).toNat ++ ds
  else
    let exponent := point - 1
    let sign := if exponent < 0 then '-' else '+'
    let mantissa :=
      match ds with
      | [] => []
      | [d] => [d]
      | d :: rest => d :: '.' :: rest
    mantissa ++ 'e' :: sign :: Nat.toDigits 10 exponent.natAbs

def text (layout : NumberLayout) (x : Binary64) : String :=
  let body :=
    if x.magnitude = 0 then ['0', '.', '0'] else layout.digits (Binary64.shortest x.magnitude)
  .ofList (if x.negative then '-' :: body else body)

end NumberLayout

end SchemaQuery
