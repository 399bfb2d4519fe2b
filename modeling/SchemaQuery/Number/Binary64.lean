import SchemaQuery.Number.Decimal

namespace SchemaQuery

/-- A double: its sign, and its exponent and fraction bits read as one number. -/
structure Binary64 where
  negative : Bool
  magnitude : Nat
deriving DecidableEq, Inhabited, Repr

namespace Binary64

def infinity : Nat := 2047 * Nat.pow 2 52

def notANumber : Binary64 := ⟨false, infinity + Nat.pow 2 51⟩

def isNaN (x : Binary64) : Bool :=
  infinity < x.magnitude

/-- Position on the number line; the two zeros share one. -/
def rank (x : Binary64) : Int :=
  if x.negative then -(x.magnitude : Int) else x.magnitude

def lt (x y : Binary64) : Bool :=
  !x.isNaN && !y.isNaN && x.rank < y.rank

def le (x y : Binary64) : Bool :=
  !x.isNaN && !y.isNaN && x.rank ≤ y.rank

/-- Numeric equality: zero equals minus zero, and what is not a number equals nothing. -/
def same (x y : Binary64) : Bool :=
  !x.isNaN && !y.isNaN && x.rank = y.rank

def roundDiv (n d : Nat) : Nat :=
  let quotient := n / d
  let twice := 2 * (n % d)
  if d < twice ∨ (twice = d ∧ quotient % 2 = 1) then quotient + 1 else quotient

/-- The nearest magnitude to `n / d`, a tie going to the even one.

The unit `2 ^ q` is chosen such that the quotient has 53 bits, or is the smallest one there is. -/
def roundRatio (n d : Nat) : Nat :=
  let scaled (q : Int) : Nat × Nat := (n * Nat.pow 2 (-q).toNat, d * Nat.pow 2 q.toNat)
  let low : Int := max (-1074) ((n.log2 : Int) - d.log2 - 53)
  let (a, b) := scaled low
  let q := if a / b < Nat.pow 2 53 then low else low + 1
  let (a, b) := scaled q
  min infinity ((q + 1074).toNat * Nat.pow 2 52 + roundDiv a b)

def ofDecimal (x : Decimal) : Binary64 :=
  let point := (Decimal.digitCount x.significand : Int) + x.exponent
  if x.significand = 0 ∨ point < -330 then
    ⟨x.negative, 0⟩
  else if 310 < point then
    ⟨x.negative, infinity⟩
  else
    ⟨x.negative, roundRatio (x.significand * Nat.pow 10 x.exponent.toNat)
      (Nat.pow 10 (-x.exponent).toNat)⟩

/-- Reads a decimal, or in letters of any case an infinity or `nan`. -/
def parse? (cs : List Char) : Option Binary64 :=
  match Decimal.parse? cs with
  | some x => some (ofDecimal x)
  | none =>
    let (negative, rest) := Decimal.splitSign cs
    let word := String.ofList (rest.map Char.toLower)
    if word = "inf" ∨ word = "infinity" then
      some ⟨negative, infinity⟩
    else if word = "nan" then
      some { notANumber with negative }
    else
      none

end Binary64

end SchemaQuery
