namespace SchemaQuery

structure Decimal where
  negative : Bool
  significand : Nat
  exponent : Int
deriving DecidableEq, Inhabited, Repr

namespace Decimal

def digitsValue (digits : List Char) : Nat :=
  digits.foldl (fun n c => 10 * n + (c.toNat - '0'.toNat)) 0

def digitCount (n : Nat) : Nat :=
  (Nat.toDigits 10 n).length

def splitSign : List Char → Bool × List Char
  | '-' :: rest => (true, rest)
  | '+' :: rest => (false, rest)
  | cs => (false, cs)

def parseExponent? : List Char → Option Int
  | [] => some 0
  | e :: rest =>
    let (negative, digits) := splitSign rest
    if (e = 'e' ∨ e = 'E') ∧ digits ≠ [] ∧ digits.all Char.isDigit then
      some (if negative then -(digitsValue digits : Int) else digitsValue digits)
    else
      none

/-- Reads a numeral without its sign. A point may stand before or after all digits, but some
digit there must be. -/
def parseUnsigned? (cs : List Char) : Option (Nat × Int) :=
  let whole := cs.takeWhile Char.isDigit
  let rest := cs.dropWhile Char.isDigit
  let (fraction, rest) :=
    match rest with
    | '.' :: rest => (rest.takeWhile Char.isDigit, rest.dropWhile Char.isDigit)
    | rest => ([], rest)
  if whole = [] ∧ fraction = [] then
    none
  else
    (parseExponent? rest).map fun exponent =>
      (digitsValue (whole ++ fraction), exponent - fraction.length)

def parse? (cs : List Char) : Option Decimal :=
  let (negative, rest) := splitSign cs
  (parseUnsigned? rest).map fun (significand, exponent) => ⟨negative, significand, exponent⟩

end Decimal

end SchemaQuery
