namespace SchemaQuery.Yaml

/-- The rest of a text, with the line and the column where it starts. -/
structure Place where
  rest : List Char
  line : Nat
  column : Nat
deriving Inhabited

def byteOrderMark : Char := '\ufeff'

def isBreak (c : Char) : Bool :=
  c = '\n' || c = '\u2028' || c = '\u2029'

def isSpace (c : Char) : Bool :=
  c = ' ' || c = '\t'

def startsBlank : List Char → Bool
  | [] => true
  | c :: _ => isSpace c || isBreak c

def addLineBytes (n : Nat) : List Char → Nat
  | [] => n
  | c :: rest => if isBreak c then n else addLineBytes (n + c.utf8Size) rest

def isAllowed (c : Char) : Bool :=
  let n := c.toNat
  c = '\t' || c = '\n' || c = '\r' || (0x20 ≤ n && n ≤ 0x7e) || n = 0x85 ||
    (0xa0 ≤ n && n ≤ 0xfffd) || 0x10000 ≤ n

/-- Makes every way to end a line but two a line feed. -/
def unifyBreaks : List Char → List Char
  | [] => []
  | '\r' :: '\n' :: rest => '\n' :: unifyBreaks rest
  | '\r' :: rest => '\n' :: unifyBreaks rest
  | '\u0085' :: rest => '\n' :: unifyBreaks rest
  | c :: rest => c :: unifyBreaks rest

namespace Place

def advance (p : Place) (n : Nat) : Place :=
  ⟨p.rest.drop n, p.line, p.column + n⟩

def atDocumentMark (p : Place) : Bool :=
  p.column = 0 &&
    ((['-', '-', '-'].isPrefixOf p.rest || ['.', '.', '.'].isPrefixOf p.rest) &&
      startsBlank (p.rest.drop 3))

end Place

/-- Line breaks between parts of a text that is written on several lines: the first one, if it
counts, and those after it, the last first. -/
structure Breaks where
  first : Option Char
  more : List Char

namespace Breaks

def none : Breaks := ⟨.none, []⟩

/-- What the breaks stand for: a single line feed for a blank, more of them for all but the first.
The result is reversed. -/
def fold (b : Breaks) : List Char :=
  match b.first, b.more with
  | some '\n', [] => [' ']
  | some '\n', more => more
  | some c, more => more ++ [c]
  | .none, more => more

end Breaks

end SchemaQuery.Yaml
