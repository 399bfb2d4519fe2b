import SchemaQuery.Text.Character

/-!
Lower case of a whole text.

Every character has its own lower case but two: a capital I with a dot becomes an i and a combining
dot, and a capital sigma at the end of a word becomes a final sigma.
-/
namespace SchemaQuery

namespace Lowercase

def meetsCased (cs : List Char) : Bool :=
  match cs.dropWhile CaseTable.isIgnorable with
  | [] => false
  | c :: _ => CaseTable.isCased c

/-- The lower case of one character between the reversed text before it and the text after it. -/
def lowerAt (before : List Char) (c : Char) (after : List Char) : List Char :=
  if c = 'Σ' then
    if meetsCased before && !meetsCased after then ['ς'] else ['σ']
  else if c = 'İ' then
    ['i', '\u0307']
  else if c.toNat < 128 then
    [c.toLower]
  else
    [CaseTable.lower c]

def lowerFrom (before : List Char) : List Char → List Char
  | [] => []
  | c :: rest => lowerAt before c rest ++ lowerFrom (c :: before) rest

end Lowercase

def lowercase (cs : List Char) : List Char :=
  Lowercase.lowerFrom [] cs

end SchemaQuery
