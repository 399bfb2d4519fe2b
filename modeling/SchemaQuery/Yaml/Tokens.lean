import SchemaQuery.Yaml.Token

namespace SchemaQuery.Yaml

/-- A token that is a key if a colon follows. -/
structure KeyCandidate where
  index : Nat
  required : Bool
  line : Nat
  column : Nat
  left : Nat
deriving Inhabited

namespace KeyCandidate

/-- Whether a colon can stand on `line` with `left` bytes to the end of it: a key stands on one line
with its colon and is not longer than 1024 bytes. -/
def reaches (k : KeyCandidate) (line left : Nat) : Bool :=
  k.line = line && k.left ≤ left + 1024

end KeyCandidate

structure Scanner where
  tokens : Array Token
  indents : List Nat
  candidate : Option KeyCandidate
  /-- For each open flow collection, the candidate of the collection around it. -/
  outer : List (Option KeyCandidate)
  keyAllowed : Bool
deriving Inhabited

namespace Scanner

def start : Scanner := ⟨#[], [], none, [], true⟩

def inFlow (s : Scanner) : Bool :=
  !s.outer.isEmpty

def leastIndent (s : Scanner) : Nat :=
  match s.indents with
  | [] => 0
  | n :: _ => n + 1

def push (s : Scanner) (t : Token) : Scanner :=
  { s with tokens := s.tokens.push t }

def closeBlocks (column : Nat) (tokens : Array Token) : List Nat → Array Token × List Nat
  | [] => (tokens, [])
  | n :: indents =>
    if column < n then closeBlocks column (tokens.push .blockEnd) indents
    else (tokens, n :: indents)

/-- A new line that starts at `column`. Flow collections do not care for indentation. -/
def dedent (s : Scanner) (column : Nat) : Scanner :=
  if s.inFlow then s
  else
    let (tokens, indents) := closeBlocks column s.tokens s.indents
    { s with tokens, indents }

def dedentAll (s : Scanner) : Scanner :=
  if s.inFlow then s
  else { s with tokens := s.tokens ++ Array.replicate s.indents.length .blockEnd, indents := [] }

/-- Opens a block collection at `column` before the token with the given index, unless one is open
there. -/
def indent (s : Scanner) (column index : Nat) (t : Token) : Scanner :=
  if s.inFlow || column < s.leastIndent then s
  else { s with tokens := s.tokens.insertIdxIfInBounds index t, indents := column :: s.indents }

/-- Gives up the last candidate. Nothing else can stand for a required one. -/
def dropCandidate (s : Scanner) : Option Scanner :=
  if s.candidate.any (·.required) then none else some { s with candidate := none }

def dropStale (s : Scanner) (p : Place) : Option Scanner :=
  let left := addLineBytes 0 p.rest
  let stale (k : KeyCandidate) : Bool := !k.reaches p.line left
  if (s.candidate :: s.outer).any fun k => k.any fun k => stale k && k.required then none
  else
    some { s with
      candidate := s.candidate.filter fun k => !stale k
      outer := s.outer.map fun k => k.filter fun k => !stale k }

def markCandidate (s : Scanner) (p : Place) : Option Scanner :=
  if s.keyAllowed then do
    let s ← s.dropCandidate
    let required := !s.inFlow && s.indents.head? == some p.column
    let left := addLineBytes 0 p.rest
    return { s with candidate := some ⟨s.tokens.size, required, p.line, p.column, left⟩ }
  else
    some s

def openFlow (s : Scanner) (p : Place) (t : Token) : Option Scanner := do
  let s ← s.markCandidate p
  return { s.push t with outer := s.candidate :: s.outer, candidate := none, keyAllowed := true }

def closeFlow (s : Scanner) (t : Token) : Option Scanner := do
  let s ← s.dropCandidate
  let s := s.push t
  match s.outer with
  | [] => return { s with keyAllowed := false }
  | candidate :: outer => return { s with candidate, outer, keyAllowed := false }

def blockEntry (s : Scanner) (p : Place) : Option Scanner := do
  if !s.inFlow && !s.keyAllowed then none
  else
    let s := s.indent p.column s.tokens.size .blockSequenceStart
    let s ← s.dropCandidate
    return { s.push .blockEntry with keyAllowed := true }

def explicitKey (s : Scanner) (p : Place) : Option Scanner := do
  if !s.inFlow && !s.keyAllowed then none
  else
    let s := s.indent p.column s.tokens.size .blockMappingStart
    let s ← s.dropCandidate
    return { s.push .key with keyAllowed := !s.inFlow }

def value (s : Scanner) (p : Place) : Option Scanner :=
  match s.candidate with
  | some k =>
    let s := { s with
      tokens := s.tokens.insertIdxIfInBounds k.index .key
      candidate := none
      keyAllowed := false }
    some ((s.indent k.column k.index .blockMappingStart).push .value)
  | none =>
    if !s.inFlow && !s.keyAllowed then none
    else
      let s := s.indent p.column s.tokens.size .blockMappingStart
      some { s.push .value with keyAllowed := !s.inFlow }

def documentToken (s : Scanner) (t : Token) : Option Scanner := do
  let s ← s.dedentAll.dropCandidate
  return { s.push t with keyAllowed := false }

def nodeToken (s : Scanner) (p : Place) (t : Token) : Option Scanner := do
  let s ← s.markCandidate p
  return { s.push t with keyAllowed := false }

end Scanner

/-- Skips blanks, line breaks and comments, and a byte order mark at the start of a line. Yields
whether a key may start after them: in block style it may on each new line. Where it may, a tab is
no blank. -/
def skipBlanks (flow keyAllowed inComment : Bool) (line column : Nat) : List Char → Bool × Place
  | [] => (keyAllowed, ⟨[], line, column⟩)
  | c :: rest =>
    if isBreak c then skipBlanks flow (keyAllowed || !flow) false (line + 1) 0 rest
    else if inComment || c = '#' then skipBlanks flow keyAllowed true line (column + 1) rest
    else if c = ' ' || (c = '\t' && (flow || !keyAllowed)) || (c = byteOrderMark && column = 0) then
      skipBlanks flow keyAllowed false line (column + 1) rest
    else (keyAllowed, ⟨c :: rest, line, column⟩)

def Place.after (p : Place) (rest : List Char) : Place :=
  ⟨rest, p.line, p.column + (p.rest.length - rest.length)⟩

def reserved : List Char :=
  ['-', '?', ':', ',', '[', ']', '\x7b', '\x7d', '#', '&', '*', '!', '|', '>', '\'', '"', '%', '@',
    '\u0060']

namespace Scanner

def startsPlain (s : Scanner) (c : Char) (rest : List Char) : Bool :=
  (!startsBlank [c] && c ∉ reserved) || (c = '-' && !(rest.head?.any isSpace)) ||
    (!s.inFlow && (c = '?' || c = ':') && !startsBlank rest)

def token (s : Scanner) (p : Place) (c : Char) (rest : List Char) :
    Option (Scanner × Place) :=
  let next := p.advance 1
  let blankNext := startsBlank rest
  if p.column = 0 && c = '%' then do
    let (d, rest) ← directive rest
    let rest ← restOfLine rest
    return (← s.documentToken (.directive d), ⟨rest, p.line + 1, 0⟩)
  else if p.atDocumentMark then do
    let t := if c = '-' then .documentStart else .documentEnd
    return (← s.documentToken t, p.advance 3)
  else if c = '[' then do
    return (← s.openFlow p .flowSequenceStart, next)
  else if c = '\x7b' then do
    return (← s.openFlow p .flowMappingStart, next)
  else if c = ']' then do
    return (← s.closeFlow .flowSequenceEnd, next)
  else if c = '\x7d' then do
    return (← s.closeFlow .flowMappingEnd, next)
  else if c = ',' then do
    let s ← s.dropCandidate
    return ({ s.push .flowEntry with keyAllowed := true }, next)
  else if c = '-' && blankNext then do
    return (← s.blockEntry p, next)
  else if c = '?' && (s.inFlow || blankNext) then do
    return (← s.explicitKey p, next)
  else if c = ':' && (s.inFlow || blankNext) then do
    return (← s.value p, next)
  else if c = '*' then do
    let (name, rest) ← anchorName rest
    return (← s.nodeToken p (.alias name), p.after rest)
  else if c = '&' then do
    let (name, rest) ← anchorName rest
    return (← s.nodeToken p (.anchor name), p.after rest)
  else if c = '!' then do
    let (name, rest) ← tagName rest
    if startsBlank rest || (s.inFlow && rest.head? == some ',') then
      return (← s.nodeToken p (.tag name), p.after rest)
    else none
  else if (c = '|' || c = '>') && !s.inFlow then do
    let s ← s.dropCandidate
    let (text, place) ← blockScalar (c = '>') s.leastIndent p.line rest
    let style := if c = '>' then .folded else .literal
    return ({ s.push (.scalar style text) with keyAllowed := true }, place)
  else if c = '\'' then do
    let (text, place) ← singleQuoted .empty p.line (p.column + 1) rest
    return (← s.nodeToken p (.scalar .quoted text.result), place)
  else if c = '"' then do
    let (text, place) ← doubleQuoted .empty p.line (p.column + 1) 0 rest
    return (← s.nodeToken p (.scalar .quoted text.result), place)
  else if s.startsPlain c rest then do
    let (text, place) ← plainScalar s.inFlow s.leastIndent .empty p.line p.column false p.rest
    let s ← s.nodeToken p (.scalar .plain text.result)
    return ({ s with keyAllowed := text.broken }, place)
  else none

def run (s : Scanner) (p : Place) : Option (Array Token) := do
  let (keyAllowed, here) := skipBlanks s.inFlow s.keyAllowed false p.line p.column p.rest
  let s ← { s with keyAllowed }.dropStale here
  let s := s.dedent here.column
  match here.rest with
  | [] => return (← s.dedentAll.dropCandidate).tokens
  | c :: rest =>
    let (s, next) ← s.token here c rest
    if next.rest.length < p.rest.length then run s next else none
termination_by p.rest.length

end Scanner

def tokens? (text : String) : Option (List Token) :=
  if text.toList.all isAllowed then
    (Scanner.start.run ⟨unifyBreaks text.toList, 0, 0⟩).map Array.toList
  else none

end SchemaQuery.Yaml
