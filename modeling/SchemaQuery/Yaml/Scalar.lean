import SchemaQuery.Yaml.Text

namespace SchemaQuery.Yaml

inductive Style where
  | plain
  | quoted
  | literal
  | folded
deriving DecidableEq, Inhabited, Repr

/-- A scalar that is being read: its text reversed, the spaces and the breaks after it, and whether
a break was met since the last visible character. -/
structure ScalarText where
  text : List Char
  spaces : List Char
  breaks : Breaks
  broken : Bool

namespace ScalarText

def empty : ScalarText := ⟨[], [], .none, false⟩

def addSpace (s : ScalarText) (c : Char) : ScalarText :=
  if s.broken then s else { s with spaces := c :: s.spaces }

def addBreak (s : ScalarText) (c : Char) : ScalarText :=
  if s.broken then { s with breaks := { s.breaks with more := c :: s.breaks.more } }
  else ⟨s.text, [], ⟨some c, []⟩, true⟩

def addHiddenBreak (s : ScalarText) : ScalarText :=
  ⟨s.text, [], .none, true⟩

def settle (s : ScalarText) : ScalarText :=
  if s.broken then ⟨s.breaks.fold ++ s.text, [], .none, false⟩
  else ⟨s.spaces ++ s.text, [], .none, false⟩

def addVisible (s : ScalarText) (c : Char) : ScalarText :=
  let s := s.settle
  { s with text := c :: s.text }

def result (s : ScalarText) : String :=
  .ofList s.text.reverse

end ScalarText

def isFlowMark (c : Char) : Bool :=
  c = ',' || c = '[' || c = ']' || c = '\x7b' || c = '\x7d'

/-- Reads a plain scalar. It ends at a colon before a blank, at a hash after one, at a line that is
indented less than `indent`, and in a flow collection at the marks of such collections. -/
def plainScalar (flow : Bool) (indent : Nat) (s : ScalarText) (line column : Nat) (gap : Bool) :
    List Char → Option (ScalarText × Place)
  | [] => some (s, ⟨[], line, column⟩)
  | c :: rest =>
    let here : Place := ⟨c :: rest, line, column⟩
    if isSpace c then
      if s.broken && column < indent && c = '\t' then none
      else plainScalar flow indent (s.addSpace c) line (column + 1) true rest
    else if isBreak c then
      plainScalar flow indent (s.addBreak c) (line + 1) 0 true rest
    else if gap && ((!flow && column < indent) || here.atDocumentMark || c = '#') then
      some (s, here)
    else if flow && c = ':' && (rest.head?.any fun d => isFlowMark d || d = '?') then
      none
    else if (c = ':' && startsBlank rest) || (flow && isFlowMark c) then
      some (s, here)
    else
      plainScalar flow indent (s.addVisible c) line (column + 1) false rest

def singleQuoted (s : ScalarText) (line column : Nat) : List Char → Option (ScalarText × Place)
  | [] => none
  | '\'' :: '\'' :: rest => singleQuoted (s.addVisible '\'') line (column + 2) rest
  | '\'' :: rest => some (s.settle, ⟨rest, line, column + 1⟩)
  | c :: rest =>
    if (⟨c :: rest, line, column⟩ : Place).atDocumentMark then none
    else if isSpace c then singleQuoted (s.addSpace c) line (column + 1) rest
    else if isBreak c then singleQuoted (s.addBreak c) (line + 1) 0 rest
    else singleQuoted (s.addVisible c) line (column + 1) rest

def hexValue? (c : Char) : Option Nat :=
  if c.isDigit then some (c.toNat - '0'.toNat)
  else if 'a' ≤ c ∧ c ≤ 'f' then some (c.toNat - 'a'.toNat + 10)
  else if 'A' ≤ c ∧ c ≤ 'F' then some (c.toNat - 'A'.toNat + 10)
  else none

def hexChar? (digits : List Char) : Option Char := do
  let n ← digits.foldlM (fun n c => (hexValue? c).map fun d => 16 * n + d) 0
  if n.isValidChar then some (Char.ofNat n) else none

def escapes : List (Char × Char) :=
  [('0', '\x00'), ('a', '\x07'), ('b', '\x08'), ('t', '\t'), ('\t', '\t'), ('n', '\n'),
    ('v', '\x0b'), ('f', '\x0c'), ('r', '\r'), ('e', '\x1b'), (' ', ' '), ('"', '"'),
    ('/', '/'), ('\\', '\\'), ('N', '\u0085'), ('_', '\u00a0'), ('L', '\u2028'),
    ('P', '\u2029')]

def escapeDigits (c : Char) : Option Nat :=
  if c = 'x' then some 2 else if c = 'u' then some 4 else if c = 'U' then some 8 else none

/-- Reads the rest of a scalar in double quotes. `skip` characters are left out first. -/
def doubleQuoted (s : ScalarText) (line column skip : Nat) :
    List Char → Option (ScalarText × Place)
  | [] => none
  | c :: rest =>
    if 0 < skip then
      doubleQuoted s line (column + 1) (skip - 1) rest
    else if (⟨c :: rest, line, column⟩ : Place).atDocumentMark then
      none
    else if c = '"' then
      some (s.settle, ⟨rest, line, column + 1⟩)
    else if c = '\\' then
      match rest with
      | [] => none
      | e :: rest =>
        if isBreak e then
          doubleQuoted s.settle.addHiddenBreak (line + 1) 0 0 rest
        else
          match escapeDigits e with
          | some n =>
            match hexChar? (rest.take n) with
            | some c =>
              if rest.length < n then none
              else doubleQuoted (s.addVisible c) line (column + 2) n rest
            | none => none
          | none =>
            match escapes.lookup e with
            | some c => doubleQuoted (s.addVisible c) line (column + 2) 0 rest
            | none => none
    else if isSpace c then
      doubleQuoted (s.addSpace c) line (column + 1) 0 rest
    else if isBreak c then
      doubleQuoted (s.addBreak c) (line + 1) 0 0 rest
    else
      doubleQuoted (s.addVisible c) line (column + 1) 0 rest

inductive Chomping where
  | strip
  | clip
  | keep
deriving DecidableEq, Inhabited, Repr

/-- A block scalar that is being read: its text reversed, the break after its last line, the empty
lines after that (the last first), and whether its last line starts with a space. -/
structure BlockText where
  text : List Char
  lineEnd : Option Char
  emptyLines : List Char
  spaced : Bool

/-- The indentation of a block scalar as far as known: fixed, or the most spaces seen so far before
the first line. -/
inductive BlockIndent where
  | fixed (n : Nat)
  | seen (n : Nat)

def BlockText.startLine (folded : Bool) (b : BlockText) (c : Char) : BlockText :=
  let joins := folded && b.lineEnd == some '\n' && !b.spaced && !isSpace c
  let before :=
    if joins then
      if b.emptyLines.isEmpty then [' '] else []
    else
      b.lineEnd.toList
  ⟨b.emptyLines ++ before ++ b.text, none, [], isSpace c⟩

/-- Reads the lines of a block scalar. `least` is the indentation that it must have; `inLine` says
whether a line with text is being read. -/
def blockLines (folded : Bool) (least : Nat) (indent : BlockIndent) (b : BlockText)
    (inLine : Bool) (line column : Nat) : List Char → Option (BlockText × Place)
  | [] => some (b, ⟨[], line, column⟩)
  | c :: rest =>
    if inLine then
      if isBreak c then
        blockLines folded least indent { b with lineEnd := some c } false (line + 1) 0 rest
      else
        blockLines folded least indent { b with text := c :: b.text } true line (column + 1) rest
    else
      let inside := match indent with
        | .fixed n => column < n
        | .seen _ => true
      if inside && c = ' ' then
        let indent := match indent with
          | .fixed n => .fixed n
          | .seen n => .seen (max n (column + 1))
        blockLines folded least indent b false line (column + 1) rest
      else if inside && c = '\t' then
        none
      else if isBreak c then
        blockLines folded least indent { b with emptyLines := c :: b.emptyLines } false
          (line + 1) 0 rest
      else
        let n := match indent with
          | .fixed n => n
          | .seen n => max n least
        if column = n then
          let b := b.startLine folded c
          blockLines folded least (.fixed n) { b with text := c :: b.text } true line (column + 1)
            rest
        else
          some (b, ⟨c :: rest, line, column⟩)

def BlockText.result (b : BlockText) (chomping : Chomping) : String :=
  let lastBreak := b.lineEnd.toList
  .ofList (match chomping with
    | .strip => b.text
    | .clip => lastBreak ++ b.text
    | .keep => b.emptyLines ++ lastBreak ++ b.text).reverse

/-- Reads the indicators after the mark of a block scalar: how it ends, and its indentation. -/
def blockHeader : List Char → Option (Chomping × Option Nat × List Char)
  | '+' :: rest => (digit rest).map fun (n, rest) => (.keep, n, rest)
  | '-' :: rest => (digit rest).map fun (n, rest) => (.strip, n, rest)
  | rest =>
    (digit rest).map fun (n, rest) =>
      match n, rest with
      | some n, '+' :: rest => (.keep, some n, rest)
      | some n, '-' :: rest => (.strip, some n, rest)
      | n, rest => (.clip, n, rest)
where
  digit : List Char → Option (Option Nat × List Char)
    | c :: rest =>
      if c = '0' then none
      else if c.isDigit then some (some (c.toNat - '0'.toNat), rest)
      else some (none, c :: rest)
    | [] => some (none, [])

def restOfLine (cs : List Char) : Option (List Char) :=
  let cs := cs.dropWhile isSpace
  let cs := match cs with
    | '#' :: rest => rest.dropWhile fun c => !isBreak c
    | cs => cs
  match cs with
  | [] => some []
  | c :: rest => if isBreak c then some rest else none

def blockScalar (folded : Bool) (least line : Nat) (cs : List Char) : Option (String × Place) := do
  let (chomping, indicator, rest) ← blockHeader cs
  let rest ← restOfLine rest
  let indent := match indicator with
    | some n => .fixed (least - 1 + n)
    | none => .seen 0
  let start : BlockText := ⟨[], none, [], false⟩
  let (b, place) ← blockLines folded (max least 1) indent start false (line + 1) 0 rest
  return (b.result chomping, place)

end SchemaQuery.Yaml
