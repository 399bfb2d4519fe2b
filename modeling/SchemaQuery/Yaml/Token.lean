import SchemaQuery.Yaml.Scalar

namespace SchemaQuery.Yaml

structure Tag where
  octets : List UInt8
deriving DecidableEq, Inhabited, Repr

namespace Tag

def ofString (s : String) : Tag :=
  ⟨s.toUTF8.toList⟩

/-- The tag with these octets. What follows a zero octet does not count. -/
def ofOctets (octets : List UInt8) : Tag :=
  ⟨octets.takeWhile (· ≠ 0)⟩

def append (a b : Tag) : Tag :=
  ⟨a.octets ++ b.octets⟩

def isEmpty (t : Tag) : Bool :=
  t.octets.isEmpty

def text? (t : Tag) : Option String :=
  String.fromUTF8? (.mk t.octets.toArray)

end Tag

/-- A tag as it is written: the handle that stands for its first part, if there is one, and the
rest. -/
structure TagName where
  handle : String
  suffix : Tag
deriving DecidableEq, Repr

inductive Directive where
  | version (major minor : Nat)
  | tagHandle (handle : String) (start : Tag)
deriving DecidableEq, Repr

inductive Token where
  | directive (d : Directive)
  | documentStart
  | documentEnd
  | blockSequenceStart
  | blockMappingStart
  | blockEnd
  | flowSequenceStart
  | flowSequenceEnd
  | flowMappingStart
  | flowMappingEnd
  | blockEntry
  | flowEntry
  | key
  | value
  | alias (name : String)
  | anchor (name : String)
  | tag (name : TagName)
  | scalar (style : Style) (text : String)
deriving DecidableEq, Inhabited, Repr

def isWordChar (c : Char) : Bool :=
  c.isAlphanum || c = '_' || c = '-'

def nameEnds : List Char := ['?', ':', ',', ']', '\x7d', '%', '@', '\u0060']

def anchorName (cs : List Char) : Option (String × List Char) :=
  let name := cs.takeWhile isWordChar
  let rest := cs.dropWhile isWordChar
  if name.isEmpty then none
  else if startsBlank rest || (rest.head?.any fun c => c ∈ nameEnds) then
    some (.ofList name, rest)
  else none

/-- Characters that a tag may hold unescaped. Those of flow collections may stand only in a tag
between angle brackets. -/
def isTagChar (bracketed : Bool) (c : Char) : Bool :=
  isWordChar c ||
    c ∈ [';', '/', '?', ':', '@', '&', '=', '+', '$', '.', '!', '~', '*', '\'', '(', ')'] ||
    (bracketed && c ∈ [',', '[', ']'])

def escapedOctet : List Char → Option (UInt8 × List Char)
  | '%' :: a :: b :: rest => do
    let high ← hexValue? a
    let low ← hexValue? b
    return (.ofNat (16 * high + low), rest)
  | _ => none

def escapedTail : Nat → List Char → Option (List UInt8 × List Char)
  | 0, cs => some ([], cs)
  | n + 1, cs => do
    let (octet, rest) ← escapedOctet cs
    if octet / 64 = 2 then
      (escapedTail n rest).map fun (octets, rest) => (octet :: octets, rest)
    else
      none

/-- Reads the octets of a character, all of them escaped. The first one says how many follow. It
does not matter which character they stand for, if any. -/
def escapedChar (cs : List Char) : Option (List UInt8 × List Char) := do
  let (octet, rest) ← escapedOctet cs
  let more ←
    if octet < 0x80 then some 0
    else if octet / 32 = 6 then some 1
    else if octet / 16 = 14 then some 2
    else if octet / 8 = 30 then some 3
    else none
  (escapedTail more rest).map fun (octets, rest) => (octet :: octets, rest)

def tagOctets (bracketed : Bool) (before : List UInt8) :
    List Char → Option (List UInt8 × List Char)
  | [] => some (before.reverse, [])
  | c :: rest =>
    if c = '%' then
      match escapedChar (c :: rest) with
      | none => none
      | some (octets, after) =>
        if after.length ≤ rest.length then
          tagOctets bracketed (octets.reverse ++ before) after
        else none
    else if isTagChar bracketed c then
      tagOctets bracketed (.ofNat c.toNat :: before) rest
    else
      some (before.reverse, c :: rest)
termination_by cs => cs.length

/-- Reads a handle after its first mark. Without a second mark it is no more than the start of a
tag. -/
def tagHandle (cs : List Char) : List Char × Bool × List Char :=
  let word := cs.takeWhile isWordChar
  match cs.dropWhile isWordChar with
  | '!' :: rest => (word, true, rest)
  | rest => (word, false, rest)

def tagName : List Char → Option (TagName × List Char)
  | '<' :: rest =>
    match tagOctets true [] rest with
    | some (octets, '>' :: rest) =>
      if octets.isEmpty then none else some (⟨"", .ofOctets octets⟩, rest)
    | _ => none
  | cs =>
    match tagHandle cs with
    | (word, true, rest) => do
      let (octets, rest) ← tagOctets false [] rest
      if octets.isEmpty then none
      else some (⟨.ofList ('!' :: word ++ ['!']), .ofOctets octets⟩, rest)
    | (word, false, rest) => do
      let (octets, rest) ← tagOctets false (word.map fun c => .ofNat c.toNat).reverse rest
      let suffix := Tag.ofOctets octets
      if suffix.isEmpty then some (⟨"", .ofString "!"⟩, rest) else some (⟨"!", suffix⟩, rest)

def versionNumber (cs : List Char) : Option (Nat × List Char) :=
  let digits := cs.takeWhile Char.isDigit
  if digits.isEmpty || 9 < digits.length then none
  else some (digits.foldl (fun n c => 10 * n + (c.toNat - '0'.toNat)) 0, cs.dropWhile Char.isDigit)

def directive (cs : List Char) : Option (Directive × List Char) := do
  let name := String.ofList (cs.takeWhile isWordChar)
  let rest := cs.dropWhile isWordChar
  if !startsBlank rest then none
  else if name = "YAML" then
    let (major, rest) ← versionNumber (rest.dropWhile isSpace)
    match rest with
    | '.' :: rest =>
      let (minor, rest) ← versionNumber rest
      return (.version major minor, rest)
    | _ => none
  else if name = "TAG" then
    match rest.dropWhile isSpace with
    | '!' :: rest =>
      let (word, closed, rest) := tagHandle rest
      if !closed && !word.isEmpty then none
      else if !(rest.head?.any isSpace) then none
      else
        let (start, rest) ← tagOctets true [] (rest.dropWhile isSpace)
        if start.isEmpty || !startsBlank rest then none
        else
          let handle := '!' :: word ++ (if closed then ['!'] else [])
          return (.tagHandle (.ofList handle) (.ofOctets start), rest)
    | _ => none
  else none

end SchemaQuery.Yaml
