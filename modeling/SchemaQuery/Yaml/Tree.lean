import SchemaQuery.Yaml.Tokens

/-!
Documents: what the tokens of a text form.

A document is a tree of nodes. Nodes that carry an anchor are kept beside it, and an alias is a
reference to one of them, so that a document in which a node contains itself is finite.
-/
namespace SchemaQuery.Yaml

inductive Tree where
  | scalar (tag : Option Tag) (style : Style) (text : String)
  | sequence (items : List Tree)
  | mapping (entries : List (Tree × Tree))
  /-- Stands for the anchored node with this number. -/
  | alias (number : Nat)
deriving Inhabited

def Tree.blank : Tree := .scalar none .plain ""

/-- The anchors of a document as far as it is read.

The number of an anchor is how many names are known when it is met. A name that is used again counts
once, so the next anchor may have the same number; of the nodes with one number the last to start
is meant. -/
structure Anchors where
  names : List (String × Nat)
  /-- The nodes with an anchor, the last to start first. An unfinished node is blank. -/
  trees : List (Nat × Tree)

namespace Anchors

def none : Anchors := ⟨[], []⟩

def declare (a : Anchors) : Option String → Anchors
  | .none => a
  | some name =>
    let number := a.names.length
    ⟨(name, number) :: a.names.filter fun (other, _) => other ≠ name, (number, .blank) :: a.trees⟩

def keep (a before : Anchors) (name : Option String) (t : Tree) : Anchors :=
  match name with
  | .none => a
  | some _ =>
    let later := a.trees.length - (before.trees.length + 1)
    { a with trees := a.trees.set later (before.names.length, t) }

end Anchors

structure Document where
  root : Tree
  anchored : List (Nat × Tree)

def Document.follow (d : Document) : Tree → Tree
  | .alias number => (d.anchored.lookup number).getD .blank
  | t => t

abbrev Handles := List (String × Tag)

namespace Handles

def standard : Handles := [("!", .ofString "!"), ("!!", .ofString "tag:yaml.org,2002:")]

def expand? (handles : Handles) (name : TagName) : Option Tag :=
  if name.handle.isEmpty then some name.suffix
  else (handles.lookup name.handle).map fun start => start.append name.suffix

end Handles

/-- Whether an item of a block sequence ends before a token. A sequence that is not indented also
ends at the next part of the mapping around it. -/
def endsItem (inMapping : Bool) : Token → Bool
  | .blockEntry | .blockEnd => true
  | .key | .value => inMapping
  | _ => false

def endsBlockPart : Token → Bool
  | .key | .value | .blockEnd => true
  | _ => false

def endsFlowValue (close : Token) : Token → Bool
  | .flowEntry => true
  | t => t = close

def endsFlowKey (close : Token) : Token → Bool
  | .value | .flowEntry => true
  | t => t = close

/-- A part of a document with the anchors known after it and the tokens that are left. -/
abbrev Part (α : Type) := Option (α × Anchors × List Token)

mutual

/-- Reads a node. `block` allows block collections, and `dashes` also a sequence that is not
indented. -/
def node (handles : Handles) (block dashes : Bool) (anchor : Option String) (tag : Option Tag)
    (a : Anchors) (ts : List Token) : Part Tree :=
  let inner := a.declare anchor
  let finish (part : Part Tree) : Part Tree :=
    part.map fun (t, after, rest) => (t, after.keep a anchor t, rest)
  let bare :=
    if anchor.isSome || tag.isSome then finish (some (.scalar tag .plain "", inner, ts)) else none
  match ts with
  | .alias name :: rest =>
    if anchor.isSome || tag.isSome then bare
    else (a.names.lookup name).map fun number => (.alias number, a, rest)
  | .anchor name :: rest =>
    if anchor.isSome then bare else node handles block dashes (some name) tag a rest
  | .tag name :: rest =>
    if tag.isSome then bare
    else
      match handles.expand? name with
      | none => none
      | some tag => node handles block dashes anchor (some tag) a rest
  | .scalar style text :: rest => finish (some (.scalar tag style text, inner, rest))
  | .flowSequenceStart :: rest =>
    finish ((flowItems handles true inner rest).map fun (items, r) => (.sequence items, r))
  | .flowMappingStart :: rest =>
    finish ((flowEntries handles true inner rest).map fun (entries, r) => (.mapping entries, r))
  | .blockSequenceStart :: .blockEntry :: rest =>
    if block then
      finish ((blockItems handles false inner rest).map fun (items, r) => (.sequence items, r))
    else bare
  | .blockMappingStart :: rest =>
    if block then
      finish ((blockEntries handles inner rest).map fun (entries, r) => (.mapping entries, r))
    else bare
  | .blockEntry :: rest =>
    if dashes then
      finish ((blockItems handles true inner rest).map fun (items, r) => (.sequence items, r))
    else bare
  | _ => bare
termination_by (ts.length, 0)

def optionalNode (handles : Handles) (block dashes : Bool) (ends : Token → Bool) (a : Anchors)
    (ts : List Token) : Part Tree :=
  if ts.head?.any ends then some (.blank, a, ts) else node handles block dashes none none a ts
termination_by (ts.length, 1)

def entryValue (handles : Handles) (block : Bool) (ends : Token → Bool) (a : Anchors)
    (ts : List Token) : Part Tree :=
  match ts with
  | .value :: rest => optionalNode handles block block ends a rest
  | _ => some (.blank, a, ts)
termination_by (ts.length, 2)

def blockItems (handles : Handles) (inMapping : Bool) (a : Anchors) (ts : List Token) :
    Part (List Tree) :=
  match optionalNode handles true false (endsItem inMapping) a ts with
  | none => none
  | some (item, a, .blockEntry :: rest) =>
    if rest.length < ts.length then
      (blockItems handles inMapping a rest).map fun (items, r) => (item :: items, r)
    else none
  | some (item, a, rest) =>
    if inMapping then some ([item], a, rest)
    else
      match rest with
      | .blockEnd :: rest => some ([item], a, rest)
      | _ => none
termination_by (ts.length, 2)

def blockEntries (handles : Handles) (a : Anchors) (ts : List Token) :
    Part (List (Tree × Tree)) :=
  match ts with
  | .blockEnd :: rest => some ([], a, rest)
  | .key :: rest =>
    match optionalNode handles true true endsBlockPart a rest with
    | none => none
    | some (key, a, after) =>
      if after.length ≤ rest.length then
        match entryValue handles true endsBlockPart a after with
        | none => none
        | some (value, a, after) =>
          if after.length ≤ rest.length then
            (blockEntries handles a after).map fun (entries, r) => ((key, value) :: entries, r)
          else none
      else none
  | _ => none
termination_by (ts.length, 0)

def flowItems (handles : Handles) (first : Bool) (a : Anchors) (ts : List Token) :
    Part (List Tree) :=
  match ts with
  | .flowSequenceEnd :: rest => some ([], a, rest)
  | .flowEntry :: rest => if first then none else flowItem handles a rest
  | ts => if first then flowItem handles a ts else none
termination_by (ts.length, 2)

/-- Reads an item of a flow sequence and those after it. A mapping of one entry needs no brackets
there, but if its key is left out then so is the token after it. -/
def flowItem (handles : Handles) (a : Anchors) (ts : List Token) : Part (List Tree) :=
  match ts with
  | .flowSequenceEnd :: rest => some ([], a, rest)
  | .key :: rest =>
    let key :=
      if rest.head?.any (endsFlowKey .flowSequenceEnd) then some (.blank, a, rest.drop 1)
      else node handles false false none none a rest
    match key with
    | none => none
    | some (key, a, after) =>
      if after.length ≤ rest.length then
        match entryValue handles false (endsFlowValue .flowSequenceEnd) a after with
        | none => none
        | some (value, a, after) =>
          if after.length ≤ rest.length then
            (flowItems handles false a after).map fun (items, r) =>
              (.mapping [(key, value)] :: items, r)
          else none
      else none
  | ts =>
    match node handles false false none none a ts with
    | none => none
    | some (item, a, after) =>
      if after.length < ts.length then
        (flowItems handles false a after).map fun (items, r) => (item :: items, r)
      else none
termination_by (ts.length, 1)

def flowEntries (handles : Handles) (first : Bool) (a : Anchors) (ts : List Token) :
    Part (List (Tree × Tree)) :=
  match ts with
  | .flowMappingEnd :: rest => some ([], a, rest)
  | .flowEntry :: rest => if first then none else flowEntry handles a rest
  | ts => if first then flowEntry handles a ts else none
termination_by (ts.length, 2)

def flowEntry (handles : Handles) (a : Anchors) (ts : List Token) :
    Part (List (Tree × Tree)) :=
  match ts with
  | .flowMappingEnd :: rest => some ([], a, rest)
  | .key :: rest =>
    match optionalNode handles false false (endsFlowKey .flowMappingEnd) a rest with
    | none => none
    | some (key, a, after) =>
      if after.length ≤ rest.length then
        match entryValue handles false (endsFlowValue .flowMappingEnd) a after with
        | none => none
        | some (value, a, after) =>
          if after.length ≤ rest.length then
            (flowEntries handles false a after).map fun (entries, r) =>
              ((key, value) :: entries, r)
          else none
      else none
  | ts =>
    match node handles false false none none a ts with
    | none => none
    | some (key, a, after) =>
      if after.length < ts.length then
        (flowEntries handles false a after).map fun (entries, r) => ((key, .blank) :: entries, r)
      else none
termination_by (ts.length, 1)

end

/-- Reads the directives before a document: the handles that they name, and whether there was one
about the version. -/
def directives (versioned : Bool) (handles : Handles) :
    List Token → Option (Handles × List Token)
  | .directive (.version major minor) :: rest =>
    if !versioned && major = 1 && (minor = 1 || minor = 2) then directives true handles rest
    else none
  | .directive (.tagHandle handle start) :: rest =>
    if (handles.lookup handle).isSome then none
    else directives versioned ((handle, start) :: handles) rest
  | ts => some (handles, ts)

def endsDocument : Token → Bool
  | .directive _ | .documentStart | .documentEnd => true
  | _ => false

namespace Document

def ofRoot : Part Tree → Option Document
  | none => none
  | some (root, a, rest) =>
    if rest.all (· = .documentEnd) then some ⟨root, a.trees⟩ else none

/-- The only document that tokens hold. Without any there is a blank one. -/
def ofTokens? : List Token → Option Document
  | [] => some ⟨.blank, []⟩
  | t :: rest => do
    let ts := t :: rest
    if startsAnnounced t then
      let (handles, rest) ← directives false [] ts
      match rest with
      | .documentStart :: rest =>
        let handles := handles ++ Handles.standard
        if rest.isEmpty then ofRoot (some (.blank, .none, []))
        else ofRoot (optionalNode handles true false endsDocument .none rest)
      | _ => none
    else
      ofRoot (node .standard true false none none .none ts)
where
  startsAnnounced : Token → Bool
  | .directive _ | .documentStart => true
  | _ => false

def parse? (text : String) : Option Document :=
  (tokens? text).bind ofTokens?

end Document

end SchemaQuery.Yaml
