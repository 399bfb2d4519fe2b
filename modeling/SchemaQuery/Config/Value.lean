import SchemaQuery.Yaml.Tree

namespace SchemaQuery.Yaml

def boolTag : Tag := .ofString "tag:yaml.org,2002:bool"

def intTag : Tag := .ofString "tag:yaml.org,2002:int"

def nullTag : Tag := .ofString "tag:yaml.org,2002:null"

/-- Whether a scalar with this tag and style may be a value of the type that `type` names. -/
def isTyped (type : Tag) (tag : Option Tag) (style : Style) : Bool :=
  style = .plain || (style = .literal && tag = some type)

def isNullText (text : String) : Bool :=
  text ∈ ["null", "Null", "NULL", "~"]

def digits? (base : Nat) (cs : List Char) : Option Nat :=
  if cs.isEmpty then none
  else
    cs.foldlM (fun n c => do
      let d ← hexValue? c
      if d < base then some (base * n + d) else none) 0

/-- The number that a text stands for: decimal without needless zeros, or in another base after its
mark. A plus sign may stand before it. -/
def number? (cs : List Char) : Option Nat :=
  let cs := match cs with
    | '+' :: rest => rest
    | cs => cs
  match cs with
  | '0' :: 'x' :: rest => digits? 16 rest
  | '0' :: 'o' :: rest => digits? 8 rest
  | '0' :: 'b' :: rest => digits? 2 rest
  | '0' :: _ :: _ => none
  | cs => digits? 10 cs

namespace Tree

def bool? : Tree → Option Bool
  | .scalar tag style text =>
    if isTyped boolTag tag style then
      if text ∈ ["true", "True", "TRUE"] then some true
      else if text ∈ ["false", "False", "FALSE"] then some false
      else none
    else none
  | _ => none

def number? (bound : Nat) : Tree → Option Nat
  | .scalar tag style text =>
    if isTyped intTag tag style then
      (Yaml.number? text.toList).filter (· < bound)
    else none
  | _ => none

/-- Whether a node stands for no value. Nothing is known of a node that has the tag of such nodes
but another text. -/
def isAbsent? : Tree → Option Bool
  | .scalar none .plain text => some (text.isEmpty || isNullText text)
  | .scalar (some tag) .plain text =>
    if tag = nullTag then if isNullText text then some true else none else some false
  | _ => some false

def optionalNumber? (bound : Nat) (t : Tree) : Option (Option Nat) :=
  match t.isAbsent? with
  | none => none
  | some true => some none
  | some false => (t.number? bound).map some

def choice? : Tree → Option String
  | .scalar tag style text =>
    match localName? tag with
    | none => some text
    | some name =>
      if style = .plain && (text.isEmpty || isNullText text) then some name else none
  | _ => none
where
  localName? (tag : Option Tag) : Option String :=
    match (tag.bind Tag.text?).map String.toList with
    | some ['!'] => some "!"
    | some ('!' :: name) => some (.ofList name)
    | _ => none

end Tree

/-- The fields of a mapping by name; a blank node has none. Of the known names each may stand there
once. -/
def Document.fields? (d : Document) (known : List String) (t : Tree) :
    Option (List (String × Tree)) :=
  match d.follow t with
  | .scalar _ style text => if style = .plain && text.isEmpty then some [] else none
  | .mapping entries => do
    let fields ← entries.mapM fun (name, value) =>
      match d.follow name with
      | .scalar _ _ name => some (name, d.follow value)
      | _ => none
    if ((fields.map (·.1)).filter (· ∈ known)).Nodup then some fields else none
  | _ => none

end SchemaQuery.Yaml
